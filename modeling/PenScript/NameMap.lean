/-!
# Maps from names

A finite map whose keys are texts, kept as a list of entries in strictly
increasing order of key. Since there is only one such list for each map, two
maps that answer every look-up alike are equal (`ext_get?`), and the entries in
order of name, which users are shown, are the representation itself.

Texts are ordered by the code points of their characters.

## Main results

* `get?_insert_self`, `get?_insert_of_ne`: an insertion is felt at its own name only;
* `mem_entries_iff`: the entries are exactly what look-up finds;
* `ext_get?`: a map is determined by look-up.
-/

namespace PenScript

/-- A finite map from texts, in order of key. -/
structure NameMap (α : Type) where
  entries : List (String × α)
  ordered : entries.Pairwise fun a b => a.1 < b.1

namespace NameMap

variable {α : Type}

/-- Puts an entry where it belongs, in place of an entry of the same name. -/
def insertEntry (name : String) (value : α) : List (String × α) → List (String × α)
  | [] => [(name, value)]
  | entry :: rest =>
      if name < entry.1 then (name, value) :: entry :: rest
      else if name = entry.1 then (name, value) :: rest
      else entry :: insertEntry name value rest

/-- An entry after an insertion is the new one or an old one. -/
theorem mem_insertEntry {name : String} {value : α} {entry : String × α}
    {entries : List (String × α)} (hMem : entry ∈ insertEntry name value entries) :
    entry = (name, value) ∨ entry ∈ entries := by
  induction entries with
  | nil => exact Or.inl (List.mem_singleton.mp hMem)
  | cons head rest ih =>
      rw [insertEntry] at hMem
      split at hMem
      · exact List.mem_cons.mp hMem
      · split at hMem
        · exact (List.mem_cons.mp hMem).imp_right (List.mem_cons_of_mem head)
        · rcases List.mem_cons.mp hMem with rfl | hRest
          · exact Or.inr List.mem_cons_self
          · exact (ih hRest).imp_right (List.mem_cons_of_mem head)

/-- Insertion keeps the order. -/
theorem insertEntry_ordered (name : String) (value : α) {entries : List (String × α)}
    (hOrdered : entries.Pairwise fun a b => a.1 < b.1) :
    (insertEntry name value entries).Pairwise fun a b => a.1 < b.1 := by
  induction entries with
  | nil => exact List.pairwise_singleton _ _
  | cons head rest ih =>
      obtain ⟨hHead, hRest⟩ := List.pairwise_cons.mp hOrdered
      rw [insertEntry]
      split
      · rename_i hBefore
        refine List.pairwise_cons.mpr ⟨fun entry hMem => ?_, hOrdered⟩
        rcases List.mem_cons.mp hMem with rfl | hLater
        · exact hBefore
        · exact String.lt_trans hBefore (hHead entry hLater)
      · split
        · rename_i hSame
          exact List.pairwise_cons.mpr ⟨fun entry hMem =>
            hSame ▸ hHead entry hMem, hRest⟩
        · rename_i hNotBefore hOther
          refine List.pairwise_cons.mpr ⟨fun entry hMem => ?_, ih hRest⟩
          rcases mem_insertEntry hMem with rfl | hLater
          · exact Classical.byContradiction fun hNotAfter =>
              hOther
                (String.le_antisymm (String.not_lt.mp hNotAfter)
                  (String.not_lt.mp hNotBefore))
          · exact hHead entry hLater

/-! ## Operations -/

/-- The map without entries. -/
def empty : NameMap α := ⟨[], List.Pairwise.nil⟩

instance : Inhabited (NameMap α) := ⟨empty⟩

/-- What a name stands for. -/
def get? (map : NameMap α) (name : String) : Option α := map.entries.lookup name

/-- Whether a name stands for something. -/
def contains (map : NameMap α) (name : String) : Bool := (map.get? name).isSome

/-- Makes a name stand for a value, whatever it stood for before. -/
def insert (map : NameMap α) (name : String) (value : α) : NameMap α :=
  ⟨insertEntry name value map.entries, insertEntry_ordered name value map.ordered⟩

/-- The names in increasing order. -/
def names (map : NameMap α) : List String := map.entries.map Prod.fst

/-- The number of names. -/
def size (map : NameMap α) : Nat := map.entries.length

/-- Whether there are no names. -/
def isEmpty (map : NameMap α) : Bool := map.entries.isEmpty

/-! ## Look-up -/

private theorem lookup_cons_self (name : String) (value : α)
    (entries : List (String × α)) :
    ((name, value) :: entries).lookup name = some value := by
  rw [List.lookup_cons, beq_self_eq_true]

private theorem lookup_cons_of_ne {name other : String} (hNe : other ≠ name) (value : α)
    (entries : List (String × α)) :
    ((name, value) :: entries).lookup other = entries.lookup other := by
  rw [List.lookup_cons, beq_false_of_ne hNe]

theorem lookup_insertEntry_self (name : String) (value : α)
    (entries : List (String × α)) :
    (insertEntry name value entries).lookup name = some value := by
  induction entries with
  | nil => exact lookup_cons_self name value []
  | cons head rest ih =>
      rw [insertEntry]
      split
      · exact lookup_cons_self name value _
      · split
        · exact lookup_cons_self name value rest
        · rename_i hOther
          exact (lookup_cons_of_ne hOther head.2 _).trans ih

theorem lookup_insertEntry_of_ne {name other : String} (hNe : other ≠ name) (value : α)
    (entries : List (String × α)) :
    (insertEntry name value entries).lookup other = entries.lookup other := by
  induction entries with
  | nil => exact lookup_cons_of_ne hNe value []
  | cons head rest ih =>
      rw [insertEntry]
      split
      · exact lookup_cons_of_ne hNe value _
      · split
        · rename_i hSame
          exact (lookup_cons_of_ne hNe value rest).trans
            (lookup_cons_of_ne (hSame ▸ hNe) head.2 rest).symm
        · obtain ⟨key, held⟩ := head
          rw [List.lookup_cons, List.lookup_cons, ih]

theorem get?_insert_self (map : NameMap α) (name : String) (value : α) :
    (map.insert name value).get? name = some value :=
  lookup_insertEntry_self name value map.entries

theorem get?_insert_of_ne (map : NameMap α) {name other : String} (hNe : other ≠ name)
    (value : α) : (map.insert name value).get? other = map.get? other :=
  lookup_insertEntry_of_ne hNe value map.entries

private theorem lookup_eq_some_of_mem {entries : List (String × α)}
    (hOrdered : entries.Pairwise fun a b => a.1 < b.1) {name : String} {value : α}
    (hMem : (name, value) ∈ entries) : entries.lookup name = some value := by
  induction entries with
  | nil => exact absurd hMem List.not_mem_nil
  | cons head rest ih =>
      obtain ⟨hHead, hRest⟩ := List.pairwise_cons.mp hOrdered
      rcases List.mem_cons.mp hMem with rfl | hLater
      · exact lookup_cons_self name value rest
      · have hNe : name ≠ head.1 := by
          rintro rfl
          exact String.lt_irrefl head.1 (hHead (head.1, value) hLater)
        exact (lookup_cons_of_ne hNe head.2 rest).trans (ih hRest hLater)

private theorem mem_of_lookup_eq_some {entries : List (String × α)} {name : String}
    {value : α}
    (hFound : entries.lookup name = some value) : (name, value) ∈ entries := by
  induction entries with
  | nil => cases hFound
  | cons head rest ih =>
      obtain ⟨key, held⟩ := head
      rw [List.lookup_cons] at hFound
      split at hFound
      · rename_i hEq
        cases hFound
        exact eq_of_beq hEq ▸ List.mem_cons_self
      · exact List.mem_cons_of_mem _ (ih hFound)

/-- The entries of a map are the names that stand for something, with
what they stand for. -/
theorem mem_entries_iff (map : NameMap α) {name : String} {value : α} :
    (name, value) ∈ map.entries ↔ map.get? name = some value :=
  ⟨lookup_eq_some_of_mem map.ordered, mem_of_lookup_eq_some⟩

private theorem entries_eq_of_mem_iff {front back : List (String × α)}
    (hFront : front.Pairwise fun a b => a.1 < b.1)
    (hBack : back.Pairwise fun a b => a.1 < b.1)
    (hSame : ∀ entry, entry ∈ front ↔ entry ∈ back) : front = back := by
  induction front generalizing back with
  | nil =>
      cases back with
      | nil => rfl
      | cons entry _ =>
          exact absurd ((hSame entry).mpr List.mem_cons_self) List.not_mem_nil
  | cons first frontRest ih =>
      cases back with
      | nil => exact absurd ((hSame first).mp List.mem_cons_self) List.not_mem_nil
      | cons second backRest =>
          obtain ⟨hFirst, hFrontRest⟩ := List.pairwise_cons.mp hFront
          obtain ⟨hSecond, hBackRest⟩ := List.pairwise_cons.mp hBack
          have hEq : first = second := by
            rcases List.mem_cons.mp ((hSame first).mp List.mem_cons_self)
              with hEq | hLater
            · exact hEq
            · rcases List.mem_cons.mp ((hSame second).mpr List.mem_cons_self)
                with hEq | hEarlier
              · exact hEq.symm
              · exact absurd
                  (String.lt_trans (hFirst second hEarlier) (hSecond first hLater))
                  (String.lt_irrefl first.1)
          subst hEq
          congr 1
          refine ih hFrontRest hBackRest fun entry => ⟨fun hMem => ?_, fun hMem => ?_⟩
          · have hThere := (hSame entry).mp (List.mem_cons_of_mem first hMem)
            rcases List.mem_cons.mp hThere with rfl | hIn
            · exact absurd (hFirst entry hMem) (String.lt_irrefl entry.1)
            · exact hIn
          · have hThere := (hSame entry).mpr (List.mem_cons_of_mem first hMem)
            rcases List.mem_cons.mp hThere with rfl | hIn
            · exact absurd (hSecond entry hMem) (String.lt_irrefl entry.1)
            · exact hIn

/-- **A map is determined by look-up.** -/
theorem ext_get? {left right : NameMap α}
    (hSame : ∀ name, left.get? name = right.get? name) :
    left = right := by
  have hEntries : left.entries = right.entries :=
    entries_eq_of_mem_iff left.ordered right.ordered fun entry => by
      obtain ⟨name, value⟩ := entry
      rw [mem_entries_iff, mem_entries_iff, hSame]
  cases left
  cases right
  cases hEntries
  rfl

end NameMap

end PenScript
