import Mathlib.Data.List.Dedup
import Mathlib.Data.List.Induction
import PenScript.Store

/-!
# The stores and their histories

What a store holds can be read off the history of what was put into it. A variable has
the value that it was given last, and its name is taken as written. A method has the
body of its first definition, and names that differ in nothing but case are one name.
So one store is told by the latest entry of a history and the other by the earliest,
and both are asked in the same way: by looking a name up in the history, from the
one end or from the other.

A store is shown as a listing in order of name. A listing is determined by what it
lists: there is one list that has each name once, with what the name stands for, and
in which the code points of names increase. So it cannot be told from a listing in what
order things were put in, nor in what order the store keeps them. Whichever way its
entries are put in order of name, equal names would be the only ones whose order was
left open, and there are none.

## Main results

* `NameMap.get?_insertAll`, `Methods.get?_defineAll`: look-up after a history;
* `Lists.unique`, `NameMap.eq_entries_of_perm`: there is one listing;
* `NameMap.lists_insertAll`: the listing of a map shows its history;
* `stores_of_histories`: variables and methods after any history.
-/

namespace PenScript

/-! ## Listings -/

/-- The numbers of the characters of a text. -/
def codePoints (text : String) : List Nat := text.toList.map Char.toNat

/-- Whether a list shows which names stand for what: it has each such name once, with
what the name stands for, in increasing order of code points. -/
structure Lists {α : Type} (listing : List (String × α))
    (StandsFor : String → α → Prop) : Prop where
  increasing : listing.Pairwise fun a b => codePoints a.1 < codePoints b.1
  mem_iff : ∀ name value, (name, value) ∈ listing ↔ StandsFor name value

private theorem map_toNat_lt_iff (first second : List Char) :
    first.map Char.toNat < second.map Char.toNat ↔ first < second := by
  induction first generalizing second with
  | nil => cases second <;> simp
  | cons c first ih =>
      cases second with
      | nil => simp
      | cons d second =>
          rw [List.map_cons, List.map_cons, List.cons_lt_cons_iff,
            List.cons_lt_cons_iff, ih, Char.toNat_inj]
          exact Iff.rfl

/-- Texts are ordered by their code points. -/
theorem codePoints_lt_iff {first second : String} :
    codePoints first < codePoints second ↔ first < second := by
  rw [codePoints, codePoints, map_toNat_lt_iff, String.lt_iff]

namespace NameMap

variable {α : Type}

/-- The entries of a map are a listing of what look-up finds. -/
theorem lists_entries (map : NameMap α) :
    Lists map.entries fun name value => map.get? name = some value :=
  ⟨map.ordered.imp codePoints_lt_iff.mpr, fun _ _ => map.mem_entries_iff⟩

end NameMap

namespace Lists

variable {α : Type} {listing : List (String × α)} {StandsFor : String → α → Prop}

theorem ordered (hLists : Lists listing StandsFor) :
    listing.Pairwise fun a b => a.1 < b.1 :=
  hLists.increasing.imp codePoints_lt_iff.mp

/-- **There is one listing** of the same names with the same meaning. -/
theorem unique {other : List (String × α)} (hLists : Lists listing StandsFor)
    (hOther : Lists other StandsFor) : listing = other := by
  let first : NameMap α := ⟨listing, hLists.ordered⟩
  let second : NameMap α := ⟨other, hOther.ordered⟩
  have hSame : first = second := by
    refine NameMap.ext_get? fun name => Option.ext fun value => ?_
    rw [← NameMap.mem_entries_iff, ← NameMap.mem_entries_iff]
    exact (hLists.mem_iff name value).trans (hOther.mem_iff name value).symm
  exact congrArg NameMap.entries hSame

end Lists

namespace NameMap

variable {α : Type}

theorem names_increasing (map : NameMap α) :
    map.names.Pairwise fun a b => codePoints a < codePoints b :=
  List.pairwise_map.mpr map.lists_entries.increasing

theorem names_nodup (map : NameMap α) : map.names.Nodup := by
  refine map.names_increasing.imp fun {a b} hLess hSame => ?_
  rw [codePoints_lt_iff, hSame] at hLess
  exact String.lt_irrefl b hLess

theorem mem_names_iff (map : NameMap α) (name : String) :
    name ∈ map.names ↔ map.contains name = true := by
  rw [contains, Option.isSome_iff_exists, names, List.mem_map]
  constructor
  · rintro ⟨⟨_, value⟩, hMem, rfl⟩
    exact ⟨value, map.mem_entries_iff.mp hMem⟩
  · rintro ⟨value, hFound⟩
    exact ⟨(name, value), map.mem_entries_iff.mpr hFound, rfl⟩

/-- **However the entries of a map are put in order of name**, they
come out the same. -/
theorem eq_entries_of_perm (map : NameMap α) {listing : List (String × α)}
    (hPerm : listing.Perm map.entries)
    (hOrder : listing.Pairwise fun a b => ¬codePoints b.1 < codePoints a.1) :
    listing = map.entries := by
  have hEntries : map.entries.Pairwise fun a b => ¬codePoints b.1 < codePoints a.1 :=
    map.lists_entries.increasing.imp fun hLess => List.not_lt.mpr (List.le_of_lt hLess)
  refine hPerm.eq_of_pairwise ?_ hOrder hEntries
  rintro ⟨name, value⟩ ⟨other, held⟩ hFirst hSecond hBelow hAbove
  -- Only equal names are in no order, and a name has one entry.
  rw [codePoints_lt_iff, String.not_lt] at hBelow hAbove
  obtain rfl : name = other := String.le_antisymm hBelow hAbove
  have hValue := map.mem_entries_iff.mp (hPerm.mem_iff.mp hFirst)
  rw [map.mem_entries_iff.mp hSecond] at hValue
  cases hValue
  rfl

/-! ## Insertions -/

/-- The map after insertions, one after another. -/
def insertAll (history : List (String × α)) : NameMap α :=
  history.foldl (fun map entry => map.insert entry.1 entry.2) empty

theorem insertAll_snoc (history : List (String × α)) (entry : String × α) :
    insertAll (history ++ [entry]) = (insertAll history).insert entry.1 entry.2 :=
  List.foldl_concat ..

/-- **The last insertion is felt**: a name is looked up from the end of the history. -/
theorem get?_insertAll (history : List (String × α)) (name : String) :
    (insertAll history).get? name = history.reverse.lookup name := by
  induction history using List.reverseRecOn with
  | nil => rfl
  | append_singleton history entry ih =>
      obtain ⟨key, value⟩ := entry
      rw [insertAll_snoc, List.reverse_append, List.reverse_singleton,
        List.singleton_append, List.lookup_cons]
      by_cases hSame : name = key
      · subst hSame
        rw [get?_insert_self, beq_self_eq_true]
      · rw [get?_insert_of_ne _ hSame, beq_false_of_ne hSame, ih]

theorem mem_names_insertAll (history : List (String × α)) (name : String) :
    name ∈ (insertAll history).names ↔ name ∈ history.map Prod.fst := by
  rw [mem_names_iff, contains, get?_insertAll, ← Option.ne_none_iff_isSome, ne_eq,
    List.lookup_eq_none_iff]
  simp

/-- There are as many names as different ones in the history. -/
theorem size_insertAll (history : List (String × α)) :
    (insertAll history).size = (history.map Prod.fst).dedup.length := by
  have hPerm : (insertAll history).names.Perm (history.map Prod.fst).dedup := by
    rw [List.perm_ext_iff_of_nodup (names_nodup _) (List.nodup_dedup _)]
    intro name
    rw [mem_names_insertAll, List.mem_dedup]
  rw [← hPerm.length_eq, names, List.length_map]
  rfl

end NameMap

/-! ## The variables of a history -/

/-- Whether a value is the one that a name was given last. -/
def LastGiven {α : Type} (history : List (String × α)) (name : String) (value : α) :
    Prop :=
  ∃ earlier later, history = earlier ++ (name, value) :: later ∧
    ∀ entry ∈ later, entry.1 ≠ name

theorem lookup_reverse_iff {α : Type} {history : List (String × α)} {name : String}
    {value : α} :
    history.reverse.lookup name = some value ↔ LastGiven history name value := by
  rw [List.lookup_eq_some_iff]
  constructor
  · rintro ⟨later, earlier, hSplit, hOther⟩
    refine ⟨earlier.reverse, later.reverse, ?_, fun entry hMem => ?_⟩
    · rw [← List.reverse_reverse history, hSplit]
      simp
    · exact (bne_iff_ne.mp (hOther entry (List.mem_reverse.mp hMem))).symm
  · rintro ⟨earlier, later, rfl, hOther⟩
    refine ⟨later.reverse, earlier.reverse, by simp, fun entry hMem => ?_⟩
    exact bne_iff_ne.mpr (hOther entry (List.mem_reverse.mp hMem)).symm

/-- **The listing of a map shows its history.** -/
theorem NameMap.lists_insertAll {α : Type} (history : List (String × α)) :
    Lists (insertAll history).entries (LastGiven history) := by
  have hLists := (insertAll history).lists_entries
  simp only [get?_insertAll, lookup_reverse_iff] at hLists
  exact hLists

/-! ## The methods of a history -/

namespace Methods

/-- The methods after definitions, one after another. A definition that is
refused changes nothing. -/
def defineAll (history : List (String × List Stmt)) : Methods :=
  history.foldl (fun methods entry =>
    (methods.define entry.1 entry.2).getD methods) empty

/-- Whether a body is that of the first definition under a name in lower case. -/
def FirstGiven (history : List (String × List Stmt)) (key : String) (body : List Stmt) :
    Prop :=
  ∃ earlier name later, history = earlier ++ (name, body) :: later ∧
    Text.lowercase name = key ∧
    ∀ entry ∈ earlier, Text.lowercase entry.1 ≠ key

/-- A definition counts where there was none. -/
theorem bodies_define (methods : Methods) (name : String) (body : List Stmt)
    (key : String) :
    ((methods.define name body).getD methods).bodies.get? key =
      (methods.bodies.get? key).or
        (if key = Text.lowercase name then some body else none) := by
  unfold define contains get?
  by_cases hSame : key = Text.lowercase name
  · subst hSame
    cases hKnown : methods.bodies.get? (Text.lowercase name) with
    | none => simp [NameMap.get?_insert_self]
    | some found => simp [hKnown]
  · cases hKnown : methods.bodies.get? (Text.lowercase name) with
    | none => simp [hSame, NameMap.get?_insert_of_ne]
    | some found => simp [hSame]

/-- **The first definition is felt**: a name is looked up from the start
of the history. -/
theorem bodies_defineAll (history : List (String × List Stmt)) (key : String) :
    (defineAll history).bodies.get? key =
      (history.map fun entry => (Text.lowercase entry.1, entry.2)).lookup key := by
  induction history using List.reverseRecOn with
  | nil => rfl
  | append_singleton history entry ih =>
      have hSnoc : defineAll (history ++ [entry]) =
          ((defineAll history).define entry.1 entry.2).getD (defineAll history) :=
        List.foldl_concat ..
      rw [hSnoc, bodies_define, ih, List.map_append, List.lookup_append]
      congr 1
      by_cases hSame : key = Text.lowercase entry.1
      · simp [hSame]
      · rw [if_neg hSame, List.map_singleton, List.lookup_cons, beq_false_of_ne hSame]
        rfl

theorem bodies_defineAll_iff {history : List (String × List Stmt)} {key : String}
    {body : List Stmt} :
    (defineAll history).bodies.get? key = some body ↔ FirstGiven history key body := by
  rw [bodies_defineAll, List.lookup_eq_some_iff]
  constructor
  · rintro ⟨front, back, hSplit, hOther⟩
    obtain ⟨earlier, rest, rfl, rfl, hRest⟩ := List.map_eq_append_iff.mp hSplit
    obtain ⟨⟨name, _⟩, later, rfl, hEntry, -⟩ := List.map_eq_cons_iff.mp hRest
    cases hEntry
    refine ⟨earlier, name, later, rfl, rfl, fun entry hMem => ?_⟩
    exact (bne_iff_ne.mp (hOther _ (List.mem_map_of_mem hMem))).symm
  · rintro ⟨earlier, name, later, rfl, rfl, hOther⟩
    refine ⟨_, _, List.map_append, List.forall_mem_map.mpr fun entry hMem => ?_⟩
    exact bne_iff_ne.mpr (hOther entry hMem).symm

theorem get?_defineAll {history : List (String × List Stmt)} {name : String}
    {body : List Stmt} :
    (defineAll history).get? name = some body ↔
      FirstGiven history (Text.lowercase name) body :=
  bodies_defineAll_iff

/-- A name in lower case is known if there was any definition under it. -/
theorem contains_bodies_defineAll (history : List (String × List Stmt)) (key : String) :
    (defineAll history).bodies.contains key = true ↔
      ∃ entry ∈ history, Text.lowercase entry.1 = key := by
  rw [NameMap.contains, bodies_defineAll, ← Option.ne_none_iff_isSome, ne_eq,
    List.lookup_eq_none_iff]
  simp only [List.forall_mem_map, bne_iff_ne, ne_eq, not_forall, not_not, exists_prop]
  exact exists_congr fun _ => and_congr_right fun _ => eq_comm

/-- A definition is taken if there was none before under the same name in lower case. -/
theorem isSome_define_iff (history : List (String × List Stmt)) (name : String)
    (body : List Stmt) :
    ((defineAll history).define name body).isSome = true ↔
      ∀ entry ∈ history, Text.lowercase entry.1 ≠ Text.lowercase name := by
  have hKnown : (defineAll history).contains name = true ↔
      ∃ entry ∈ history, Text.lowercase entry.1 = Text.lowercase name :=
    contains_bodies_defineAll history (Text.lowercase name)
  rw [← Option.ne_none_iff_isSome, ne_eq, define_eq_none_iff, hKnown]
  push Not
  rfl

end Methods

/-! ## Both stores -/

/-- **The stores are finite maps**, whatever has been put into them. A variable has the
value it was given last under exactly its name, and its name is listed once, with that
value, in increasing order of code points; the listing is as long as there are different
names, any way to put the entries in order of name leads to it, and histories with the
same last values leave the same variables. A method is defined by a definition if none
before it has the same name in lower case. It is then found under its name in whatever
case, with the body of that first definition, and the names in lower case are listed
once each, in increasing order. -/
theorem stores_of_histories :
    (∀ history : List (String × Int32),
      let vars : Variables := .insertAll history
      (∀ name value, vars.get? name = some value ↔ LastGiven history name value) ∧
      (∀ name, vars.get? name = none ↔ name ∉ history.map Prod.fst) ∧
      Lists vars.entries (LastGiven history) ∧
      vars.size = vars.entries.length ∧
      vars.size = (history.map Prod.fst).dedup.length ∧
      (∀ listing, listing.Perm vars.entries →
        (listing.Pairwise fun a b => ¬codePoints b.1 < codePoints a.1) →
          listing = vars.entries) ∧
      ∀ other, (∀ name value, LastGiven other name value ↔
        LastGiven history name value) →
        (NameMap.insertAll other).entries = vars.entries) ∧
    ∀ history : List (String × List Stmt),
      let methods := Methods.defineAll history
      (∀ name body, (methods.define name body).isSome = true ↔
        ∀ entry ∈ history, Text.lowercase entry.1 ≠ Text.lowercase name) ∧
      (∀ name body, methods.get? name = some body ↔
        Methods.FirstGiven history (Text.lowercase name) body) ∧
      (∀ name, methods.contains name = true ↔
        ∃ entry ∈ history, Text.lowercase entry.1 = Text.lowercase name) ∧
      (methods.names.Pairwise fun a b => codePoints a < codePoints b) ∧
      ∀ key, key ∈ methods.names ↔ ∃ entry ∈ history, Text.lowercase entry.1 = key := by
  constructor
  · intro history vars
    have hFound : ∀ name value, vars.get? name = some value ↔
        LastGiven history name value := by
      intro name value
      rw [NameMap.get?_insertAll, lookup_reverse_iff]
    have hUnknown : ∀ name, vars.get? name = none ↔ name ∉ history.map Prod.fst := by
      intro name
      rw [← NameMap.mem_names_insertAll, NameMap.mem_names_iff, NameMap.contains,
        Bool.not_eq_true, Option.isSome_eq_false_iff, Option.isNone_iff_eq_none]
    have hLists : Lists vars.entries (LastGiven history) :=
      NameMap.lists_insertAll history
    refine ⟨hFound, hUnknown, hLists, rfl, NameMap.size_insertAll history,
      fun _ => vars.eq_entries_of_perm, fun other hSame => ?_⟩
    obtain ⟨hIncreasing, hMem⟩ := NameMap.lists_insertAll other
    exact Lists.unique ⟨hIncreasing, fun name value =>
      (hMem name value).trans (hSame name value)⟩
      hLists
  · intro history methods
    refine ⟨Methods.isSome_define_iff history, fun _ _ => Methods.get?_defineAll,
      fun name => ?_, methods.bodies.names_increasing, fun key => ?_⟩
    · exact Methods.contains_bodies_defineAll history (Text.lowercase name)
    · exact (methods.bodies.mem_names_iff key).trans
        (Methods.contains_bodies_defineAll history key)

end PenScript
