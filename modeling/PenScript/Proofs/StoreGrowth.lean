import Mathlib
import PenScript.Proofs.Deeds
import PenScript.Proofs.Outlay

/-!
# What is never forgotten

A session forgets only when it is reset. Until then its store grows: a variable may
change its value and does not go away, and the body of a method stays what it was when
the method was defined. A second definition is refused, under whatever letter case, and
a run that is stopped somewhere has taken nothing back.

Nothing gets into the store from elsewhere. A body that is known has been read from
the lines of a submission, as the body of a method that is defined somewhere in them,
and the deed that made it known can be named: the method was unknown before it, and
there has been no reset since.

That no body is known from elsewhere has to be shown of all bodies at once, since a
stored body is executed later and might define something itself. It does not, because
methods do not stand inside methods.

## Main results

* `grows_runLines`: a run of lines makes the store grow, however it ends;
* `stored_of_runLines`: what is known after it was known before or is
  defined in the lines;
* `learned_of_live`: every body that is known was learned from a submission;
* `store_of_deeds`: what a history without a reset does to the store.
-/

namespace PenScript

open Exec

/-! ## Growing -/

/-- Whether one store still has everything that another had: each variable with
some value, and each method with the same body, under the name in lower case
that it is kept by. -/
structure Store.GrowsInto (before after : Store) : Prop where
  vars : ∀ name, before.vars.contains name = true → after.vars.contains name = true
  methods : ∀ key body, before.methods.bodies.get? key = some body →
    after.methods.bodies.get? key = some body

/-- Whether every method with its body is of a certain sort. -/
def Store.Stores (Known : String → List Stmt → Prop) (store : Store) : Prop :=
  ∀ key body, store.methods.bodies.get? key = some body → Known key body

namespace Store

theorem GrowsInto.refl (store : Store) : store.GrowsInto store :=
  ⟨fun _ hKnown => hKnown, fun _ _ hKnown => hKnown⟩

theorem GrowsInto.trans {first second third : Store} (hFirst : first.GrowsInto second)
    (hSecond : second.GrowsInto third) : first.GrowsInto third :=
  ⟨fun name hKnown => hSecond.vars name (hFirst.vars name hKnown),
    fun key body hKnown => hSecond.methods key body (hFirst.methods key body hKnown)⟩

theorem growsInto_assign (store : Store) (name : String) (value : Int32) :
    store.GrowsInto { store with vars := store.vars.insert name value } := by
  refine ⟨fun other hKnown => ?_, fun _ _ hKnown => hKnown⟩
  by_cases hSame : other = name
  · simp [NameMap.contains, hSame, NameMap.get?_insert_self]
  · simpa [NameMap.contains, NameMap.get?_insert_of_ne _ hSame] using hKnown

theorem bodies_of_define {methods extended : Methods} {name : String} {body : List Stmt}
    (hDefine : methods.define name body = some extended) :
    methods.bodies.get? (Text.lowercase name) = none ∧
      extended.bodies = methods.bodies.insert (Text.lowercase name) body := by
  unfold Methods.define at hDefine
  split at hDefine
  · cases hDefine
  · rename_i hFree
    cases hDefine
    exact ⟨by simpa [Methods.contains, Methods.get?] using hFree, rfl⟩

theorem growsInto_define (store : Store) {name : String} {body : List Stmt}
    {methods : Methods} (hDefine : store.methods.define name body = some methods) :
    store.GrowsInto { store with methods := methods } := by
  obtain ⟨hFree, hBodies⟩ := bodies_of_define hDefine
  refine ⟨fun _ hKnown => hKnown, fun key found hKnown => ?_⟩
  have hOther : key ≠ Text.lowercase name := by
    rintro rfl
    simp [hFree] at hKnown
  simpa [hBodies, NameMap.get?_insert_of_ne _ hOther] using hKnown

theorem Stores.define {store : Store} {Known : String → List Stmt → Prop}
    (hStores : store.Stores Known) {name : String} {body : List Stmt}
    {methods : Methods} (hDefine : store.methods.define name body = some methods)
    (hKnown : Known (Text.lowercase name) body) :
    { store with methods := methods }.Stores Known := by
  obtain ⟨-, hBodies⟩ := bodies_of_define hDefine
  intro key found hFound
  rw [hBodies] at hFound
  by_cases hSame : key = Text.lowercase name
  · rw [hSame, NameMap.get?_insert_self] at hFound
    cases hFound
    exact hSame ▸ hKnown
  · rw [NameMap.get?_insert_of_ne _ hSame] at hFound
    exact hStores key found hFound

end Store

section

variable {Known : String → List Stmt → Prop}

/-- Stores grow, and what they store is of a certain sort if everything
that is defined is. -/
def Law.growth (limits : Limits)
    (hInside : ∀ key body, Known key body →
      ∀ method ∈ Stmt.definitionsIn body, Known method.1 method.2) : Law limits where
  Good stmt := ∀ method ∈ stmt.definitions, Known method.1 method.2
  Holds machine := machine.store.Stores Known
  Ends before after := before.store.GrowsInto after.store
  Stops before _ after := before.store.GrowsInto after.store ∧ after.store.Stores Known
  refl _ := .refl _
  trans := .trans
  trans_stops hFirst hStops := ⟨hFirst.trans hStops.1, hStops.2⟩
  good_body hGood _ hInner _ hMem := hGood _ (Stmt.definitions_body hInner hMem)
  good_stored hHolds hFound stmt hStmt method hMem :=
    hInside _ _ (hHolds _ _ hFound) method
      (Stmt.mem_definitionsIn.mpr ⟨stmt, hStmt, hMem⟩)
  counted hHolds _ := ⟨hHolds, .refl _⟩
  exhausted _ hHolds _ := ⟨.refl _, hHolds⟩
  assigned name value hHolds := ⟨hHolds, Store.growsInto_assign _ name value⟩
  drawn hHolds _ _ := ⟨hHolds, .refl _⟩
  defined {_ name body _ _} hHolds hGood hDefine := by
    have hMethod : Known (Text.lowercase name) body :=
      hGood (Text.lowercase name, body)
        (by rw [Stmt.definitions]; exact List.mem_cons_self)
    exact ⟨hHolds.define hDefine hMethod, Store.growsInto_define _ hDefine⟩
  faulted _ hHolds _ := ⟨.refl _, hHolds⟩
  deepened _ hHolds := ⟨.refl _, hHolds⟩
  raised hHolds _ := ⟨.refl _, hHolds⟩
  gated _ hHolds := hHolds
  ungated _ hAfter hGrows := ⟨hAfter, hGrows⟩
  ungated_stops _ hStops := hStops
  called hHolds _ := hHolds
  returned _ hAfter hGrows := ⟨hAfter, hGrows⟩
  returned_stops _ hStops := hStops

theorem Law.growth_of_allows {limits : Limits} {hInside : ∀ key body, Known key body →
      ∀ method ∈ Stmt.definitionsIn body,
        Known method.1 method.2} {α : Type} {machine : Machine}
    {result : EStateM.Result Diagnostic Machine α}
    (hAllows : (Law.growth limits hInside).Allows machine result) :
    machine.store.GrowsInto (finalState result).store ∧
      (finalState result).store.Stores Known := by
  cases result with
  | ok value after => exact ⟨hAllows.2, hAllows.1⟩
  | error problem after => exact hAllows

/-- What is defined in lines gets into the store, and nothing is lost. -/
theorem runLines_stores (hInside : ∀ key body, Known key body →
      ∀ method ∈ Stmt.definitionsIn body, Known method.1 method.2) {session : Session}
    (hStores : session.store.Stores Known) {lines : List Line}
    (hDefined : ∀ method ∈ definedBy lines, Known method.1 method.2) :
    session.store.GrowsInto (session.runLines lines).session.store ∧
      (session.runLines lines).session.store.Stores Known := by
  have hObeys : (Law.growth session.limits hInside).Obeys
      (runItems session.limits (read .complete lines).items) := by
    refine Law.obeys_runItems _ (fun stmt hItem method hMem => ?_) fun _ _ _ hHolds =>
      ⟨.refl _, hHolds⟩
    have hStmt : stmt ∈ (read .complete lines).stmts :=
      List.mem_filterMap.mpr ⟨_, hItem, rfl⟩
    exact hDefined method (Stmt.mem_definitionsIn.mpr ⟨stmt, hStmt, hMem⟩)
  exact Law.growth_of_allows (hObeys session.machine hStores)

end

/-- **A run of lines makes the store grow**, however it ends. -/
theorem grows_runLines (session : Session) (lines : List Line) :
    session.store.GrowsInto (session.runLines lines).session.store :=
  (@runLines_stores (fun _ _ => True) (fun _ _ _ _ _ =>
    trivial) session (fun _ _ _ => trivial)
    lines fun _ _ => trivial).1

/-- So does the execution of any statements. -/
theorem grows_execAll (limits : Limits) (depth : Nat) (stmts : List Stmt)
    (machine : Machine) :
    machine.store.GrowsInto
      (finalState (Stmt.execAll limits (callAt limits depth) stmts machine)).store := by
  let law : Law limits := @Law.growth (fun _ _ => True) limits fun _ _ _ _ _ => trivial
  have hObeys : law.Obeys (Stmt.execAll limits (callAt limits depth) stmts) :=
    Law.obeys_execAll (law.obeys_callAt depth) stmts fun _ _ _ _ => trivial
  exact (Law.growth_of_allows (hObeys machine fun _ _ _ => trivial)).1

/-! ## Where methods come from -/

/-- Methods that lines define define no methods. -/
theorem definitionsIn_of_definedBy {lines : List Line} {key : String} {body : List Stmt}
    (hDefined : (key, body) ∈ definedBy lines) : Stmt.definitionsIn body = [] :=
  Stmt.definitionsIn_eq_nil_iff.mpr fun stmt hMem =>
    (definedBy_storable lines (key, body) hDefined stmt hMem).2

/-- Where every body has been read from lines, no method defines another. -/
theorem Store.plain_of_definedBy {store : Store}
    {Since : String → List Stmt → List Line → Prop}
    (hRead : store.Stores fun key body =>
      ∃ lines, Since key body lines ∧ (key, body) ∈ definedBy lines) :
    store.Stores fun _ body => Stmt.definitionsIn body = [] := by
  intro key body hFound
  obtain ⟨_, -, hDefined⟩ := hRead key body hFound
  exact definitionsIn_of_definedBy hDefined

/-- **What is known after a run** was known before or is defined in the lines, if no
method known before defines another. -/
theorem stored_of_runLines {session : Session}
    (hPlain : session.store.Stores fun _ body => Stmt.definitionsIn body = [])
    (lines : List Line) :
    (session.runLines lines).session.store.Stores fun key body =>
      session.store.methods.bodies.get? key = some body ∨
        (key, body) ∈ definedBy lines := by
  let Known (key : String) (body : List Stmt) : Prop := Stmt.definitionsIn body = [] ∧
    (session.store.methods.bodies.get? key = some body ∨ (key, body) ∈ definedBy lines)
  have hInside : ∀ key body, Known key body →
      ∀ method ∈ Stmt.definitionsIn body, Known method.1 method.2 := by
    intro key body hKnown method hMem
    rw [hKnown.1] at hMem
    cases hMem
  have hStart : session.store.Stores Known := fun key body hFound =>
    ⟨hPlain key body hFound, Or.inl hFound⟩
  have hDefined : ∀ method ∈ definedBy lines, Known method.1 method.2 :=
    fun method hMem =>
    ⟨definitionsIn_of_definedBy hMem, Or.inr hMem⟩
  intro key body hFound
  exact ((runLines_stores hInside hStart hDefined).2 key body hFound).2

/-- Whether a method has been known, with that body, ever since one of the deeds
submitted those lines, and not before. -/
def Session.Learned (session : Session) (deeds : List Deed) (key : String)
    (body : List Stmt) (lines : List Line) : Prop :=
  ∃ front deed back, deeds = front ++ deed :: back ∧ Deed.reset ∉ back ∧
    (session.live front).Submits deed lines ∧
    (session.live front).store.methods.bodies.get? key = none ∧
    (session.live (front ++ [deed])).store.methods.bodies.get? key = some body

theorem Session.Learned.snoc {session : Session} {deeds : List Deed} {key : String}
    {body : List Stmt} {lines : List Line}
    (hLearned : session.Learned deeds key body lines)
    {deed : Deed} (hOther : deed ≠ .reset) :
    session.Learned (deeds ++ [deed]) key body lines := by
  obtain ⟨front, first, back, rfl, hBack, hFirst⟩ := hLearned
  refine ⟨front, first, back ++ [deed], by simp, ?_, hFirst⟩
  simpa [hBack] using Ne.symm hOther

/-- **Every body that is known was learned from a submission**, where nothing
was known at first. -/
theorem learned_of_live {session : Session} (hEmpty : session.store = {})
    (deeds : List Deed) :
    (session.live deeds).store.Stores fun key body =>
      ∃ lines, session.Learned deeds key body lines ∧
        (key, body) ∈ definedBy lines := by
  induction deeds using List.reverseRecOn with
  | nil =>
      intro key body hFound
      rw [session.live_nil, hEmpty] at hFound
      cases hFound
  | append_singleton deeds deed ih =>
      intro key body hFound
      have hAfter := hFound
      rw [session.live_snoc] at hAfter
      rcases (session.live deeds).store_after deed with
        ⟨lines, hSubmits, hStore⟩ | ⟨hOther, hStore⟩ | ⟨-, hStore⟩
      · have hOther : deed ≠ .reset := by
          rintro rfl
          cases hSubmits
        rw [hStore] at hAfter
        cases hBefore : (session.live deeds).store.methods.bodies.get? key with
        | some known =>
            -- What was known before is the same body as now.
            have hSame :=
              (grows_runLines (session.live deeds) lines).methods key known hBefore
            rw [hAfter] at hSame
            cases hSame
            obtain ⟨source, hLearned, hDefined⟩ := ih key body hBefore
            exact ⟨source, hLearned.snoc hOther, hDefined⟩
        | none =>
            rcases stored_of_runLines (Store.plain_of_definedBy ih) lines key body
              hAfter with hKnown | hDefined
            · rw [hBefore] at hKnown
              cases hKnown
            · refine ⟨lines, ?_, hDefined⟩
              exact ⟨deeds, deed, [], rfl, List.not_mem_nil, hSubmits, hBefore, hFound⟩
      · rw [hStore] at hAfter
        obtain ⟨source, hLearned, hDefined⟩ := ih key body hAfter
        exact ⟨source, hLearned.snoc hOther, hDefined⟩
      · rw [hStore] at hAfter
        cases hAfter

/-! ## Histories -/

/-- A deed other than a reset makes the store grow. -/
theorem grows_after (session : Session) {deed : Deed} (hOther : deed ≠ .reset) :
    session.store.GrowsInto (session.after deed).store := by
  rcases session.store_after deed with ⟨lines, -, hStore⟩ | ⟨-, hStore⟩ | ⟨hReset, -⟩
  · rw [hStore]
    exact grows_runLines session lines
  · rw [hStore]
    exact .refl _
  · exact absurd hReset hOther

/-- So do deeds one after another. -/
theorem grows_live (session : Session) {deeds : List Deed}
    (hNoReset : Deed.reset ∉ deeds) :
    session.store.GrowsInto (session.live deeds).store := by
  induction deeds using List.reverseRecOn with
  | nil => exact .refl _
  | append_singleton deeds deed ih =>
      have hRest : Deed.reset ∉ deeds :=
        fun hMem => hNoReset (List.mem_append_left _ hMem)
      have hOther : deed ≠ .reset := by
        rintro rfl
        exact hNoReset (List.mem_append_right _ (List.mem_singleton_self _))
      rw [session.live_snoc]
      exact (ih hRest).trans (grows_after _ hOther)

/-- **What a history without a reset does to the store.** It grows: variables stay,
and so do methods with the bodies they have, however their names are spelled. And
whatever the session has been through before, every body that is known afterwards
is the body of a method that is defined in the lines of a submission, and has been
known ever since that. -/
theorem store_of_deeds {session : Session} {deeds : List Deed}
    (hNoReset : Deed.reset ∉ deeds) :
    session.store.GrowsInto (session.live deeds).store ∧
    (∀ name body, session.store.methods.get? name = some body →
      ∀ same, Text.lowercase same = Text.lowercase name →
        (session.live deeds).store.methods.get? same = some body) ∧
    ∀ (limits : Limits) (past : List Deed), session = ({ limits } : Session).live past →
      ∀ key body, (session.live deeds).store.methods.bodies.get? key = some body →
        ∃ lines, ({ limits } : Session).Learned (past ++ deeds) key body lines ∧
          (key, body) ∈ definedBy lines := by
  have hGrows := grows_live session hNoReset
  refine ⟨hGrows, ?spelled, ?learned⟩
  case spelled =>
    intro name body hKnown same hCase
    rw [Methods.get?, hCase]
    exact hGrows.methods _ body hKnown
  case learned =>
    intro limits past hPast key body hKnown
    have hLive : ({ limits } : Session).live (past ++ deeds) = session.live deeds := by
      rw [Session.live_append, ← hPast]
    have hLearned := @learned_of_live { limits } rfl (past ++ deeds)
    rw [hLive] at hLearned
    exact hLearned key body hKnown

/-- A method that is defined again in other letters, which is refused, and
a block left open. -/
theorem store_of_deeds_respelled :
    let past : List Deed := [.run "method Sq\ncircle 1\nendmethod"]
    let deeds : List Deed := [.run "method sQ\ncircle 2\nendmethod", .enter "loop 2"]
    let session := ({} : Session).live past
    let body : List Stmt := [.draw (.circle (.number 1)) ⟨2, "circle 1"⟩]
    Deed.reset ∉ deeds ∧ session.store.methods.get? "Sq" = some body ∧
      (session.runSource "method sQ\ncircle 2\nendmethod").result =
        .error ⟨.alreadyDefined "sQ", ⟨1, "method sQ"⟩⟩ ∧
      (session.live deeds).store.methods.get? "SQ" = some body ∧
      ∃ lines, ({} : Session).Learned (past ++ deeds) "sq" body lines ∧
        ("sq", body) ∈ definedBy lines := by
  intro past deeds session body
  have hNoReset : Deed.reset ∉ deeds := by simp [deeds]
  have hKnown : session.store.methods.get? "Sq" = some body := by cbv
  have hKey : session.store.methods.bodies.get? "sq" = some body := by cbv
  have hRefused : (session.runSource "method sQ\ncircle 2\nendmethod").result =
      .error ⟨.alreadyDefined "sQ", ⟨1, "method sQ"⟩⟩ := by cbv
  obtain ⟨hGrows, hSpelled, hLearned⟩ := @store_of_deeds session deeds hNoReset
  have hCase := hSpelled "Sq" body hKnown "SQ" (by cbv)
  have hSource := hLearned {} past rfl "sq" body (hGrows.methods "sq" body hKey)
  exact ⟨hNoReset, hKnown, hRefused, hCase, hSource⟩

end PenScript
