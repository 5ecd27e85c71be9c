import PenScript.Proofs.Reachable

/-!
# How blocks nest

Loops do not stand inside loops, and methods stand neither inside loops nor inside
methods. A header that is out of place is faulty, so no tree that is read from a
script breaks these rules, however deep its blocks.

For calls the rule on methods is the one that matters. The body of a method defines
no methods, so calling one leaves the methods as they are, and all methods there can
ever be are written in the scripts themselves.

## Main results

* `Stmt.Nests.definitions_eq_nil`: inside a method nothing is defined;
* `Heritable.definitions`: what a statement hands down, all bodies
  defined in it inherit;
* `nests_of_read`: the trees of a script nest as they should;
* `Session.Reachable.nests`: so do the bodies a session remembers, which
  are inside a method.
-/

namespace PenScript

namespace Stmt

mutual

/-- Whether loops and methods stand where they may in a statement that is inside blocks
of the given kinds, the innermost first. -/
def Nests : List BlockKind → Stmt → Prop
  | around, branch _ body _ => NestsAll (.conditional :: around) body
  | around, loop _ body _ => .loop ∉ around ∧ NestsAll (.loop :: around) body
  | around, method _ body _ =>
      .loop ∉ around ∧ .method ∉ around ∧ NestsAll (.method :: around) body
  | _, assign _ _ _ | _, draw _ _ | _, call _ _ | _, invalid _ _ => True

/-- Whether loops and methods stand where they may in each of some statements. -/
def NestsAll : List BlockKind → List Stmt → Prop
  | _, [] => True
  | around, stmt :: rest => Nests around stmt ∧ NestsAll around rest

end

mutual

/-- The methods defined anywhere in a statement: the name in lower
case, with the body. -/
def definitions : Stmt → List (String × List Stmt)
  | method name body _ => (Text.lowercase name, body) :: definitionsIn body
  | branch _ body _ | loop _ body _ => definitionsIn body
  | assign _ _ _ | draw _ _ | call _ _ | invalid _ _ => []

/-- The methods defined anywhere in a list of statements. -/
def definitionsIn : List Stmt → List (String × List Stmt)
  | [] => []
  | stmt :: rest => definitions stmt ++ definitionsIn rest

end

/-! ## Small laws -/

theorem nestsAll_iff {around : List BlockKind} {stmts : List Stmt} :
    NestsAll around stmts ↔ ∀ stmt ∈ stmts, Nests around stmt := by
  induction stmts with
  | nil => simp [NestsAll]
  | cons stmt rest ih => simp [NestsAll, ih]

theorem nests_invalid (around : List BlockKind) (problem : Diagnostic) (gated : Bool) :
    Nests around (invalid problem gated) := by
  unfold Nests
  trivial

theorem IsPlain.nests {stmt : Stmt} (hPlain : stmt.IsPlain) (around : List BlockKind) :
    Nests around stmt := by
  cases stmt with
  | assign | draw | call =>
      unfold Nests
      trivial
  | branch | loop | method | invalid => cases hPlain

theorem mem_definitionsIn {stmts : List Stmt} {definition : String × List Stmt} :
    definition ∈ definitionsIn stmts ↔
      ∃ stmt ∈ stmts, definition ∈ definitions stmt := by
  induction stmts with
  | nil => simp [definitionsIn]
  | cons stmt rest ih => simp [definitionsIn, ih]

theorem definitionsIn_eq_nil_iff {stmts : List Stmt} :
    definitionsIn stmts = [] ↔ ∀ stmt ∈ stmts, definitions stmt = [] := by
  induction stmts with
  | nil => simp [definitionsIn]
  | cons stmt rest ih => simp [definitionsIn, ih]

/-- What a body defines, the statement around it defines. -/
theorem definitions_body {stmt inner : Stmt} (hInner : inner ∈ stmt.body) :
    inner.definitions ⊆ stmt.definitions := by
  intro definition hMem
  have hBody : definition ∈ definitionsIn stmt.body :=
    mem_definitionsIn.mpr ⟨inner, hInner, hMem⟩
  cases stmt with
  | assign | draw | call | invalid => cases hInner
  | branch condition body site | loop count body site =>
      rw [definitions]
      exact hBody
  | method name body site =>
      rw [definitions]
      exact List.mem_cons_of_mem _ hBody

/-! ## Inside a method -/

mutual

/-- Inside a method nothing is defined. -/
theorem Nests.definitions_eq_nil {around : List BlockKind}
    (hInside : .method ∈ around) :
    ∀ stmt : Stmt, Nests around stmt → stmt.definitions = []
  | assign _ _ _, _ | draw _ _, _ | call _ _, _ | invalid _ _, _ => by rw [definitions]
  | branch _ body _, hNests => by
      rw [Nests] at hNests
      rw [definitions]
      exact NestsAll.definitionsIn_eq_nil (List.mem_cons_of_mem _ hInside) body hNests
  | loop _ body _, hNests => by
      rw [Nests] at hNests
      rw [definitions]
      exact NestsAll.definitionsIn_eq_nil (List.mem_cons_of_mem _ hInside) body hNests.2
  | method _ _ _, hNests => by
      rw [Nests] at hNests
      exact absurd hInside hNests.2.1

theorem NestsAll.definitionsIn_eq_nil {around : List BlockKind}
    (hInside : .method ∈ around) :
    ∀ stmts : List Stmt, NestsAll around stmts → definitionsIn stmts = []
  | [], _ => by rw [definitionsIn]
  | stmt :: rest, hNests => by
      rw [NestsAll] at hNests
      rw [definitionsIn, Nests.definitions_eq_nil hInside stmt hNests.1,
        NestsAll.definitionsIn_eq_nil hInside rest hNests.2, List.append_nil]

end

end Stmt

/-! ## The trees of a script -/

/-- A block with a header where it may stand nests as it should, if its body does. -/
theorem Header.nests_of_build {around : List BlockKind} {header : Header}
    {body : List Stmt}
    {site : Site} {stmt : Stmt} (hBody : Stmt.NestsAll (header.kind :: around) body)
    (hBuild : (header.within around).build body site = .ok stmt) :
    stmt.Nests around := by
  cases header with
  | conditional found =>
      cases found with
      | error fault => cases hBuild
      | ok condition =>
          cases hBuild
          rw [Stmt.Nests]
          exact hBody
  | loop found =>
      simp only [Header.within] at hBuild
      split at hBuild
      · cases hBuild
      · rename_i hPlace
        cases found with
        | error fault => cases hBuild
        | ok count =>
            cases hBuild
            rw [Stmt.Nests]
            exact ⟨hPlace, hBody⟩
  | method found =>
      simp only [Header.within] at hBuild
      split at hBuild
      · cases hBuild
      · rename_i hPlace
        cases found with
        | error fault => cases hBuild
        | ok name =>
            cases hBuild
            rw [Stmt.Nests]
            exact ⟨fun hLoop => hPlace (Or.inl hLoop), fun hMethod =>
              hPlace (Or.inr hMethod), hBody⟩

theorem Frame.bears_nests (around : List BlockKind) (header : Header) (site : Site) :
    Frame.Bears Stmt.Nests around { header := header.within around, site := site } := by
  intro body hBody
  constructor
  · unfold close
    split
    · rename_i stmt hBuild
      refine Header.nests_of_build (Stmt.nestsAll_iff.mpr fun inner hMem => ?_) hBuild
      have hInner := hBody inner (Array.mem_toList_iff.mp hMem)
      rwa [Frame.kind, Header.kind_within] at hInner
    · exact Stmt.nests_invalid _ _ _
  · unfold abandon
    split
    · exact Stmt.nests_invalid _ _ _
    · exact Stmt.nests_invalid _ _ _

theorem Line.bears_nests (line : Line) : line.Bears Stmt.Nests where
  simple around hPhrase := (Phrase.isPlain_of_simple hPhrase).nests around
  faulty _ _ := Stmt.nests_invalid _ _ _
  opening around _ _ := Frame.bears_nests around _ _
  surplus _ _ := Stmt.nests_invalid _ _ _
  stray _ _ := Stmt.nests_invalid _ _ _

/-- **The trees of a script nest as they should.** -/
theorem nests_of_read (lines : List Line) (ending : Ending) :
    ∀ item ∈ (read ending lines).items, ∃ stmt, stmt.Nests [] ∧ item = .ofStmt stmt :=
  bears_read (fun line _ => line.bears_nests) ending

/-! ## The methods of a session -/

section

variable {Good Kept : Stmt → Prop}

mutual

/-- The bodies of all methods defined in a statement inherit its property. -/
theorem Heritable.definitions (hHeritable : Heritable Good Kept) :
    ∀ stmt : Stmt, Good stmt → ∀ definition ∈ stmt.definitions,
      ∀ inner ∈ definition.2, Kept inner
  | .assign _ _ _, _ | .draw _ _, _ | .call _ _, _ | .invalid _ _, _ => by
      intro definition hMem
      rw [Stmt.definitions] at hMem
      cases hMem
  | .branch _ body _, hGood | .loop _ body _, hGood => by
      rw [Stmt.definitions]
      exact Heritable.definitionsIn hHeritable body (hHeritable.body hGood)
  | .method _ body _, hGood => by
      intro definition hMem
      rw [Stmt.definitions] at hMem
      rcases List.mem_cons.mp hMem with rfl | hInside
      · exact hHeritable.method hGood
      · exact Heritable.definitionsIn hHeritable body (hHeritable.body hGood)
          definition hInside

/-- The bodies of all methods defined in a list of statements inherit their property. -/
theorem Heritable.definitionsIn (hHeritable : Heritable Good Kept) :
    ∀ stmts : List Stmt, (∀ stmt ∈ stmts, Good stmt) →
      ∀ definition ∈ Stmt.definitionsIn stmts, ∀ inner ∈ definition.2, Kept inner
  | [], _ => by
      intro definition hMem
      rw [Stmt.definitionsIn] at hMem
      cases hMem
  | stmt :: rest, hGood => by
      obtain ⟨hFirst, hRest⟩ := List.forall_mem_cons.mp hGood
      intro definition hMem
      rw [Stmt.definitionsIn] at hMem
      rcases List.mem_append.mp hMem with hHere | hLater
      · exact Heritable.definitions hHeritable stmt hFirst definition hHere
      · exact Heritable.definitionsIn hHeritable rest hRest definition hLater

end

end

/-- Whether loops and methods stand where they may in a statement that
is inside a method. -/
def Stmt.NestsInMethod (stmt : Stmt) : Prop :=
  ∃ around, BlockKind.method ∈ around ∧ stmt.Nests around

theorem Stmt.nests_heritable : Heritable (fun stmt => ∃ around, stmt.Nests around)
    Stmt.NestsInMethod where
  body {stmt} hNests inner hInner := by
    obtain ⟨around, hNests⟩ := hNests
    cases stmt with
    | assign | draw | call | invalid => cases hInner
    | branch condition body site =>
        rw [Nests, nestsAll_iff] at hNests
        exact ⟨_, hNests inner hInner⟩
    | loop count body site =>
        rw [Nests, nestsAll_iff] at hNests
        exact ⟨_, hNests.2 inner hInner⟩
    | method name body site =>
        rw [Nests, nestsAll_iff] at hNests
        exact ⟨_, hNests.2.2 inner hInner⟩
  method hNests inner hInner := by
    obtain ⟨around, hNests⟩ := hNests
    rw [Nests, nestsAll_iff] at hNests
    exact ⟨_, List.mem_cons_self, hNests.2.2 inner hInner⟩
  good := fun ⟨around, _, hNests⟩ => ⟨around, hNests⟩

theorem Stmt.NestsInMethod.definitions_eq_nil {stmt : Stmt}
    (hNests : stmt.NestsInMethod) : stmt.definitions = [] := by
  obtain ⟨around, hInside, hNests⟩ := hNests
  exact Nests.definitions_eq_nil hInside stmt hNests

/-- **What a session remembers nests as the inside of a method should.** -/
theorem Session.Reachable.nests {session : Session} (hReachable : session.Reachable) :
    session.store.Keeps Stmt.NestsInMethod := by
  refine hReachable.store_of_runs Store.keeps_empty fun session lines hStore => ?_
  refine (runLines_inherits Stmt.nests_heritable hStore fun item hMem => ?_).1
  obtain ⟨stmt, hNests, hItem⟩ := nests_of_read lines .complete item hMem
  exact ⟨stmt, ⟨[], hNests⟩, hItem⟩

end PenScript
