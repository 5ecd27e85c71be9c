import Mathlib
import PenScript.Proofs.Nesting

/-!
# The shape of trees

The trees that reading a script builds are much narrower than the type of statements.
A block stands inside another only where the rules of nesting allow it, so that no
more than five are inside each other: a conditional, a method in it, a conditional,
a loop and a conditional again. A statement says no more than its line can:
names are names, counts that are written out are not negative, a polygon has both
coordinates of every corner.

Faulty headers open blocks as well, to any depth, but such blocks are not part of a
tree. What is left of one is an unreadable line that stands where the block would.

All this is said of every statement of a tree at once. The statements are listed with
the kinds of the blocks around them, and what is asked of a statement depends on these
and on the line it comes from.

## Main results

* `length_le_five`: blocks that are inside each other by the rules are five at most;
* `Line.bears_sound`: what a line contributes stands where it may and says what it can;
* `sound_of_read`: so do all statements of the trees of a script.
-/

namespace PenScript

/-! ## Blocks inside each other -/

/-- Whether a block may stand inside of blocks of the given kinds, the
innermost first. -/
def BlockKind.MayStandIn (around : List BlockKind) : BlockKind → Prop
  | .conditional => around.head? ≠ some .conditional
  | .loop => .loop ∉ around
  | .method => .loop ∉ around ∧ .method ∉ around

/-- Whether each of some blocks, the innermost first, may stand inside of
those that follow. -/
def Stacked : List BlockKind → Prop
  | [] => True
  | kind :: around => kind.MayStandIn around ∧ Stacked around

/-- Where blocks are stacked, one loop and one method are the only ones that are no
conditionals, and between two conditionals there is one of these. -/
theorem count_of_stacked {kinds : List BlockKind} (hStacked : Stacked kinds) :
    kinds.count .loop ≤ 1 ∧ kinds.count .method ≤ 1 ∧
      kinds.count .conditional ≤ kinds.count .loop + kinds.count .method +
        if kinds.head? = some .conditional then 1 else 0 := by
  induction kinds with
  | nil => simp
  | cons kind around ih =>
      obtain ⟨hPlace, hAround⟩ := hStacked
      obtain ⟨hLoop, hMethod, hConditional⟩ := ih hAround
      cases kind with
      | conditional =>
          have hOther : around.head? ≠ some .conditional := hPlace
          rw [if_neg hOther] at hConditional
          simp
          omega
      | loop =>
          have hNone : around.count .loop = 0 := List.count_eq_zero_of_not_mem hPlace
          simp
          split at hConditional <;> omega
      | method =>
          have hNone : around.count .method = 0 :=
            List.count_eq_zero_of_not_mem hPlace.2
          simp
          split at hConditional <;> omega

theorem length_eq_counts (kinds : List BlockKind) :
    kinds.length = kinds.count .conditional + kinds.count .loop +
      kinds.count .method := by
  induction kinds with
  | nil => rfl
  | cons kind around ih =>
      rw [List.length_cons, ih]
      cases kind <;> simp <;> omega

/-- **No more than five blocks are inside each other.** -/
theorem length_le_five {kinds : List BlockKind} (hStacked : Stacked kinds) :
    kinds.length ≤ 5 := by
  obtain ⟨hLoop, hMethod, hConditional⟩ := count_of_stacked hStacked
  have hLength := length_eq_counts kinds
  split at hConditional <;> omega

/-! ## Statements and the blocks around them -/

/-- A statement with the kinds of the blocks around it, the innermost first. -/
structure Placement where
  around : List BlockKind
  stmt : Stmt

namespace Stmt

/-- The kind of block that a statement is. -/
def block? : Stmt → Option BlockKind
  | branch _ _ _ => some .conditional
  | loop _ _ _ => some .loop
  | method _ _ _ => some .method
  | assign _ _ _ | draw _ _ | call _ _ | invalid _ _ => none

mutual

/-- A statement inside of blocks of the given kinds, and then all statements inside of
it, each before those of its body. -/
def placements : List BlockKind → Stmt → List Placement
  | around, branch condition body site =>
      ⟨around, branch condition body site⟩ :: placementsIn (.conditional :: around) body
  | around, loop count body site =>
      ⟨around, loop count body site⟩ :: placementsIn (.loop :: around) body
  | around, method name body site =>
      ⟨around, method name body site⟩ :: placementsIn (.method :: around) body
  | around, assign name value site => [⟨around, assign name value site⟩]
  | around, draw command site => [⟨around, draw command site⟩]
  | around, call name site => [⟨around, call name site⟩]
  | around, invalid problem gated => [⟨around, invalid problem gated⟩]

/-- Statements inside of blocks of the given kinds, and all statements
inside of them. -/
def placementsIn : List BlockKind → List Stmt → List Placement
  | _, [] => []
  | around, stmt :: rest => placements around stmt ++ placementsIn around rest

end

theorem mem_placementsIn {around : List BlockKind} {stmts : List Stmt}
    {place : Placement} :
    place ∈ placementsIn around stmts ↔
      ∃ stmt ∈ stmts, place ∈ placements around stmt := by
  induction stmts with
  | nil => simp [placementsIn]
  | cons stmt rest ih => simp [placementsIn, ih]

end Stmt

namespace Placement

/-- The kinds of the blocks that a statement is in or is itself, the innermost first. -/
def blocks (place : Placement) : List BlockKind :=
  place.stmt.block?.toList ++ place.around

end Placement

mutual

/-- Where every block may stand, the blocks are stacked all the way. -/
theorem Stmt.stacked_placements {around : List BlockKind} (hAround : Stacked around) :
    ∀ stmt : Stmt,
      (∀ place ∈ stmt.placements around, ∀ kind ∈ place.stmt.block?,
        kind.MayStandIn place.around) →
      ∀ place ∈ stmt.placements around, Stacked place.blocks
  | .assign _ _ _, _ | .draw _ _, _ | .call _ _, _ | .invalid _ _, _ => by
      intro place hMem
      rw [placements, List.mem_singleton] at hMem
      subst hMem
      exact hAround
  | .branch condition body site, hPlaces => by
      rw [placements] at hPlaces ⊢
      obtain ⟨hSelf, hBody⟩ := List.forall_mem_cons.mp hPlaces
      have hInside : Stacked (.conditional :: around) := ⟨hSelf _ rfl, hAround⟩
      exact List.forall_mem_cons.mpr ⟨hInside,
        Stmt.stacked_placementsIn hInside body hBody⟩
  | .loop count body site, hPlaces => by
      rw [placements] at hPlaces ⊢
      obtain ⟨hSelf, hBody⟩ := List.forall_mem_cons.mp hPlaces
      have hInside : Stacked (.loop :: around) := ⟨hSelf _ rfl, hAround⟩
      exact List.forall_mem_cons.mpr ⟨hInside,
        Stmt.stacked_placementsIn hInside body hBody⟩
  | .method name body site, hPlaces => by
      rw [placements] at hPlaces ⊢
      obtain ⟨hSelf, hBody⟩ := List.forall_mem_cons.mp hPlaces
      have hInside : Stacked (.method :: around) := ⟨hSelf _ rfl, hAround⟩
      exact List.forall_mem_cons.mpr ⟨hInside,
        Stmt.stacked_placementsIn hInside body hBody⟩

theorem Stmt.stacked_placementsIn {around : List BlockKind} (hAround : Stacked around) :
    ∀ stmts : List Stmt,
      (∀ place ∈ placementsIn around stmts, ∀ kind ∈ place.stmt.block?,
        kind.MayStandIn place.around) →
      ∀ place ∈ placementsIn around stmts, Stacked place.blocks
  | [], _ => by
      intro place hMem
      rw [placementsIn] at hMem
      cases hMem
  | stmt :: rest, hPlaces => by
      rw [placementsIn] at hPlaces ⊢
      obtain ⟨hFirst, hRest⟩ := List.forall_mem_append.mp hPlaces
      exact List.forall_mem_append.mpr ⟨Stmt.stacked_placements hAround stmt hFirst,
        Stmt.stacked_placementsIn hAround rest hRest⟩

end

/-! ## What a line can lead to -/

/-- Whether a statement says no more than a line can. -/
def Stmt.IsSaidBy (line : Line) : Stmt → Prop
  | assign name _ _ =>
      Text.isName name = true ∧ ∀ keyword : Keyword, Text.lowercase name ≠ keyword.text
  | draw command _ => command.IsWellCounted
  | loop (.number count) _ _ => 0 ≤ count.toInt
  | method name _ _ | call name _ => Text.isName name = true
  | invalid problem gated => problem.site = line.toSite ∧ gated = line.isGated
  | _ => True

/-- Whether a statement comes from one of some lines and, if it is a block,
stands where it may. -/
structure Placement.IsSound (lines : List Line) (place : Placement) : Prop where
  stands : ∀ kind ∈ place.stmt.block?, kind.MayStandIn place.around
  said : ∃ line ∈ lines, place.stmt.site = line.toSite ∧ place.stmt.IsSaidBy line

/-- Whether a statement and all statements inside of it are sound. -/
def Stmt.IsSound (lines : List Line) (around : List BlockKind) (stmt : Stmt) : Prop :=
  ∀ place ∈ stmt.placements around, place.IsSound lines

variable {lines : List Line} {line : Line} {around : List BlockKind}

theorem Line.Says.isSaidBy {stmt : Stmt} (hSays : line.Says stmt) :
    stmt.site = line.toSite ∧ stmt.IsSaidBy line := by
  cases hSays with
  | assign value hName hFree => exact ⟨rfl, hName, Keyword.text_ne_of_ofWord? hFree⟩
  | draw hWord hCounted => exact ⟨rfl, hCounted⟩
  | call hWord hName => exact ⟨rfl, hName⟩

/-- A statement without a body is sound if it comes from a line. -/
theorem Stmt.isSound_leaf {stmt : Stmt} (hBlock : stmt.block? = none)
    (hLine : line ∈ lines)
    (hSite : stmt.site = line.toSite) (hSaid : stmt.IsSaidBy line) :
    stmt.IsSound lines around := by
  have hSelf : Placement.IsSound lines ⟨around, stmt⟩ := by
    refine ⟨fun kind hKind => ?_, line, hLine, hSite, hSaid⟩
    rw [hBlock] at hKind
    cases hKind
  intro place hMem
  cases stmt with
  | assign | draw | call | invalid =>
      rw [placements, List.mem_singleton] at hMem
      exact hMem ▸ hSelf
  | branch | loop | method => cases hBlock

/-- A block is sound that stands where it may, if its body is. -/
theorem Stmt.isSound_block {stmt : Stmt} {kind : BlockKind}
    (hBlock : stmt.block? = some kind)
    (hPlace : kind.MayStandIn around) (hLine : line ∈ lines)
    (hSite : stmt.site = line.toSite)
    (hSaid : stmt.IsSaidBy line)
    (hBody : ∀ inner ∈ stmt.body, inner.IsSound lines (kind :: around)) :
    stmt.IsSound lines around := by
  have hSelf : Placement.IsSound lines ⟨around, stmt⟩ := by
    refine ⟨fun found hFound => ?_, line, hLine, hSite, hSaid⟩
    rw [hBlock, Option.mem_some_iff] at hFound
    exact hFound ▸ hPlace
  have hInside : ∀ place ∈ placementsIn (kind :: around) stmt.body,
      place.IsSound lines := by
    intro place hMem
    obtain ⟨inner, hInner, hPlaced⟩ := mem_placementsIn.mp hMem
    exact hBody inner hInner place hPlaced
  intro place hMem
  cases stmt with
  | branch | loop | method =>
      cases hBlock
      rw [placements] at hMem
      exact List.forall_mem_cons.mpr ⟨hSelf, hInside⟩ place hMem
  | assign | draw | call | invalid => cases hBlock

theorem Header.isSound_of_build {kind : BlockKind} {args : List String}
    {body : List Stmt}
    {stmt : Stmt} (hLine : line ∈ lines) (hOpens : kind.OpensIn around)
    (hBody : ∀ inner ∈ body, inner.IsSound lines (kind :: around))
    (hBuild : ((Header.read kind args).within around).build body line.toSite =
      .ok stmt) :
    stmt.IsSound lines around := by
  cases kind with
  | conditional =>
      cases hRead : readCondition args with
      | error fault =>
          rw [read, hRead] at hBuild
          cases hBuild
      | ok condition =>
          rw [read, hRead] at hBuild
          cases hBuild
          exact Stmt.isSound_block rfl (hOpens rfl) hLine rfl trivial hBody
  | loop =>
      simp only [read, within] at hBuild
      split at hBuild
      · cases hBuild
      · rename_i hPlace
        cases hRead : readCount args with
        | error fault =>
            rw [hRead] at hBuild
            cases hBuild
        | ok count =>
            rw [hRead] at hBuild
            cases hBuild
            refine Stmt.isSound_block rfl hPlace hLine rfl ?_ hBody
            cases count with
            | var name => trivial
            | number value => exact le_toInt_of_readCount _ hRead value rfl
  | method =>
      simp only [read, within] at hBuild
      split at hBuild
      · cases hBuild
      · rename_i hPlace
        cases hRead : readOnlyName (.opens .method) args with
        | error fault =>
            rw [hRead] at hBuild
            cases hBuild
        | ok name =>
            rw [hRead] at hBuild
            cases hBuild
            exact Stmt.isSound_block rfl (not_or.mp hPlace) hLine rfl
              (isName_of_readOnlyName hRead) hBody

/-- **What a line contributes stands where it may and says what it can.** -/
theorem Line.bears_sound (hLine : line ∈ lines) : line.Bears (Stmt.IsSound lines) := by
  have hSuits := Phrase.suits_ofLine line
  have hInvalid : ∀ (around : List BlockKind) (fault : Fault) (gated : Bool),
      gated = line.isGated →
        (Stmt.invalid ⟨fault, line.toSite⟩ gated).IsSound lines around :=
    fun _ _ _ hGated => Stmt.isSound_leaf rfl hLine rfl ⟨rfl, hGated⟩
  constructor
  case simple =>
    intro stmt around hPhrase
    rw [hPhrase] at hSuits
    obtain ⟨hSite, hSaid⟩ := hSuits.isSaidBy
    refine Stmt.isSound_leaf ?_ hLine hSite hSaid
    cases hSuits <;> rfl
  case faulty =>
    intro fault gated around hPhrase
    rw [hPhrase] at hSuits
    exact hInvalid around fault gated hSuits
  case opening =>
    intro header around hPhrase hOpens body hBody
    rw [hPhrase] at hSuits
    obtain ⟨hUngated, kind, rfl, -⟩ := hSuits
    rw [Header.kind_read] at hOpens
    have hKind : ((Header.read kind line.args).within around).kind = kind := by
      rw [Header.kind_within, Header.kind_read]
    constructor
    · unfold Frame.close
      split
      · rename_i stmt hBuild
        refine Header.isSound_of_build hLine hOpens (fun inner hMem => ?_) hBuild
        have hInner := hBody inner (Array.mem_toList_iff.mp hMem)
        rwa [Frame.kind, hKind] at hInner
      · exact hInvalid around _ false hUngated.symm
    · unfold Frame.abandon
      split
      · exact hInvalid around _ false hUngated.symm
      · exact hInvalid around _ false hUngated.symm
  case surplus =>
    intro kind fault around hPhrase
    rw [hPhrase] at hSuits
    exact hInvalid around fault false hSuits.1.symm
  case stray =>
    intro kind surplus around hPhrase
    rw [hPhrase] at hSuits
    exact hInvalid around _ false hSuits.1.symm

/-- **All statements of the trees of a script are sound.** No more than five blocks are
inside each other, and no tree is only an unreadable line. -/
theorem sound_of_read {ending : Ending} {source : String} {root : Stmt}
    (hRoot : Except.ok root ∈ (read ending (Line.ofSource source)).items) :
    (∀ problem gated, root ≠ .invalid problem gated) ∧
      ∀ place ∈ root.placements [],
        place.IsSound (Line.ofSource source) ∧ place.blocks.length ≤ 5 := by
  obtain ⟨found, hSound, hItem⟩ :=
    bears_read (fun line hLine => Line.bears_sound hLine) ending _ hRoot
  have hSame := Item.eq_of_ok_eq_ofStmt hItem
  subst hSame
  constructor
  · rintro problem gated rfl
    cases hItem
  · intro place hMem
    have hStacked : Stacked [] := trivial
    refine ⟨hSound place hMem, length_le_five ?_⟩
    exact Stmt.stacked_placements hStacked found (fun other hOther =>
      (hSound other hOther).stands)
      place hMem

/-- Five blocks inside each other, with a line in them that cannot be read. -/
theorem sound_of_read_five :
    let source :=
      "if 1 < 2\nmethod m\nif 1 < 2\nloop 3\nif 1 < 2\ncicle 1\nendloop\nendmethod"
    ∃ root, Except.ok root ∈ (read .complete (Line.ofSource source)).items ∧
      (∃ place ∈ root.placements [], place.blocks.length = 5) ∧
      ∀ place ∈ root.placements [],
        place.IsSound (Line.ofSource source) ∧ place.blocks.length ≤ 5 := by
  intro source
  let condition (number : Nat) : Line := ⟨⟨number, "if 1 < 2"⟩, "if", ["1", "<", "2"]⟩
  let lines : List Line :=
    [condition 1, ⟨⟨2, "method m"⟩, "method", ["m"]⟩, condition 3,
      ⟨⟨4, "loop 3"⟩, "loop", ["3"]⟩, condition 5, ⟨⟨6, "cicle 1"⟩, "cicle", ["1"]⟩,
      ⟨⟨7, "endloop"⟩, "endloop", []⟩, ⟨⟨8, "endmethod"⟩, "endmethod", []⟩]
  have hLines : Line.ofSource source = lines := by
    unfold source lines condition
    cbv
  let branch (number : Nat) (body : List Stmt) : Stmt :=
    .branch ⟨.number 1, .less, .number 2⟩ body ⟨number, "if 1 < 2"⟩
  let unreadable : Stmt := .invalid ⟨.unknownCommand "cicle", ⟨6, "cicle 1"⟩⟩ true
  let turns : Stmt := .loop (.number 3) [branch 5 [unreadable]] ⟨4, "loop 3"⟩
  let root : Stmt := branch 1 [.method "m" [branch 3 [turns]] ⟨2, "method m"⟩]
  have hItems : (read .complete lines).items = [.ok root] := by
    unfold root turns unreadable branch lines condition
    cbv
  have hRoot : Except.ok root ∈ (read .complete (Line.ofSource source)).items := by
    rw [hLines, hItems]
    exact List.mem_singleton_self _
  refine ⟨root, hRoot, ?_, (sound_of_read hRoot).2⟩
  refine ⟨⟨[.conditional, .loop, .conditional, .method, .conditional], unreadable⟩, ?_,
    rfl⟩
  simp [root, branch, turns, unreadable, Stmt.placements, Stmt.placementsIn]

end PenScript
