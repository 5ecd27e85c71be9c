import PenScript.Proofs.Faults
import PenScript.Script

/-!
# What the trees of a script have in common

A property of statements is shown of everything that reading a script builds in
one way: it is shown of what each line says for itself, and of each block on the
assumption that it holds of the statements in its body. Which blocks a line ends,
and in which order, plays no part.

The property may depend on where a statement stands. It is asked together with the
kinds of the blocks around the statement, innermost first, and the kind of a block
is added to them for its body. Of a block that is opened one thing is known beforehand:
a conditional is never opened directly inside another.

## Main results

* `Assembly.Bears.opensIn_leaveConditional`: where a conditional is opened;
* `Assembly.Bears.feed`: taking a line into account keeps the property;
* `bears_read`: every item of a script is a statement that has it, or the failure
  such a statement stands for.
-/

namespace PenScript

/-! ## What becomes of a block -/

theorem Header.build_error {header : Header} {fault : Fault}
    (hFault : header.fault? = some fault)
    (body : List Stmt) (site : Site) : header.build body site = .error fault := by
  cases header with
  | conditional found | loop found | method found =>
      cases found with
      | ok _ => cases hFault
      | error other =>
          cases hFault
          rfl

/-- A block whose header is in order becomes a statement with the faults of its body. -/
theorem Header.build_ok {header : Header} (hFault : header.fault? = none)
    (body : List Stmt) (site : Site) :
    ∃ stmt, header.build body site = .ok stmt ∧ stmt.faults = Stmt.faultsIn body := by
  cases header with
  | conditional found | loop found | method found =>
      cases found with
      | ok _ => exact ⟨_, rfl, by rw [Stmt.faults]⟩
      | error _ => cases hFault

namespace Frame

theorem close_of_fault {frame : Frame} {fault : Fault}
    (hFault : frame.header.fault? = some fault) :
    frame.close =
      (.invalid ⟨fault, frame.site⟩ false, Stmt.faultsIn frame.body.toList) := by
  rw [close, Header.build_error hFault]

theorem close_of_none {frame : Frame} (hFault : frame.header.fault? = none) :
    ∃ stmt, frame.close = (stmt, []) ∧
      stmt.faults = Stmt.faultsIn frame.body.toList := by
  obtain ⟨stmt, hBuild, hSame⟩ := Header.build_ok hFault frame.body.toList frame.site
  exact ⟨stmt, by rw [close, hBuild], hSame⟩

theorem abandon_of_fault {frame : Frame} {fault : Fault}
    (hFault : frame.header.fault? = some fault) :
    frame.abandon = (.invalid ⟨fault, frame.site⟩ false,
      Stmt.faultsIn frame.body.toList ++ [⟨.neverClosed frame.kind, frame.site⟩]) := by
  rw [abandon, Header.build_error hFault]

theorem abandon_of_none {frame : Frame} (hFault : frame.header.fault? = none) :
    frame.abandon = (.invalid ⟨.neverClosed frame.kind, frame.site⟩ false,
      Stmt.faultsIn frame.body.toList) := by
  obtain ⟨stmt, hBuild, -⟩ := Header.build_ok hFault frame.body.toList frame.site
  rw [abandon, hBuild]

end Frame

/-! ## The kinds of the open blocks -/

namespace Assembly

theorem surroundings_place (assembly : Assembly) (stmt : Stmt) :
    (assembly.place stmt).surroundings = assembly.surroundings := by
  unfold place
  split
  · rfl
  · rename_i hOpen
    simp [surroundings, hOpen, Frame.kind]

theorem surroundings_pop (assembly : Assembly)
    (become : Frame → Stmt × List Diagnostic) :
    (assembly.pop become).surroundings = assembly.surroundings.tail := by
  unfold pop
  split
  · rename_i hNone
    simp [surroundings, hNone]
  · rename_i hOpen
    rw [surroundings_place]
    simp [surroundings, hOpen]

end Assembly

/-! ## Items as statements -/

theorem Item.faults_ofStmt (stmt : Stmt) : (Item.ofStmt stmt).faults = stmt.faults := by
  cases stmt <;> rfl

theorem Item.eq_of_ok_eq_ofStmt {stmt found : Stmt}
    (hItem : .ok stmt = Item.ofStmt found) : found = stmt := by
  cases found with
  | invalid problem gated => cases hItem
  | _ => exact Except.ok.inj hItem.symm

theorem Item.exists_of_error_eq_ofStmt {problem : Diagnostic} {found : Stmt}
    (hItem : .error problem = Item.ofStmt found) :
    ∃ gated, found = .invalid problem gated := by
  cases found with
  | invalid other gated => exact ⟨gated, by cases hItem; rfl⟩
  | _ => cases hItem

/-- What holds of the items, taken as statements, holds of the statements among them. -/
theorem Reading.forall_stmts {reading : Reading} {P : Stmt → Prop}
    (hItems : ∀ item ∈ reading.items, ∃ stmt, P stmt ∧ item = .ofStmt stmt) :
    ∀ stmt ∈ reading.stmts, P stmt := by
  intro stmt hMem
  obtain ⟨item, hItem, hStmt⟩ := List.mem_filterMap.mp hMem
  obtain ⟨found, hFound, hSame⟩ := hItems item hItem
  cases item with
  | error problem => cases hStmt
  | ok other =>
      cases hStmt
      exact Item.eq_of_ok_eq_ofStmt hSame ▸ hFound

/-! ## What lines bear -/

variable {P : List BlockKind → Stmt → Prop} {around : List BlockKind}

/-- Whether what becomes of a block has a property if the body has it
inside the block. -/
def Frame.Bears (P : List BlockKind → Stmt → Prop) (around : List BlockKind)
    (frame : Frame) : Prop :=
  ∀ body : Array Stmt, (∀ stmt ∈ body, P (frame.kind :: around) stmt) →
    P around { frame with body := body }.close.1 ∧
      P around { frame with body := body }.abandon.1

/-- Whether a block of some kind may be opened inside of blocks of the given
kinds, the innermost first. A conditional never is directly inside a conditional,
for it ends that one. -/
def BlockKind.OpensIn (around : List BlockKind) (kind : BlockKind) : Prop :=
  kind = .conditional → around.head? ≠ some .conditional

/-- Whether everything that a line can contribute has a property, wherever
the line stands. -/
structure Line.Bears (P : List BlockKind → Stmt → Prop) (line : Line) : Prop where
  simple {stmt : Stmt} (around : List BlockKind) : Phrase.ofLine line = .simple stmt →
    P around stmt
  faulty {fault : Fault} {gated : Bool} (around : List BlockKind) :
    Phrase.ofLine line = .faulty fault gated →
      P around (.invalid ⟨fault, line.toSite⟩ gated)
  opening {header : Header} (around : List BlockKind) : Phrase.ofLine line =
    .opening header →
    header.kind.OpensIn around →
    Frame.Bears P around { header := header.within around, site := line.toSite }
  surplus {kind : BlockKind} {fault : Fault} (around : List BlockKind) :
    Phrase.ofLine line = .closing kind (some fault) →
    P around (.invalid ⟨fault, line.toSite⟩ false)
  stray {kind : BlockKind} {surplus : Option Fault} (around : List BlockKind) :
    Phrase.ofLine line = .closing kind surplus →
    P around (.invalid ⟨.strayCloser kind, line.toSite⟩ false)

/-- Whether every statement in open blocks has a property, and every
block will have it. -/
def Frame.AllBear (P : List BlockKind → Stmt → Prop) : List Frame → Prop
  | [] => True
  | frame :: outer => frame.kind.OpensIn (outer.map Frame.kind) ∧
      frame.Bears P (outer.map Frame.kind) ∧
      (∀ stmt ∈ frame.body, P (frame.kind :: outer.map Frame.kind) stmt) ∧
        AllBear P outer

/-- Whether every statement of an assembly has a property, and every
block will have it. -/
structure Assembly.Bears (P : List BlockKind → Stmt → Prop) (assembly : Assembly) :
    Prop where
  frames : Frame.AllBear P assembly.frames
  items : ∀ item ∈ assembly.items, ∃ stmt, P [] stmt ∧ item = .ofStmt stmt

namespace Assembly.Bears

variable {assembly : Assembly}

theorem empty : Assembly.Bears P {} :=
  ⟨trivial, fun _ hMem => absurd hMem (Array.not_mem_empty _)⟩

theorem place (hBears : assembly.Bears P) {stmt : Stmt}
    (hStmt : P assembly.surroundings stmt) : (assembly.place stmt).Bears P := by
  have hFrames := hBears.frames
  cases hOpen : assembly.frames with
  | nil =>
      rw [surroundings, hOpen] at hStmt
      rw [place_of_nil hOpen]
      refine ⟨hFrames, fun item hMem => ?_⟩
      rcases Array.mem_push.mp hMem with hOld | rfl
      · exact hBears.items item hOld
      · exact ⟨stmt, hStmt, rfl⟩
  | cons frame outer =>
      rw [surroundings, hOpen] at hStmt
      rw [hOpen] at hFrames
      obtain ⟨hOpens, hFrame, hBody, hOuter⟩ := hFrames
      rw [place_of_cons hOpen]
      refine ⟨⟨hOpens, hFrame, fun other hMem => ?_, hOuter⟩, hBears.items⟩
      rcases Array.mem_push.mp hMem with hOld | rfl
      · exact hBody other hOld
      · exact hStmt

theorem note (hBears : assembly.Bears P) {fault : Option Fault} {site : Site}
    (hFault : ∀ found ∈ fault, ∀ around, P around (.invalid ⟨found, site⟩ false)) :
    (assembly.note fault site).Bears P := by
  cases fault with
  | none => exact hBears
  | some found => exact hBears.place (hFault found rfl _)

theorem pop (hBears : assembly.Bears P) {become : Frame → Stmt × List Diagnostic}
    (hBecome : ∀ (frame : Frame) around, frame.Bears P around →
      (∀ stmt ∈ frame.body, P (frame.kind :: around) stmt) →
        P around (become frame).1) :
    (assembly.pop become).Bears P := by
  have hFrames := hBears.frames
  cases hOpen : assembly.frames with
  | nil =>
      rw [Assembly.pop, hOpen]
      exact hBears
  | cons frame outer =>
      rw [hOpen] at hFrames
      obtain ⟨-, hFrame, hBody, hRest⟩ := hFrames
      have hOuter : Assembly.Bears P
          { assembly with
            frames := outer, dropped := assembly.dropped ++ (become frame).2 } :=
        ⟨hRest, hBears.items⟩
      rw [Assembly.pop, hOpen]
      exact hOuter.place (hBecome frame _ hFrame hBody)

theorem leaveConditional (hBears : assembly.Bears P) :
    assembly.leaveConditional.Bears P := by
  unfold Assembly.leaveConditional
  split
  · exact hBears.pop fun frame _ hFrame hBody => (hFrame frame.body hBody).1
  · exact hBears

/-- Where a conditional has been ended, another may be opened. -/
theorem opensIn_leaveConditional (hBears : assembly.Bears P) (kind : BlockKind) :
    kind.OpensIn assembly.leaveConditional.surroundings := by
  intro _
  unfold Assembly.leaveConditional
  split
  · rename_i hInner
    rw [Assembly.surroundings_pop]
    have hFrames := hBears.frames
    cases hOpen : assembly.frames with
    | nil => simp [Assembly.surroundings, hOpen]
    | cons frame outer =>
        rw [hOpen] at hFrames
        simp only [Assembly.innermost?, Assembly.surroundings, hOpen, List.map_cons,
          List.head?_cons, Option.some.injEq] at hInner
        rw [Assembly.surroundings, hOpen]
        exact hFrames.1 hInner
  · rename_i hInner
    exact hInner

theorem enter (hBears : assembly.Bears P) {header : Header} {site : Site}
    (hOpens : header.kind.OpensIn assembly.surroundings)
    (hHeader : Frame.Bears P assembly.surroundings
      { header := header.within assembly.surroundings, site := site }) :
    (assembly.enter header site).Bears P := by
  refine ⟨⟨?_, hHeader, fun stmt hMem => ?_, hBears.frames⟩, hBears.items⟩
  · rw [Frame.kind, Header.kind_within]
    exact hOpens
  · exact absurd hMem (Array.not_mem_empty stmt)

theorem leave (hBears : assembly.Bears P) {kind : BlockKind} {surplus : Option Fault}
    {site : Site}
    (hSurplus : ∀ fault ∈ surplus, ∀ around, P around (.invalid ⟨fault, site⟩ false))
    (hStray : ∀ around, P around (.invalid ⟨.strayCloser kind, site⟩ false)) :
    (assembly.leave kind surplus site).Bears P := by
  have hInner : (if kind ∈ assembly.surroundings then assembly.leaveConditional
      else assembly).Bears P := by
    split
    · exact hBears.leaveConditional
    · exact hBears
  unfold Assembly.leave
  generalize
    (if kind ∈ assembly.surroundings then assembly.leaveConditional else assembly) =
      inner at hInner
  dsimp only
  split
  · exact (hInner.pop fun frame _ hFrame hBody =>
      (hFrame frame.body hBody).1).note hSurplus
  · refine hInner.note fun fault hFault => ?_
    cases hFault
    exact hStray

/-- **A line keeps what it bears.** -/
theorem feed (hBears : assembly.Bears P) {line : Line} (hLine : line.Bears P) :
    (assembly.feed line).Bears P := by
  unfold Assembly.feed
  cases hPhrase : Phrase.ofLine line with
  | simple stmt => exact hBears.place (hLine.simple _ hPhrase)
  | faulty fault gated => exact hBears.place (hLine.faulty _ hPhrase)
  | opening header =>
      have hHeader := fun around => hLine.opening around hPhrase
      cases header with
      | conditional condition =>
          have hOpens := hBears.opensIn_leaveConditional .conditional
          exact hBears.leaveConditional.enter hOpens (hHeader _ hOpens)
      | loop count =>
          have hOpens : BlockKind.loop.OpensIn assembly.surroundings :=
            fun hKind => by cases hKind
          exact hBears.enter hOpens (hHeader _ hOpens)
      | method name =>
          have hOpens : BlockKind.method.OpensIn assembly.surroundings :=
            fun hKind => by cases hKind
          exact hBears.enter hOpens (hHeader _ hOpens)
  | closing kind surplus =>
      have hSurplus : ∀ fault ∈ surplus, ∀ around,
          P around (.invalid ⟨fault, line.toSite⟩ false) := by
        intro fault hMem around
        rw [Option.mem_def] at hMem
        exact hLine.surplus around (hMem ▸ hPhrase)
      have hStray := fun around => hLine.stray around hPhrase
      cases kind with
      | conditional => exact hBears.leaveConditional.note hSurplus
      | loop => exact hBears.leave hSurplus hStray
      | method => exact hBears.leave hSurplus hStray

theorem feedAll {lines : List Line} (hBears : assembly.Bears P)
    (hLines : ∀ line ∈ lines, line.Bears P) :
    (lines.foldl Assembly.feed assembly).Bears P := by
  induction lines generalizing assembly with
  | nil => exact hBears
  | cons line rest ih =>
      obtain ⟨hLine, hRest⟩ := List.forall_mem_cons.mp hLines
      exact ih (hBears.feed hLine) hRest

theorem expire {ending : Ending} {frame : Frame} (hFrame : frame.Bears P around)
    (hBody : ∀ stmt ∈ frame.body, P (frame.kind :: around) stmt) :
    P around (frame.expire ending).1 := by
  unfold Frame.expire
  split
  · exact (hFrame frame.body hBody).1
  · exact (hFrame frame.body hBody).2

theorem finishFrames (hBears : assembly.Bears P) (ending : Ending) :
    (assembly.finishFrames ending).Bears P := by
  have hFold : ∀ (frames : List Frame) (assembly : Assembly), assembly.Bears P →
      (frames.foldl (fun assembly _ => assembly.pop (Frame.expire ending))
        assembly).Bears P := by
    intro frames
    induction frames with
    | nil => exact fun _ hHere => hHere
    | cons _ rest ih => exact fun _ hHere => ih _ (hHere.pop fun _ _ => expire)
  exact hFold assembly.frames assembly hBears

end Assembly.Bears

/-- **Every item of a script has what its lines bear.** -/
theorem bears_read {lines : List Line} (hLines : ∀ line ∈ lines, line.Bears P)
    (ending : Ending) :
    ∀ item ∈ (read ending lines).items, ∃ stmt, P [] stmt ∧ item = .ofStmt stmt := by
  have hDone := (Assembly.Bears.empty.feedAll hLines).finishFrames ending
  exact fun item hMem => hDone.items item (Array.mem_toList_iff.mp hMem)

end PenScript
