import PenScript.Proofs.Trees

/-!
# Checking line by line

Nesting lines into blocks sends faults on different ways: into the items, into
the bodies of blocks, and, when a block fails as a whole, aside to where only a
check looks for them. A *scan* finds the same faults without building anything.
It goes through the lines once and remembers only which blocks are open.

The scan is written from the rules of the language: what a line may be by itself,
where loops and methods may stand, and which block a closing word ends. That a
check reports what the scan finds, each fault once, is proved by counting. At any
point of the reading the faults on all the ways together are those that the scan has
found, and moving statements from one way to another does not change their number.

## Main results

* `blocks_feed`, `count_faults_feed`: one line changes the open blocks, and adds to
  the faults, as it does in the scan;
* `check_reports_scan`: a check reports what the scan finds, in the order of the lines.
-/

namespace PenScript

/-! ## The scan -/

/-- A block that is open: its kind, and the line that opened it. -/
structure OpenBlock where
  kind : BlockKind
  site : Site
deriving DecidableEq, Repr

namespace Scan

/-- Whether a block of that kind is among the open ones. -/
def isOpen (kind : BlockKind) (blocks : List OpenBlock) : Bool :=
  blocks.any fun block => block.kind == kind

/-- The open blocks without a conditional that is innermost. -/
def dropConditional : List OpenBlock → List OpenBlock
  | ⟨.conditional, _⟩ :: outer => outer
  | blocks => blocks

/-- The open blocks that the closing word of a loop or a method finds: it ends a
conditional first, if there is something for it to close behind. -/
def reach (kind : BlockKind) (blocks : List OpenBlock) : List OpenBlock :=
  if isOpen kind blocks then dropConditional blocks else blocks

/-- Whether the innermost block is of that kind. -/
def isInnermost (kind : BlockKind) : List OpenBlock → Bool
  | block :: _ => block.kind == kind
  | [] => false

/-- What is wrong with the words after a closing word. -/
def surplus? (kind : BlockKind) (args : List String) : Option Fault :=
  if args.isEmpty then none else some (.wrongCount (.closes kind) 0 args.length)

/-- What is wrong with a line, where the given blocks are open. -/
def fault? (blocks : List OpenBlock) (line : Line) : Option Fault :=
  if line.isAssignment then PenScript.fault? (readAssignment line)
  else match Keyword.ofWord? line.keyword with
    | none => some (.unknownCommand line.keyword)
    | some (.draw verb) => PenScript.fault? (readCommand verb line.args)
    | some .call => PenScript.fault? (readOnlyName .call line.args)
    | some (.opens .conditional) => PenScript.fault? (readCondition line.args)
    | some (.opens .loop) =>
        if isOpen .loop blocks then some .nestedLoop
          else PenScript.fault? (readCount line.args)
    | some (.opens .method) =>
        if isOpen .loop blocks || isOpen .method blocks then some .nestedMethod
        else PenScript.fault? (readOnlyName (.opens .method) line.args)
    | some (.closes .conditional) => surplus? .conditional line.args
    | some (.closes kind) =>
        if isInnermost kind (reach kind blocks) then surplus? kind line.args
        else some (.strayCloser kind)

/-- The blocks that are open after a line. -/
def next (blocks : List OpenBlock) (line : Line) : List OpenBlock :=
  if line.isAssignment then blocks
  else match Keyword.ofWord? line.keyword with
    | some (.opens .conditional) =>
        ⟨.conditional, line.toSite⟩ :: dropConditional blocks
    | some (.opens kind) => ⟨kind, line.toSite⟩ :: blocks
    | some (.closes .conditional) => dropConditional blocks
    | some (.closes kind) =>
        let reached := reach kind blocks
        if isInnermost kind reached then reached.tail else reached
    | _ => blocks

/-- What is wrong with blocks that are open where a script ends. Only a
conditional may be. -/
def unclosed (blocks : List OpenBlock) : List Diagnostic :=
  (blocks.filter fun block => block.kind != .conditional).map fun block =>
    ⟨.neverClosed block.kind, block.site⟩

/-- Everything that is wrong with lines, where the given blocks are open before them. -/
def faults : List OpenBlock → List Line → List Diagnostic
  | blocks, [] => unclosed blocks
  | blocks, line :: rest =>
      ((fault? blocks line).toList.map fun fault => ⟨fault, line.toSite⟩) ++
        faults (next blocks line) rest

end Scan

/-! ## All faults of an assembly -/

/-- The faults of a block so far. -/
def Frame.faults (frame : Frame) : List Diagnostic :=
  (frame.header.fault?.toList.map fun fault => ⟨fault, frame.site⟩) ++
    Stmt.faultsIn frame.body.toList

namespace Assembly

/-- The faults of an assembly so far, wherever they are. -/
def faults (assembly : Assembly) : List Diagnostic :=
  assembly.items.toList.flatMap Item.faults ++ assembly.dropped.toList ++
    assembly.frames.flatMap Frame.faults

/-- The open blocks, as the scan remembers them. -/
def blocks (assembly : Assembly) : List OpenBlock :=
  assembly.frames.map fun frame => ⟨frame.kind, frame.site⟩

variable (assembly : Assembly)

/-! ## The open blocks -/

theorem surroundings_eq :
    assembly.surroundings = assembly.blocks.map OpenBlock.kind := by
  simp [surroundings, blocks, Function.comp_def]

theorem mem_surroundings_iff {kind : BlockKind} :
    kind ∈ assembly.surroundings ↔ Scan.isOpen kind assembly.blocks = true := by
  rw [surroundings_eq, Scan.isOpen, List.any_eq_true, List.mem_map]
  simp only [beq_iff_eq]

theorem innermost?_eq_some_iff {kind : BlockKind} :
    assembly.innermost? = some kind ↔ Scan.isInnermost kind assembly.blocks = true := by
  rw [innermost?, surroundings_eq]
  cases assembly.blocks with
  | nil => simp [Scan.isInnermost]
  | cons block outer => simp [Scan.isInnermost]

@[simp] theorem blocks_place (stmt : Stmt) :
    (assembly.place stmt).blocks = assembly.blocks := by
  unfold place
  split
  · rfl
  · rename_i hFrames
    simp [blocks, hFrames, Frame.kind]

@[simp] theorem blocks_note (fault : Option Fault) (site : Site) :
    (assembly.note fault site).blocks = assembly.blocks := by
  cases fault with
  | none => rfl
  | some fault => exact assembly.blocks_place _

@[simp] theorem blocks_pop (become : Frame → Stmt × List Diagnostic) :
    (assembly.pop become).blocks = assembly.blocks.tail := by
  unfold pop
  split
  · rename_i hFrames
    simp [blocks, hFrames]
  · rename_i hFrames
    rw [blocks_place]
    simp [blocks, hFrames]

theorem blocks_leaveConditional :
    assembly.leaveConditional.blocks = Scan.dropConditional assembly.blocks := by
  have hInner := @innermost?_eq_some_iff assembly .conditional
  unfold leaveConditional
  split
  · rename_i hOpen
    rw [blocks_pop]
    cases hBlocks : assembly.blocks with
    | nil => rfl
    | cons block outer =>
        rw [hInner, hBlocks] at hOpen
        obtain ⟨kind, site⟩ := block
        simp only [Scan.isInnermost, beq_iff_eq] at hOpen
        subst hOpen
        rfl
  · rename_i hOpen
    rw [hInner] at hOpen
    cases hBlocks : assembly.blocks with
    | nil => rfl
    | cons block outer =>
        obtain ⟨kind, site⟩ := block
        rw [hBlocks] at hOpen
        cases kind with
        | conditional => exact absurd rfl hOpen
        | loop => rfl
        | method => rfl

theorem blocks_enter (header : Header) (site : Site) :
    (assembly.enter header site).blocks = ⟨header.kind, site⟩ :: assembly.blocks := by
  simp [enter, blocks, Frame.kind, Header.kind_within]

/-- The assembly as a closing word finds it. -/
private def reached (kind : BlockKind) : Assembly :=
  if kind ∈ assembly.surroundings then assembly.leaveConditional else assembly

private theorem blocks_reached (kind : BlockKind) :
    (assembly.reached kind).blocks = Scan.reach kind assembly.blocks := by
  unfold reached Scan.reach
  simp only [mem_surroundings_iff]
  split
  · exact assembly.blocks_leaveConditional
  · rfl

private theorem leave_eq (kind : BlockKind) (surplus : Option Fault) (site : Site) :
    assembly.leave kind surplus site =
      if Scan.isInnermost kind (Scan.reach kind assembly.blocks) then
        ((assembly.reached kind).pop Frame.close).note surplus site
      else (assembly.reached kind).note (some (.strayCloser kind)) site := by
  rw [← blocks_reached]
  simp only [← innermost?_eq_some_iff]
  rfl

theorem blocks_leave (kind : BlockKind) (surplus : Option Fault) (site : Site) :
    (assembly.leave kind surplus site).blocks =
      if Scan.isInnermost kind (Scan.reach kind assembly.blocks) then
        (Scan.reach kind assembly.blocks).tail
      else Scan.reach kind assembly.blocks := by
  rw [leave_eq]
  split
  · rw [blocks_note, blocks_pop, blocks_reached]
  · rw [blocks_note, blocks_reached]

theorem blocks_absorb_ofStmt (gated : Bool) (found : Except Fault Stmt) (site : Site) :
    (assembly.absorb (.ofStmt gated found) site).blocks = assembly.blocks := by
  cases found <;> exact assembly.blocks_place _

/-- **A line changes the open blocks as in the scan.** -/
theorem blocks_feed (line : Line) :
    (assembly.feed line).blocks = Scan.next assembly.blocks line := by
  unfold feed Phrase.ofLine Scan.next
  by_cases hAssign : line.isAssignment = true
  · rw [if_pos hAssign, if_pos hAssign]
    exact assembly.blocks_absorb_ofStmt false _ _
  · rw [if_neg hAssign, if_neg hAssign]
    cases hWord : Keyword.ofWord? line.keyword with
    | none => exact assembly.blocks_place _
    | some keyword =>
        cases keyword with
        | draw verb => exact assembly.blocks_absorb_ofStmt true _ _
        | call => exact assembly.blocks_absorb_ofStmt false _ _
        | opens kind =>
            cases kind with
            | conditional =>
                show (assembly.leaveConditional.enter _ _).blocks = _
                rw [blocks_enter, blocks_leaveConditional]
                rfl
            | loop => exact assembly.blocks_enter _ _
            | method => exact assembly.blocks_enter _ _
        | closes kind =>
            cases kind with
            | conditional =>
                show (assembly.leaveConditional.note _ _).blocks = _
                rw [blocks_note, blocks_leaveConditional]
            | loop => exact assembly.blocks_leave _ _ _
            | method => exact assembly.blocks_leave _ _ _

/-! ## The faults -/

variable (problem : Diagnostic)

@[simp] theorem count_faults_place (stmt : Stmt) :
    (assembly.place stmt).faults.count problem =
      assembly.faults.count problem + stmt.faults.count problem := by
  cases hFrames : assembly.frames with
  | nil =>
      rw [place_of_nil hFrames]
      simp only [faults, Array.toList_push, List.flatMap_append, List.flatMap_singleton,
        Item.faults_ofStmt, List.count_append]
      omega
  | cons frame outer =>
      rw [place_of_cons hFrames]
      simp only [faults, hFrames, List.flatMap_cons, Frame.faults, Array.toList_push,
        Stmt.faultsIn_append, Stmt.faultsIn, List.count_append, List.append_nil]
      omega

theorem count_faults_note (fault : Option Fault) (site : Site) :
    (assembly.note fault site).faults.count problem = assembly.faults.count problem +
      (fault.toList.map fun found => (⟨found, site⟩ : Diagnostic)).count problem := by
  cases fault with
  | none => simp [note]
  | some found => exact assembly.count_faults_place problem _

/-- Taking a block away loses nothing, if what becomes of the block accounts
for its faults. -/
theorem count_faults_pop {become : Frame → Stmt × List Diagnostic} {frame : Frame}
    {outer : List Frame} {extra : Nat} (hFrames : assembly.frames = frame :: outer)
    (hBecome : (become frame).1.faults.count problem + (become frame).2.count problem =
      frame.faults.count problem + extra) :
    (assembly.pop become).faults.count problem =
      assembly.faults.count problem + extra := by
  rw [pop, hFrames]
  simp only [count_faults_place]
  simp only [faults, hFrames, List.flatMap_cons, Array.toList_appendList,
    List.count_append]
  omega

theorem count_close (frame : Frame) :
    frame.close.1.faults.count problem + frame.close.2.count problem =
      frame.faults.count problem := by
  cases hFault : frame.header.fault? with
  | some fault =>
      rw [Frame.close_of_fault hFault]
      simp only [Frame.faults, hFault, Stmt.faults, Option.toList_some, List.map_cons,
        List.map_nil, List.count_append]
  | none =>
      obtain ⟨stmt, hClose, hSame⟩ := Frame.close_of_none hFault
      rw [hClose, hSame]
      simp [Frame.faults, hFault]

theorem count_abandon (frame : Frame) :
    frame.abandon.1.faults.count problem + frame.abandon.2.count problem =
      frame.faults.count problem +
        [(⟨.neverClosed frame.kind, frame.site⟩ : Diagnostic)].count problem := by
  cases hFault : frame.header.fault? with
  | some fault =>
      rw [Frame.abandon_of_fault hFault]
      simp only [Frame.faults, hFault, Stmt.faults, Option.toList_some, List.map_cons,
        List.map_nil, List.count_append]
      omega
  | none =>
      rw [Frame.abandon_of_none hFault]
      simp only [Frame.faults, hFault, Stmt.faults, Option.toList_none, List.map_nil,
        List.nil_append]
      omega

theorem count_faults_pop_close :
    (assembly.pop Frame.close).faults.count problem =
      assembly.faults.count problem := by
  cases hFrames : assembly.frames with
  | nil => rw [pop, hFrames]
  | cons frame outer =>
      exact @count_faults_pop assembly problem Frame.close frame outer 0 hFrames
        (count_close problem frame)

theorem count_faults_leaveConditional :
    assembly.leaveConditional.faults.count problem = assembly.faults.count problem := by
  unfold leaveConditional
  split
  · exact assembly.count_faults_pop_close problem
  · rfl

theorem count_faults_enter (header : Header) (site : Site) :
    (assembly.enter header site).faults.count problem = assembly.faults.count problem +
      ((header.within assembly.surroundings).fault?.toList.map
        fun fault => (⟨fault, site⟩ : Diagnostic)).count problem := by
  simp only [enter, faults, List.flatMap_cons, Frame.faults, Stmt.faultsIn,
    List.append_nil, List.count_append]
  omega

theorem fault?_within_loop (count : Except Fault Term) :
    ((Header.loop count).within assembly.surroundings).fault? =
      if Scan.isOpen .loop assembly.blocks then some .nestedLoop else fault? count := by
  simp only [Header.within, mem_surroundings_iff]
  split <;> rfl

theorem fault?_within_method (name : Except Fault String) :
    ((Header.method name).within assembly.surroundings).fault? =
      if Scan.isOpen .loop assembly.blocks || Scan.isOpen .method assembly.blocks then
        some .nestedMethod
      else fault? name := by
  simp only [Header.within, mem_surroundings_iff, Bool.or_eq_true]
  split <;> rfl

theorem count_faults_leave (kind : BlockKind) (surplus : Option Fault) (site : Site) :
    (assembly.leave kind surplus site).faults.count problem =
      assembly.faults.count problem +
      ((if Scan.isInnermost kind (Scan.reach kind assembly.blocks) then surplus
        else some (.strayCloser kind)).toList.map
          fun fault => (⟨fault, site⟩ : Diagnostic)).count problem := by
  have hReached : (assembly.reached kind).faults.count problem =
      assembly.faults.count problem := by
    unfold reached
    split
    · exact assembly.count_faults_leaveConditional problem
    · rfl
  rw [leave_eq]
  split
  · rw [count_faults_note, count_faults_pop_close, hReached]
  · rw [count_faults_note, hReached]

theorem count_faults_absorb_ofStmt (gated : Bool) {found : Except Fault Stmt}
    (site : Site) (hPlain : ∀ stmt, found = .ok stmt → stmt.faults = []) :
    (assembly.absorb (.ofStmt gated found) site).faults.count problem =
      assembly.faults.count problem +
        ((fault? found).toList.map fun fault => (⟨fault, site⟩ : Diagnostic)).count
          problem := by
  cases found with
  | ok stmt =>
      have hPlace := assembly.count_faults_place problem stmt
      rw [hPlain stmt rfl] at hPlace
      exact hPlace
  | error fault =>
      exact assembly.count_faults_place problem (.invalid ⟨fault, site⟩ gated)

theorem count_faults_absorb_map {α : Type} (gated : Bool) {found : Except Fault α}
    {build : α → Stmt} (site : Site) (hPlain : ∀ value, (build value).faults = []) :
    (assembly.absorb (.ofStmt gated (found.map build)) site).faults.count problem =
      assembly.faults.count problem +
        ((fault? found).toList.map fun fault => (⟨fault, site⟩ : Diagnostic)).count
          problem := by
  rw [← fault?_map found build]
  exact assembly.count_faults_absorb_ofStmt problem gated site
    (forall_of_map_ok fun value _ => hPlain value)

/-- **A line adds to the faults what the scan finds in it.** -/
theorem count_faults_feed (line : Line) :
    (assembly.feed line).faults.count problem = assembly.faults.count problem +
      ((Scan.fault? assembly.blocks line).toList.map
        fun fault => (⟨fault, line.toSite⟩ : Diagnostic)).count problem := by
  unfold feed Phrase.ofLine Scan.fault?
  by_cases hAssign : line.isAssignment = true
  · rw [if_pos hAssign, if_pos hAssign]
    refine assembly.count_faults_absorb_ofStmt problem false _ fun stmt hRead => ?_
    obtain ⟨value, rfl, -⟩ := exists_of_readAssignment hRead
    rfl
  · rw [if_neg hAssign, if_neg hAssign]
    cases hWord : Keyword.ofWord? line.keyword with
    | none => exact assembly.count_faults_place problem _
    | some keyword =>
        cases keyword with
        | draw verb =>
            exact assembly.count_faults_absorb_map problem true line.toSite fun _ => rfl
        | call =>
            exact assembly.count_faults_absorb_map problem false line.toSite fun _ =>
              rfl
        | opens kind =>
            cases kind with
            | conditional =>
                show (assembly.leaveConditional.enter _ _).faults.count problem = _
                rw [count_faults_enter, count_faults_leaveConditional]
                rfl
            | loop =>
                show (assembly.enter _ _).faults.count problem = _
                rw [count_faults_enter, Header.read, fault?_within_loop]
            | method =>
                show (assembly.enter _ _).faults.count problem = _
                rw [count_faults_enter, Header.read, fault?_within_method]
        | closes kind =>
            cases kind with
            | conditional =>
                show (assembly.leaveConditional.note _ _).faults.count problem = _
                rw [count_faults_note, count_faults_leaveConditional]
                rfl
            | loop => exact assembly.count_faults_leave problem _ _ _
            | method => exact assembly.count_faults_leave problem _ _ _

/-! ## The whole script -/

theorem count_faults_feedAll (lines : List Line) : ∀ assembly : Assembly,
    (lines.foldl feed assembly).faults.count problem +
        (Scan.unclosed (lines.foldl feed assembly).blocks).count problem =
      assembly.faults.count problem + (Scan.faults assembly.blocks lines).count
        problem := by
  induction lines with
  | nil => intro assembly; rfl
  | cons line rest ih =>
      intro assembly
      have hRest := ih (assembly.feed line)
      rw [count_faults_feed, blocks_feed] at hRest
      rw [List.foldl_cons, hRest, Scan.faults, List.count_append]
      omega

theorem count_expire (frame : Frame) :
    (frame.expire .complete).1.faults.count problem +
      (frame.expire .complete).2.count problem =
      frame.faults.count problem +
        (Scan.unclosed [⟨frame.kind, frame.site⟩]).count problem := by
  unfold Frame.expire
  cases hKind : frame.kind with
  | conditional => exact count_close problem frame
  | loop =>
      have hAbandon := count_abandon problem frame
      rw [hKind] at hAbandon
      exact hAbandon
  | method =>
      have hAbandon := count_abandon problem frame
      rw [hKind] at hAbandon
      exact hAbandon

theorem unclosed_cons (block : OpenBlock) (outer : List OpenBlock) :
    Scan.unclosed (block :: outer) = Scan.unclosed [block] ++ Scan.unclosed outer := by
  simp only [Scan.unclosed, ← List.map_append, ← List.filter_append,
    List.singleton_append]

/-- At the end of a complete script every block accounts for its faults. -/
theorem count_faults_finishFrames :
    (assembly.finishFrames .complete).faults.count problem =
      assembly.faults.count problem + (Scan.unclosed assembly.blocks).count
        problem := by
  have hFold : ∀ (frames : List Frame) (assembly : Assembly),
      frames.map (fun frame => (⟨frame.kind, frame.site⟩ : OpenBlock)) =
        assembly.blocks →
      (frames.foldl (fun assembly _ => assembly.pop (Frame.expire .complete))
        assembly).faults.count
          problem =
        assembly.faults.count problem + (Scan.unclosed assembly.blocks).count
          problem := by
    intro frames
    induction frames with
    | nil =>
        intro assembly hBlocks
        rw [← hBlocks]
        rfl
    | cons _ rest ih =>
        intro assembly hBlocks
        cases hFrames : assembly.frames with
        | nil => simp [blocks, hFrames] at hBlocks
        | cons frame outer =>
            have hPop :=
              assembly.count_faults_pop problem hFrames (count_expire problem frame)
            have hHere : ⟨frame.kind, frame.site⟩ :: assembly.blocks.tail =
                assembly.blocks := by
              simp [blocks, hFrames]
            have hSplit := unclosed_cons ⟨frame.kind, frame.site⟩ assembly.blocks.tail
            rw [hHere] at hSplit
            rw [List.foldl_cons, ih, hPop, blocks_pop, hSplit, List.count_append]
            · omega
            · rw [blocks_pop, ← hBlocks]
              rfl
  exact hFold assembly.frames assembly rfl

end Assembly

/-- The faults of a reading are those of the assembly where it ends. -/
theorem faults_read (ending : Ending) (lines : List Line) :
    (read ending lines).items.flatMap Item.faults ++ (read ending lines).dropped =
      ((Assembly.ofLines lines).finishFrames ending).faults := by
  simp only [read, Assembly.finish, Assembly.faults, Assembly.frames_finishFrames,
    List.flatMap_nil, List.append_nil]

/-- The faults of a reading are those of the scan, each as often. -/
theorem read_faults_perm_scan (lines : List Line) :
    ((read .complete lines).items.flatMap Item.faults ++
      (read .complete lines).dropped).Perm
      (Scan.faults [] lines) := by
  refine List.perm_iff_count.mpr fun problem => ?_
  have hFinish := (Assembly.ofLines lines).count_faults_finishFrames problem
  have hLines := Assembly.count_faults_feedAll problem lines {}
  rw [faults_read, hFinish]
  exact hLines.trans (Nat.zero_add _)

theorem Reading.diagnostics_sorted (reading : Reading) :
    reading.diagnostics.Pairwise fun first second =>
      first.site.number ≤ second.site.number := by
  have hTrans : ∀ a b c : Diagnostic, decide (a.site.number ≤ b.site.number) = true →
      decide (b.site.number ≤ c.site.number) = true →
      decide (a.site.number ≤ c.site.number) = true := by
    intro a b c hFirst hSecond
    simp only [decide_eq_true_eq] at hFirst hSecond ⊢
    omega
  have hTotal : ∀ a b : Diagnostic, (decide (a.site.number ≤ b.site.number) ||
      decide (b.site.number ≤ a.site.number)) = true := by
    intro a b
    simp only [Bool.or_eq_true, decide_eq_true_eq]
    omega
  exact (List.pairwise_mergeSort hTrans hTotal _).imp of_decide_eq_true

/-- **A check reports what the scan finds**, each fault once and in the
order of the lines. -/
theorem check_reports_scan (source : String) :
    ((∃ stmts, check source = .ok stmts) ↔ Scan.faults [] (Line.ofSource source) = []) ∧
      ∀ problems, check source = .error problems →
        problems.Pairwise (fun first second => first.site.number ≤ second.site.number) ∧
          problems.Perm (Scan.faults [] (Line.ofSource source)) := by
  have hPerm : (readSource source).diagnostics.Perm
      (Scan.faults [] (Line.ofSource source)) :=
    (List.mergeSort_perm _ _).trans (read_faults_perm_scan _)
  constructor
  · rw [check_eq_ok_iff]
    constructor
    · intro hNone
      rw [hNone] at hPerm
      exact hPerm.nil_eq.symm
    · intro hNone
      rw [hNone] at hPerm
      exact hPerm.eq_nil
  · intro problems hProblems
    have hFound : problems = (readSource source).diagnostics := by
      unfold check at hProblems
      dsimp only at hProblems
      split at hProblems
      · cases hProblems
      · cases hProblems
        rfl
    subst hFound
    refine ⟨?_, hPerm⟩
    exact (readSource source).diagnostics_sorted

end PenScript
