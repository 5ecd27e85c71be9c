import Mathlib
import PenScript.Proofs.Inheritance

/-!
# Lines after a fault

Lines that are added to a script change how the lines before them are read. They go
into blocks that would have ended with the script, they close blocks that would never
have been closed, and a block that is opened among them may swallow the rest. The trees
of the script and of the longer one are different trees.

Yet what stops the script stops the longer one as well. One action *determines* another
if the other stops wherever the one does, in the same way; a block that is never closed
does not count, for that is what more lines may change. Each open block is executed at
its end or not at all, so that more statements in it come after those it has, and a
block that is closed after all is counted where it would have failed. In this way every
line leaves what was read before it determined, and so do all of them together.

## Main results

* `AllDetermine.settle`: more statements in the innermost of some open blocks;
* `Assembly.determines_feed`, `determines_read`: one more line, and many;
* `Line.ofSource_append`: added text adds lines;
* `runSource_append_of_fault`: a script that stops at a fault stops there,
  whatever follows.
-/

namespace PenScript

open Exec

/-! ## Stopping in the same way -/

/-- Whether one action stops wherever another does, at the same fault and with the same
machine. A block that is never closed does not count. -/
def Exec.Determines {α β : Type} (short : Exec α) (long : Exec β) : Prop :=
  ∀ machine problem after, short machine = .error problem after →
    problem.kind ≠ .unterminatedBlock → long machine = .error problem after

namespace Exec.Determines

variable {α β γ : Type}

theorem refl (action : Exec α) : action.Determines action :=
  fun _ _ _ hStop _ => hStop

theorem trans {first : Exec α} {second : Exec β} {third : Exec γ}
    (hFirst : first.Determines second) (hSecond : second.Determines third) :
    first.Determines third := by
  intro machine problem after hStop hKind
  exact hSecond machine problem after (hFirst machine problem after hStop hKind) hKind

/-- An action that does not stop leaves everything open. -/
theorem pure (value : α) (long : Exec β) :
    (Pure.pure value : Exec α).Determines long := by
  intro machine problem after hStop
  cases hStop

/-- A block that is never closed leaves everything open. -/
theorem throw {problem : Diagnostic} (hKind : problem.kind = .unterminatedBlock)
    (long : Exec β) : (MonadExcept.throw problem : Exec α).Determines long := by
  intro machine found after hStop hOther
  cases hStop
  exact absurd hKind hOther

theorem bind (action : Exec α) {next : α → Exec β} {next' : α → Exec γ}
    (hNext : ∀ value, (next value).Determines (next' value)) :
    (action >>= next).Determines (action >>= next') := by
  intro machine problem after hStop hKind
  rw [bind_apply] at hStop ⊢
  cases hFirst : action machine with
  | error other middle =>
      rw [hFirst] at hStop
      cases hStop
      rfl
  | ok value middle =>
      rw [hFirst] at hStop
      exact hNext value middle problem after hStop hKind

/-- Nothing is open after the last of some actions. -/
theorem last {short long : Exec Unit} (hLast : short.Determines long) :
    (short >>= fun _ => Pure.pure ()).Determines (long >>= fun _ => Pure.pure ()) := by
  intro machine problem after hStop hKind
  rw [bind_apply] at hStop ⊢
  cases hShort : short machine with
  | error other middle =>
      rw [hShort] at hStop
      cases hStop
      rw [hLast machine problem after hShort hKind]
  | ok value middle =>
      rw [hShort] at hStop
      cases hStop

theorem withGate {short long : Exec Unit} (hInside : short.Determines long)
    (holds : Bool) :
    (Exec.withGate holds short).Determines (Exec.withGate holds long) := by
  intro machine problem after hStop hKind
  rw [withGate_apply, andFinally_apply] at hStop ⊢
  cases hShort : short { machine with gate := machine.gate && holds } with
  | ok value final =>
      rw [hShort] at hStop
      cases hStop
  | error other final =>
      rw [hShort] at hStop
      cases hStop
      rw [hInside _ _ _ hShort hKind]

end Exec.Determines

/-- Whether a statement stops wherever another does, inside of a block
and at top level. -/
structure Stmt.Determines (short long : Stmt) : Prop where
  exec (limits : Limits) (call : Caller) :
    (Stmt.exec limits call short).Determines (Stmt.exec limits call long)
  run (limits : Limits) :
    ((Item.ofStmt short).run limits).Determines ((Item.ofStmt long).run limits)

theorem Stmt.Determines.refl (stmt : Stmt) : stmt.Determines stmt :=
  ⟨fun _ _ => .refl _, fun _ => .refl _⟩

/-- Whether statements stop wherever others do, inside of a block and at top level. -/
structure AllDetermine (short long : List Stmt) : Prop where
  exec (limits : Limits) (call : Caller) :
    (Stmt.execAll limits call short).Determines (Stmt.execAll limits call long)
  run (limits : Limits) :
    (runItems limits (short.map .ofStmt)).Determines
      (runItems limits (long.map .ofStmt))

namespace AllDetermine

theorem none (stmts : List Stmt) : AllDetermine [] stmts where
  exec limits call := by
    rw [Stmt.execAll]
    exact .pure () _
  run limits := by
    rw [List.map_nil, runItems]
    exact .pure () _

theorem single {short long : Stmt} (hStmt : short.Determines long) :
    AllDetermine [short] [long] where
  exec limits call := by
    simp only [Stmt.execAll]
    exact (hStmt.exec limits call).last
  run limits := by
    simp only [List.map_cons, List.map_nil, runItems]
    exact (hStmt.run limits).last

end AllDetermine

/-! ## Open blocks -/

/-- More statements in the body of a condition come after those that are in it. -/
theorem determines_branch {short long : List Stmt} (hMore : AllDetermine short long)
    (condition : Condition) (body : List Stmt) (site : Site) :
    (Stmt.branch condition (body ++ short) site).Determines
      (.branch condition (body ++ long) site) := by
  have hExec (limits : Limits) (call : Caller) :
      (Stmt.exec limits call (.branch condition (body ++ short) site)).Determines
        (Stmt.exec limits call (.branch condition (body ++ long) site)) := by
    rw [Stmt.exec, Stmt.exec]
    apply Determines.bind
    intro _
    apply Determines.bind
    intro holds
    apply Determines.withGate
    rw [Stmt.execAll_append, Stmt.execAll_append]
    apply Determines.bind
    intro _
    exact hMore.exec limits call
  exact ⟨hExec, fun limits machine =>
    hExec limits (callAt limits (machine.callsLeft limits)) machine⟩

/-- A block that is never closed is counted where it would be if it were. -/
theorem determines_neverClosed (kind : BlockKind) {site : Site} {long : Stmt}
    (hCounted : ∀ limits call, ∃ rest : Exec Unit,
      Stmt.exec limits call long = (do tick limits site; rest)) :
    (Stmt.invalid ⟨.neverClosed kind, site⟩ false).Determines long where
  exec limits call := by
    obtain ⟨rest, hLong⟩ := hCounted limits call
    rw [Stmt.exec, hLong]
    apply Determines.bind
    intro _ machine problem after hStop hKind
    have hRaise : raise ⟨.neverClosed kind, site⟩ false machine =
        .error problem after := hStop
    rw [raise_apply, Bool.not_false, Bool.or_true, if_pos rfl] at hRaise
    cases hRaise
    exact absurd rfl hKind
  run limits := .throw rfl _

namespace Frame

/-- The statement a block becomes that is open at the end of a complete script. -/
def expired (frame : Frame) : Stmt := (frame.expire .complete).1

/-- The block with more statements in its body. -/
def fill (frame : Frame) (stmts : List Stmt) : Frame :=
  { frame with body := frame.body ++ stmts }

theorem fill_nil (frame : Frame) : frame.fill [] = frame := by
  rw [fill, Array.appendList_nil]

theorem fill_push (frame : Frame) (stmt : Stmt) :
    ({ frame with body := frame.body.push stmt } : Frame).fill [] =
      frame.fill [stmt] := by
  simp only [fill, Array.appendList_cons, Array.appendList_nil]

/-- More statements in a block that is open at the end. -/
theorem determines_expired_fill {short long : List Stmt}
    (hMore : AllDetermine short long)
    (frame : Frame) :
    (frame.fill short).expired.Determines (frame.fill long).expired := by
  obtain ⟨header, site, body⟩ := frame
  cases header with
  | conditional found =>
      cases found with
      | error fault => exact .refl _
      | ok condition =>
          have hBranch := determines_branch hMore condition body.toList site
          rw [← Array.toList_appendList, ← Array.toList_appendList] at hBranch
          exact hBranch
  | loop found | method found =>
      -- Whether the header is in order or not, the body has no part in what becomes of
      -- the block.
      cases found with
      | error fault => exact .refl _
      | ok _ => exact .refl _

/-- A block that is closed after all. -/
theorem determines_close (frame : Frame) : frame.expired.Determines frame.close.1 := by
  obtain ⟨header, site, body⟩ := frame
  cases header with
  | conditional found => exact .refl _
  | loop found =>
      cases found with
      | error fault => exact .refl _
      | ok count =>
          have hLoop : (Stmt.invalid ⟨.neverClosed .loop, site⟩ false).Determines
              (.loop count body.toList site) :=
            determines_neverClosed .loop fun limits call => ⟨_, by rw [Stmt.exec]⟩
          exact hLoop
  | method found =>
      cases found with
      | error fault => exact .refl _
      | ok name =>
          have hMethod : (Stmt.invalid ⟨.neverClosed .method, site⟩ false).Determines
              (.method name body.toList site) :=
            determines_neverClosed .method fun limits call => ⟨_, by rw [Stmt.exec]⟩
          exact hMethod

end Frame

/-- The statements at top level that open blocks become where a complete script ends,
with more statements in the innermost block. -/
def settle : List Frame → List Stmt → List Stmt
  | [], stmts => stmts
  | frame :: outer, stmts => settle outer [(frame.fill stmts).expired]

/-- **More statements in the innermost of some open blocks** leave determined
what is there. -/
theorem AllDetermine.settle {short long : List Stmt} (hMore : AllDetermine short long)
    (frames : List Frame) :
    AllDetermine (settle frames short) (settle frames long) := by
  induction frames generalizing short long with
  | nil => exact hMore
  | cons frame outer ih =>
      exact ih (.single (Frame.determines_expired_fill hMore frame))

/-! ## Assemblies -/

namespace Assembly

/-- The items of a complete script that ends with an assembly. -/
def settled (assembly : Assembly) : List Item :=
  assembly.items.toList ++ (settle assembly.frames []).map .ofStmt

theorem settled_place (assembly : Assembly) (stmt : Stmt) :
    (assembly.place stmt).settled =
      assembly.items.toList ++ (settle assembly.frames [stmt]).map .ofStmt := by
  cases hFrames : assembly.frames with
  | nil =>
      rw [place_of_nil hFrames]
      simp [settled, settle, hFrames]
  | cons frame outer =>
      rw [place_of_cons hFrames]
      simp only [settled, settle, Frame.fill_push]

theorem settled_of_cons {assembly : Assembly} {frame : Frame} {outer : List Frame}
    (hFrames : assembly.frames = frame :: outer) :
    assembly.settled = assembly.items.toList ++
      (settle outer [frame.expired]).map .ofStmt := by
  rw [settled, hFrames, settle, Frame.fill_nil]

/-- Whether the items of one assembly stop wherever those of another do. -/
def Determines (short long : Assembly) : Prop :=
  ∀ limits, (runItems limits short.settled).Determines (runItems limits long.settled)

theorem Determines.refl (assembly : Assembly) : assembly.Determines assembly :=
  fun _ => .refl _

theorem Determines.trans {first second third : Assembly}
    (hFirst : first.Determines second)
    (hSecond : second.Determines third) : first.Determines third :=
  fun limits => (hFirst limits).trans (hSecond limits)

/-- More statements in the innermost open block, behind the items there are. -/
theorem Determines.of_settle {short long : Assembly} {items : List Item}
    {frames : List Frame} {fewer more : List Stmt} (hMore : AllDetermine fewer more)
    (hShort : short.settled = items ++ (settle frames fewer).map .ofStmt)
    (hLong : long.settled = items ++ (settle frames more).map .ofStmt) :
    short.Determines long := by
  intro limits
  rw [hShort, hLong, runItems_append, runItems_append]
  apply Exec.Determines.bind
  intro _
  exact (hMore.settle frames).run limits

theorem determines_place (assembly : Assembly) (stmt : Stmt) :
    assembly.Determines (assembly.place stmt) :=
  .of_settle (.none [stmt]) rfl (assembly.settled_place stmt)

theorem determines_note (assembly : Assembly) (fault : Option Fault) (site : Site) :
    assembly.Determines (assembly.note fault site) := by
  cases fault with
  | none => exact .refl assembly
  | some fault => exact assembly.determines_place _

theorem determines_pop (assembly : Assembly) :
    assembly.Determines (assembly.pop Frame.close) := by
  cases hFrames : assembly.frames with
  | nil =>
      rw [pop, hFrames]
      exact .refl assembly
  | cons frame outer =>
      rw [pop, hFrames]
      exact .of_settle (.single frame.determines_close) (settled_of_cons hFrames)
        (settled_place _ frame.close.1)

theorem determines_leaveConditional (assembly : Assembly) :
    assembly.Determines assembly.leaveConditional := by
  unfold leaveConditional
  split
  · exact assembly.determines_pop
  · exact .refl assembly

theorem determines_enter (assembly : Assembly) (header : Header) (site : Site) :
    assembly.Determines (assembly.enter header site) := by
  have hFrames : (assembly.enter header site).frames =
      { header := header.within assembly.surroundings, site } :: assembly.frames := rfl
  exact .of_settle (.none _) rfl (settled_of_cons hFrames)

theorem determines_leave (assembly : Assembly) (kind : BlockKind)
    (surplus : Option Fault) (site : Site) :
    assembly.Determines (assembly.leave kind surplus site) := by
  have hInner : assembly.Determines <|
      if kind ∈ assembly.surroundings then assembly.leaveConditional else assembly := by
    split
    · exact assembly.determines_leaveConditional
    · exact .refl assembly
  unfold leave
  refine hInner.trans ?_
  generalize
    (if kind ∈ assembly.surroundings then assembly.leaveConditional else assembly) =
      inner
  dsimp only
  split
  · exact inner.determines_pop.trans (determines_note _ surplus site)
  · exact inner.determines_note _ site

/-- **One more line** leaves what was read before it determined. -/
theorem determines_feed (assembly : Assembly) (line : Line) :
    assembly.Determines (assembly.feed line) := by
  unfold feed
  cases Phrase.ofLine line with
  | simple stmt => exact assembly.determines_place stmt
  | faulty fault gated => exact assembly.determines_place _
  | opening header =>
      cases header with
      | conditional condition =>
          exact assembly.determines_leaveConditional.trans (determines_enter _ _ _)
      | loop | method => exact assembly.determines_enter _ _
  | closing kind surplus =>
      cases kind with
      | conditional =>
          exact assembly.determines_leaveConditional.trans (determines_note _ _ _)
      | loop | method => exact assembly.determines_leave _ surplus _

theorem determines_feedAll (lines : List Line) : ∀ assembly : Assembly,
    assembly.Determines (lines.foldl feed assembly) := by
  induction lines with
  | nil => exact .refl
  | cons line rest ih =>
      exact fun assembly => (assembly.determines_feed line).trans (ih _)

/-- Disposing of the open blocks leaves the settled items. -/
theorem items_finish (assembly : Assembly) :
    (assembly.finish .complete).items = assembly.settled := by
  -- What is taken away is always the innermost block; of the list only the length
  -- counts.
  have hFold : ∀ (once : List Frame) (assembly : Assembly),
      once.length = assembly.frames.length →
      (once.foldl (fun assembly _ => assembly.pop (Frame.expire .complete))
        assembly).items.toList =
        assembly.settled := by
    intro once
    induction once with
    | nil =>
        intro assembly hLength
        have hNone : assembly.frames = [] := List.eq_nil_of_length_eq_zero hLength.symm
        simp [settled, settle, hNone]
    | cons _ rest ih =>
        intro assembly hLength
        cases hFrames : assembly.frames with
        | nil =>
            rw [hFrames] at hLength
            cases hLength
        | cons frame outer =>
            rw [List.foldl_cons, ih, settled_of_cons hFrames, pop, hFrames]
            · exact settled_place _ frame.expired
            · rw [length_frames_pop, ← hLength, List.length_cons, Nat.add_sub_cancel]
  exact hFold assembly.frames assembly rfl

end Assembly

/-- **Lines determine how a script stops**, whatever lines follow. -/
theorem determines_read (limits : Limits) (lines rest : List Line) :
    (runItems limits (read .complete lines).items).Determines
      (runItems limits (read .complete (lines ++ rest)).items) := by
  rw [read, read, Assembly.items_finish, Assembly.items_finish, Assembly.ofLines,
    Assembly.ofLines, List.foldl_append]
  exact Assembly.determines_feedAll rest _ limits

/-! ## Texts -/

namespace Line

/-- A line feed behind a text cuts it off from what follows. It may belong to a carriage
return that the text ends with. -/
theorem unifyBreaks_append_feed (cs : List Char) : ∃ front,
    (unifyBreaks cs = front ∨ unifyBreaks cs = front ++ ['\n']) ∧
      ∀ rest, unifyBreaks (cs ++ '\n' :: rest) = front ++ '\n' :: unifyBreaks rest := by
  fun_induction unifyBreaks cs with
  | case1 =>
      refine ⟨[], Or.inl rfl, fun rest => ?_⟩
      simp [unifyBreaks]
  | case2 others ih =>
      obtain ⟨front, hFront, hRest⟩ := ih
      refine ⟨'\n' :: front, ?_, fun rest => ?_⟩
      · exact hFront.imp (congrArg ('\n' :: ·)) (congrArg ('\n' :: ·))
      · rw [List.cons_append, List.cons_append, unifyBreaks, hRest, List.cons_append]
  | case3 c others hSingle ih =>
      obtain ⟨front, hFront, hRest⟩ := ih
      by_cases hPair : c = '\r' ∧ others = []
      · obtain ⟨rfl, rfl⟩ := hPair
        refine ⟨[], Or.inr ?_, fun rest => ?_⟩
        · simp [unifyBreaks]
        · simp [unifyBreaks]
      · refine ⟨(if c = '\r' then '\n' else c) :: front, ?_, fun rest => ?_⟩
        · exact hFront.imp (congrArg (_ :: ·)) (congrArg (_ :: ·))
        · rw [List.cons_append, unifyBreaks, hRest, List.cons_append]
          intro others' hReturn hOthers
          cases others with
          | nil => exact hPair ⟨hReturn, rfl⟩
          | cons next later =>
              rw [List.cons_append] at hOthers
              obtain ⟨hNext, -⟩ := List.cons.inj hOthers
              exact hSingle later hReturn (by rw [hNext])

/-- The lines among some texts, the first of which has that number. -/
def ofPieces (number : Nat) (pieces : List (List Char)) : List Line :=
  (pieces.zipIdx number).filterMap fun (piece, number) => ofPiece? number piece

theorem ofPieces_append (number : Nat) (front back : List (List Char)) :
    ofPieces number (front ++ back) =
      ofPieces number front ++ ofPieces (number + front.length) back := by
  rw [ofPieces, List.zipIdx_append, List.filterMap_append]
  rfl

/-- Added text adds its own lines, numbered from where the text before it ends. -/
theorem ofSource_append_pieces (source : String) : ∃ number, ∀ more,
    ofSource (source ++ "\n" ++ more) = ofSource source ++
      ofPieces number (pieces more) := by
  obtain ⟨front, hFront, hAll⟩ := unifyBreaks_append_feed source.toList
  refine ⟨1 + (front.splitOnP (· == '\n')).length, fun more => ?_⟩
  have hChars : (source ++ "\n" ++ more).toList =
      source.toList ++ '\n' :: more.toList := by
    simp [String.toList_append]
  have hSource : ofSource source = ofPieces 1 (front.splitOnP (· == '\n')) := by
    rw [ofSource, pieces]
    rcases hFront with hSame | hFeed
    · rw [hSame]
      rfl
    · -- The text ends with a line break, and behind it stands a line without words.
      rw [hFeed, List.splitOnP_append_cons front [] rfl]
      refine (ofPieces_append 1 _ _).trans ?_
      exact List.append_nil _
  have hLonger : ofSource (source ++ "\n" ++ more) =
      ofPieces 1 (front.splitOnP (· == '\n') ++ pieces more) := by
    rw [ofSource, pieces, hChars, hAll, List.splitOnP_append_cons front _ rfl]
    rfl
  rw [hLonger, hSource, ofPieces_append]

/-- **Added text adds lines.** -/
theorem ofSource_append (source more : String) :
    ∃ rest, ofSource (source ++ "\n" ++ more) = ofSource source ++ rest := by
  obtain ⟨number, hAll⟩ := ofSource_append_pieces source
  exact ⟨ofPieces number (pieces more), hAll more⟩

end Line

/-- **A script that stops at a fault stops there whatever follows.** Unless a block was
never closed, added text changes nothing: not the fault, not what is remembered, not
what is drawn, and not what is counted. -/
theorem runSource_append_of_fault {session : Session} {source : String}
    {problem : Diagnostic} (hFails : (session.runSource source).result = .error problem)
    (hKind : problem.kind ≠ .unterminatedBlock) (more : String) :
    session.runSource (source ++ "\n" ++ more) = session.runSource source := by
  obtain ⟨rest, hLines⟩ := Line.ofSource_append source more
  obtain ⟨final, hEnd, -⟩ := runLines_cases session (Line.ofSource source)
  rcases hEnd with ⟨-, hOk⟩ | ⟨other, hStop, hResult⟩
  · have hBoth : Except.ok () = Except.error problem := hOk.symm.trans hFails
    cases hBoth
  · have hSame : Except.error other = Except.error problem := hResult.symm.trans hFails
    cases hSame
    have hLater := determines_read session.limits _ rest _ _ _ hStop hKind
    unfold Session.machine at hStop hLater
    simp only [Session.runSource, Session.runLines, hLines, hStop, hLater]

/-- A fault in front of two blocks that are still open, which the added text closes. -/
theorem runSource_append_of_fault_open :
    let source := "if 1 = 1\nmove 1\nloop 2\nclear"
    let problem : Diagnostic := ⟨.unknownCommand "move", ⟨2, "move 1"⟩⟩
    (({} : Session).runSource source).result = .error problem ∧
      ({} : Session).runSource (source ++ "\n" ++ "endloop\nendif\nclear") =
        ({} : Session).runSource source := by
  intro source problem
  have hFails : (({} : Session).runSource source).result = .error problem := by cbv
  refine ⟨hFails, ?_⟩
  exact runSource_append_of_fault hFails (by decide) "endloop\nendif\nclear"

end PenScript
