import Mathlib
import PenScript.Proofs.FlatMachine
import PenScript.Proofs.Headroom
import PenScript.Session

/-!
# One flag in place of blocks

A script whose lines neither open nor close a loop or a method is run as the flat
machine obeys its lines. The blocks of such a script are conditionals that never
stand inside each other, so of the blocks that reading keeps apart nothing is
needed but whether the last condition held.

The two runs count differently. The flat machine does not count its lines, and
whether a faulty line is counted as a statement depends on the block it is in. So
the comparison is one of runs whose counters may differ, and it holds as long as
the run of the blocks does not exhaust its budget.

An assembly is *played* by running its items and then what there is of an open
conditional, without putting the gate back. Its gate is then the flag, and each
further line changes what is played in the way the flat machine obeys it.

## Main results

* `mirrors_feed`: a further line is obeyed;
* `runSource_of_flat`: a script is run as its lines are obeyed.
-/

namespace PenScript

open Exec Headroom

/-! ## Playing an assembly -/

/-- Executes what there is of a conditional, and leaves the gate as the
condition sets it. -/
def Frame.play (limits : Limits) (frame : Frame) : Exec Unit :=
  match frame.header with
  | .conditional found => do
      let condition ← demand frame.site found
      tick limits frame.site
      setGate (← test condition frame.site)
      runAll limits frame.body.toList
  | _ => pure ()

/-- Executes what there is of a script. -/
def Assembly.play (limits : Limits) (assembly : Assembly) : Exec Unit := do
  runItems limits assembly.items.toList
  match assembly.frames with
  | [] => pure ()
  | frame :: _ => frame.play limits

/-- Whether no block is open but a conditional at top level. -/
def Assembly.IsShallow (assembly : Assembly) : Prop :=
  assembly.frames = [] ∨ ∃ frame, assembly.frames = [frame] ∧ frame.kind = .conditional

/-- The machine with drawing on. -/
def Machine.reopened (machine : Machine) : Machine := { machine with gate := true }

section

variable {α : Type} {limits : Limits} {assembly : Assembly}

theorem Machine.reopened_of_gate {machine : Machine} (hGate : machine.gate = true) :
    machine.reopened = machine := by
  cases machine
  cases hGate
  rfl

theorem runAll_append (front back : List Stmt) :
    runAll limits (front ++ back) = (do
      runAll limits front
      runAll limits back) := by
  funext machine
  rw [runAll, Stmt.execAll_append, bind_apply, bind_apply, runAll]
  have hForward := goesForward_execAll limits (machine.callsLeft limits) front machine
  cases hRun : Stmt.execAll limits (callAt limits (machine.callsLeft limits)) front
    machine with
  | error problem after => rfl
  | ok _ after =>
      rw [hRun] at hForward
      have hStack : after.stack = machine.stack := hForward.stack
      have hDepth : after.callsLeft limits = machine.callsLeft limits := by
        rw [Machine.callsLeft, Machine.callsLeft, hStack]
      simp only [runAll, hDepth]

theorem runAll_singleton (stmt : Stmt) : runAll limits [stmt] = stmt.run limits := by
  funext machine
  show (Stmt.exec _ _ stmt >>= fun _ => pure ()) machine = _
  rw [bind_pure_unit]
  rfl

theorem play_of_nil (hNone : assembly.frames = []) :
    assembly.play limits = runItems limits assembly.items.toList := by
  rw [Assembly.play, hNone]
  exact bind_pure_unit

theorem play_of_singleton {frame : Frame} (hOpen : assembly.frames = [frame]) :
    assembly.play limits = (do
      runItems limits assembly.items.toList
      frame.play limits) := by
  rw [Assembly.play, hOpen]

/-! ### One statement more -/

theorem play_place_of_nil (hNone : assembly.frames = []) (stmt : Stmt) :
    (assembly.place stmt).play limits = (do
      assembly.play limits
      (Item.ofStmt stmt).run limits) := by
  have hPlaced := Assembly.place_of_nil hNone stmt
  have hStill : (assembly.place stmt).frames = [] := by rw [hPlaced, hNone]
  rw [play_of_nil hStill, play_of_nil hNone, hPlaced, Array.toList_push,
    runItems_append]
  refine bind_congr fun _ => ?_
  exact bind_pure_unit

theorem Frame.play_push (frame : Frame) (hKind : frame.kind = .conditional)
    (stmt : Stmt) :
    { frame with body := frame.body.push stmt }.play limits = (do
      frame.play limits
      stmt.run limits) := by
  obtain ⟨header, site, body⟩ := frame
  cases header with
  | loop _ | method _ => cases hKind
  | conditional found =>
      simp only [Frame.play, Array.toList_push, runAll_append, runAll_singleton,
        bind_assoc]

theorem play_place_of_singleton {frame : Frame} (hOpen : assembly.frames = [frame])
    (hKind : frame.kind = .conditional) (stmt : Stmt) :
    (assembly.place stmt).play limits = (do
      assembly.play limits
      stmt.run limits) := by
  have hPlaced := Assembly.place_of_cons hOpen stmt
  have hStill : (assembly.place stmt).frames =
      [{ frame with body := frame.body.push stmt }] := by
    rw [hPlaced]
  rw [play_of_singleton hStill, play_of_singleton hOpen, hPlaced, frame.play_push hKind,
    bind_assoc]

theorem play_place_of_plain (hShallow : assembly.IsShallow) {stmt : Stmt}
    (hPlain : stmt.IsPlain) :
    (assembly.place stmt).play limits = (do
      assembly.play limits
      stmt.run limits) := by
  rcases hShallow with hNone | ⟨frame, hOpen, hKind⟩
  · rw [play_place_of_nil hNone]
    cases stmt with
    | invalid => cases hPlain
    | _ => rfl
  · exact play_place_of_singleton hOpen hKind stmt

/-! ### The end of a conditional -/

/-- What follows an action that keeps the gate open may reopen it for both. -/
theorem reopened_bind {action : Exec α} (hForward : action.GoesForward)
    {next next' : α → Exec Unit} {machine : Machine} (hGate : machine.gate = true)
    (hNext : ∀ value after, after.gate = true → after.stack = machine.stack →
      next value after = andFinally Machine.reopened (next' value) after) :
    (action >>= next) machine =
      andFinally Machine.reopened (action >>= next') machine := by
  have hAdvances := hForward machine
  rw [andFinally_apply, bind_apply, bind_apply]
  cases hRun : action machine with
  | ok value after =>
      rw [hRun] at hAdvances
      exact hNext value after (hAdvances.gate.trans hGate) hAdvances.stack
  | error problem after =>
      rw [hRun] at hAdvances
      have hStill : after.gate = true := hAdvances.gate.trans hGate
      show EStateM.Result.error problem after = .error problem after.reopened
      rw [Machine.reopened_of_gate hStill]

theorem withGate_of_gate (holds : Bool) (body : List Stmt) {machine : Machine}
    (hGate : machine.gate = true) :
    withGate holds (Stmt.execAll limits (callAt limits (machine.callsLeft limits)) body)
      machine =
      andFinally Machine.reopened (setGate holds >>= fun _ =>
        runAll limits body) machine := by
  rw [withGate_apply, hGate, Bool.true_and]
  rfl

theorem run_close {frame : Frame} (hKind : frame.kind = .conditional)
    {machine : Machine} (hGate : machine.gate = true) :
    (Item.ofStmt frame.close.1).run limits machine =
      andFinally Machine.reopened (frame.play limits) machine := by
  obtain ⟨header, site, body⟩ := frame
  cases header with
  | loop _ | method _ => cases hKind
  | conditional found =>
      cases found with
      | error fault =>
          show EStateM.Result.error _ machine = EStateM.Result.error _ machine.reopened
          rw [Machine.reopened_of_gate hGate]
      | ok condition =>
          show (tick limits site >>= fun _ => test condition site >>= fun holds =>
            withGate holds
              (Stmt.execAll limits (callAt limits (machine.callsLeft limits))
                body.toList)) machine =
            andFinally _ (tick limits site >>= fun _ =>
              test condition site >>= fun holds =>
              setGate holds >>= fun _ => runAll limits body.toList) machine
          refine reopened_bind (goesForward_tick limits site) hGate
            fun _ counted hGate hStack => ?_
          refine reopened_bind (goesForward_test condition site) hGate
            fun holds tested hGate hSame => ?_
          rw [← withGate_of_gate holds body.toList hGate, Machine.callsLeft,
            Machine.callsLeft, hSame, hStack]

theorem leaveConditional_of_nil (hNone : assembly.frames = []) :
    assembly.leaveConditional = assembly := by
  rw [Assembly.leaveConditional, if_neg]
  simp [Assembly.innermost?, Assembly.surroundings, hNone]

theorem leaveConditional_of_singleton {frame : Frame}
    (hOpen : assembly.frames = [frame])
    (hKind : frame.kind = .conditional) :
    assembly.leaveConditional = { assembly with
      frames := [], dropped :=
        assembly.dropped ++ frame.close.2 }.place frame.close.1 := by
  rw [Assembly.leaveConditional, if_pos, Assembly.pop, hOpen]
  simp [Assembly.innermost?, Assembly.surroundings, hOpen, hKind]

theorem frames_leaveConditional (hShallow : assembly.IsShallow) :
    assembly.leaveConditional.frames = [] := by
  rcases hShallow with hNone | ⟨frame, hOpen, hKind⟩
  · rw [leaveConditional_of_nil hNone, hNone]
  · rw [leaveConditional_of_singleton hOpen hKind, Assembly.place_of_nil rfl]

/-- **A conditional that ends is played, and the gate put back.** -/
theorem play_leaveConditional (hShallow : assembly.IsShallow) {machine : Machine}
    (hGate : machine.gate = true) :
    assembly.leaveConditional.play limits machine =
      andFinally Machine.reopened (assembly.play limits) machine := by
  have hItems := goesForward_runItems limits assembly.items.toList
  rcases hShallow with hNone | ⟨frame, hOpen, hKind⟩
  · have hSame : (runItems limits assembly.items.toList >>= fun _ => pure ()) =
        runItems limits assembly.items.toList := bind_pure_unit
    rw [leaveConditional_of_nil hNone, play_of_nil hNone, ← hSame]
    refine reopened_bind hItems hGate fun _ after hGate _ => ?_
    show EStateM.Result.ok () after = .ok () after.reopened
    rw [Machine.reopened_of_gate hGate]
  · rw [leaveConditional_of_singleton hOpen hKind, play_place_of_nil rfl,
      play_of_nil rfl, play_of_singleton hOpen]
    exact reopened_bind hItems hGate fun _ after hGate _ => run_close hKind hGate

/-- The same, with something to follow. -/
theorem play_leaveConditional_bind (hShallow : assembly.IsShallow) {machine : Machine}
    (hGate : machine.gate = true) (next : Exec Unit) :
    (assembly.leaveConditional.play limits >>= fun _ => next) machine =
      (andFinally Machine.reopened (assembly.play limits) >>= fun _ =>
        next) machine := by
  rw [bind_apply, bind_apply, play_leaveConditional hShallow hGate]

theorem play_enter (hNone : assembly.frames = []) {header : Header} {site : Site} :
    (assembly.enter header site).play limits = (do
      assembly.play limits
      { header := header.within [], site : Frame }.play limits) := by
  rw [play_of_nil hNone]
  simp only [Assembly.play, Assembly.enter, Assembly.surroundings, hNone, List.map_nil]

end

/-! ## Flat lines keep an assembly shallow -/

theorem finishFrames_of_isShallow {assembly : Assembly}
    (hShallow : assembly.IsShallow) :
    assembly.finishFrames .complete = assembly.leaveConditional := by
  rcases hShallow with hNone | ⟨frame, hOpen, hKind⟩
  · rw [leaveConditional_of_nil hNone, Assembly.finishFrames, hNone, List.foldl_nil]
  · have hExpire : frame.expire .complete = frame.close := by
      rw [Frame.expire, if_pos ⟨rfl, hKind⟩]
    rw [leaveConditional_of_singleton hOpen hKind, Assembly.finishFrames, hOpen,
      List.foldl_cons, List.foldl_nil, Assembly.pop, hOpen]
    simp only [hExpire]

theorem Assembly.IsShallow.feed {assembly : Assembly} (hShallow : assembly.IsShallow)
    {line : Line} (hFlat : line.IsFlat) : (assembly.feed line).IsShallow := by
  have hPlace : ∀ (assembly : Assembly) stmt, assembly.IsShallow →
      (assembly.place stmt).IsShallow := by
    rintro assembly stmt (hNone | ⟨frame, hOpen, hKind⟩)
    · rw [place_of_nil hNone]
      exact Or.inl hNone
    · rw [place_of_cons hOpen]
      exact Or.inr ⟨_, rfl, hKind⟩
  have hLeft := frames_leaveConditional hShallow
  have hPhrase := hFlat.phrase
  unfold Assembly.feed
  cases hSaid : Phrase.ofLine line with
  | simple stmt | faulty fault gated => exact hPlace assembly _ hShallow
  | opening header =>
      rw [hSaid] at hPhrase
      cases header with
      | loop _ | method _ => cases hPhrase
      | conditional found =>
          refine Or.inr ⟨{ header := .conditional found, site := line.toSite }, ?_, rfl⟩
          show _ :: assembly.leaveConditional.frames = _
          rw [hLeft]
          rfl
  | closing kind surplus =>
      rw [hSaid] at hPhrase
      cases hPhrase
      cases surplus with
      | none => exact Or.inl hLeft
      | some fault => exact hPlace _ _ (Or.inl hLeft)

/-! ## Runs that mirror each other -/

/-- How a run of blocks under limits may end, given how the flat machine ends. -/
inductive Mirrors (limits : Limits) :
    EStateM.Result Diagnostic Machine Unit → EStateM.Result Diagnostic Machine Unit →
      Prop where
  /-- Both come to their end, with the same machine but for the count. -/
  | done (lead : Nat) (after : Machine) :
      Mirrors limits (.ok () (after.resumed lead #[])) (.ok () after)
  /-- Both stop at the same fault. -/
  | stopped (problem : Diagnostic) {final final' : Machine}
      (hStore : final.store = final'.store) (hTrace : final.trace = final'.trace) :
      Mirrors limits (.error problem final) (.error problem final')
  /-- The run of the blocks exhausts its budget. -/
  | exhausted (site : Site) {final : Machine} (hOver : limits.maxSteps < final.steps)
      (other : EStateM.Result Diagnostic Machine Unit) :
      Mirrors limits (.error ⟨.tooManySteps limits.maxSteps, site⟩ final) other

namespace Mirrors

variable {limits larger : Limits} {short long next next' : Exec Unit}
    {start start' : Machine}

theorem bind (hMirrors : Mirrors limits (short start) (long start'))
    (hNext : ∀ lead after, short start = .ok () (after.resumed lead #[]) →
      Mirrors limits (next (after.resumed lead #[])) (next' after)) :
    Mirrors limits ((short >>= fun _ => next) start)
      ((long >>= fun _ => next') start') := by
  rw [bind_apply, bind_apply]
  generalize hShort : short start = first, hLong : long start' = second at hMirrors
  cases hMirrors with
  | done lead after => exact hNext lead after hShort
  | stopped problem hStore hTrace => exact .stopped problem hStore hTrace
  | exhausted site hOver other => exact .exhausted site hOver _

/-- The end of a conditional. -/
theorem reopened (hMirrors : Mirrors limits (short start) (long start')) :
    Mirrors limits (andFinally Machine.reopened short start)
      ((long >>= fun _ => setGate true) start') := by
  rw [bind_apply, andFinally_apply]
  generalize short start = first, long start' = second at hMirrors
  cases hMirrors with
  | done lead after => exact .done lead after.reopened
  | stopped problem hStore hTrace => exact .stopped problem hStore hTrace
  | @exhausted site final hOver other =>
      have hStill : limits.maxSteps < final.reopened.steps := hOver
      exact .exhausted site hStill _

/-- The end of a conditional, with something to follow that does not
depend on the flag. -/
theorem bind_reopened (hMirrors : Mirrors limits (short start) (long start'))
    (hNext : ∀ lead after, Mirrors limits (next (after.reopened.resumed lead #[]))
      (next' after)) :
    Mirrors limits ((andFinally Machine.reopened short >>= fun _ => next) start)
      ((long >>= fun _ => next') start') := by
  rw [bind_apply, bind_apply, andFinally_apply]
  generalize short start = first, long start' = second at hMirrors
  cases hMirrors with
  | done lead after => exact hNext lead after
  | stopped problem hStore hTrace => exact .stopped problem hStore hTrace
  | @exhausted site final hOver other =>
      have hStill : limits.maxSteps < final.reopened.steps := hOver
      exact .exhausted site hStill _

/-- A statement that only the run of the blocks counts. -/
theorem tick (site : Site) {lead : Nat} {machine : Machine}
    {other : EStateM.Result Diagnostic Machine Unit}
    (hNext : ∀ lead, Mirrors limits (next (machine.resumed lead #[])) other) :
    Mirrors limits ((tick limits site >>= fun _ => next) (machine.resumed lead #[]))
      other := by
  rw [bind_apply, tick_apply]
  by_cases hOver : limits.maxSteps < (machine.resumed lead #[]).steps + 1
  · rw [if_pos hOver]
    exact .exhausted site hOver other
  · rw [if_neg hOver]
    have hCounted : { machine.resumed lead #[] with
        steps := (machine.resumed lead #[]).steps + 1 } =
          machine.resumed (lead + 1) #[] := by
      simp only [Machine.resumed, Nat.add_right_comm]
    rw [hCounted]
    exact hNext (lead + 1)

/-- What tracks mirrors, if the bound on calls is the same. -/
theorem of_tracks (hSteps : limits.maxSteps ≤ larger.maxSteps)
    (hDepth : limits.maxCallDepth = larger.maxCallDepth) (lead : Nat)
    (hTracks : (ofLimits hSteps (Nat.le_of_eq hDepth) lead #[]).Tracks short long)
    (machine : Machine) :
    Mirrors limits (short (machine.resumed lead #[])) (long machine) := by
  rcases hTracks.fits machine with hSame | ⟨problem, final, hStop, hLimited, -⟩
  · have hShort : short (machine.resumed lead #[]) =
        resumedResult lead #[] (long machine) := hSame
    rw [hShort]
    cases long machine with
    | ok _ after => exact .done lead after
    | error problem final => exact .stopped problem rfl (by simp)
  · have hShort : short (machine.resumed lead #[]) = .error problem final := hStop
    rw [hShort]
    cases hLimited with
    | steps site hOver => exact .exhausted site hOver _
    | depth site _ hLess => exact absurd hDepth (Nat.ne_of_lt hLess)

/-- What can be seen of two runs that mirror each other. The flag is not seen. -/
theorem ends {first : EStateM.Result Diagnostic Machine Unit} {on : Bool}
    (hMirrors : Mirrors limits first ((long >>= fun _ => setGate on) start)) :
    (∃ site, outcome first = .error ⟨.tooManySteps limits.maxSteps, site⟩ ∧
      limits.maxSteps < (finalState first).steps) ∨
    (outcome first = outcome (long start) ∧
      (finalState first).store = (finalState (long start)).store ∧
      (finalState first).trace = (finalState (long start)).trace) := by
  rw [bind_apply] at hMirrors
  generalize long start = second at hMirrors ⊢
  cases second with
  | ok _ final =>
      have hSet : Mirrors limits first (.ok () { final with gate := on }) := hMirrors
      cases hSet with
      | done lead => exact Or.inr ⟨rfl, rfl, by simp [finalState]⟩
      | exhausted site hOver => exact Or.inl ⟨site, rfl, hOver⟩
  | error problem final =>
      cases hMirrors with
      | stopped _ hStore hTrace => exact Or.inr ⟨rfl, hStore, hTrace⟩
      | exhausted site hOver => exact Or.inl ⟨site, rfl, hOver⟩

end Mirrors

/-! ## Lines one after another -/

section

variable {limits larger : Limits} (hSteps : limits.maxSteps ≤ larger.maxSteps)
  (hDepth : limits.maxCallDepth = larger.maxCallDepth)

include hSteps hDepth

/-- A statement of a flat line is counted and then does what the flat machine does. -/
theorem mirrors_plain {stmt : Stmt} (hPlain : stmt.IsPlain) (lead : Nat)
    (machine : Machine) :
    Mirrors limits (stmt.run limits (machine.resumed lead #[]))
      (stmt.act larger machine) := by
  cases stmt with
  | branch | loop | method | invalid => cases hPlain
  | assign name value site =>
      refine Mirrors.tick site fun lead =>
        Mirrors.of_tracks hSteps hDepth lead ?_ machine
      exact (tracks_valueOf value site).bind fun found => tracks_assign name found
  | draw command site =>
      exact Mirrors.tick site fun lead =>
        Mirrors.of_tracks hSteps hDepth lead (tracks_draw command site) machine
  | call name site =>
      exact Mirrors.tick site fun lead =>
        Mirrors.of_tracks hSteps hDepth lead (tracks_callAt_callsLeft machine name site)
          machine

/-- A line that cannot be read, inside a block. -/
theorem mirrors_invalid (problem : Diagnostic) (gated : Bool) (lead : Nat)
    (machine : Machine) :
    Mirrors limits ((Stmt.invalid problem gated).run limits (machine.resumed lead #[]))
      (raise problem gated machine) :=
  Mirrors.tick problem.site fun lead =>
    Mirrors.of_tracks hSteps hDepth lead (tracks_raise problem gated) machine

omit hSteps hDepth in
/-- The header of a conditional, whatever the flag was before. -/
theorem mirrors_header (found : Except Fault Condition) (site : Site) (lead : Nat)
    (machine : Machine) :
    Mirrors limits
      ({ header := .conditional found, site : Frame }.play limits
        (machine.reopened.resumed lead #[]))
      ((Phrase.opening (.conditional found)).act larger site machine) := by
  cases found with
  | error fault => exact .stopped ⟨fault, site⟩ rfl (by simp [Machine.reopened])
  | ok condition =>
      refine Mirrors.tick site fun lead => ?_
      have hShort : test condition site (machine.reopened.resumed lead #[]) =
          demand site (condition.holdsIn machine.store.vars)
            (machine.reopened.resumed lead #[]) :=
        test_apply condition site _
      show Mirrors limits ((test condition site >>= _) _)
        ((test condition site >>= _) machine)
      rw [bind_apply, bind_apply, hShort, test_apply]
      cases condition.holdsIn machine.store.vars with
      | error fault => exact .stopped ⟨fault, site⟩ rfl (by simp [Machine.reopened])
      | ok holds => exact .done lead { machine with gate := holds }

/-- **A further line is obeyed.** -/
theorem mirrors_feed {assembly : Assembly} (hShallow : assembly.IsShallow) {line : Line}
    (hFlat : line.IsFlat) {start : Machine} (hGate : start.gate = true)
    {flat : Exec Unit}
    (hMirrors : Mirrors limits (assembly.play limits start) (flat start)) :
    Mirrors limits ((assembly.feed line).play limits start)
      ((flat >>= fun _ => line.obey larger) start) := by
  have hLeft := frames_leaveConditional hShallow
  have hPhrase := hFlat.phrase
  rw [obey_eq_act, Assembly.feed]
  cases hSaid : Phrase.ofLine line with
  | simple stmt =>
      rw [hSaid] at hPhrase
      have hPlain : stmt.IsPlain := hPhrase
      show Mirrors limits ((assembly.place stmt).play limits start) _
      rw [play_place_of_plain hShallow hPlain]
      exact hMirrors.bind fun lead after _ =>
        mirrors_plain hSteps hDepth hPlain lead after
  | faulty fault gated =>
      show Mirrors limits
        ((assembly.place (.invalid ⟨fault, line.toSite⟩ gated)).play limits start) _
      rcases hShallow with hNone | ⟨frame, hOpen, hKind⟩
      · rw [play_place_of_nil hNone]
        refine hMirrors.bind fun lead after hShort => ?_
        -- At top level the flag is on, so the fault is raised whether or not the line
        -- is gated.
        have hForward := goesForward_runItems limits assembly.items.toList start
        rw [play_of_nil hNone] at hShort
        rw [hShort] at hForward
        have hOn : after.gate = true := hForward.gate.trans hGate
        show Mirrors limits (.error _ _) (raise _ gated after)
        rw [raise_apply, hOn, Bool.true_or, if_pos rfl]
        exact .stopped _ rfl (by simp)
      · rw [play_place_of_singleton hOpen hKind]
        exact hMirrors.bind fun lead after _ =>
          mirrors_invalid hSteps hDepth _ gated lead after
  | opening header =>
      rw [hSaid] at hPhrase
      cases header with
      | loop _ | method _ => cases hPhrase
      | conditional found =>
          show Mirrors limits
            ((assembly.leaveConditional.enter (.conditional found) line.toSite).play
              limits start) _
          rw [play_enter hLeft, play_leaveConditional_bind hShallow hGate]
          exact hMirrors.bind_reopened (mirrors_header found line.toSite)
  | closing kind surplus =>
      rw [hSaid] at hPhrase
      cases hPhrase
      cases surplus with
      | none =>
          show Mirrors limits (assembly.leaveConditional.play limits start) _
          rw [play_leaveConditional hShallow hGate]
          exact hMirrors.reopened
      | some fault =>
          show Mirrors limits
            ((assembly.leaveConditional.place
              (.invalid ⟨fault, line.toSite⟩ false)).play limits start) _
          rw [play_place_of_nil hLeft, play_leaveConditional_bind hShallow hGate]
          exact hMirrors.bind_reopened fun lead after =>
            .stopped _ rfl (by simp [Machine.reopened])

theorem mirrors_feedAll {lines : List Line} (hFlat : ∀ line ∈ lines, line.IsFlat)
    {start : Machine} (hGate : start.gate = true) :
    ∀ {assembly : Assembly} {flat : Exec Unit}, assembly.IsShallow →
    Mirrors limits (assembly.play limits start) (flat start) →
    (lines.foldl Assembly.feed assembly).IsShallow ∧
      Mirrors limits ((lines.foldl Assembly.feed assembly).play limits start)
        ((flat >>= fun _ => obeyAll larger lines) start) := by
  induction lines with
  | nil =>
      intro assembly flat hShallow hMirrors
      refine ⟨hShallow, ?_⟩
      show Mirrors limits _ ((flat >>= fun _ => pure ()) start)
      rw [bind_pure_unit]
      exact hMirrors
  | cons line rest ih =>
      intro assembly flat hShallow hMirrors
      obtain ⟨hLine, hRest⟩ := List.forall_mem_cons.mp hFlat
      have hNext := mirrors_feed hSteps hDepth hShallow hLine hGate hMirrors
      have hAll := ih hRest (hShallow.feed hLine) hNext
      rw [bind_assoc] at hAll
      exact hAll

/-- A whole script, from a machine with drawing on. -/
theorem mirrors_read {lines : List Line} (hFlat : ∀ line ∈ lines, line.IsFlat)
    {start : Machine} (hGate : start.gate = true) :
    Mirrors limits (runItems limits (read .complete lines).items start)
      ((obeyAll larger lines >>= fun _ => setGate true) start) := by
  have hStart : Mirrors limits (Assembly.play limits {} start)
      ((pure () : Exec Unit) start) := by
    have hDone : Mirrors limits (.ok () (start.resumed 0 #[])) (.ok () start) :=
      .done 0 start
    rw [Machine.resumed_zero] at hDone
    exact hDone
  obtain ⟨hShallow, hMirrors⟩ :=
    mirrors_feedAll hSteps hDepth hFlat hGate (Or.inl rfl) hStart
  have hLeft := frames_leaveConditional hShallow
  have hItems : (read .complete lines).items =
      (lines.foldl Assembly.feed {}).leaveConditional.items.toList := by
    rw [← finishFrames_of_isShallow hShallow]
    rfl
  rw [pure_bind] at hMirrors
  rw [hItems, ← play_of_nil hLeft, play_leaveConditional hShallow hGate]
  exact hMirrors.reopened

end

/-- **A script without loops and methods needs no blocks.** Unless it exhausts
its budget, it ends as the flat machine does, with the same variables,
methods and gestures. -/
theorem runSource_of_flat (session : Session) (source : String)
    (hFlat : ∀ line ∈ Line.ofSource source, line.IsFlat) {budget : Nat}
    (hBudget : session.limits.maxSteps ≤ budget) :
    let nested := session.runSource source
    let flat :=
      obeyAll { session.limits with maxSteps := budget } (Line.ofSource source)
      { store := session.store }
    (∃ site, nested.result = .error ⟨.tooManySteps session.limits.maxSteps, site⟩ ∧
      session.limits.maxSteps < nested.steps) ∨
    (nested.result = outcome flat ∧ nested.session.store = (finalState flat).store ∧
      nested.gestures = (finalState flat).trace.toList) := by
  intro nested flat
  have hMirrors :=
    @mirrors_read session.limits { session.limits with maxSteps := budget } hBudget rfl
    _ hFlat { store := session.store } rfl
  simp only [nested, flat, Session.runSource, Session.runLines]
  rcases hMirrors.ends with ⟨site, hResult, hOver⟩ | ⟨hResult, hStore, hTrace⟩
  · exact Or.inl ⟨site, hResult, hOver⟩
  · exact Or.inr ⟨hResult, hStore, congrArg Array.toList hTrace⟩

/-- One `if` replaces another, and the line that cannot be read is skipped. -/
theorem runSource_of_flat_replaced :
    let session : Session := { limits := { maxSteps := 20 } }
    let source := "if 1 > 2\ncirle 1\nif 2 > 1\ncircle 3\nendif\ncircle 4"
    let flat := obeyAll { session.limits with maxSteps := 30 } (Line.ofSource source)
      { store := session.store }
    (∀ line ∈ Line.ofSource source, line.IsFlat) ∧ session.limits.maxSteps ≤ 30 ∧
      outcome flat = .ok () ∧ (finalState flat).trace.toList = [.circle 3,
        .circle 4] := by
  intro session source flat
  have hAll : (Line.ofSource source).all (fun line => decide line.IsFlat) = true := by
    unfold source
    cbv
  have hFlat : ∀ line ∈ Line.ofSource source, line.IsFlat :=
    fun line hMem => of_decide_eq_true (List.all_eq_true.mp hAll line hMem)
  have hBudget : session.limits.maxSteps ≤ 30 := by decide
  have hResult : (session.runSource source).result = .ok () := by
    unfold session source
    cbv
  have hGestures : (session.runSource source).gestures = [.circle 3, .circle 4] := by
    unfold session source
    cbv
  have hEnds := runSource_of_flat session source hFlat hBudget
  dsimp only at hEnds
  rw [hResult, hGestures] at hEnds
  rcases hEnds with ⟨site, hStop, -⟩ | ⟨hOutcome, -, hTrace⟩
  · cases hStop
  · exact ⟨hFlat, hBudget, hOutcome.symm, hTrace.symm⟩

end PenScript
