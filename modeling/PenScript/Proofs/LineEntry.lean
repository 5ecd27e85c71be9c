import Mathlib
import PenScript.Drawing
import PenScript.Proofs.Headroom
import PenScript.Proofs.OpenEnd
import PenScript.Proofs.RelocatedRuns
import PenScript.Proofs.Texts
import PenScript.Session

/-!
# Entering a script line by line

Lines that are entered one after another are held back while a block is open and
executed when it is closed, so a script that is typed in falls into several
submissions. None of this can be told from the outcome: if no line is refused and
nothing is held back in the end, then the same lines run as one script do the
same, unless the budget, which each submission has for itself, is now too small
for all of them.

The cuts are made where reading the whole script has no block open either, so its
items are those of the submissions, one after another. What remains is that the
methods a script defines know where their lines stand, and the two ways of
running it number the lines differently. Up to these numbers everything is the
same.

## Main results

* `frames_of_settled`: a line is executed when no block is open;
* `enter_cases`: what a line that is not refused does to a session;
* `runSource_of_enterAll`: the lines as one script.
-/

namespace PenScript

open Exec Headroom

/-! ## A sitting -/

/-- What lines that were entered one after another have led to. -/
structure Transcript where
  session : Session
  drawing : Drawing
  /-- The gestures made, in order. -/
  gestures : List Gesture
  /-- The statements counted, by all submissions together. -/
  steps : Nat

/-- Enters lines one after another, up to the first that is refused. A drawing follows
the gestures of each. -/
def Session.enterAll (session : Session) (drawing : Drawing) :
    List String → Except Diagnostic Transcript
  | [] => .ok { session, drawing, gestures := [], steps := 0 }
  | line :: rest =>
      let entry := session.enter line
      match entry.result with
      | .error problem => .error problem
      | .ok _ => do
          let others ← entry.session.enterAll (drawing.play entry.gestures) rest
          return { others with
            gestures := entry.gestures ++ others.gestures, steps :=
              entry.steps + others.steps }

section

variable {session : Session} {drawing : Drawing} {line : String} {rest : List String}

theorem enterAll_cons {entry : Submission Progress}
    (hEnter : session.enter line = entry)
    {progress : Progress} (hResult : entry.result = .ok progress) :
    session.enterAll drawing (line :: rest) =
      (entry.session.enterAll (drawing.play entry.gestures) rest).map fun others =>
        { others with
          gestures := entry.gestures ++ others.gestures, steps :=
            entry.steps + others.steps } := by
  rw [Session.enterAll, hEnter, hResult]
  dsimp only
  cases entry.session.enterAll (drawing.play entry.gestures) rest <;> rfl

theorem exists_of_enterAll_cons {entered : Transcript}
    (hEntered : session.enterAll drawing (line :: rest) = .ok entered) :
    ∃ progress others, (session.enter line).result = .ok progress ∧
      (session.enter line).session.enterAll (drawing.play (session.enter line).gestures)
        rest =
        .ok others ∧
      entered = { others with
        gestures := (session.enter line).gestures ++ others.gestures
        steps := (session.enter line).steps + others.steps } := by
  cases hResult : (session.enter line).result with
  | error problem =>
      rw [Session.enterAll, hResult] at hEntered
      cases hEntered
  | ok progress =>
      rw [enterAll_cons rfl hResult] at hEntered
      cases hOthers : (session.enter line).session.enterAll
          (drawing.play (session.enter line).gestures) rest with
      | error problem =>
          rw [hOthers] at hEntered
          cases hEntered
      | ok others =>
          rw [hOthers] at hEntered
          cases hEntered
          exact ⟨progress, others, rfl, rfl, rfl⟩

end

/-- A store without the numbers of the lines its methods come from. -/
def Store.unnumbered (store : Store) : Store := store.relocate Site.unnumbered

/-! ## Where a script is cut -/

/-- **Where more lines need not follow, no block is open.** -/
theorem frames_of_settled {lines : List Line}
    (hFaultless : (read .provisional lines).firstFault? = none)
    (hSettled : (read .provisional lines).isOpen = false) :
    (Assembly.ofLines lines).frames = [] := by
  cases hFrames : (Assembly.ofLines lines).frames.getLast? with
  | none => exact List.getLast?_eq_none_iff.mp hFrames
  | some frame =>
      have hItem : Except.error frame.failure ∈ (read .provisional lines).items := by
        rw [read, Assembly.items_finish_provisional, hFrames]
        exact List.mem_append_right _ (List.mem_singleton_self _)
      have hFault := List.findSome?_eq_none_iff.mp hFaultless _ hItem
      simp [Reading.isOpen_eq_false_iff.mp hSettled _ hItem] at hFault

/-! ## Runs one after another -/

/-- The machine between submissions, with what the submissions so far have
counted and drawn. -/
def Machine.between (store : Store) (steps : Nat) (trace : Array Gesture) : Machine :=
  { store := store.unnumbered, steps, trace }

theorem between_eq {machine : Machine} (hGate : machine.gate = true)
    (hStack : machine.stack = [])
    (lead : Nat) (earlier : Array Gesture) :
    (machine.relocate Site.unnumbered).resumed lead earlier =
      .between machine.store (lead + machine.steps) (earlier ++ machine.trace) := by
  cases machine
  cases hGate
  cases hStack
  rfl

/-- Whether items lead to a machine, unless it has counted more than
the budget allows. -/
def Arrives (limits : Limits) (items : List Item) (start target : Machine) : Prop :=
  runItems limits items start = .ok () target ∨
    limits.maxSteps < target.steps ∧ ∃ site final,
      runItems limits items start = .error ⟨.tooManySteps limits.maxSteps, site⟩ final

theorem Arrives.append {limits : Limits} {front back : List Item}
    {start middle target : Machine}
    (hFront : Arrives limits front start middle)
    (hBack : Arrives limits back middle target)
    (hSteps : middle.steps ≤ target.steps) :
    Arrives limits (front ++ back) start target := by
  unfold Arrives
  rw [runItems_append, bind_apply]
  rcases hFront with hEnd | ⟨hOver, site, final, hStop⟩
  · rw [hEnd]
    exact hBack
  · rw [hStop]
    exact Or.inr ⟨Nat.lt_of_lt_of_le hOver hSteps, site, final, rfl⟩

/-- Where moved items arrive, the items arrive as well. -/
theorem Arrives.of_relocate {limits : Limits} {items : List Item}
    {start target : Machine} {f : Site → Site}
    (hArrives : Arrives limits (items.map (Item.relocate f))
      (start.relocate f) target) :
    (∃ after, runItems limits items start = .ok () after ∧ after.relocate f = target) ∨
      limits.maxSteps < target.steps ∧ ∃ site final,
        runItems limits items start =
          .error ⟨.tooManySteps limits.maxSteps, site⟩ final := by
  unfold Arrives at hArrives
  rw [runItems_relocate] at hArrives
  cases hRun : runItems limits items start with
  | ok _ after =>
      rw [hRun] at hArrives
      rcases hArrives with hEnd | ⟨-, site, final, hStop⟩
      · cases hEnd
        exact Or.inl ⟨after, rfl, rfl⟩
      · cases hStop
  | error problem after =>
      rw [hRun] at hArrives
      rcases hArrives with hEnd | ⟨hOver, site, final, hStop⟩
      · cases hEnd
      · obtain ⟨fault, origin⟩ := problem
        cases hStop
        exact Or.inr ⟨hOver, origin, after, rfl⟩

/-- A run that succeeds by itself succeeds later on, as far as the budget goes. -/
theorem arrives_resumed {limits : Limits} {items : List Item} {start target : Machine}
    (hRun : runItems limits items start = .ok () target) (lead : Nat)
    (earlier : Array Gesture) :
    Arrives limits items (start.resumed lead earlier)
      (target.resumed lead earlier) := by
  let room :=
    ofLimits (Nat.le_refl limits.maxSteps) (Nat.le_refl limits.maxCallDepth)
    lead earlier
  have hFits := (@tracks_runItems room items).fits start
  have hRoomy : runItems room.roomy items start = .ok () target := hRun
  rw [hRoomy] at hFits
  rcases hFits with hSame | ⟨problem, final, hStop, hLimited, hBehind⟩
  · exact Or.inl hSame
  · cases hLimited with
    | steps site hOver =>
        exact Or.inr ⟨Nat.lt_of_lt_of_le hOver hBehind.steps, site, final, hStop⟩
    | depth site _ hLess => exact absurd hLess (Nat.lt_irrefl _)

/-- What was executed in one submission, as part of a longer run. -/
theorem arrives_runLines {session : Session} {lines : List Line}
    (hResult : (session.runLines lines).result = .ok ()) (lead : Nat)
    (earlier : Array Gesture) :
    Arrives session.limits
      (read .complete (lines.map (Line.relocate Site.unnumbered))).items
      (.between session.store lead earlier)
      (.between (session.runLines lines).session.store
        (lead + (session.runLines lines).steps)
        (earlier ++ (session.runLines lines).gestures.toArray)) := by
  have hForward := goesForward_runItems session.limits (read .complete lines).items
    { store := session.store }
  have hMoved :=
    runItems_relocate Site.unnumbered session.limits (read .complete lines).items
    { store := session.store }
  unfold Session.runLines at hResult ⊢
  dsimp only at hResult ⊢
  cases hRun : runItems session.limits (read .complete lines).items
    { store := session.store } with
  | error problem after =>
      rw [hRun] at hResult
      cases hResult
  | ok _ after =>
      rw [hRun] at hForward hMoved
      rw [items_read_relocate]
      have hLater := arrives_resumed hMoved lead earlier
      have hGate : after.gate = true := hForward.gate
      have hStack : after.stack = [] := hForward.stack
      rw [between_eq rfl rfl, between_eq hGate hStack] at hLater
      simpa only [finalState, Nat.add_zero, Array.append_empty,
        Array.toArray_toList] using hLater

/-! ## One line -/

/-- The lines that are read when a line is entered: those held before, and the line. -/
def Session.linesWith (session : Session) (line : String) : List Line :=
  Line.ofSource (String.intercalate "\n" (session.held ++ [Text.trimmed line]))

section

variable {session : Session} {line : String}

theorem enter_of_blank (hBlank : (Line.words line.toList).isEmpty = true) :
    session.enter line =
      { result := .ok (if session.isPending then .held else .executed), session } := by
  rw [Session.enter, if_pos hBlank]

theorem enter_of_fault (hWords : (Line.words line.toList).isEmpty = false)
    {problem : Diagnostic}
    (hFault : (read .provisional (session.linesWith line)).firstFault? = some problem) :
    session.enter line =
      { result := .error problem, session := { session with held := [] } } := by
  unfold Session.linesWith at hFault
  rw [Session.enter, hWords, if_neg Bool.false_ne_true]
  simp only [hFault]

theorem enter_of_open (hWords : (Line.words line.toList).isEmpty = false)
    (hFault : (read .provisional (session.linesWith line)).firstFault? = none)
    (hOpen : (read .provisional (session.linesWith line)).isOpen = true) :
    session.enter line =
      { result := .ok .held
        session := { session with held := session.held ++ [Text.trimmed line] } } := by
  unfold Session.linesWith at hFault hOpen
  rw [Session.enter, hWords, if_neg Bool.false_ne_true]
  simp only [hFault, hOpen, if_true]

theorem enter_of_settled (hWords : (Line.words line.toList).isEmpty = false)
    (hFault : (read .provisional (session.linesWith line)).firstFault? = none)
    (hSettled : (read .provisional (session.linesWith line)).isOpen = false) :
    session.enter line =
      ({ session with held := [] }.runLines (session.linesWith line)).withValue
        .executed := by
  unfold Session.linesWith at hFault hSettled ⊢
  rw [Session.enter, hWords, if_neg Bool.false_ne_true]
  simp only [hFault, hSettled, Bool.false_eq_true, if_false]

end

/-- What became of a line that is not refused: it changed nothing but the lines that are
held, or it was executed with them. -/
inductive Session.Entry (session : Session) (line : String) : Prop where
  | kept (hQuiet : (session.enter line).gestures = [] ∧ (session.enter line).steps = 0)
      (hSame : (session.enter line).session.store = session.store ∧
        (session.enter line).session.limits = session.limits)
      (hHeld : unnumberedLines (session.enter line).session.held =
        unnumberedLines (session.held ++ [line]))
      (hTexts : ∀ text ∈ (session.enter line).session.held, OneLine text)
  | executed (hIdle : (session.enter line).session.held = [])
      (hLimits : (session.enter line).session.limits = session.limits)
      (hClosed : (Assembly.ofLines (unnumberedLines (session.held ++ [line]))).frames =
        [])
      (hArrives : ∀ lead earlier, Arrives session.limits
        (read .complete (unnumberedLines (session.held ++ [line]))).items
        (.between session.store lead earlier)
        (.between (session.enter line).session.store (lead + (session.enter line).steps)
          (earlier ++ (session.enter line).gestures.toArray)))

theorem entry_of_blank (session : Session) {line : String}
    (hHeld : ∀ text ∈ session.held, OneLine text)
    (hBlank : (Line.words line.toList).isEmpty = true) : session.Entry line := by
  have hEnter := @enter_of_blank session line hBlank
  have hNone : unnumberedLines [line] = [] := by
    have hNoLine := (Line.words_eq_nil_iff line).mp (List.isEmpty_iff.mp hBlank)
    rw [unnumberedLines, List.filterMap_cons, hNoLine]
    rfl
  refine .kept ?_ ?_ ?_ ?_
  · rw [hEnter]
    exact ⟨rfl, rfl⟩
  · rw [hEnter]
    exact ⟨rfl, rfl⟩
  · rw [hEnter, unnumberedLines_append, hNone, List.append_nil]
  · rw [hEnter]
    exact hHeld

theorem entry_of_held {session : Session} {line : String} {held : List String}
    (hEnter : session.enter line =
      { result := .ok .held, session := { session with held } })
    (hTexts : ∀ text ∈ held, OneLine text)
    (hSame : unnumberedLines held = unnumberedLines (session.held ++ [line])) :
    session.Entry line := by
  refine .kept ?_ ?_ ?_ ?_
  · rw [hEnter]
    exact ⟨rfl, rfl⟩
  · rw [hEnter]
    exact ⟨rfl, rfl⟩
  · rw [hEnter]
    exact hSame
  · rw [hEnter]
    exact hTexts

theorem entry_of_runLines {session : Session} {line : String} {lines : List Line}
    {progress : Progress} (hResult : (session.enter line).result = .ok progress)
    (hEnter : session.enter line =
      ({ session with held := [] }.runLines lines).withValue .executed)
    (hClosed : (Assembly.ofLines lines).frames = [])
    (hSame : lines.map (Line.relocate Site.unnumbered) =
      unnumberedLines (session.held ++ [line])) :
    session.Entry line := by
  have hOk : ({ session with held := [] }.runLines lines).result = .ok () := by
    rw [hEnter, Submission.withValue] at hResult
    cases hRun : ({ session with held := [] }.runLines lines).result with
    | ok _ => rfl
    | error problem =>
        rw [hRun] at hResult
        cases hResult
  refine .executed ?_ ?_ ?_ fun lead earlier => ?_
  · rw [hEnter]
    rfl
  · rw [hEnter]
    rfl
  · rw [← hSame, frames_ofLines_relocate, hClosed, List.map_nil]
  · rw [← hSame, hEnter]
    exact arrives_runLines hOk lead earlier

/-- **What a line does that is not refused.** -/
theorem enter_cases {session : Session} {line : String}
    (hHeld : ∀ text ∈ session.held, OneLine text) (hLine : OneLine line)
    {progress : Progress}
    (hResult : (session.enter line).result = .ok progress) : session.Entry line := by
  cases hWords : (Line.words line.toList).isEmpty with
  | true => exact entry_of_blank session hHeld hWords
  | false =>
      have hTexts : ∀ text ∈ session.held ++ [Text.trimmed line], OneLine text := by
        intro text hMem
        rcases List.mem_append.mp hMem with hOld | hNew
        · exact hHeld text hOld
        · exact List.mem_singleton.mp hNew ▸ oneLine_trimmed hLine
      have hSame : unnumberedLines (session.held ++ [Text.trimmed line]) =
          unnumberedLines (session.held ++ [line]) := by
        rw [unnumberedLines_append, unnumberedLines_trimmed, unnumberedLines_append]
      cases hFault : (read .provisional (session.linesWith line)).firstFault? with
      | some problem =>
          rw [enter_of_fault hWords hFault] at hResult
          cases hResult
      | none =>
          cases hOpen : (read .provisional (session.linesWith line)).isOpen with
          | true => exact entry_of_held (enter_of_open hWords hFault hOpen) hTexts hSame
          | false =>
              exact entry_of_runLines hResult (enter_of_settled hWords hFault hOpen)
                (frames_of_settled hFault hOpen)
                  ((Line.ofSource_intercalate hTexts).trans hSame)

/-! ## The whole sitting -/

theorem items_unnumberedLines_append {front : List String}
    (hClosed : (Assembly.ofLines (unnumberedLines front)).frames = [])
    (back : List String) :
    (read .complete (unnumberedLines (front ++ back))).items =
      (read .complete (unnumberedLines front)).items ++
        (read .complete (unnumberedLines back)).items := by
  have hBack :=
    items_read_append_relocate Site.unnumbered hClosed .complete (unnumberedLines back)
  rwa [← items_read_relocate, relocate_unnumberedLines,
    ← unnumberedLines_append] at hBack

/-- **The lines of a sitting, read as one script, arrive where the sitting does.** The
lines that are held when it begins are the first of the script. -/
theorem enterAll_arrives {lines : List String} :
    ∀ {session : Session} {drawing : Drawing}
    {entered : Transcript}, (∀ text ∈ session.held, OneLine text) →
      (∀ line ∈ lines, OneLine line) →
    session.enterAll drawing lines = .ok entered → entered.session.held = [] →
    entered.drawing = drawing.play entered.gestures ∧
      ∀ lead earlier, Arrives session.limits
        (read .complete (unnumberedLines (session.held ++ lines))).items
        (.between session.store lead earlier)
        (.between entered.session.store (lead + entered.steps)
          (earlier ++ entered.gestures.toArray)) := by
  induction lines with
  | nil =>
      intro session drawing entered _ _ hEntered hDone
      cases hEntered
      have hHeld : session.held = [] := hDone
      refine ⟨rfl, fun lead earlier => Or.inl ?_⟩
      rw [hHeld]
      simp only [Nat.add_zero, Array.append_empty]
      rfl
  | cons line rest ih =>
      intro session drawing entered hHeld hLines hEntered hDone
      obtain ⟨hLine, hRest⟩ := List.forall_mem_cons.mp hLines
      obtain ⟨progress, others, hResult, hOthers, rfl⟩ :=
        exists_of_enterAll_cons hEntered
      have hSplit : session.held ++ line :: rest =
          (session.held ++ [line]) ++ rest := by
        rw [List.append_assoc, List.singleton_append]
      rw [hSplit]
      cases enter_cases hHeld hLine hResult with
      | kept hQuiet hSame hLines hTexts =>
          obtain ⟨hDrawing, hArrives⟩ := ih hTexts hRest hOthers hDone
          refine ⟨?_, fun lead earlier => ?_⟩
          · rw [Drawing.play_append]
            exact hDrawing
          · have hLater := hArrives lead earlier
            rw [unnumberedLines_append, hLines, ← unnumberedLines_append, hSame.1,
              hSame.2] at hLater
            rw [hQuiet.1, hQuiet.2, Nat.zero_add, List.nil_append]
            exact hLater
      | executed hIdle hLimits hClosed hFirst =>
          have hNoTexts : ∀ text ∈ (session.enter line).session.held, OneLine text := by
            rw [hIdle]
            exact fun _ hMem => absurd hMem List.not_mem_nil
          obtain ⟨hDrawing, hArrives⟩ := ih hNoTexts hRest hOthers hDone
          refine ⟨?_, fun lead earlier => ?_⟩
          · rw [Drawing.play_append]
            exact hDrawing
          · have hLater := hArrives (lead + (session.enter line).steps)
              (earlier ++ (session.enter line).gestures.toArray)
            rw [hIdle, List.nil_append, hLimits] at hLater
            rw [items_unnumberedLines_append hClosed, ← List.append_toArray,
              ← Array.append_assoc, ← Nat.add_assoc]
            exact (hFirst lead earlier).append hLater (Nat.le_add_right _ _)

/-- **A script entered line by line does what it does as one script**, unless the
statements of all its submissions together are more than the budget of one. The methods
it defines are the same but for the numbers of their lines. -/
theorem runSource_of_enterAll {session : Session} {drawing : Drawing}
    {lines : List String} {entered : Transcript} (hIdle : session.held = [])
    (hLines : ∀ line ∈ lines, OneLine line)
    (hEntered : session.enterAll drawing lines = .ok entered)
    (hDone : entered.session.held = []) :
    let batch := session.runSource (String.intercalate "\n" lines)
    (session.limits.maxSteps < entered.steps ∧
      ∃ site, batch.result = .error ⟨.tooManySteps session.limits.maxSteps, site⟩) ∨
    (batch.result = .ok () ∧ batch.session.store.vars = entered.session.store.vars ∧
      batch.gestures = entered.gestures ∧
        drawing.play batch.gestures = entered.drawing ∧
      batch.session.store.unnumbered.methods =
        entered.session.store.unnumbered.methods ∧
      batch.steps = entered.steps) := by
  intro batch
  have hNoTexts : ∀ text ∈ session.held, OneLine text := by
    rw [hIdle]
    exact fun _ hMem => absurd hMem List.not_mem_nil
  obtain ⟨hDrawing, hArrives⟩ := enterAll_arrives hNoTexts hLines hEntered hDone
  have hBatch := hArrives 0 #[]
  have hItems : (read .complete (unnumberedLines lines)).items =
      (readSource (String.intercalate "\n" lines)).items.map
        (Item.relocate Site.unnumbered) := by
    rw [← Line.ofSource_intercalate hLines, items_read_relocate]
    rfl
  rw [hIdle, List.nil_append, hItems, Nat.zero_add, Array.empty_append] at hBatch
  have hStart : Machine.between session.store 0 #[] =
      ({ store := session.store } : Machine).relocate Site.unnumbered := rfl
  rw [hStart] at hBatch
  have hRuns := hBatch.of_relocate
  simp only [batch, Session.runSource, Session.runLines]
  rcases hRuns with ⟨after, hRun, hAfter⟩ | ⟨hOver, site, final, hRun⟩
  · have hStore : after.store.unnumbered = entered.session.store.unnumbered :=
      congrArg Machine.store hAfter
    have hSteps : after.steps = entered.steps := congrArg Machine.steps hAfter
    have hTrace : after.trace = entered.gestures.toArray :=
      congrArg Machine.trace hAfter
    have hGestures : after.trace.toList = entered.gestures := by rw [hTrace]
    have hVars : after.store.unnumbered.vars = entered.session.store.unnumbered.vars :=
      congrArg Store.vars hStore
    right
    rw [readSource] at hRun
    rw [hRun]
    refine ⟨rfl, hVars, hGestures, ?_, congrArg Store.methods hStore, hSteps⟩
    rw [hDrawing]
    exact congrArg drawing.play hGestures
  · left
    rw [readSource] at hRun
    rw [hRun]
    exact ⟨hOver, site, rfl⟩

/-- A conditional is held until its `endif` is entered. -/
theorem runSource_of_enterAll_conditional :
    let lines := ["if 1 < 2", " pen red", "endif"]
    let batch := ({} : Session).runSource (String.intercalate "\n" lines)
    ∃ entered, ({} : Session).enterAll {} lines = .ok entered ∧
      entered.session.held = [] ∧
      (∀ line ∈ lines, OneLine line) ∧ batch.result = .ok () ∧
        batch.gestures = entered.gestures ∧
      entered.gestures = [.setColor .red] := by
  intro lines batch
  let whole : Session := { held := ["if 1 < 2", "pen red"] }
  let last : Submission Unit := ({} : Session).runLines (whole.linesWith "endif")
  have hFirst : ({} : Session).enter "if 1 < 2" =
      { result := .ok .held, session := { held := ["if 1 < 2"] } } :=
    enter_of_open (by cbv) (by cbv) (by cbv)
  have hSecond : ({ held := ["if 1 < 2"] } : Session).enter " pen red" =
      { result := .ok .held, session := whole } :=
    enter_of_open (by cbv) (by cbv) (by cbv)
  have hThird : whole.enter "endif" = last.withValue .executed :=
    enter_of_settled (by cbv) (by cbv) (by cbv)
  have hResult : last.result = .ok () := by
    unfold last whole
    cbv
  have hGestures : last.gestures = [.setColor .red] := by
    unfold last whole
    cbv
  have hSteps : last.steps = 2 := by
    unfold last whole
    cbv
  have hExecuted : (last.withValue Progress.executed).result = .ok .executed := by
    rw [Submission.withValue, hResult]
    rfl
  have hEntered : ({} : Session).enterAll {} lines = .ok
      { session := last.session, drawing := ({} : Drawing).play last.gestures
        gestures := last.gestures, steps := last.steps } := by
    rw [enterAll_cons hFirst rfl, enterAll_cons hSecond rfl,
      enterAll_cons hThird hExecuted]
    simp [Session.enterAll, Except.map, Submission.withValue, Drawing.play]
  have hLines : ∀ line ∈ lines, OneLine line := by decide
  refine ⟨_, hEntered, rfl, hLines, ?_⟩
  rcases runSource_of_enterAll rfl hLines hEntered rfl with
    ⟨hOver, -⟩ | ⟨hOk, -, hSame, -⟩
  · rw [hSteps] at hOver
    have hWithin : ¬({} : Session).limits.maxSteps < 2 := by decide
    exact absurd hOver hWithin
  · refine ⟨hOk, hSame, ?_⟩
    dsimp only
    exact hGestures

end PenScript
