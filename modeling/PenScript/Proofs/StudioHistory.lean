import Mathlib
import PenScript.Proofs.Deeds
import PenScript.Studio.Desk

/-!
# The studio after any history

What the window holds is a function of what has been done in it, and each part of it
remembers something else. The session and the drawing remember the deeds: runs, commands
and resets, each with the text that stood there at the time. The texts remember editing
and loading. The errors reach back to the latest action that starts a clean list. The
status is the latest good news, and the tab the latest choice or failure.

All of this is told from a journal, which writes down for each action what it gives
notice of. The journal is kept without a window: it needs the texts and the session
only, and these follow from the actions.

One step lemma says what an action does to every part of the window. The rest is
induction on the history.

## Main results

* `session_replay`: the session of the window is one that has lived through deeds;
* `act_eq`: what an action does;
* `stage_acts`, `errors_acts`, `latest_acts`: what a history leaves;
* `foldl_showing`: how far back the errors reach;
* `studio_performAll`: what the files answer is all that matters about them;
* `studio_of_acts`: the window after any history.
-/

namespace PenScript

/-! ## What actions depend on -/

/-- The texts that can be edited. -/
structure Texts where
  source : String
  command : String
  path : String
deriving DecidableEq

/-- A session, with the drawing that follows it. -/
structure Stage where
  session : Session
  drawing : Drawing

/-- The texts after an action. A command is taken from its line, and a loaded
text replaces the script. -/
def Texts.after (texts : Texts) : Action → Texts
  | .editSource text | .load (.ok text) => { texts with source := text }
  | .editCommand text => { texts with command := text }
  | .editPath text => { texts with path := text }
  | .enter => { texts with command := "" }
  | .select _ | .run | .check | .reset | .load (.error _) | .save _ => texts

/-- What an action has the session do, if anything. -/
def Action.deed? (texts : Texts) : Action → Option Deed
  | .run => some (.run texts.source)
  | .enter => some (.enter texts.command)
  | .reset => some .reset
  | _ => none

/-- What actions have the session do, one after another, with the texts they find. -/
def deedsOf : Texts → List Action → List Deed
  | _, [] => []
  | texts, action :: rest =>
      (action.deed? texts).toList ++ deedsOf (texts.after action) rest

namespace Stage

/-- The session does a deed, and the drawing follows the gestures or is a new one. -/
def follow (stage : Stage) : Deed → Stage
  | .run source =>
      let submission := stage.session.runSource source
      { session := submission.session,
        drawing := stage.drawing.play submission.gestures }
  | .enter line =>
      let submission := stage.session.enter line
      { session := submission.session,
        drawing := stage.drawing.play submission.gestures }
  | .reset => { session := stage.session.reset, drawing := {} }

/-- Deeds are followed one after another. -/
def replay (stage : Stage) (deeds : List Deed) : Stage := deeds.foldl follow stage

/-- The session lives through the deeds whether or not a drawing follows. -/
theorem session_replay (stage : Stage) (deeds : List Deed) :
    (stage.replay deeds).session = stage.session.live deeds := by
  induction deeds generalizing stage with
  | nil => rfl
  | cons deed rest ih =>
      have hFollow : (stage.follow deed).session = stage.session.after deed := by
        cases deed <;> rfl
      show ((stage.follow deed).replay rest).session =
        (stage.session.after deed).live rest
      rw [ih, hFollow]

end Stage

/-! ## The journal -/

/-- What an action gives notice of: nothing, that it went well, or what went wrong. -/
inductive Notice where
  | silent
  | success (status : String)
  | failure (entries : List String)

namespace Notice

/-- The errors it adds. -/
def entries : Notice → List String
  | failure entries => entries
  | silent | success _ => []

/-- The status it sets. -/
def status? : Notice → Option String
  | success status => some status
  | silent | failure _ => none

end Notice

namespace Action

/-- Whether an action starts a clean list of errors. -/
def renews : Action → Bool
  | run | check | enter | reset => true
  | editSource _ | editCommand _ | editPath _ | select _ | load _ | save _ => false

/-- Whether the file system refuses what an action asks for. -/
def isRefused : Action → Bool
  | load (.error _) | save (.error _) => true
  | _ => false

/-- What an action gives notice of, for the session and the texts it finds. An entry
names the kind of what is wrong, and then says what it is. -/
def notice (session : Session) (texts : Texts) : Action → Notice
  | run =>
      match (session.runSource texts.source).result with
      | .ok () => .success "ran script"
      | .error problem => .failure [s!"[{problem.kind.name}] {problem.text}"]
  | check =>
      match PenScript.check texts.source with
      | .ok _ => .success "syntax ok"
      | .error problems =>
          .failure (problems.map fun problem =>
            s!"[{problem.kind.name}] {problem.text}")
  | enter =>
      match (session.enter texts.command).result with
      | .ok .executed => .success s!"ran `{Text.trimmed texts.command}`"
      | .ok .held => .success "block open, waiting for its closing line"
      | .error problem => .failure [s!"[{problem.kind.name}] {problem.text}"]
  | reset => .success "session reset"
  | load (.ok _) => .success s!"loaded {texts.path}"
  | load (.error reason) => .failure [s!"[io] cannot read {texts.path}: {reason}"]
  | save (.ok ()) => .success s!"saved {texts.path}"
  | save (.error reason) => .failure [s!"[io] cannot write {texts.path}: {reason}"]
  | editSource _ | editCommand _ | editPath _ | select _ => .silent

end Action

/-- An action with what it gave notice of. -/
structure Remark where
  action : Action
  notice : Notice

/-- The tab a remark brings to the front. -/
def Remark.tab? : Remark → Option Tab
  | ⟨.select tab, _⟩ => some tab
  | ⟨_, .failure _⟩ => some .errors
  | ⟨_, _⟩ => none

/-- What actions give notice of, one after another. -/
def journal : Stage → Texts → List Action → List Remark
  | _, _, [] => []
  | stage, texts, action :: rest =>
      ⟨action, action.notice stage.session texts⟩ ::
        journal (stage.replay (action.deed? texts).toList) (texts.after action) rest

/-- The errors shown after a remark. -/
def showing (shown : List String) (remark : Remark) : List String :=
  (if remark.action.renews then [] else shown) ++ remark.notice.entries

/-! ## Small laws -/

/-- Of the actions that start no clean list, only those that are refused add an
error, and each adds one. -/
theorem Action.length_entries_notice {action : Action} (hAdds : action.renews = false)
    (session : Session) (texts : Texts) :
    (action.notice session texts).entries.length =
      if action.isRefused then 1 else 0 := by
  cases action with
  | run | check | enter | reset => cases hAdds
  | editSource | editCommand | editPath | select => rfl
  | load answer => cases answer <;> rfl
  | save answer => cases answer <;> rfl

theorem notice_of_mem_journal {stage : Stage} {texts : Texts} {actions : List Action}
    {remark : Remark} (hMem : remark ∈ journal stage texts actions) :
    ∃ session found, remark.notice = remark.action.notice session found := by
  induction actions generalizing stage texts with
  | nil => cases hMem
  | cons action rest ih =>
      rcases List.mem_cons.mp hMem with rfl | hLater
      · exact ⟨_, _, rfl⟩
      · exact ih hLater

/-! ## One action -/

namespace Studio

/-- The texts of the window. -/
def texts (studio : Studio) : Texts := ⟨studio.source, studio.command, studio.path⟩

/-- The session of the window, with its drawing. -/
def stage (studio : Studio) : Stage := ⟨studio.session, studio.drawing⟩

/-- Does actions one after another. -/
def acts (studio : Studio) (actions : List Action) : Studio := actions.foldl act studio

/-- What an action gives notice of in this window. -/
def remark (studio : Studio) (action : Action) : Remark :=
  ⟨action, action.notice studio.session studio.texts⟩

variable (studio : Studio)

/-- **What an action does** to every part of the window. -/
theorem act_eq (action : Action) :
    let texts := studio.texts.after action
    let stage := studio.stage.replay (action.deed? studio.texts).toList
    let remark := studio.remark action
    studio.act action =
      { source := texts.source
        command := texts.command
        path := texts.path
        session := stage.session
        drawing := stage.drawing
        errors :=
          (if action.renews then #[] else studio.errors).appendList
          remark.notice.entries
        status := remark.notice.status?.getD studio.status
        tab := remark.tab?.getD studio.tab } := by
  cases action with
  | editSource | editCommand | editPath | select | reset => rfl
  | run =>
      simp only [act, runScript, remark, Action.notice, texts]
      cases (studio.session.runSource studio.source).result <;> rfl
  | check =>
      simp only [act, checkScript, remark, Action.notice, texts]
      cases PenScript.check studio.source <;> rfl
  | enter =>
      simp only [act, enterCommand, remark, Action.notice, texts]
      rcases (studio.session.enter studio.command).result with problem | (_ | _) <;> rfl
  | load answer => cases answer <;> rfl
  | save answer => cases answer <;> rfl

theorem errors_act (action : Action) :
    (studio.act action).errors.toList =
      (if action.renews then [] else studio.errors.toList) ++
        (studio.remark action).notice.entries := by
  rw [act_eq]
  cases action.renews <;> simp

theorem status_act (action : Action) :
    (studio.act action).status =
      (studio.remark action).notice.status?.getD studio.status := by
  rw [act_eq]

theorem tab_act (action : Action) :
    (studio.act action).tab = (studio.remark action).tab?.getD studio.tab := by
  rw [act_eq]

theorem texts_act (action : Action) :
    (studio.act action).texts = studio.texts.after action := by
  rw [act_eq]
  rfl

theorem stage_act (action : Action) :
    (studio.act action).stage =
      studio.stage.replay (action.deed? studio.texts).toList := by
  rw [act_eq]
  rfl

/-! ## Whole histories -/

theorem acts_cons (action : Action) (rest : List Action) :
    studio.acts (action :: rest) = (studio.act action).acts rest := rfl

/-- What is noted in a window is what the journal says. -/
theorem journal_cons (action : Action) (rest : List Action) :
    journal studio.stage studio.texts (action :: rest) =
      studio.remark action ::
        journal (studio.act action).stage (studio.act action).texts rest := by
  rw [journal, texts_act, stage_act]
  rfl

theorem texts_acts (actions : List Action) :
    (studio.acts actions).texts = actions.foldl Texts.after studio.texts := by
  induction actions generalizing studio with
  | nil => rfl
  | cons action rest ih => rw [acts_cons, ih, texts_act, List.foldl_cons]

/-- **The session and the drawing** are those of the deeds alone. -/
theorem stage_acts (actions : List Action) :
    (studio.acts actions).stage =
      studio.stage.replay (deedsOf studio.texts actions) := by
  induction actions generalizing studio with
  | nil => rfl
  | cons action rest ih =>
      rw [acts_cons, ih, texts_act, stage_act, deedsOf]
      exact List.foldl_append.symm

/-- What single remarks set and nothing else changes is, in the end, what the
latest of them set. -/
theorem latest_acts {α : Type} {part : Studio → α} {set? : Remark → Option α}
    (hStep : ∀ (studio : Studio) (action : Action),
      part (studio.act action) = (set? (studio.remark action)).getD (part studio))
    (actions : List Action) :
    part (studio.acts actions) =
      ((journal studio.stage studio.texts actions).filterMap set?).getLast?.getD
        (part studio) := by
  induction actions generalizing studio with
  | nil => rfl
  | cons action rest ih =>
      rw [acts_cons, ih, hStep, journal_cons, List.filterMap_cons]
      cases set? (studio.remark action) with
      | none => rfl
      | some value => simp [List.getLast?_cons]

theorem errors_acts (actions : List Action) :
    (studio.acts actions).errors.toList =
      (journal studio.stage studio.texts actions).foldl showing
        studio.errors.toList := by
  induction actions generalizing studio with
  | nil => rfl
  | cons action rest ih =>
      rw [acts_cons, ih, errors_act, journal_cons, List.foldl_cons]
      rfl

end Studio

/-! ## At a desk -/

namespace Workplace

variable {σ : Type} [FileSystem σ] (desk : Workplace σ)

/-- Does an action. To load and to save, the files are asked, whatever answer
the action carries. -/
def perform : Action → Workplace σ
  | .load _ => desk.load
  | .save _ => desk.save
  | action => desk.act action

/-- Does actions one after another. -/
def performAll (actions : List Action) : Workplace σ := actions.foldl perform desk

/-- An action with the answer that the files give. -/
def answered : Action → Action
  | .load _ => .load (FileSystem.readText desk.tree desk.studio.path)
  | .save _ =>
      .save ((FileSystem.writeText desk.tree desk.studio.path desk.studio.source).map
        fun _ => ())
  | action => action

/-- Actions with the answers that the files give, one after another. -/
def answeredAll : Workplace σ → List Action → List Action
  | _, [] => []
  | desk, action :: rest =>
      desk.answered action :: answeredAll (desk.perform action) rest

theorem studio_perform (action : Action) :
    (desk.perform action).studio = desk.studio.act (desk.answered action) := by
  cases action with
  | save =>
      rw [perform, answered, save]
      cases FileSystem.writeText desk.tree desk.studio.path desk.studio.source <;> rfl
  | _ => rfl

/-- **At a desk**, with whatever files, the studio does the actions with the
answers it is given. -/
theorem studio_performAll (actions : List Action) :
    (desk.performAll actions).studio = desk.studio.acts (desk.answeredAll actions) := by
  induction actions generalizing desk with
  | nil => rfl
  | cons action rest ih =>
      show ((desk.perform action).performAll rest).studio = _
      rw [ih, studio_perform, answeredAll, Studio.acts_cons]

end Workplace

/-! ## Everything together -/

/-- The latest remark on an action that starts a clean list of errors. -/
def renewal? (log : List Remark) : Option Remark :=
  (log.filter fun remark => remark.action.renews).getLast?

/-- The remarks since then. -/
def sinceRenewal (log : List Remark) : List Remark :=
  log.rtakeWhile fun remark => !remark.action.renews

/-- **What is shown** is the errors of the latest renewal, or else those there were at
first, and all that have been added since. -/
theorem foldl_showing (shown : List String) (log : List Remark) :
    log.foldl showing shown =
      ((renewal? log).elim shown fun remark => remark.notice.entries) ++
        (sinceRenewal log).flatMap fun remark => remark.notice.entries := by
  induction log using List.reverseRecOn with
  | nil => simp [renewal?, sinceRenewal]
  | append_singleton log remark ih =>
      rw [List.foldl_concat, ih, showing]
      by_cases hRenews : remark.action.renews
      · simp [renewal?, sinceRenewal, hRenews]
      · simp [renewal?, sinceRenewal, hRenews]

/-- **The window after any history**, with any answers of the file system. Session and
drawing are those of the runs, commands and resets alone, with the texts that stood
there; the session has just lived through these deeds, whether or not a drawing follows.
The errors are those of the latest action that starts a clean list, and then one for
each load or save that has been refused since. The status is the latest that an action
has set by not failing. The tab is the latest selected, or the errors if there has been
a failure since. With files that answer for themselves, whatever they are, it is the
history with their answers. -/
theorem studio_of_acts (limits : Limits) (actions : List Action) :
    let opened := Studio.opened limits
    let studio := opened.acts actions
    let log := journal opened.stage opened.texts actions
    studio.stage = opened.stage.replay (deedsOf opened.texts actions) ∧
      studio.texts = actions.foldl Texts.after opened.texts ∧
      studio.errors.toList =
        ((renewal? log).elim [] fun remark => remark.notice.entries) ++
          (sinceRenewal log).flatMap (fun remark => remark.notice.entries) ∧
      (∀ remark ∈ sinceRenewal log,
        remark.notice.entries.length = if remark.action.isRefused then 1 else 0) ∧
      studio.status = (log.filterMap fun remark =>
        remark.notice.status?).getLast?.getD "" ∧
      studio.tab = (log.filterMap Remark.tab?).getLast?.getD .canvas ∧
      studio.session = opened.session.live (deedsOf opened.texts actions) ∧
      ∀ {σ : Type} [FileSystem σ] (tree : σ),
        let desk : Workplace σ := { studio := opened, tree }
        (desk.performAll actions).studio = opened.acts (desk.answeredAll actions) := by
  intro opened studio log
  have hStage : studio.stage = opened.stage.replay (deedsOf opened.texts actions) :=
    opened.stage_acts actions
  refine ⟨hStage, opened.texts_acts actions, ?errors, ?each, ?status, ?tab, ?session,
    ?files⟩
  case errors =>
    rw [← foldl_showing]
    exact opened.errors_acts actions
  case each =>
    intro remark hMem
    have hAdds : remark.action.renews = false := by
      simpa using List.mem_rtakeWhile_imp hMem
    obtain ⟨session, found, hNotice⟩ :=
      notice_of_mem_journal ((List.rtakeWhile_suffix _ log).subset hMem)
    rw [hNotice]
    exact Action.length_entries_notice hAdds session found
  case status => exact opened.latest_acts Studio.status_act actions
  case tab => exact opened.latest_acts Studio.tab_act actions
  case session => exact (congrArg Stage.session hStage).trans (Stage.session_replay _ _)
  case files =>
    intro σ _ tree desk
    exact desk.studio_performAll actions

end PenScript
