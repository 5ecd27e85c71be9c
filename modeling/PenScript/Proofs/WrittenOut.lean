import PenScript.Proofs.Enclosure
import PenScript.Proofs.LineEntry
import PenScript.Proofs.Numerals
import PenScript.Proofs.StoreGrowth

/-!
# A loop written out

A loop around lines and the same lines written out as often as the loop turns are
two ways to say one thing. They are read in different ways: a faulty line in a
loop becomes a statement of its body, which is counted before it stops the run,
and the same line at top level stops the run by itself. Apart from that, and from
the one statement that the loop is, the two runs are the same.

## Main results

* `times_execAll`: turning a list of statements is executing them written out;
* `outruns_runAll`: statements that follow one more statement, and the items they are;
* `runSource_loop`: a loop in a script is its lines written out.
-/

namespace PenScript

open Exec Headroom

/-! ## Turns -/

/-- **To turn statements is to execute them written out.** -/
theorem times_execAll (limits : Limits) (call : Caller) (body : List Stmt)
    (turns : Nat) :
    times turns (Stmt.execAll limits call body) =
      Stmt.execAll limits call (List.replicate turns body).flatten := by
  induction turns with
  | zero => rfl
  | succ turns ih =>
      rw [List.replicate_succ, List.flatten_cons, Stmt.execAll_append, ← ih]
      rfl

/-- A loop whose count is written out. -/
theorem run_loop {limits : Limits} {count : Int32} (hCount : ¬count < 0)
    (body : List Stmt) (site : Site) :
    (Stmt.loop (.number count) body site).run limits = (do
      tick limits site
      runAll limits (List.replicate count.toInt.toNat body).flatten) := by
  funext machine
  have hTurns : ∀ call, (if body.isEmpty then pure ()
      else times count.toInt.toNat (Stmt.execAll limits call body) : Exec Unit) =
      Stmt.execAll limits call (List.replicate count.toInt.toNat body).flatten := by
    intro call
    rw [← times_execAll]
    split
    · rename_i hEmpty
      rw [List.isEmpty_iff.mp hEmpty, times_execAll]
      simp [Stmt.execAll]
    · rfl
  have hValue : (valueOf (.number count) site : Exec Int32) = pure count := rfl
  show (tick limits site >>= fun _ => valueOf (.number count) site >>= fun turns =>
    if turns < 0 then fail (.negativeCount turns) site
    else if body.isEmpty then pure ()
    else times turns.toInt.toNat
      (Stmt.execAll limits (callAt limits (machine.callsLeft limits)) body)) machine = _
  rw [hValue, pure_bind, if_neg hCount, hTurns, bind_apply, bind_apply, tick_apply]
  by_cases hOver : limits.maxSteps < machine.steps + 1
  · rw [if_pos hOver]
  · rw [if_neg hOver]
    rfl

/-! ## One statement ahead -/

/-- How a run that is one statement ahead may end, given how the other ends. -/
inductive Outruns (limits : Limits) :
    EStateM.Result Diagnostic Machine Unit → EStateM.Result Diagnostic Machine Unit →
      Prop where
  /-- Both come to their end, the first having counted one statement more. -/
  | done (after : Machine) :
      Outruns limits (.ok () (after.resumed 1 #[])) (.ok () after)
  /-- Both stop at the same fault. -/
  | stopped (problem : Diagnostic) {final final' : Machine}
      (hStore : final.store = final'.store) (hTrace : final.trace = final'.trace) :
      Outruns limits (.error problem final) (.error problem final')
  /-- The first exhausts its budget. -/
  | exhausted (site : Site) {final : Machine} (hOver : limits.maxSteps < final.steps)
      (other : EStateM.Result Diagnostic Machine Unit) :
      Outruns limits (.error ⟨.tooManySteps limits.maxSteps, site⟩ final) other

section

variable {limits : Limits}

theorem Outruns.bind {short long next next' : Exec Unit} {start start' : Machine}
    (hOutruns : Outruns limits (short start) (long start'))
    (hNext : ∀ after, long start' = .ok () after →
      Outruns limits (next (after.resumed 1 #[])) (next' after)) :
    Outruns limits ((short >>= fun _ => next) start)
      ((long >>= fun _ => next') start') := by
  rw [bind_apply, bind_apply]
  generalize short start = first, hLong : long start' = second at hOutruns
  cases hOutruns with
  | done after => exact hNext after hLong
  | stopped problem hStore hTrace => exact .stopped problem hStore hTrace
  | exhausted site hOver other => exact .exhausted site hOver _

/-- A statement that is executed one statement later. -/
theorem outruns_run (stmt : Stmt) (machine : Machine) :
    Outruns limits (stmt.run limits (machine.resumed 1 #[]))
      (stmt.run limits machine) := by
  let room :=
    ofLimits (Nat.le_refl limits.maxSteps) (Nat.le_refl limits.maxCallDepth) 1 #[]
  have hFits : room.Fits (stmt.run limits (machine.resumed 1 #[]))
      (stmt.run limits machine) :=
    (@tracks_run room stmt).fits machine
  rcases hFits with hSame | ⟨problem, final, hStop, hLimited, -⟩
  · rw [hSame]
    cases stmt.run limits machine with
    | ok _ after => exact .done after
    | error problem final => exact .stopped problem rfl Array.empty_append
  · rw [hStop]
    cases hLimited with
    | steps site hOver => exact .exhausted site hOver _
    | depth site _ hLess => exact absurd hLess (Nat.lt_irrefl _)

/-- A statement that is executed later, next to the item it is. A faulty line is
counted only as a statement. -/
theorem outruns_item (stmt : Stmt) {machine : Machine} (hGate : machine.gate = true) :
    Outruns limits (stmt.run limits (machine.resumed 1 #[]))
      ((Item.ofStmt stmt).run limits machine) := by
  cases stmt with
  | invalid problem gated =>
      show Outruns limits ((tick limits problem.site >>= fun _ => raise problem gated)
        (machine.resumed 1 #[])) (.error problem machine)
      rw [bind_apply, tick_apply]
      by_cases hOver : limits.maxSteps < (machine.resumed 1 #[]).steps + 1
      · rw [if_pos hOver]
        exact .exhausted problem.site hOver _
      · rw [if_neg hOver]
        show Outruns limits (raise problem gated _) _
        rw [raise_apply, Machine.resumed_gate, hGate]
        exact .stopped problem rfl Array.empty_append
  | assign | draw | branch | loop | method | call => exact outruns_run _ machine

/-- **Statements that follow one more statement**, and the items they are. -/
theorem outruns_runAll (stmts : List Stmt) :
    ∀ {machine : Machine}, machine.gate = true →
    Outruns limits (runAll limits stmts (machine.resumed 1 #[]))
      (runItems limits (stmts.map Item.ofStmt) machine) := by
  induction stmts with
  | nil => exact fun {machine} _ => .done machine
  | cons stmt rest ih =>
      intro machine hGate
      have hSplit : runAll limits (stmt :: rest) = (stmt.run limits >>= fun _ =>
          runAll limits rest) := by
        rw [← List.singleton_append, runAll_append, runAll_singleton]
      rw [hSplit, List.map_cons, runItems]
      refine (outruns_item stmt hGate).bind fun after hRun => ih ?_
      have hForward := goesForward_runItems limits [Item.ofStmt stmt] machine
      rw [runItems, bind_apply, hRun] at hForward
      exact hForward.gate.trans hGate

/-- **A loop and what it is written out.** -/
theorem outruns_loop {count : Int32} (hCount : ¬count < 0) (body : List Stmt)
    (site : Site) (store : Store) :
    Outruns limits (runItems limits [.ok (.loop (.number count) body site)] { store })
      (runItems limits ((List.replicate count.toInt.toNat body).flatten.map Item.ofStmt)
        { store }) := by
  have hOnly : runItems limits [.ok (.loop (.number count) body site)] =
      (Stmt.loop (.number count) body site).run limits := bind_pure_unit
  rw [hOnly, run_loop hCount, bind_apply, tick_apply]
  by_cases hOver : limits.maxSteps < ({ store } : Machine).steps + 1
  · rw [if_pos hOver]
    exact .exhausted site hOver _
  · rw [if_neg hOver]
    exact outruns_runAll _ rfl

/-- What can be seen of the two runs, if their lines are numbered in different ways. -/
theorem ends_of_outruns {f : Site → Site} (hRaw : ∀ site, (f site).raw = site.raw)
    {first second : EStateM.Result Diagnostic Machine Unit}
    (hOutruns : Outruns limits (relocatedResult f first) (relocatedResult f second)) :
    (∃ site, outcome first = .error ⟨.tooManySteps limits.maxSteps, site⟩ ∧
      limits.maxSteps < (finalState first).steps) ∨
    (((outcome first = .ok () ∧ outcome second = .ok () ∧
        (finalState first).steps = (finalState second).steps + 1) ∨
      ∃ problem other, outcome first = .error problem ∧ outcome second = .error other ∧
        problem.fault = other.fault ∧ problem.site.raw = other.site.raw) ∧
      (finalState first).store.vars = (finalState second).store.vars ∧
      (finalState first).trace = (finalState second).trace) := by
  generalize hFirst : relocatedResult f first = moved,
  hSecond : relocatedResult f second = moved'
    at hOutruns
  cases hOutruns with
  | done after =>
      obtain ⟨final, rfl, hFinal⟩ := eq_ok_of_relocatedResult f hFirst
      obtain ⟨final', rfl, rfl⟩ := eq_ok_of_relocatedResult f hSecond
      have hSteps : final.steps = 1 + final'.steps := congrArg Machine.steps hFinal
      have hTrace : final.trace = #[] ++ final'.trace := congrArg Machine.trace hFinal
      have hVars := congrArg (fun machine => machine.store.vars) hFinal
      refine Or.inr ⟨Or.inl ⟨rfl, rfl, hSteps.trans (Nat.add_comm _ _)⟩, hVars, ?_⟩
      exact hTrace.trans Array.empty_append
  | stopped problem hStore hTrace =>
      obtain ⟨found, final, rfl, hFound, rfl⟩ := eq_error_of_relocatedResult f hFirst
      obtain ⟨other, final', rfl, hOther, rfl⟩ := eq_error_of_relocatedResult f hSecond
      have hSame : found.relocate f = other.relocate f := hFound.trans hOther.symm
      have hFault : (found.relocate f).fault = (other.relocate f).fault :=
        congrArg Diagnostic.fault hSame
      have hSite := congrArg (fun problem => problem.site.raw) hSame
      have hVars : (final.relocate f).store.vars = (final'.relocate f).store.vars :=
        congrArg Store.vars hStore
      refine Or.inr ⟨Or.inr ⟨found, other, rfl, rfl, hFault, ?_⟩, hVars, hTrace⟩
      exact (hRaw found.site).symm.trans (hSite.trans (hRaw other.site))
  | exhausted site hOver _ =>
      obtain ⟨⟨fault, origin⟩, final, rfl, hFound, rfl⟩ :=
        eq_error_of_relocatedResult f hFirst
      have hFault : fault = .tooManySteps limits.maxSteps :=
        congrArg Diagnostic.fault hFound
      exact Or.inl ⟨origin, by rw [hFault]; rfl, hOver⟩

end

/-! ## Lines that define nothing -/

/-- A block that is no method defines what its body defines. -/
theorem Frame.definitions_close {frame : Frame} (hKind : frame.kind ≠ .method)
    (hBody : Stmt.definitionsIn frame.body.toList = []) :
    frame.close.1.definitions = [] := by
  obtain ⟨header, site, body⟩ := frame
  cases header with
  | method found => exact absurd rfl hKind
  | conditional found =>
      cases found with
      | ok condition =>
          show (Stmt.branch condition body.toList site).definitions = []
          rw [Stmt.definitions]
          exact hBody
      | error fault =>
          show (Stmt.invalid ⟨fault, site⟩ false).definitions = []
          rw [Stmt.definitions]
  | loop found =>
      cases found with
      | ok count =>
          show (Stmt.loop count body.toList site).definitions = []
          rw [Stmt.definitions]
          exact hBody
      | error fault =>
          show (Stmt.invalid ⟨fault, site⟩ false).definitions = []
          rw [Stmt.definitions]

/-- A line that opens no method bears nothing that defines one. -/
theorem Line.bears_undefined {line : Line} (hOther : ¬line.StartsWith "method") :
    line.Bears fun _ stmt => stmt.definitions = [] where
  simple {stmt} _ hPhrase := by
    have hPlain := Phrase.isPlain_of_simple hPhrase
    cases stmt with
    | assign | draw | call => rw [Stmt.definitions]
    | branch | loop | method | invalid => cases hPlain
  faulty _ _ := by rw [Stmt.definitions]
  opening {header} around hPhrase _ := by
    intro body hBody
    obtain ⟨hLine, hWord, -⟩ := Phrase.keyword_of_opening hPhrase
    constructor
    · have hNone : Stmt.definitionsIn body.toList = [] :=
        Stmt.definitionsIn_eq_nil_iff.mpr fun stmt hMem =>
          hBody stmt (Array.mem_toList_iff.mp hMem)
      refine Frame.definitions_close ?_ hNone
      intro hMethod
      have hKind : header.kind = .method :=
        (header.kind_within around).symm.trans hMethod
      rw [hKind] at hWord
      exact hOther ⟨hLine, hWord⟩
    · exact (congrArg Stmt.definitions (Frame.abandon_eq _)).trans
        (by rw [Stmt.definitions])
  surplus _ _ := by rw [Stmt.definitions]
  stray _ _ := by rw [Stmt.definitions]

/-- Lines that open no method define none. -/
theorem definedBy_eq_nil {lines : List Line}
    (hOther : ∀ line ∈ lines, ¬line.StartsWith "method") :
    definedBy lines = [] :=
  Stmt.definitionsIn_eq_nil_iff.mpr <|
    Reading.forall_stmts (bears_read (fun line hMem =>
      Line.bears_undefined (hOther line hMem)) _)

/-- No method that a session knows defines another. -/
theorem Session.Reachable.plain {session : Session} (hReachable : session.Reachable) :
    session.store.Stores fun _ body => Stmt.definitionsIn body = [] := by
  refine hReachable.store_of_runs (fun key body hFound => ?_)
    fun session lines hPlain => ?_
  · cases hFound
  · intro key body hFound
    rcases stored_of_runLines hPlain lines key body hFound with hKnown | hDefined
    · exact hPlain key body hKnown
    · exact definitionsIn_of_definedBy hDefined

/-- **Lines that define nothing leave the methods alone.** -/
theorem methods_of_undefined {session : Session} (hReachable : session.Reachable)
    {lines : List Line} (hNone : definedBy lines = []) :
    (session.runLines lines).session.store.methods = session.store.methods := by
  have hStored := stored_of_runLines hReachable.plain lines
  have hGrows := grows_runLines session lines
  have hBodies : (session.runLines lines).session.store.methods.bodies =
      session.store.methods.bodies := by
    refine NameMap.ext_get? fun key => ?_
    cases hBefore : session.store.methods.bodies.get? key with
    | some body => exact hGrows.methods key body hBefore
    | none =>
        by_contra hSome
        obtain ⟨body, hFound⟩ := Option.ne_none_iff_exists'.mp hSome
        rcases hStored key body hFound with hKnown | hDefined
        · rw [hBefore] at hKnown
          cases hKnown
        · rw [hNone] at hDefined
          cases hDefined
  cases hAfter : (session.runLines lines).session.store.methods
  rw [hAfter] at hBodies
  exact congrArg Methods.mk hBodies

/-- Runs that leave the same variables and methods leave the same session. -/
theorem session_runLines_congr {session : Session} {first second : List Line}
    (hVars : (session.runLines first).session.store.vars =
      (session.runLines second).session.store.vars)
    (hMethods : (session.runLines first).session.store.methods =
      (session.runLines second).session.store.methods) :
    (session.runLines first).session = (session.runLines second).session := by
  have hStore : ∀ {store other : Store}, store.vars = other.vars →
      store.methods = other.methods → store = other := by
    rintro ⟨vars, methods⟩ ⟨_, _⟩ rfl rfl
    rfl
  exact congrArg (fun store => ({ session with store } : Session))
    (hStore hVars hMethods)

/-- What can be seen of two submissions, the first of which is one statement ahead. -/
theorem runLines_of_outruns {session : Session} {first second : List Line}
    {f : Site → Site} (hRaw : ∀ site, (f site).raw = site.raw)
    (hOutruns : Outruns session.limits
      (relocatedResult f (runItems session.limits (read .complete first).items
        session.machine))
      (relocatedResult f (runItems session.limits (read .complete second).items
        session.machine)))
    (hMethods : (session.runLines first).session.store.methods =
      (session.runLines second).session.store.methods) :
    (∃ site, (session.runLines first).result =
        .error ⟨.tooManySteps session.limits.maxSteps, site⟩ ∧
      session.limits.maxSteps < (session.runLines first).steps) ∨
    ((((session.runLines first).result = .ok () ∧
      (session.runLines second).result = .ok () ∧
          (session.runLines first).steps = (session.runLines second).steps + 1) ∨
        ∃ problem other, (session.runLines first).result = .error problem ∧
          (session.runLines second).result = .error other ∧
          problem.fault = other.fault ∧ problem.site.raw = other.site.raw) ∧
      (session.runLines first).session = (session.runLines second).session ∧
      (session.runLines first).gestures = (session.runLines second).gestures) := by
  rcases ends_of_outruns hRaw hOutruns with hOver | ⟨hEnds, hVars, hTrace⟩
  · exact Or.inl hOver
  · exact Or.inr ⟨hEnds, session_runLines_congr hVars hMethods,
      congrArg Array.toList hTrace⟩

/-! ## The line of a loop -/

theorem not_negative_of_toInt {count : Int32} {n : Nat} (hValue : count.toInt = n) :
    ¬count < 0 := by
  rw [Int32.lt_iff_toInt_lt, hValue]
  exact Int.not_lt.mpr (Int.natCast_nonneg n)

/-- A text without separators is one word. -/
theorem Line.words_of_word {cs : List Char} (hSome : cs ≠ [])
    (hWord : ∀ c ∈ cs, isSeparator c = false) : words cs = [String.ofList cs] := by
  simp [words, List.splitOnP_eq_singleton hWord, hSome]

theorem Line.isSeparator_of_isDigit {c : Char} (hDigit : c.isDigit = true) :
    isSeparator c = false := by
  have hRange : 48 ≤ c.toNat ∧ c.toNat ≤ 57 := Char.isDigit_iff_toNat.mp hDigit
  rw [isSeparator, Bool.or_eq_false_iff, Text.isBlank, beq_eq_false_iff_ne]
  refine ⟨by simp; omega, ?_⟩
  rintro rfl
  exact absurd hRange (by decide)

/-- The text of a loop line with a count. -/
def loopText (turns : Nat) : String := "loop " ++ toString turns

/-- The characters of a loop line. -/
theorem toList_loopText (turns : Nat) :
    (loopText turns).toList = "loop ".toList ++ Nat.toDigits 10 turns := by
  have hDigits : (toString turns).toList = Nat.toDigits 10 turns := Nat.toList_repr
  rw [loopText, String.toList_append, hDigits]

theorem oneLine_loopText (turns : Nat) : OneLine (loopText turns) := by
  have hOther : ∀ c : Char, c.isDigit = false → c ∉ "loop ".toList →
      c ∉ (loopText turns).toList := by
    intro c hNoDigit hNotFirst hMem
    rw [toList_loopText] at hMem
    rcases List.mem_append.mp hMem with hFirst | hLast
    · exact hNotFirst hFirst
    · rw [Nat.isDigit_of_mem_toDigits (by decide) (by decide) hLast] at hNoDigit
      cases hNoDigit
  exact ⟨hOther '\r' (by decide) (by decide), hOther '\n' (by decide) (by decide)⟩

/-- How the first line of a loop is read. -/
theorem exists_line_of_loopText {turns : Nat} (hTurns : turns ≤ 2147483647) :
    ∃ (line : Line) (count : Int32), Line.ofText? (loopText turns) = some line ∧
      line.keyword = "loop" ∧ count.toInt = turns ∧
      Phrase.ofLine line = .opening (.loop (.ok (.number count))) := by
  obtain ⟨count, hRead, hValue⟩ := Text.readInt32?_toString hTurns
  have hWords : Line.words (loopText turns).toList = ["loop", toString turns] := by
    have hSplit : (loopText turns).toList =
        "loop".toList ++ ' ' :: Nat.toDigits 10 turns :=
      toList_loopText turns
    rw [hSplit, Line.words_append_cons (by decide),
      Line.words_of_word Nat.toDigits_ne_nil
      fun c hMem => Line.isSeparator_of_isDigit
        (Nat.isDigit_of_mem_toDigits (by decide) (by decide) hMem)]
    rfl
  let line : Line :=
    { number := 0
      raw := String.ofList (Text.trim (loopText turns).toList)
      word := "loop"
      args := [toString turns] }
  have hLine : Line.ofText? (loopText turns) = some line := by
    rw [Line.ofText?, Line.ofPiece?, hWords]
  have hOther : line.isAssignment = false := by
    have hNumeral : toString turns ≠ "=" := by
      intro hSign
      have hNone : Text.readInt32? "=" = none := by decide
      rw [hSign, hNone] at hRead
      cases hRead
    simpa [Line.isAssignment, line] using hNumeral
  have hKeyword : line.keyword = "loop" := by
    show Text.lowercase "loop" = "loop"
    decide
  have hCount : readCount [toString turns] = .ok (.number count) := by
    rw [readCount, readTerm_number _ hRead]
    exact if_neg (not_negative_of_toInt hValue)
  refine ⟨line, count, hLine, hKeyword, hValue, ?_⟩
  have hFound : Keyword.ofWord? "loop" = some (.opens .loop) := by decide
  rw [Phrase.ofLine, hOther, if_neg Bool.false_ne_true, hKeyword, hFound]
  show Phrase.opening (.loop (readCount [toString turns])) = _
  rw [hCount]

/-- The last line of a loop. -/
def loopEnd : Line := { number := 0, raw := "endloop", word := "endloop", args := [] }

theorem ofText?_endloop : Line.ofText? "endloop" = some loopEnd := by cbv

theorem ofLine_loopEnd : Phrase.ofLine loopEnd = .closing .loop none := by cbv

/-! ## The two scripts -/

/-- The texts of a loop around texts. -/
def loopTexts (turns : Nat) (texts : List String) : List String :=
  loopText turns :: (texts ++ ["endloop"])

/-- Texts written out. -/
def writtenOut (turns : Nat) (texts : List String) : List String :=
  (List.replicate turns texts).flatten

section

variable {texts : List String} {turns : Nat}

theorem mem_of_mem_writtenOut {text : String} (hMem : text ∈ writtenOut turns texts) :
    text ∈ texts := by
  obtain ⟨copy, hCopy, hText⟩ := List.mem_flatten.mp hMem
  rwa [List.eq_of_mem_replicate hCopy] at hText

theorem oneLine_of_loopTexts (hTexts : ∀ text ∈ texts, OneLine text) :
    ∀ text ∈ loopTexts turns texts, OneLine text := by
  intro text hMem
  rcases List.mem_cons.mp hMem with rfl | hRest
  · exact oneLine_loopText turns
  · rcases List.mem_append.mp hRest with hInner | hLast
    · exact hTexts text hInner
    · rw [List.mem_singleton.mp hLast]
      decide

/-- Texts that leave no block open are read once for each time they are written. -/
theorem items_writtenOut
    (hClosed : (Assembly.ofLines (unnumberedLines texts)).frames = [])
    {body : List Stmt}
    (hBody : (read .complete (unnumberedLines texts)).items = body.map Item.ofStmt) :
    (read .complete (unnumberedLines (writtenOut turns texts))).items =
      (List.replicate turns body).flatten.map Item.ofStmt := by
  induction turns with
  | zero => rfl
  | succ turns ih =>
      have hMore : writtenOut (turns + 1) texts = texts ++ writtenOut turns texts := by
        rw [writtenOut, List.replicate_succ, List.flatten_cons, writtenOut]
      rw [hMore, items_unnumberedLines_append hClosed, ih, hBody, List.replicate_succ,
        List.flatten_cons, List.map_append]

/-- **The items of the two scripts**, their lines not numbered. -/
theorem items_loopTexts (hFlat : ∀ line ∈ unnumberedLines texts, line.IsFlat)
    (hPaired : IsPaired (unnumberedLines texts)) (hTurns : turns ≤ 2147483647) :
    ∃ (count : Int32) (body : List Stmt) (site : Site), count.toInt = turns ∧
      (read .complete (unnumberedLines (loopTexts turns texts))).items =
        [.ok (.loop (.number count) body site)] ∧
      (read .complete (unnumberedLines (writtenOut turns texts))).items =
        (List.replicate turns body).flatten.map Item.ofStmt := by
  obtain ⟨first, count, hFirst, -, hCount, hOpens⟩ := exists_line_of_loopText hTurns
  obtain ⟨body, hBody, hLoop⟩ := items_of_loop hOpens ofLine_loopEnd hFlat hPaired
  refine ⟨count, body, first.toSite, hCount, ?_, ?_⟩
  · rw [← hLoop, unnumberedLines, loopTexts, List.filterMap_cons_some hFirst,
      List.filterMap_append, List.filterMap_cons_some ofText?_endloop]
    rfl
  · exact items_writtenOut (frames_of_isPaired hFlat hPaired) hBody

/-- Texts that open no method, in a script with others or without. -/
theorem not_method_of_texts {texts : List String}
    (hTexts : ∀ text ∈ texts, OneLine text)
    (hOther : ∀ line ∈ unnumberedLines texts, ¬line.StartsWith "method") :
    ∀ line ∈ Line.ofSource (String.intercalate "\n" texts),
      ¬line.StartsWith "method" := by
  intro line hMem
  have hMoved : line.relocate Site.unnumbered ∈ unnumberedLines texts := by
    rw [← Line.ofSource_intercalate hTexts]
    exact List.mem_map_of_mem hMem
  have hMovedOther := hOther _ hMoved
  exact hMovedOther

theorem not_method_of_isFlat {line : Line} (hFlat : line.IsFlat) :
    ¬line.StartsWith "method" := by
  rintro ⟨hLine, hWord⟩
  rcases hFlat with hAssign | hOther
  · rw [hLine] at hAssign
    cases hAssign
  · rw [hWord] at hOther
    exact hOther (by decide)

/-- Neither of the two scripts opens a method. -/
theorem not_method_of_loopTexts (hFlat : ∀ line ∈ unnumberedLines texts, line.IsFlat)
    (hTurns : turns ≤ 2147483647) :
    (∀ line ∈ unnumberedLines (loopTexts turns texts), ¬line.StartsWith "method") ∧
      ∀ line ∈ unnumberedLines (writtenOut turns texts), ¬line.StartsWith "method" := by
  obtain ⟨first, -, hFirst, hKeyword, -, -⟩ := exists_line_of_loopText hTurns
  constructor
  · intro line hMem
    obtain ⟨text, hText, hLine⟩ := List.mem_filterMap.mp hMem
    rcases List.mem_cons.mp hText with rfl | hRest
    · rw [hFirst] at hLine
      cases hLine
      rintro ⟨-, hWord⟩
      exact absurd (hKeyword.symm.trans hWord) (by decide)
    · rcases List.mem_append.mp hRest with hInner | hLast
      · exact not_method_of_isFlat
          (hFlat line (List.mem_filterMap.mpr ⟨text, hInner, hLine⟩))
      · rw [List.mem_singleton.mp hLast, ofText?_endloop] at hLine
        cases hLine
        decide
  · intro line hMem
    obtain ⟨text, hText, hLine⟩ := List.mem_filterMap.mp hMem
    have hInner := mem_of_mem_writtenOut hText
    exact not_method_of_isFlat
      (hFlat line (List.mem_filterMap.mpr ⟨text, hInner, hLine⟩))

/-- **A loop in a script is its lines written out**, if the lines open and close
conditionals only and there is an `endif` after each `if`. Unless the loop exhausts the
budget, both scripts succeed, the loop with one statement more, or both stop at the same
fault of the same line; and they leave the same session and make the same gestures. -/
theorem runSource_loop {session : Session} (hReachable : session.Reachable)
    (hTexts : ∀ text ∈ texts, OneLine text)
    (hFlat : ∀ line ∈ unnumberedLines texts, line.IsFlat)
    (hPaired : IsPaired (unnumberedLines texts)) (hTurns : turns ≤ 2147483647) :
    let looped := session.runSource (String.intercalate "\n" (loopTexts turns texts))
    let written := session.runSource (String.intercalate "\n" (writtenOut turns texts))
    (∃ site, looped.result = .error ⟨.tooManySteps session.limits.maxSteps, site⟩ ∧
      session.limits.maxSteps < looped.steps) ∨
    (((looped.result = .ok () ∧ written.result = .ok () ∧
      looped.steps = written.steps + 1) ∨
        ∃ problem other, looped.result = .error problem ∧
          written.result = .error other ∧
          problem.fault = other.fault ∧ problem.site.raw = other.site.raw) ∧
      looped.session = written.session ∧ looped.gestures = written.gestures) := by
  intro looped written
  have hLoopTexts : ∀ text ∈ loopTexts turns texts, OneLine text :=
    oneLine_of_loopTexts hTexts
  have hWrittenTexts : ∀ text ∈ writtenOut turns texts, OneLine text :=
    fun text hMem => hTexts text (mem_of_mem_writtenOut hMem)
  obtain ⟨hLoopOther, hWrittenOther⟩ := not_method_of_loopTexts hFlat hTurns
  have hLoopMethods : looped.session.store.methods = session.store.methods :=
    methods_of_undefined hReachable
      (definedBy_eq_nil (not_method_of_texts hLoopTexts hLoopOther))
  have hWrittenMethods : written.session.store.methods = session.store.methods :=
    methods_of_undefined hReachable
      (definedBy_eq_nil (not_method_of_texts hWrittenTexts hWrittenOther))
  obtain ⟨count, body, site, hCount, hLoopItems, hWrittenItems⟩ :=
    items_loopTexts hFlat hPaired hTurns
  have hRuns := @outruns_loop session.limits _ (not_negative_of_toInt hCount) body site
    (session.store.relocate Site.unnumbered)
  rw [hCount, Int.toNat_natCast, ← hLoopItems, ← hWrittenItems,
    ← Line.ofSource_intercalate hLoopTexts, ← Line.ofSource_intercalate hWrittenTexts,
    items_read_relocate, items_read_relocate] at hRuns
  have hStart : ({ store := session.store.relocate Site.unnumbered } : Machine) =
      session.machine.relocate Site.unnumbered := rfl
  rw [hStart, runItems_relocate, runItems_relocate] at hRuns
  have hRaw : ∀ site : Site, site.unnumbered.raw = site.raw := fun _ => rfl
  exact runLines_of_outruns hRaw hRuns (hLoopMethods.trans hWrittenMethods.symm)

end

/-- A loop around a conditional and another line. -/
theorem runSource_loop_conditional :
    let texts := ["if 1 < 2", "circle 1", "endif", "pen red"]
    let looped := ({} : Session).runSource (String.intercalate "\n" (loopTexts 3 texts))
    let written :=
      ({} : Session).runSource (String.intercalate "\n" (writtenOut 3 texts))
    (∀ text ∈ texts, OneLine text) ∧ (∀ line ∈ unnumberedLines texts, line.IsFlat) ∧
      IsPaired (unnumberedLines texts) ∧ looped.result = .ok () ∧
        written.result = .ok () ∧
      looped.steps = 10 ∧ written.steps = 9 ∧ looped.gestures = written.gestures := by
  intro texts looped written
  have hTexts : ∀ text ∈ texts, OneLine text := by decide
  have hFlat : ∀ line ∈ unnumberedLines texts, line.IsFlat := by decide +kernel
  have hPaired : IsPaired (unnumberedLines texts) := by decide +kernel
  have hLooped : looped.result = .ok () := by
    unfold looped texts
    cbv
  have hSteps : looped.steps = 10 := by
    unfold looped texts
    cbv
  refine ⟨hTexts, hFlat, hPaired, hLooped, ?_⟩
  have hTurns : 3 ≤ 2147483647 := by decide
  rcases runSource_loop (.fresh {}) hTexts hFlat hPaired hTurns with
    ⟨site, hOver, -⟩ |
    ⟨⟨-, hWritten, hCount⟩ | ⟨problem, other, hFails, -⟩, -, hGestures⟩
  · cases hLooped.symm.trans hOver
  · exact ⟨hWritten, hSteps, Nat.succ.inj (hCount.symm.trans hSteps), hGestures⟩
  · cases hLooped.symm.trans hFails

end PenScript
