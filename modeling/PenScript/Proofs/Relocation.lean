import PenScript.Script
import PenScript.Store

/-!
# Lines that stand elsewhere

A statement knows the line it comes from, but what it says does not depend on it.
Here the lines of a script are moved to other sites, and the lines before them are
exchanged for others, and reading them still finds the same: the items it finds are
moved likewise and follow those found before.

Both changes are made to an assembly at once. It is *carried* behind another one
when its own sites are moved and the other's items are put in front.

## Main results

* `ofLine_relocate`: what a line says is moved with it;
* `feed_carried`: a line is taken into account in the same way wherever it stands;
* `items_read_append_relocate`: lines that leave no block open are read apart from those
  that follow, wherever these are moved to;
* `items_read_relocate`: the items of moved lines are the moved items.
-/

namespace PenScript

/-! ## Moving -/

/-- A diagnostic moved to another site. -/
def Diagnostic.relocate (f : Site → Site) (problem : Diagnostic) : Diagnostic :=
  { problem with site := f problem.site }

namespace Stmt

mutual

/-- A statement with every site in it moved. -/
def relocate (f : Site → Site) : Stmt → Stmt
  | assign name value site => assign name value (f site)
  | draw command site => draw command (f site)
  | branch condition body site => branch condition (relocateAll f body) (f site)
  | loop count body site => loop count (relocateAll f body) (f site)
  | method name body site => method name (relocateAll f body) (f site)
  | call name site => call name (f site)
  | invalid problem gated => invalid (problem.relocate f) gated

/-- Statements with every site in them moved. -/
def relocateAll (f : Site → Site) : List Stmt → List Stmt
  | [] => []
  | stmt :: rest => relocate f stmt :: relocateAll f rest

end

end Stmt

/-- An item with every site in it moved. -/
def Item.relocate (f : Site → Site) : Item → Item
  | .ok stmt => .ok (stmt.relocate f)
  | .error problem => .error (problem.relocate f)

/-- A line moved to another site. -/
def Line.relocate (f : Site → Site) (line : Line) : Line :=
  { line with toSite := f line.toSite }

/-- What a line says, moved with the line. -/
def Phrase.relocate (f : Site → Site) : Phrase → Phrase
  | .simple stmt => .simple (stmt.relocate f)
  | .opening header => .opening header
  | .closing kind surplus => .closing kind surplus
  | .faulty fault gated => .faulty fault gated

/-- An open block with every site in it moved. -/
def Frame.relocate (f : Site → Site) (frame : Frame) : Frame where
  header := frame.header
  site := f frame.site
  body := frame.body.map (Stmt.relocate f)

/-- An assembly with every site in it moved, behind the items and losses
of an earlier one. -/
def Assembly.carried (f : Site → Site) (assembly earlier : Assembly) : Assembly where
  frames := assembly.frames.map (Frame.relocate f)
  items := earlier.items ++ assembly.items.map (Item.relocate f)
  dropped := earlier.dropped ++ assembly.dropped.map (Diagnostic.relocate f)

variable (f : Site → Site)

theorem Stmt.relocateAll_eq_map (stmts : List Stmt) :
    Stmt.relocateAll f stmts = stmts.map (Stmt.relocate f) := by
  induction stmts with
  | nil => rfl
  | cons stmt rest ih => rw [relocateAll, ih, List.map_cons]

mutual

theorem Stmt.faults_relocate : ∀ stmt : Stmt,
    (stmt.relocate f).faults = stmt.faults.map (Diagnostic.relocate f)
  | .assign _ _ _ | .draw _ _ | .call _ _ => by simp [Stmt.relocate, Stmt.faults]
  | .invalid _ _ => by simp [Stmt.relocate, Stmt.faults]
  | .branch _ body _ | .loop _ body _ | .method _ body _ => by
      rw [Stmt.relocate, Stmt.faults, Stmt.faults, Stmt.faultsIn_relocateAll body]

theorem Stmt.faultsIn_relocateAll : ∀ stmts : List Stmt,
    Stmt.faultsIn (Stmt.relocateAll f stmts) =
      (Stmt.faultsIn stmts).map (Diagnostic.relocate f)
  | [] => rfl
  | stmt :: rest => by
      rw [Stmt.relocateAll, Stmt.faultsIn, Stmt.faultsIn, Stmt.faults_relocate stmt,
        Stmt.faultsIn_relocateAll rest, List.map_append]

end

theorem Item.ofStmt_relocate (stmt : Stmt) :
    Item.ofStmt (stmt.relocate f) = (Item.ofStmt stmt).relocate f := by
  cases stmt <;> simp [Stmt.relocate, Item.ofStmt, Item.relocate]

/-! ## What lines say -/

theorem readAssignment_of_pair {line : Line} {symbol value : String}
    (hArgs : line.args = [symbol, value]) :
    readAssignment line =
      if !Text.isName line.word then .error (.badTarget line.word)
      else if (Keyword.ofWord? (Text.lowercase line.word)).isSome then
        .error (.reservedTarget line.word)
      else (readTerm .assignment value).map fun term =>
        .assign line.word term line.toSite := by
  rw [readAssignment, hArgs]
  dsimp only
  cases readTerm .assignment value <;> rfl

theorem readAssignment_relocate (line : Line) :
    readAssignment (line.relocate f) = (readAssignment line).map (Stmt.relocate f) := by
  cases hArgs : line.args with
  | nil =>
      have hMoved : (line.relocate f).args = [] := hArgs
      rw [readAssignment, readAssignment, hArgs, hMoved]
      rfl
  | cons symbol rest =>
      match rest with
      | [value] =>
          have hMoved : (line.relocate f).args = [symbol, value] := hArgs
          have hWord : (line.relocate f).word = line.word := rfl
          rw [readAssignment_of_pair hArgs, readAssignment_of_pair hMoved, hWord]
          split
          · rfl
          · split
            · rfl
            · cases readTerm .assignment value with
              | error fault => rfl
              | ok term =>
                show Except.ok _ = Except.ok (Stmt.relocate f _)
                rw [Stmt.relocate]
                rfl
      | [] | _ :: _ :: _ =>
          have hMoved : (line.relocate f).args = _ := hArgs
          rw [readAssignment, readAssignment, hArgs, hMoved]
          rfl

theorem Phrase.ofStmt_relocate (gated : Bool) (found : Except Fault Stmt) :
    Phrase.ofStmt gated (found.map (Stmt.relocate f)) =
      (Phrase.ofStmt gated found).relocate f := by
  cases found <;> rfl

/-- **What a line says is moved with it.** -/
theorem ofLine_relocate (line : Line) :
    Phrase.ofLine (line.relocate f) = (Phrase.ofLine line).relocate f := by
  have hAssignment := readAssignment_relocate f line
  have hKeyword : (line.relocate f).keyword = line.keyword := rfl
  have hArgs : (line.relocate f).args = line.args := rfl
  unfold Phrase.ofLine
  by_cases hAssign : line.isAssignment = true
  · have hMoved : (line.relocate f).isAssignment = true := hAssign
    rw [if_pos hAssign, if_pos hMoved, hAssignment]
    exact Phrase.ofStmt_relocate f false _
  · have hMoved : ¬(line.relocate f).isAssignment = true := hAssign
    rw [if_neg hAssign, if_neg hMoved, hKeyword, hArgs]
    cases Keyword.ofWord? line.keyword with
    | none => rfl
    | some keyword =>
        cases keyword with
        | opens kind | closes kind => rfl
        | draw verb =>
            dsimp only
            cases readCommand verb line.args with
            | error fault => rfl
            | ok command =>
                show Phrase.simple _ = Phrase.simple (Stmt.relocate f _)
                rw [Stmt.relocate]
                rfl
        | call =>
            dsimp only
            cases readOnlyName .call line.args with
            | error fault => rfl
            | ok name =>
                show Phrase.simple _ = Phrase.simple (Stmt.relocate f _)
                rw [Stmt.relocate]
                rfl

/-! ## Blocks -/

theorem Header.build_relocate (header : Header) (body : List Stmt) (site : Site) :
    header.build (body.map (Stmt.relocate f)) (f site) =
      (header.build body site).map (Stmt.relocate f) := by
  cases header with
  | conditional found | loop found | method found =>
      cases found with
      | error fault => rfl
      | ok _ => simp [Header.build, Except.map, Stmt.relocate, Stmt.relocateAll_eq_map]

/-- What becomes of a block, moved to another site. -/
def movedEnd (f : Site → Site) (become : Stmt × List Diagnostic) :
    Stmt × List Diagnostic :=
  (become.1.relocate f, become.2.map (Diagnostic.relocate f))

namespace Frame

theorem close_relocate (frame : Frame) :
    (frame.relocate f).close = movedEnd f frame.close := by
  have hBuild := frame.header.build_relocate f frame.body.toList frame.site
  have hLost := Stmt.faultsIn_relocateAll f frame.body.toList
  rw [Stmt.relocateAll_eq_map] at hLost
  unfold close
  simp only [Frame.relocate, Array.toList_map, hBuild, hLost]
  cases frame.header.build frame.body.toList frame.site with
  | ok stmt => rfl
  | error fault => simp [Except.map, movedEnd, Stmt.relocate, Diagnostic.relocate]

theorem abandon_relocate (frame : Frame) :
    (frame.relocate f).abandon = movedEnd f frame.abandon := by
  have hBuild := frame.header.build_relocate f frame.body.toList frame.site
  have hLost := Stmt.faultsIn_relocateAll f frame.body.toList
  rw [Stmt.relocateAll_eq_map] at hLost
  unfold abandon
  simp only [Frame.relocate, Array.toList_map, hBuild, hLost, Frame.kind]
  cases frame.header.build frame.body.toList frame.site with
  | ok stmt => simp [Except.map, movedEnd, Stmt.relocate, Diagnostic.relocate]
  | error fault => simp [Except.map, movedEnd, Stmt.relocate, Diagnostic.relocate]

theorem expire_relocate (ending : Ending) (frame : Frame) :
    (frame.relocate f).expire ending = movedEnd f (frame.expire ending) := by
  have hKind : (frame.relocate f).kind = frame.kind := rfl
  unfold expire
  rw [hKind]
  split
  · exact close_relocate f frame
  · exact abandon_relocate f frame

end Frame

/-! ## Assemblies -/

namespace Assembly

variable (assembly earlier : Assembly)

theorem surroundings_carried :
    (assembly.carried f earlier).surroundings = assembly.surroundings := by
  simp only [surroundings, carried, List.map_map]
  rfl

theorem place_carried (stmt : Stmt) :
    (assembly.carried f earlier).place (stmt.relocate f) =
      (assembly.place stmt).carried f earlier := by
  cases hFrames : assembly.frames with
  | nil =>
      have hMoved : (assembly.carried f earlier).frames = [] := by
        rw [carried, hFrames, List.map_nil]
      rw [place_of_nil hFrames, place_of_nil hMoved, Item.ofStmt_relocate]
      simp [carried]
  | cons frame outer =>
      have hMoved : (assembly.carried f earlier).frames =
          frame.relocate f :: outer.map (Frame.relocate f) := by
        rw [carried, hFrames, List.map_cons]
      rw [place_of_cons hFrames, place_of_cons hMoved]
      simp [carried, Frame.relocate]

theorem note_carried (fault : Option Fault) (site : Site) :
    (assembly.carried f earlier).note fault (f site) =
      (assembly.note fault site).carried f earlier := by
  cases fault with
  | none => rfl
  | some fault =>
      have hPlaced := place_carried f assembly earlier (.invalid ⟨fault, site⟩ false)
      rw [Stmt.relocate] at hPlaced
      exact hPlaced

theorem pop_carried {become : Frame → Stmt × List Diagnostic}
    (hBecome : ∀ frame : Frame, become (frame.relocate f) = movedEnd f (become frame)) :
    (assembly.carried f earlier).pop become =
      (assembly.pop become).carried f earlier := by
  cases hFrames : assembly.frames with
  | nil =>
      have hMoved : (assembly.carried f earlier).frames = [] := by
        rw [carried, hFrames, List.map_nil]
      rw [pop, pop, hFrames, hMoved]
  | cons frame outer =>
      have hMoved : (assembly.carried f earlier).frames =
          frame.relocate f :: outer.map (Frame.relocate f) := by
        rw [carried, hFrames, List.map_cons]
      rw [pop, pop, hFrames, hMoved]
      dsimp only
      have hLost : earlier.dropped ++ assembly.dropped.map (Diagnostic.relocate f) ++
          (become frame).2.map (Diagnostic.relocate f) =
            earlier.dropped ++ (assembly.dropped ++ (become frame).2).map
              (Diagnostic.relocate f) :=
        Array.ext' (by simp)
      rw [hBecome, movedEnd, ← place_carried]
      simp only [carried, hLost]

theorem leaveConditional_carried : (assembly.carried f earlier).leaveConditional =
    assembly.leaveConditional.carried f earlier := by
  unfold leaveConditional innermost?
  rw [surroundings_carried]
  split
  · exact pop_carried f assembly earlier (Frame.close_relocate f)
  · rfl

theorem enter_carried (header : Header) (site : Site) :
    (assembly.carried f earlier).enter header (f site) =
      (assembly.enter header site).carried f earlier := by
  simp only [enter, surroundings_carried]
  simp [carried, Frame.relocate]

theorem leave_carried (kind : BlockKind) (surplus : Option Fault) (site : Site) :
    (assembly.carried f earlier).leave kind surplus (f site) =
      (assembly.leave kind surplus site).carried f earlier := by
  have hInner : (if kind ∈ (assembly.carried f earlier).surroundings then
        (assembly.carried f earlier).leaveConditional else assembly.carried f earlier) =
      (if kind ∈ assembly.surroundings then assembly.leaveConditional
        else assembly).carried f earlier := by
    rw [surroundings_carried, leaveConditional_carried]
    split <;> rfl
  unfold leave
  rw [hInner]
  generalize
    (if kind ∈ assembly.surroundings then assembly.leaveConditional else assembly) =
      inner
  dsimp only
  rw [innermost?, surroundings_carried, innermost?]
  split
  · rw [pop_carried f inner earlier (Frame.close_relocate f), note_carried]
  · exact note_carried f inner earlier _ site

theorem absorb_carried (phrase : Phrase) (site : Site) :
    (assembly.carried f earlier).absorb (phrase.relocate f) (f site) =
      (assembly.absorb phrase site).carried f earlier := by
  cases phrase with
  | simple stmt => exact place_carried f assembly earlier stmt
  | faulty fault gated =>
      have hPlaced := place_carried f assembly earlier (.invalid ⟨fault, site⟩ gated)
      rw [Stmt.relocate] at hPlaced
      exact hPlaced
  | opening header =>
      cases header with
      | loop _ | method _ => exact enter_carried f assembly earlier _ site
      | conditional found =>
          show (assembly.carried f earlier).leaveConditional.enter _ (f site) = _
          rw [leaveConditional_carried]
          exact enter_carried f assembly.leaveConditional earlier _ site
  | closing kind surplus =>
      cases kind with
      | loop | method => exact leave_carried f assembly earlier _ surplus site
      | conditional =>
          show (assembly.carried f earlier).leaveConditional.note surplus (f site) = _
          rw [leaveConditional_carried]
          exact note_carried f assembly.leaveConditional earlier surplus site

/-- **A line is taken into account in the same way wherever it stands.** -/
theorem feed_carried (line : Line) :
    (assembly.carried f earlier).feed (line.relocate f) =
      (assembly.feed line).carried f earlier := by
  rw [feed, ofLine_relocate]
  exact absorb_carried f assembly earlier _ line.toSite

theorem feedAll_carried (lines : List Line) : ∀ assembly : Assembly,
    (lines.map (Line.relocate f)).foldl feed (assembly.carried f earlier) =
      (lines.foldl feed assembly).carried f earlier := by
  induction lines with
  | nil => exact fun _ => rfl
  | cons line rest ih =>
      intro assembly
      rw [List.map_cons, List.foldl_cons, feed_carried, ih, List.foldl_cons]

theorem finishFrames_carried (ending : Ending) :
    (assembly.carried f earlier).finishFrames ending =
      (assembly.finishFrames ending).carried f earlier := by
  have hFold : ∀ (frames : List Frame) (assembly : Assembly),
      (frames.map (Frame.relocate f)).foldl (fun assembly _ =>
        assembly.pop (Frame.expire ending))
          (assembly.carried f earlier) =
        (frames.foldl (fun assembly _ => assembly.pop (Frame.expire ending))
          assembly).carried f
          earlier := by
    intro frames
    induction frames with
    | nil => exact fun _ => rfl
    | cons _ rest ih =>
        intro assembly
        rw [List.map_cons, List.foldl_cons,
          pop_carried f assembly earlier (Frame.expire_relocate f _), ih,
          List.foldl_cons]
  exact hFold assembly.frames assembly

end Assembly

/-! ## Whole scripts -/

theorem ofLines_append (front back : List Line) :
    Assembly.ofLines (front ++ back) =
      back.foldl Assembly.feed (Assembly.ofLines front) :=
  List.foldl_append

/-- Moved lines behind others that leave no block open. -/
theorem ofLines_append_relocate {front : List Line}
    (hClosed : (Assembly.ofLines front).frames = [])
    (back : List Line) : Assembly.ofLines (front ++ back.map (Line.relocate f)) =
      (Assembly.ofLines back).carried f (Assembly.ofLines front) := by
  have hStart : Assembly.ofLines front =
      Assembly.carried f {} (Assembly.ofLines front) := by
    generalize Assembly.ofLines front = earlier at hClosed
    obtain ⟨frames, items, dropped⟩ := earlier
    cases hClosed
    simp [Assembly.carried]
  calc Assembly.ofLines (front ++ back.map (Line.relocate f))
      = (back.map (Line.relocate f)).foldl Assembly.feed (Assembly.ofLines front) :=
        ofLines_append front _
    _ = (back.map (Line.relocate f)).foldl Assembly.feed
          (Assembly.carried f {} (Assembly.ofLines front)) := by rw [← hStart]
    _ = (Assembly.ofLines back).carried f (Assembly.ofLines front) :=
        Assembly.feedAll_carried f _ back {}

/-- **Lines that leave no block open are read apart from those that follow.** -/
theorem items_read_append_relocate {front : List Line}
    (hClosed : (Assembly.ofLines front).frames = []) (ending : Ending)
    (back : List Line) :
    (read ending (front ++ back.map (Line.relocate f))).items =
      (read ending front).items ++ (read ending back).items.map (Item.relocate f) := by
  have hFront : (read ending front).items = (Assembly.ofLines front).items.toList := by
    rw [read, Assembly.finish, Assembly.finishFrames, hClosed, List.foldl_nil]
  rw [hFront, read, ofLines_append_relocate f hClosed, Assembly.finish,
    Assembly.finishFrames_carried]
  simp [Assembly.carried, read, Assembly.finish]

/-- **The items of moved lines are the moved items.** -/
theorem items_read_relocate (ending : Ending) (lines : List Line) :
    (read ending (lines.map (Line.relocate f))).items =
      (read ending lines).items.map (Item.relocate f) :=
  @items_read_append_relocate f [] rfl ending lines

theorem frames_ofLines_relocate (lines : List Line) :
    (Assembly.ofLines (lines.map (Line.relocate f))).frames =
      (Assembly.ofLines lines).frames.map (Frame.relocate f) :=
  congrArg Assembly.frames (@ofLines_append_relocate f [] rfl lines)

end PenScript
