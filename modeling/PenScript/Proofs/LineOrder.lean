import Mathlib
import PenScript.Proofs.OpenEnd

/-!
# What becomes of each line

Every statement and every fault carries the line it comes from. Read in the order in
which they stand, a statement before its body, they name lines of the script, each at
most once and in the order of the script. Lines may be missing: those that close a block
are not kept, and a block that fails as a whole takes the lines in it along.

In a script without faults nothing else is missing. There every line is found again
except those that close a block.

The order is an invariant of the assembly. The lines it knows are those of the items,
and then those of the open blocks, the outermost first. A further line goes to their
end, and ending a block leaves the order as it is.

## Main results

* `sites_feed`: a further line is put at the end, and others may be lost;
* `sites_feed_of_faultless`: nothing is lost where nothing is wrong;
* `pairwise_ofSource`: the lines of a script are numbered in increasing order;
* `items_name_lines`: the lines that the items of a script name.
-/

namespace PenScript

/-! ## The lines of a statement -/

namespace Stmt

mutual

/-- The lines of a statement and of all statements inside of it, each before
those of its body. -/
def sites : Stmt → List Site
  | branch _ body site | loop _ body site | method _ body site => site :: sitesIn body
  | assign _ _ site | draw _ site | call _ site => [site]
  | invalid problem _ => [problem.site]

/-- The lines of statements and of all statements inside of them. -/
def sitesIn : List Stmt → List Site
  | [] => []
  | stmt :: rest => sites stmt ++ sitesIn rest

end

theorem sitesIn_append (front back : List Stmt) :
    sitesIn (front ++ back) = sitesIn front ++ sitesIn back := by
  induction front with
  | nil => rfl
  | cons stmt rest ih => rw [List.cons_append, sitesIn, sitesIn, ih, List.append_assoc]

theorem sites_ne_nil (stmt : Stmt) : stmt.sites ≠ [] := by
  cases stmt <;> simp [sites]

end Stmt

/-- The lines of an item. -/
def Item.sites : Item → List Site
  | .ok stmt => stmt.sites
  | .error problem => [problem.site]

theorem Item.sites_ofStmt (stmt : Stmt) : (Item.ofStmt stmt).sites = stmt.sites := by
  cases stmt <;> simp [ofStmt, sites, Stmt.sites]

theorem Item.sites_ne_nil (item : Item) : item.sites ≠ [] := by
  cases item with
  | ok stmt => exact stmt.sites_ne_nil
  | error problem => exact List.cons_ne_nil _ _

theorem Line.Says.sites_eq {line : Line} {stmt : Stmt} (hSays : line.Says stmt) :
    stmt.sites = [line.toSite] := by
  cases hSays <;> rw [Stmt.sites]

theorem Header.sites_of_build {header : Header} {body : List Stmt} {site : Site}
    {stmt : Stmt} (hBuild : header.build body site = .ok stmt) :
    stmt.sites = site :: Stmt.sitesIn body := by
  cases header with
  | conditional found | loop found | method found =>
      cases found with
      | error fault => cases hBuild
      | ok value =>
          cases hBuild
          rw [Stmt.sites]

/-! ## The lines of an assembly -/

namespace Frame

/-- The lines of an open block. -/
def sites (frame : Frame) : List Site := frame.site :: Stmt.sitesIn frame.body.toList

theorem sites_close (frame : Frame) : frame.close.1.sites.Sublist frame.sites := by
  unfold close
  split
  · rename_i hBuild
    rw [Header.sites_of_build hBuild]
    exact List.Sublist.refl _
  · exact List.singleton_sublist.mpr List.mem_cons_self

theorem sites_abandon (frame : Frame) : frame.abandon.1.sites.Sublist frame.sites := by
  rw [abandon_eq]
  exact List.singleton_sublist.mpr List.mem_cons_self

theorem sites_expire (ending : Ending) (frame : Frame) :
    (frame.expire ending).1.sites.Sublist frame.sites := by
  unfold expire
  split
  · exact frame.sites_close
  · exact frame.sites_abandon

theorem sites_close_of_faultless {frame : Frame} (hFaultless : frame.faults = []) :
    frame.close.1.sites = frame.sites := by
  cases hFault : frame.header.fault? with
  | some fault => simp [faults, hFault] at hFaultless
  | none =>
      obtain ⟨stmt, hBuild, -⟩ := Header.build_ok hFault frame.body.toList frame.site
      rw [close, hBuild]
      exact Header.sites_of_build hBuild

end Frame

namespace Assembly

/-- The lines of an assembly, in order: those of the items, and then those
of the open blocks. -/
def sites (assembly : Assembly) : List Site :=
  assembly.items.toList.flatMap Item.sites ++
    assembly.frames.reverse.flatMap Frame.sites

variable (assembly : Assembly)

theorem sites_place (stmt : Stmt) :
    (assembly.place stmt).sites = assembly.sites ++ stmt.sites := by
  cases hFrames : assembly.frames with
  | nil =>
      rw [place_of_nil hFrames]
      simp [sites, hFrames, Item.sites_ofStmt]
  | cons frame outer =>
      rw [place_of_cons hFrames]
      simp [sites, hFrames, Frame.sites, Stmt.sitesIn_append, Stmt.sitesIn]

theorem sites_note (fault : Option Fault) (site : Site) :
    (assembly.note fault site).sites.Sublist (assembly.sites ++ [site]) := by
  cases fault with
  | none => exact List.sublist_append_left _ _
  | some found =>
      rw [note, sites_place]
      exact List.Sublist.refl _

/-- Ending a block leaves its lines in place, if what becomes of it does. -/
theorem sites_pop {become : Frame → Stmt × List Diagnostic} {frame : Frame}
    {outer : List Frame} (hFrames : assembly.frames = frame :: outer) :
    (assembly.pop become).sites =
        assembly.items.toList.flatMap Item.sites ++ outer.reverse.flatMap Frame.sites ++
          (become frame).1.sites ∧
      assembly.sites =
        assembly.items.toList.flatMap Item.sites ++ outer.reverse.flatMap Frame.sites ++
          frame.sites := by
  constructor
  · rw [pop, hFrames]
    exact sites_place _ _
  · simp [sites, hFrames]

theorem sites_pop_sublist {become : Frame → Stmt × List Diagnostic}
    (hBecome : ∀ frame, (become frame).1.sites.Sublist frame.sites) :
    (assembly.pop become).sites.Sublist assembly.sites := by
  cases hFrames : assembly.frames with
  | nil =>
      rw [pop, hFrames]
  | cons frame outer =>
      obtain ⟨hPop, hSame⟩ := assembly.sites_pop hFrames
      rw [hPop, hSame]
      exact (hBecome frame).append_left _

theorem sites_leaveConditional :
    assembly.leaveConditional.sites.Sublist assembly.sites := by
  unfold leaveConditional
  split
  · exact assembly.sites_pop_sublist Frame.sites_close
  · exact List.Sublist.refl _

theorem sites_enter (header : Header) (site : Site) :
    (assembly.enter header site).sites = assembly.sites ++ [site] := by
  simp [enter, sites, Frame.sites, Stmt.sitesIn]

theorem sites_leave (kind : BlockKind) (surplus : Option Fault) (site : Site) :
    (assembly.leave kind surplus site).sites.Sublist (assembly.sites ++ [site]) := by
  have hInner : (if kind ∈ assembly.surroundings then assembly.leaveConditional
      else assembly).sites.Sublist assembly.sites := by
    split
    · exact assembly.sites_leaveConditional
    · exact List.Sublist.refl _
  unfold leave
  generalize
    (if kind ∈ assembly.surroundings then assembly.leaveConditional else assembly) =
      inner at hInner
  dsimp only
  split
  · refine (sites_note _ surplus site).trans ?_
    exact ((inner.sites_pop_sublist Frame.sites_close).trans hInner).append_right _
  · exact (inner.sites_note _ site).trans (hInner.append_right _)

/-- **A further line is put at the end**, and others may be lost. -/
theorem sites_feed (line : Line) :
    (assembly.feed line).sites.Sublist (assembly.sites ++ [line.toSite]) := by
  unfold feed
  cases hPhrase : Phrase.ofLine line with
  | simple stmt =>
      rw [absorb, sites_place, (Phrase.says_of_simple hPhrase).sites_eq]
  | faulty fault gated =>
      rw [absorb, sites_place]
      exact List.Sublist.refl _
  | opening header =>
      cases header with
      | conditional condition =>
          rw [absorb, sites_enter]
          exact assembly.sites_leaveConditional.append_right _
      | loop | method =>
          rw [absorb, sites_enter]
          simp
  | closing kind surplus =>
      cases kind with
      | conditional =>
          exact (sites_note _ surplus _).trans
            (assembly.sites_leaveConditional.append_right _)
      | loop | method => exact assembly.sites_leave _ surplus _

theorem sites_feedAll (lines : List Line) : ∀ assembly : Assembly,
    (lines.foldl feed assembly).sites.Sublist (assembly.sites ++
      lines.map Line.toSite) := by
  induction lines with
  | nil =>
      intro assembly
      rw [List.map_nil, List.append_nil]
      exact List.Sublist.refl _
  | cons line rest ih =>
      intro assembly
      have hLine := (assembly.sites_feed line).append_right (rest.map Line.toSite)
      rw [List.append_assoc] at hLine
      exact (ih _).trans hLine

/-- What taking the innermost block away keeps, is kept until none is open. -/
theorem finishFrames_keeps {P : Assembly → Prop} {ending : Ending}
    (hPop : ∀ assembly, P assembly → P (assembly.pop (Frame.expire ending)))
    (hStart : P assembly) : P (assembly.finishFrames ending) := by
  have hFold : ∀ (once : List Frame) (assembly : Assembly), P assembly → P
      (once.foldl (fun assembly _ => assembly.pop (Frame.expire ending)) assembly) := by
    intro once
    induction once with
    | nil => exact fun _ hNow => hNow
    | cons _ rest ih => exact fun assembly hNow => ih _ (hPop assembly hNow)
  exact hFold assembly.frames assembly hStart

theorem sites_finishFrames (ending : Ending) :
    (assembly.finishFrames ending).sites.Sublist assembly.sites :=
  @finishFrames_keeps assembly (fun later => later.sites.Sublist assembly.sites) ending
    (fun later hKept =>
      (later.sites_pop_sublist (Frame.sites_expire ending)).trans hKept)
    (List.Sublist.refl _)

end Assembly

/-! ## Where nothing is wrong -/

/-- Whether a line begins with a word that closes a block. -/
def Line.isCloser (line : Line) : Bool :=
  [BlockKind.conditional, .loop, .method].any fun kind => line.keyword == kind.closer

theorem Line.isCloser_iff {line : Line} :
    line.isCloser = true ↔
      ∃ kind, Keyword.ofWord? line.keyword = some (.closes kind) := by
  have hWord : ∀ kind : BlockKind, line.keyword = kind.closer ↔
      Keyword.ofWord? line.keyword = some (.closes kind) := by
    intro kind
    constructor
    · intro hSame
      rw [hSame]
      exact Keyword.ofWord?_text (.closes kind)
    · intro hFound
      exact (Keyword.text_of_ofWord? hFound).symm
  rw [isCloser, List.any_eq_true]
  constructor
  · rintro ⟨kind, -, hSame⟩
    exact ⟨kind, (hWord kind).mp (beq_iff_eq.mp hSame)⟩
  · rintro ⟨kind, hFound⟩
    exact ⟨kind, by cases kind <;> simp, beq_iff_eq.mpr ((hWord kind).mpr hFound)⟩

/-- The lines a line leaves in a script without faults: itself, unless
it closes a block. -/
def Line.kept (line : Line) : List Site := if line.isCloser then [] else [line.toSite]

theorem Line.kept_of_other {line : Line} {found : Option Keyword}
    (hWord : Keyword.ofWord? line.keyword = found)
    (hOther : ∀ kind, found ≠ some (.closes kind)) :
    line.kept = [line.toSite] := by
  rw [kept, if_neg]
  rw [isCloser_iff]
  rintro ⟨kind, hFound⟩
  exact hOther kind (hWord.symm.trans hFound)

theorem Line.Says.kept_eq {line : Line} {stmt : Stmt} (hSays : line.Says stmt) :
    line.kept = [line.toSite] := by
  cases hSays with
  | assign value hName hFree => exact Line.kept_of_other hFree (by simp)
  | draw hWord hCounted => exact Line.kept_of_other hWord (by simp)
  | call hWord hName => exact Line.kept_of_other hWord (by simp)

namespace Assembly

variable {assembly later : Assembly}

/-- What is without faults later was so before, if no fault is ever lost. -/
theorem faultless_of_count
    (hCount : ∀ problem, assembly.faults.count problem ≤ later.faults.count problem)
    (hLater : later.faults = []) : assembly.faults = [] := by
  refine List.eq_nil_iff_forall_not_mem.mpr fun problem hMem => ?_
  have hSome := List.count_pos_iff.mpr hMem
  have hNone := hCount problem
  rw [hLater, List.count_nil] at hNone
  omega

theorem faultless_of_note {fault : Option Fault} {site : Site}
    (hAfter : (assembly.note fault site).faults = []) :
    fault = none ∧ assembly.faults = [] := by
  cases fault with
  | none => exact ⟨rfl, hAfter⟩
  | some found =>
      have hCount := assembly.count_faults_note ⟨found, site⟩ (some found) site
      rw [hAfter] at hCount
      simp at hCount

theorem sites_pop_close_of_faultless (hFaultless : assembly.faults = []) :
    (assembly.pop Frame.close).sites = assembly.sites := by
  cases hFrames : assembly.frames with
  | nil => rw [pop, hFrames]
  | cons frame outer =>
      have hFrame : frame.faults = [] := by
        simp only [faults, hFrames, List.flatMap_cons,
          List.append_eq_nil_iff] at hFaultless
        exact hFaultless.2.1
      obtain ⟨hPop, hSame⟩ := @sites_pop assembly Frame.close frame outer hFrames
      rw [hPop, hSame, Frame.sites_close_of_faultless hFrame]

theorem sites_leaveConditional_of_faultless (hFaultless : assembly.faults = []) :
    assembly.leaveConditional.sites = assembly.sites := by
  unfold leaveConditional
  split
  · exact sites_pop_close_of_faultless hFaultless
  · rfl

theorem faultless_of_leaveConditional (hAfter : assembly.leaveConditional.faults = []) :
    assembly.faults = [] :=
  faultless_of_count
    (fun problem => Nat.le_of_eq (assembly.count_faults_leaveConditional problem).symm)
      hAfter

theorem sites_leave_of_faultless {kind : BlockKind} {surplus : Option Fault}
    {site : Site} (hAfter : (assembly.leave kind surplus site).faults = []) :
    (assembly.leave kind surplus site).sites = assembly.sites := by
  have hInner : (if kind ∈ assembly.surroundings then assembly.leaveConditional
      else assembly).faults = [] →
      (if kind ∈ assembly.surroundings then assembly.leaveConditional
        else assembly).sites = assembly.sites := by
    split
    · exact fun hNone =>
        sites_leaveConditional_of_faultless (faultless_of_leaveConditional hNone)
    · exact fun _ => rfl
  unfold leave at hAfter ⊢
  generalize
    (if kind ∈ assembly.surroundings then assembly.leaveConditional else assembly) =
      inner at hAfter hInner
  dsimp only at hAfter ⊢
  split at hAfter
  · rename_i hOpen
    rw [if_pos hOpen]
    obtain ⟨rfl, hPop⟩ := faultless_of_note hAfter
    have hFaultless : inner.faults = [] :=
      faultless_of_count (fun problem =>
        Nat.le_of_eq (inner.count_faults_pop_close problem).symm)
        hPop
    rw [note, sites_pop_close_of_faultless hFaultless, hInner hFaultless]
  · cases (faultless_of_note hAfter).1

theorem faultless_of_feed {line : Line} (hAfter : (assembly.feed line).faults = []) :
    assembly.faults = [] :=
  faultless_of_count (fun problem => by rw [count_faults_feed]; omega) hAfter

/-- **Nothing is lost where nothing is wrong.** -/
theorem sites_feed_of_faultless {line : Line}
    (hAfter : (assembly.feed line).faults = []) :
    (assembly.feed line).sites = assembly.sites ++ line.kept := by
  have hBefore := faultless_of_feed hAfter
  have hSuits := Phrase.suits_ofLine line
  unfold feed at hAfter ⊢
  cases hPhrase : Phrase.ofLine line with
  | simple stmt =>
      rw [hPhrase] at hSuits
      rw [absorb, sites_place, hSuits.sites_eq, hSuits.kept_eq]
  | faulty fault gated =>
      have hCount := assembly.count_faults_place ⟨fault, line.toSite⟩
        (.invalid ⟨fault, line.toSite⟩ gated)
      rw [hPhrase, absorb] at hAfter
      rw [hAfter] at hCount
      simp [Stmt.faults] at hCount
  | opening header =>
      rw [hPhrase] at hSuits
      obtain ⟨-, kind, -, hWord⟩ := hSuits
      have hKept := Line.kept_of_other hWord (by simp)
      cases header with
      | conditional condition =>
          rw [absorb, sites_enter, sites_leaveConditional_of_faultless hBefore, hKept]
      | loop | method =>
          rw [absorb, sites_enter, hKept]
          simp
  | closing kind surplus =>
      rw [hPhrase] at hSuits hAfter
      have hKept : line.kept = [] := by
        rw [Line.kept, if_pos (Line.isCloser_iff.mpr ⟨kind, hSuits.2⟩)]
      rw [hKept, List.append_nil]
      cases kind with
      | conditional =>
          obtain ⟨rfl, -⟩ := faultless_of_note hAfter
          exact sites_leaveConditional_of_faultless hBefore
      | loop | method => exact sites_leave_of_faultless hAfter

theorem sites_feedAll_of_faultless (lines : List Line) : ∀ assembly : Assembly,
    (lines.foldl feed assembly).faults = [] → assembly.faults = [] ∧
      (lines.foldl feed assembly).sites = assembly.sites ++
        lines.flatMap Line.kept := by
  induction lines with
  | nil => exact fun assembly hAfter => ⟨hAfter, (List.append_nil assembly.sites).symm⟩
  | cons line rest ih =>
      intro assembly hAfter
      obtain ⟨hLine, hRest⟩ := ih _ hAfter
      refine ⟨faultless_of_feed hLine, ?_⟩
      rw [List.foldl_cons, hRest, sites_feed_of_faultless hLine, List.append_assoc]
      rfl

theorem sites_pop_expire_of_faultless
    (hAfter : (assembly.pop (Frame.expire .complete)).faults = []) :
    assembly.faults = [] ∧
      (assembly.pop (Frame.expire .complete)).sites = assembly.sites := by
  cases hFrames : assembly.frames with
  | nil =>
      rw [pop, hFrames] at hAfter ⊢
      exact ⟨hAfter, rfl⟩
  | cons frame outer =>
      have hCount : ∀ problem, assembly.faults.count problem = 0 ∧
          (Scan.unclosed [⟨frame.kind, frame.site⟩]).count problem = 0 := by
        intro problem
        have hPop :=
          assembly.count_faults_pop problem hFrames (count_expire problem frame)
        rw [hAfter, List.count_nil] at hPop
        omega
      have hFaultless : assembly.faults = [] :=
        List.eq_nil_iff_forall_not_mem.mpr fun problem =>
          List.count_eq_zero.mp (hCount problem).1
      have hFrame : frame.faults = [] := by
        simp only [faults, hFrames, List.flatMap_cons,
          List.append_eq_nil_iff] at hFaultless
        exact hFaultless.2.1
      -- A block of another kind would be reported.
      have hKind : frame.kind = .conditional := by
        have hUnclosed := (hCount ⟨.neverClosed frame.kind, frame.site⟩).2
        by_contra hOther
        simp [Scan.unclosed, hOther] at hUnclosed
      obtain ⟨hPop, hSame⟩ :=
        @sites_pop assembly (Frame.expire .complete) frame outer hFrames
      refine ⟨hFaultless, ?_⟩
      rw [hPop, hSame, Frame.expire, if_pos ⟨rfl, hKind⟩,
        Frame.sites_close_of_faultless hFrame]

/-- Where nothing is wrong, the end of a complete script loses nothing either. -/
theorem sites_finishFrames_of_faultless
    (hAfter : (assembly.finishFrames .complete).faults = []) :
    assembly.faults = [] ∧
      (assembly.finishFrames .complete).sites = assembly.sites := by
  let Keeps (later : Assembly) : Prop :=
    later.faults = [] → assembly.faults = [] ∧ later.sites = assembly.sites
  have hKeeps : Keeps (assembly.finishFrames .complete) := by
    refine finishFrames_keeps assembly (fun later hBefore hNone => ?_) fun hNone =>
      ⟨hNone, rfl⟩
    obtain ⟨hLater, hPop⟩ := sites_pop_expire_of_faultless hNone
    obtain ⟨hFirst, hSame⟩ := hBefore hLater
    exact ⟨hFirst, hPop.trans hSame⟩
  exact hKeeps hAfter

end Assembly

/-! ## The whole script -/

theorem Line.toSite_number_of_ofPiece? {number : Nat} {piece : List Char} {line : Line}
    (hLine : Line.ofPiece? number piece = some line) : line.toSite.number = number := by
  unfold Line.ofPiece? at hLine
  split at hLine
  · cases hLine
  · cases hLine
    rfl

/-- **The lines of a script are numbered in increasing order.** -/
theorem Line.pairwise_ofSource (source : String) :
    (Line.ofSource source).Pairwise fun first second =>
      first.toSite.number < second.toSite.number := by
  have hNumbers : ((Line.pieces source).zipIdx 1).Pairwise fun first second =>
      first.2 < second.2 := by
    rw [← List.pairwise_map, List.zipIdx_map_snd]
    exact List.pairwise_lt_range'
  rw [Line.ofSource, List.pairwise_filterMap]
  refine hNumbers.imp fun {first second} hLess front hFront back hBack => ?_
  rw [Line.toSite_number_of_ofPiece? hFront, Line.toSite_number_of_ofPiece? hBack]
  exact hLess

theorem mem_diagnostics_iff {ending : Ending} {lines : List Line}
    {problem : Diagnostic} :
    problem ∈ (read ending lines).diagnostics ↔
      problem ∈ ((Assembly.ofLines lines).finishFrames ending).faults := by
  rw [← faults_read, Reading.diagnostics, List.mem_mergeSort]

theorem sites_read (ending : Ending) (lines : List Line) :
    (read ending lines).items.flatMap Item.sites =
      ((Assembly.ofLines lines).finishFrames ending).sites := by
  rw [Assembly.sites, Assembly.frames_finishFrames]
  exact (List.append_nil _).symm

theorem sites_read_sublist (ending : Ending) (lines : List Line) :
    ((read ending lines).items.flatMap Item.sites).Sublist (lines.map Line.toSite) := by
  rw [sites_read]
  exact (Assembly.sites_finishFrames _ ending).trans (Assembly.sites_feedAll lines {})

theorem sites_read_of_diagnostics {lines : List Line}
    (hNone : (read .complete lines).diagnostics = []) :
    (read .complete lines).items.flatMap Item.sites = lines.flatMap Line.kept := by
  have hFaultless : ((Assembly.ofLines lines).finishFrames .complete).faults = [] := by
    refine List.eq_nil_iff_forall_not_mem.mpr fun problem hMem => ?_
    have hFound := mem_diagnostics_iff.mpr hMem
    rw [hNone] at hFound
    exact List.not_mem_nil hFound
  obtain ⟨hLines, hFinish⟩ := Assembly.sites_finishFrames_of_faultless hFaultless
  rw [sites_read, hFinish]
  exact (Assembly.sites_feedAll_of_faultless lines {} hLines).2

theorem Line.flatMap_kept (lines : List Line) :
    lines.flatMap Line.kept =
      (lines.filter fun line => !line.isCloser).map Line.toSite := by
  induction lines with
  | nil => rfl
  | cons line rest ih =>
      rw [List.flatMap_cons, ih, Line.kept]
      cases hCloser : line.isCloser <;> simp [hCloser]

theorem length_le_flatMap_sites (items : List Item) :
    items.length ≤ (items.flatMap Item.sites).length := by
  induction items with
  | nil => exact Nat.le_refl 0
  | cons item rest ih =>
      have hSome := List.length_pos_iff.mpr item.sites_ne_nil
      rw [List.flatMap_cons, List.length_append, List.length_cons]
      omega

/-- **The lines that the items of a script name**, read as they stand, a statement
before its body: lines of the script, each at most once and in order, so there
are no more items than lines. In a script without faults only those are missing
that close a block. -/
theorem items_name_lines (ending : Ending) (source : String) :
    ((read ending (Line.ofSource source)).items.flatMap Item.sites).Sublist
        ((Line.ofSource source).map Line.toSite) ∧
      ((read ending (Line.ofSource source)).items.flatMap Item.sites).Pairwise
        (fun first second => first.number < second.number) ∧
      (read ending (Line.ofSource source)).items.length ≤
        (Line.ofSource source).length ∧
      ((∃ stmts, check source = .ok stmts) →
        (readSource source).items.flatMap Item.sites =
          ((Line.ofSource source).filter fun line =>
            !line.isCloser).map Line.toSite) := by
  have hSublist := sites_read_sublist ending (Line.ofSource source)
  refine ⟨hSublist, ?ordered, ?few, ?whole⟩
  case ordered =>
    refine List.Pairwise.sublist hSublist ?_
    rw [List.pairwise_map]
    exact Line.pairwise_ofSource source
  case few =>
    have hFew := hSublist.length_le
    rw [List.length_map] at hFew
    exact Nat.le_trans (length_le_flatMap_sites _) hFew
  case whole =>
    intro hPasses
    rw [← Line.flatMap_kept]
    exact sites_read_of_diagnostics (check_eq_ok_iff.mp hPasses)

/-- Of five lines the last two close a block, or nothing at all, and only
they are missing. -/
theorem items_name_lines_closers :
    let source := "if 1 < 2\nloop 3\ncircle 1\nendif\nendloop"
    (∃ stmts, check source = .ok stmts) ∧
      (readSource source).items.flatMap Item.sites =
        [⟨1, "if 1 < 2"⟩, ⟨2, "loop 3"⟩, ⟨3, "circle 1"⟩] := by
  intro source
  let lines : List Line :=
    [⟨⟨1, "if 1 < 2"⟩, "if", ["1", "<", "2"]⟩, ⟨⟨2, "loop 3"⟩, "loop", ["3"]⟩,
      ⟨⟨3, "circle 1"⟩, "circle", ["1"]⟩, ⟨⟨4, "endif"⟩, "endif", []⟩,
      ⟨⟨5, "endloop"⟩, "endloop", []⟩]
  have hLines : Line.ofSource source = lines := by
    unfold source lines
    cbv
  have hNone : (read .complete lines).diagnostics = [] := by
    unfold lines
    cbv
  have hPasses : ∃ stmts, check source = .ok stmts := by
    rw [check_eq_ok_iff, readSource, hLines, hNone]
  refine ⟨hPasses, ?_⟩
  rw [(items_name_lines .complete source).2.2.2 hPasses, hLines]
  rfl

end PenScript
