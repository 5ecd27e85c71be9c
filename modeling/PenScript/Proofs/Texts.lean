import Mathlib.Data.List.DropRight
import PenScript.Proofs.Relocation

/-!
# The lines of texts that are joined

A session joins the texts entered so far by line feeds and reads the result anew.
What this gives is known without reading: each text without line breaks is one
line, or none if it has no words, and only its number depends on the others. So
lines are compared here with their numbers taken away.

## Main results

* `ofText?_trimmed`: blanks around a text make no difference to its line;
* `words_of_mem_pieces`: a text without words has no line with words;
* `ofSource_intercalate`: the lines of joined texts are the lines of the texts.
-/

namespace PenScript

open Text

/-- A site without its number. -/
def Site.unnumbered (site : Site) : Site := { site with number := 0 }

/-- The line that a text is, without a number, unless it has no words. -/
def Line.ofText? (text : String) : Option Line := ofPiece? 0 text.toList

/-- The lines of texts, without numbers. -/
def unnumberedLines (texts : List String) : List Line := texts.filterMap Line.ofText?

/-- Whether a text has no line breaks in it. -/
def OneLine (text : String) : Prop := '\r' ∉ text.toList ∧ '\n' ∉ text.toList

instance (text : String) : Decidable (OneLine text) :=
  inferInstanceAs (Decidable (_ ∧ _))

theorem Text.toList_trimmed (text : String) :
    (Text.trimmed text).toList = Text.trim text.toList :=
  String.toList_ofList

theorem oneLine_trimmed {text : String} (hText : OneLine text) :
    OneLine (Text.trimmed text) := by
  obtain ⟨front, back, -, hJoin⟩ := Text.trim_append_trimmed text.toList
  have hPart : ∀ c ∈ (Text.trimmed text).toList, c ∈ text.toList := by
    intro c hMem
    rw [Text.toList_trimmed] at hMem
    rw [← hJoin]
    exact List.mem_append_left back (List.mem_append_right front hMem)
  exact ⟨fun hMem => hText.1 (hPart _ hMem), fun hMem => hText.2 (hPart _ hMem)⟩

namespace Line

/-! ## Blanks around a text -/

theorem words_append_cons {separator : Char} (hSeparator : isSeparator separator = true)
    (front back : List Char) :
    words (front ++ separator :: back) = words front ++ words back := by
  rw [words, List.splitOnP_append_cons front back hSeparator, List.filter_append,
    List.map_append]
  rfl

theorem words_of_separators {cs : List Char} (hAll : ∀ c ∈ cs, isSeparator c = true) :
    words cs = [] := by
  induction cs with
  | nil => rfl
  | cons c rest ih =>
      obtain ⟨hHead, hRest⟩ := List.forall_mem_cons.mp hAll
      have hSplit := words_append_cons hHead [] rest
      rw [List.nil_append, ih hRest] at hSplit
      exact hSplit

theorem words_append_separators (cs : List Char) {back : List Char}
    (hAll : ∀ c ∈ back, isSeparator c = true) : words (cs ++ back) = words cs := by
  cases back with
  | nil => rw [List.append_nil]
  | cons c rest =>
      obtain ⟨hHead, hRest⟩ := List.forall_mem_cons.mp hAll
      rw [words_append_cons hHead, words_of_separators hRest, List.append_nil]

theorem words_separators_append (cs : List Char) {front : List Char}
    (hAll : ∀ c ∈ front, isSeparator c = true) : words (front ++ cs) = words cs := by
  induction front with
  | nil => rw [List.nil_append]
  | cons c rest ih =>
      obtain ⟨hHead, hRest⟩ := List.forall_mem_cons.mp hAll
      have hSplit := words_append_cons hHead [] (rest ++ cs)
      rw [List.nil_append, ih hRest] at hSplit
      exact hSplit

theorem words_trim (cs : List Char) : words (trim cs) = words cs := by
  obtain ⟨front, back, hBlank, hJoin⟩ := trim_append_trimmed cs
  have hSeparator : ∀ c ∈ front ++ back, isSeparator c = true := fun c hMem => by
    rw [isSeparator, hBlank c hMem, Bool.true_or]
  have hBack := words_append_separators (front ++ trim cs)
    fun c hMem => hSeparator c (List.mem_append_right front hMem)
  have hFront := words_separators_append (trim cs)
    fun c hMem => hSeparator c (List.mem_append_left back hMem)
  rw [← hFront, ← hBack, hJoin]

theorem dropWhile_of_prefix {front cs : List Char} (hFront : front <+: cs)
    (hSelf : cs.dropWhile isBlank = cs) : front.dropWhile isBlank = front := by
  cases front with
  | nil => rfl
  | cons c rest =>
      obtain ⟨back, rfl⟩ := hFront
      rw [List.dropWhile_eq_self_iff] at hSelf ⊢
      exact fun _ => hSelf (Nat.succ_pos _)

theorem trim_trim (cs : List Char) : trim (trim cs) = trim cs := by
  have hStart : (cs.dropWhile isBlank).dropWhile isBlank = cs.dropWhile isBlank :=
    List.dropWhile_idempotent _ _
  have hKept : (trim cs).dropWhile isBlank = trim cs :=
    dropWhile_of_prefix (List.rdropWhile_prefix isBlank (cs.dropWhile isBlank)) hStart
  calc trim (trim cs)
      = trimEnd (trim cs) := by rw [trim, hKept]
    _ = trim cs := List.rdropWhile_idempotent isBlank (cs.dropWhile isBlank)

theorem ofPiece?_trim (number : Nat) (cs : List Char) :
    ofPiece? number (trim cs) = ofPiece? number cs := by
  rw [ofPiece?, words_trim, trim_trim, ofPiece?]

theorem ofText?_trimmed (text : String) : ofText? (trimmed text) = ofText? text := by
  rw [ofText?, toList_trimmed, ofPiece?_trim, ofText?]

theorem words_eq_nil_iff (text : String) :
    words text.toList = [] ↔ ofText? text = none := by
  unfold ofText? ofPiece?
  split
  · rename_i hNone
    exact iff_of_true hNone rfl
  · rename_i hSome
    rw [hSome]
    exact iff_of_false (List.cons_ne_nil _ _) (Option.some_ne_none _)

/-! ## Texts without words -/

/-- A text without words has nothing but separators. -/
theorem separators_of_words {cs : List Char} (hNone : words cs = []) :
    ∀ c ∈ cs, isSeparator c = true := by
  induction cs with
  | nil => exact fun _ hMem => absurd hMem List.not_mem_nil
  | cons c rest ih =>
      cases hSeparator : isSeparator c with
      | true =>
          have hSplit := words_append_cons hSeparator [] rest
          rw [List.nil_append, hNone] at hSplit
          exact List.forall_mem_cons.mpr ⟨hSeparator, ih hSplit.symm⟩
      | false =>
          -- The first word begins with that character.
          obtain ⟨piece, others, hPieces⟩ :=
            List.exists_cons_of_ne_nil (List.splitOnP_ne_nil isSeparator rest)
          simp [words, List.splitOnP_cons_eq_if_modifyHead, hSeparator,
            hPieces] at hNone

theorem words_intercalate (pieces : List (List Char)) :
    words (['\n'].intercalate pieces) = pieces.flatMap words := by
  induction pieces with
  | nil => rfl
  | cons piece rest ih =>
      cases rest with
      | nil => rw [List.intercalate_singleton, List.flatMap_singleton]
      | cons next others =>
          rw [List.intercalate_cons_cons, List.append_assoc, List.singleton_append,
            words_append_cons (by decide), ih]
          rfl

theorem mem_unifyBreaks {c : Char} {cs : List Char} (hMem : c ∈ unifyBreaks cs) :
    c = '\n' ∨ c ∈ cs := by
  fun_induction unifyBreaks cs with
  | case1 => exact absurd hMem List.not_mem_nil
  | case2 rest ih =>
      rcases List.mem_cons.mp hMem with hHead | hTail
      · exact Or.inl hHead
      · refine (ih hTail).imp_right fun hRest => ?_
        exact List.mem_cons_of_mem _ (List.mem_cons_of_mem _ hRest)
  | case3 first rest _ ih =>
      rcases List.mem_cons.mp hMem with hHead | hTail
      · split at hHead
        · exact Or.inl hHead
        · exact Or.inr (hHead ▸ List.mem_cons_self)
      · exact (ih hTail).imp_right (List.mem_cons_of_mem _)

/-- What line feeds separate, joined by line feeds again. -/
theorem intercalate_splitFeeds (cs : List Char) :
    ['\n'].intercalate (cs.splitOnP (· == '\n')) = cs := by
  rw [← List.splitOn_eq_splitOnP, List.intercalate_splitOn]

/-- None of the lines of a text without words has words. -/
theorem words_of_mem_pieces {text : String} (hNone : words text.toList = [])
    {piece : List Char} (hPiece : piece ∈ pieces text) : words piece = [] := by
  have hAll : ∀ c ∈ unifyBreaks text.toList, isSeparator c = true := by
    intro c hMem
    rcases mem_unifyBreaks hMem with rfl | hOld
    · decide
    · exact separators_of_words hNone c hOld
  have hJoin : ['\n'].intercalate (pieces text) = unifyBreaks text.toList :=
    intercalate_splitFeeds _
  have hWords := words_intercalate (pieces text)
  rw [hJoin, words_of_separators hAll] at hWords
  exact List.flatMap_eq_nil_iff.mp hWords.symm piece hPiece

/-! ## Joined texts -/

theorem ofPiece?_unnumbered (number : Nat) (piece : List Char) :
    (ofPiece? number piece).map (relocate Site.unnumbered) = ofPiece? 0 piece := by
  unfold ofPiece?
  split <;> rfl

/-- The lines of a script without their numbers. -/
theorem ofSource_unnumbered (source : String) :
    (ofSource source).map (relocate Site.unnumbered) =
      (pieces source).filterMap (ofPiece? 0) := by
  rw [ofSource, List.map_filterMap]
  simp only [ofPiece?_unnumbered]
  have hPieces : (pieces source).filterMap (ofPiece? 0) =
      (((pieces source).zipIdx 1).map Prod.fst).filterMap (ofPiece? 0) := by
    rw [List.zipIdx_map_fst]
  rw [hPieces, List.filterMap_map]
  rfl

theorem not_mem_intercalate {c : Char} {separator : List Char}
    (hSeparator : c ∉ separator)
    {pieces : List (List Char)} (hPieces : ∀ piece ∈ pieces, c ∉ piece) :
    c ∉ separator.intercalate pieces := by
  induction pieces with
  | nil => exact List.not_mem_nil
  | cons piece rest ih =>
      obtain ⟨hHead, hRest⟩ := List.forall_mem_cons.mp hPieces
      cases rest with
      | nil => rwa [List.intercalate_singleton]
      | cons next others =>
          rw [List.intercalate_cons_cons, List.mem_append, List.mem_append]
          exact not_or.mpr ⟨not_or.mpr ⟨hHead, hSeparator⟩, ih hRest⟩

theorem pieces_intercalate {texts : List String} (hSome : texts ≠ [])
    (hTexts : ∀ text ∈ texts, OneLine text) :
    pieces (String.intercalate "\n" texts) = texts.map String.toList := by
  have hPieces : ∀ piece ∈ texts.map String.toList, '\r' ∉ piece ∧ '\n' ∉ piece :=
    List.forall_mem_map.mpr hTexts
  have hNoReturn : '\r' ∉ ['\n'].intercalate (texts.map String.toList) :=
    not_mem_intercalate (by decide) fun piece hMem => (hPieces piece hMem).1
  have hFeed : ("\n" : String).toList = ['\n'] := rfl
  rw [pieces, String.toList_intercalate, hFeed, unifyBreaks_of_noReturn hNoReturn,
    ← List.splitOn_eq_splitOnP]
  refine List.splitOn_intercalate _ (fun piece hMem => (hPieces piece hMem).2) ?_
  exact fun hNil => hSome (List.map_eq_nil_iff.mp hNil)

/-- **The lines of joined texts are the lines of the texts**, but for their numbers. -/
theorem ofSource_intercalate {texts : List String}
    (hTexts : ∀ text ∈ texts, OneLine text) :
    (ofSource (String.intercalate "\n" texts)).map (relocate Site.unnumbered) =
      unnumberedLines texts := by
  rw [ofSource_unnumbered, unnumberedLines]
  by_cases hSome : texts = []
  · subst hSome
    rfl
  · rw [pieces_intercalate hSome hTexts, List.filterMap_map]
    rfl

end Line

/-! ## Lines without numbers -/

theorem unnumberedLines_append (front back : List String) :
    unnumberedLines (front ++ back) = unnumberedLines front ++ unnumberedLines back :=
  List.filterMap_append

theorem unnumberedLines_trimmed (text : String) :
    unnumberedLines [Text.trimmed text] = unnumberedLines [text] := by
  rw [unnumberedLines, unnumberedLines, List.filterMap_cons, List.filterMap_cons,
    Line.ofText?_trimmed]

theorem relocate_unnumberedLines (texts : List String) :
    (unnumberedLines texts).map (Line.relocate Site.unnumbered) =
      unnumberedLines texts := by
  rw [unnumberedLines, List.map_filterMap]
  refine congrArg (fun read => List.filterMap read texts) (funext fun text => ?_)
  exact Line.ofPiece?_unnumbered 0 text.toList

end PenScript
