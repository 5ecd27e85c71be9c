import PenScript.Proofs.LineCutting
import PenScript.Proofs.Texts

/-!
# The layout of a text

A text is a row of pieces with line breaks between them. There are three breaks, and
two of them begin alike: a carriage return is a break by itself only where no line feed
follows, for with a line feed it is one break and not two. With this proviso every text
can be laid out, and in one way only, so that its pieces are a property of the text and
not of a way to go through it.

The lines of a script are the pieces that have words. A piece keeps the number that it
has among all pieces, which is one more than the number of breaks in front of it. How
the breaks are written makes no difference, because lines depend on pieces alone.

Lines can be put together again: their texts, joined by line feeds, are cut into these
lines, and only the numbers are new, as pieces without words are gone. This is what
allows to hold lines as texts and to read them anew.

## Main results

* `laidOut_iff`: every text has one layout, which is found by making all breaks alike;
* `rowsOf_eq`: the lines of a script are its pieces with words;
* `Line.exists_piece_of_mem`: every line of a script is cut from one of its pieces;
* `Line.ofSource_join`: lines that are joined and cut again;
* `ofSource_of_layout`: all of this of one script.
-/

namespace PenScript

open Text

/-! ## Layouts -/

/-- Whether a text has no line break in it. -/
def Unbroken (cs : List Char) : Prop := '\r' ∉ cs ∧ '\n' ∉ cs

/-- Whether a text consists of the given pieces, with one line break
between each two. -/
inductive LaidOut : List Char → List (List Char) → Prop where
  /-- A text without a break is one piece. -/
  | last {piece : List Char} (hPiece : Unbroken piece) : LaidOut piece [piece]
  /-- A piece that ends with a line feed. -/
  | feed {piece rest : List Char} {pieces : List (List Char)} (hPiece : Unbroken piece)
      (hRest : LaidOut rest pieces) : LaidOut (piece ++ '\n' :: rest) (piece :: pieces)
  /-- A piece that ends with a carriage return and a line feed. -/
  | pair {piece rest : List Char} {pieces : List (List Char)} (hPiece : Unbroken piece)
      (hRest : LaidOut rest pieces) :
      LaidOut (piece ++ '\r' :: '\n' :: rest) (piece :: pieces)
  /-- A piece that ends with a carriage return alone. -/
  | ret {piece rest : List Char} {pieces : List (List Char)} (hPiece : Unbroken piece)
      (hAlone : rest.head? ≠ some '\n') (hRest : LaidOut rest pieces) :
      LaidOut (piece ++ '\r' :: rest) (piece :: pieces)

theorem unbroken_iff {cs : List Char} :
    Unbroken cs ↔ ∀ c ∈ cs, Row.isBreak c = false := by
  unfold Unbroken Row.isBreak
  constructor
  · rintro ⟨hReturn, hFeed⟩ c hMem
    have hNeReturn : c ≠ '\r' := fun hEq => hReturn (hEq ▸ hMem)
    have hNeFeed : c ≠ '\n' := fun hEq => hFeed (hEq ▸ hMem)
    simp [hNeReturn, hNeFeed]
  · intro hAll
    exact ⟨fun hMem => absurd (hAll _ hMem) (by decide), fun hMem =>
      absurd (hAll _ hMem) (by decide)⟩

theorem Unbroken.cons {c : Char} {cs : List Char} (hOther : Row.isBreak c = false)
    (hRest : Unbroken cs) : Unbroken (c :: cs) :=
  unbroken_iff.mpr (List.forall_mem_cons.mpr ⟨hOther, unbroken_iff.mp hRest⟩)

theorem unbroken_nil : Unbroken [] := ⟨List.not_mem_nil, List.not_mem_nil⟩

namespace LaidOut

variable {text : List Char} {pieces : List (List Char)}

/-- The pieces of a layout are those between line feeds, once all breaks
are line feeds. -/
theorem splitOnP_eq (hText : LaidOut text pieces) :
    (Line.unifyBreaks text).splitOnP (· == '\n') = pieces := by
  induction hText with
  | last hPiece => exact Row.pieces_text (unbroken_iff.mp hPiece)
  | @feed piece rest pieces hPiece _ ih =>
      have hBreak : Line.unifyBreaks ('\n' :: rest) = '\n' :: Line.unifyBreaks rest :=
        rfl
      rw [Row.pieces_append (unbroken_iff.mp hPiece) hBreak, ih]
  | @pair piece rest pieces hPiece _ ih =>
      have hBreak : Line.unifyBreaks ('\r' :: '\n' :: rest) =
          '\n' :: Line.unifyBreaks rest := rfl
      rw [Row.pieces_append (unbroken_iff.mp hPiece) hBreak, ih]
  | @ret piece rest pieces hPiece hAlone _ ih =>
      have hBreak : Line.unifyBreaks ('\r' :: rest) =
          '\n' :: Line.unifyBreaks rest := by
        rw [Line.unifyBreaks]
        · rfl
        · rintro later - rfl
          exact hAlone rfl
      rw [Row.pieces_append (unbroken_iff.mp hPiece) hBreak, ih]

/-- A character in front that is no break belongs to the first piece. -/
theorem cons {c : Char} (hOther : Row.isBreak c = false) {piece : List Char}
    (hText : LaidOut text (piece :: pieces)) :
    LaidOut (c :: text) ((c :: piece) :: pieces) := by
  cases hText with
  | last hPiece => exact .last (hPiece.cons hOther)
  | feed hPiece hRest => exact .feed (hPiece.cons hOther) hRest
  | pair hPiece hRest => exact .pair (hPiece.cons hOther) hRest
  | ret hPiece hAlone hRest => exact .ret (hPiece.cons hOther) hAlone hRest

theorem exists_piece (hText : LaidOut text pieces) :
    ∃ piece later, pieces = piece :: later := by
  cases hText <;> exact ⟨_, _, rfl⟩

/-- Every text can be laid out. -/
theorem exists_layout (text : List Char) : ∃ pieces, LaidOut text pieces := by
  fun_induction Line.unifyBreaks text with
  | case1 => exact ⟨[[]], .last unbroken_nil⟩
  | case2 rest ih =>
      obtain ⟨pieces, hRest⟩ := ih
      exact ⟨[] :: pieces, .pair unbroken_nil hRest⟩
  | case3 c rest hPair ih =>
      obtain ⟨pieces, hRest⟩ := ih
      cases hBreak : Row.isBreak c with
      | false =>
          obtain ⟨piece, later, rfl⟩ := hRest.exists_piece
          exact ⟨_, hRest.cons hBreak⟩
      | true =>
          rw [Row.isBreak, Bool.or_eq_true, beq_iff_eq, beq_iff_eq] at hBreak
          rcases hBreak with rfl | rfl
          · refine ⟨[] :: pieces, .ret unbroken_nil (fun hFeed => ?_) hRest⟩
            obtain ⟨later, rfl⟩ := List.head?_eq_some_iff.mp hFeed
            exact hPair later rfl rfl
          · exact ⟨[] :: pieces, .feed unbroken_nil hRest⟩

/-- No piece has a break in it. -/
theorem unbroken_of_mem (hText : LaidOut text pieces) {piece : List Char}
    (hMem : piece ∈ pieces) : Unbroken piece := by
  induction hText with
  | last hPiece => exact List.mem_singleton.mp hMem ▸ hPiece
  | feed hPiece _ ih | pair hPiece _ ih | ret hPiece _ _ ih =>
      rcases List.mem_cons.mp hMem with rfl | hLater
      · exact hPiece
      · exact ih hLater

end LaidOut

/-- **Every text has exactly one layout.** -/
theorem laidOut_iff {text : List Char} {pieces : List (List Char)} :
    LaidOut text pieces ↔ (Line.unifyBreaks text).splitOnP (· == '\n') = pieces := by
  refine ⟨LaidOut.splitOnP_eq, ?_⟩
  rintro rfl
  obtain ⟨pieces, hText⟩ := LaidOut.exists_layout text
  rwa [hText.splitOnP_eq]

theorem laidOut_pieces (source : String) : LaidOut source.toList (Line.pieces source) :=
  laidOut_iff.mpr rfl

/-- Making all breaks alike keeps the pieces. -/
theorem laidOut_unifyBreaks {text : List Char} {pieces : List (List Char)} :
    LaidOut (Line.unifyBreaks text) pieces ↔ LaidOut text pieces := by
  rw [laidOut_iff, laidOut_iff, Line.unifyBreaks_idempotent]

/-! ## Lines -/

/-- The lines among the pieces of a text: those that have words, each with its number,
which is one more than the number of breaks in front of it. -/
def rowsOf (pieces : List (List Char)) : List Row :=
  (pieces.zipIdx.filter fun (piece, _) => !(Line.words piece).isEmpty).map
    fun (piece, breaks) =>
    { number := 1 + breaks, raw := String.ofList (trim piece),
      tokens := Line.words piece }

theorem toRow_ofPieces (pieces : List (List Char)) :
    (Line.ofPieces 1 pieces).map Line.toRow = rowsOf pieces := by
  rw [Line.ofPieces, List.map_filterMap, List.zipIdx_eq_map_add,
    List.filterMap_map, rowsOf]
  induction pieces.zipIdx with
  | nil => rfl
  | cons entry rest ih =>
      obtain ⟨piece, breaks⟩ := entry
      rw [List.filterMap_cons, ih, Function.comp_apply, ← Row.ofPiece?_eq, Row.ofPiece?]
      cases hWords : Line.words piece with
      | nil => simp [hWords]
      | cons word args => simp [hWords]

/-- **The lines of a script are its pieces with words.** -/
theorem rowsOf_eq {source : String} {pieces : List (List Char)}
    (hSource : LaidOut source.toList pieces) :
    (Line.ofSource source).map Line.toRow = rowsOf pieces := by
  rw [← toRow_ofPieces, ← hSource.splitOnP_eq]
  rfl

/-- Lines depend on the pieces alone, and not on how the breaks between
them are written. -/
theorem ofSource_eq_of_layout {source restyled : String} {pieces : List (List Char)}
    (hSource : LaidOut source.toList pieces)
    (hRestyled : LaidOut restyled.toList pieces) :
    Line.ofSource restyled = Line.ofSource source := by
  have hPieces : Line.pieces restyled = Line.pieces source :=
    hRestyled.splitOnP_eq.trans hSource.splitOnP_eq.symm
  rw [Line.ofSource, Line.ofSource, hPieces]

/-- A text with all breaks alike is its pieces, joined by line feeds. -/
theorem ofList_unifyBreaks {text : List Char} {pieces : List (List Char)}
    (hText : LaidOut text pieces) :
    String.ofList (Line.unifyBreaks text) =
      String.intercalate "\n" (pieces.map String.ofList) := by
  have hFeed : ("\n" : String).toList = ['\n'] := rfl
  have hChars : (pieces.map String.ofList).map String.toList = pieces := by
    rw [List.map_map]
    exact List.map_id'' (fun _ => String.toList_ofList) pieces
  rw [← String.toList_inj, String.toList_intercalate, String.toList_ofList,
    hFeed, hChars, ← hText.splitOnP_eq, Line.intercalate_splitFeeds]

namespace Line

/-! ## What a line has -/

/-- No piece of a text that is split has a character at which it was split. -/
theorem forall_mem_of_mem_splitOnP {p : Char → Bool} {cs piece : List Char}
    (hMem : piece ∈ cs.splitOnP p) : ∀ c ∈ piece, p c = false := by
  induction cs generalizing piece with
  | nil =>
      rw [List.splitOnP_nil, List.mem_singleton] at hMem
      subst hMem
      exact fun _ hNone => absurd hNone List.not_mem_nil
  | cons c rest ih =>
      rw [List.splitOnP_cons_eq_if_modifyHead] at hMem
      cases hSplit : p c with
      | true =>
          rw [if_pos hSplit] at hMem
          rcases List.mem_cons.mp hMem with rfl | hLater
          · exact fun _ hNone => absurd hNone List.not_mem_nil
          · exact ih hLater
      | false =>
          obtain ⟨first, later, hRest⟩ :=
            List.exists_cons_of_ne_nil (List.splitOnP_ne_nil p rest)
          rw [hRest] at ih
          rw [if_neg (by simp [hSplit]), hRest, List.modifyHead_cons] at hMem
          rcases List.mem_cons.mp hMem with rfl | hLater
          · exact List.forall_mem_cons.mpr ⟨hSplit, ih List.mem_cons_self⟩
          · exact ih (List.mem_cons_of_mem first hLater)

/-- A word has a character, and no blank and no comma. -/
theorem solid_of_mem_words {cs : List Char} {word : String} (hMem : word ∈ words cs) :
    word ≠ "" ∧ ∀ c ∈ word.toList, isBlank c = false ∧ c ≠ ',' := by
  obtain ⟨piece, hPiece, rfl⟩ := List.mem_map.mp hMem
  obtain ⟨hSplit, hSome⟩ := List.mem_filter.mp hPiece
  refine ⟨by simpa using hSome, fun c hChar => ?_⟩
  rw [String.toList_ofList] at hChar
  have hOther : isSeparator c = false := forall_mem_of_mem_splitOnP hSplit c hChar
  rw [isSeparator, Bool.or_eq_false_iff, beq_eq_false_iff_ne] at hOther
  exact hOther

/-- What a piece with words is as a line. -/
theorem eq_of_ofPiece? {number : Nat} {piece : List Char} {line : Line}
    (hLine : ofPiece? number piece = some line) :
    line.raw = String.ofList (trim piece) ∧ line.tokens = words piece := by
  unfold ofPiece? at hLine
  split at hLine
  · cases hLine
  · rename_i word args hWords
    cases hLine
    exact ⟨rfl, hWords.symm⟩

/-- A line is found again in its own text, under any number. -/
theorem ofPiece?_raw {number : Nat} {piece : List Char} {line : Line}
    (hLine : ofPiece? number piece = some line) (other : Nat) :
    ofPiece? other line.raw.toList = some { line with number := other } := by
  rw [(eq_of_ofPiece? hLine).1, String.toList_ofList, ofPiece?_trim]
  unfold ofPiece? at hLine ⊢
  split at hLine
  · cases hLine
  · rename_i word args hWords
    cases hLine
    rfl

theorem exists_piece_of_mem {source : String} {line : Line}
    (hMem : line ∈ ofSource source) :
    ∃ piece number, Unbroken piece ∧ ofPiece? number piece = some line := by
  obtain ⟨⟨piece, number⟩, hPlace, hLine⟩ := List.mem_filterMap.mp hMem
  have hPiece : piece ∈ pieces source := List.fst_mem_of_mem_zipIdx hPlace
  exact ⟨piece, number, (laidOut_pieces source).unbroken_of_mem hPiece, hLine⟩

/-- The text of a line has no breaks. -/
theorem oneLine_raw {source : String} {line : Line} (hMem : line ∈ ofSource source) :
    OneLine line.raw := by
  obtain ⟨piece, number, hPiece, hLine⟩ := exists_piece_of_mem hMem
  have hWhole : OneLine (String.ofList piece) := by
    rw [OneLine, String.toList_ofList]
    exact hPiece
  have hTrimmed := oneLine_trimmed hWhole
  rwa [trimmed, String.toList_ofList, ← (eq_of_ofPiece? hLine).1] at hTrimmed

/-- The words of a line are those of its text. -/
theorem tokens_eq_words {source : String} {line : Line}
    (hMem : line ∈ ofSource source) : line.tokens = words line.raw.toList := by
  obtain ⟨piece, number, -, hLine⟩ := exists_piece_of_mem hMem
  obtain ⟨hRaw, hTokens⟩ := eq_of_ofPiece? hLine
  rw [hRaw, String.toList_ofList, words_trim, hTokens]

/-! ## Lines put together -/

/-- **Lines that are joined and cut again** are the same lines, numbered
one after another. -/
theorem ofSource_join (source : String) :
    ofSource (String.intercalate "\n" ((ofSource source).map fun line => line.raw)) =
      ((ofSource source).zipIdx 1).map fun (line, number) =>
        { line with number := number } := by
  by_cases hSome : ofSource source = []
  · rw [hSome]
    rfl
  have hTexts : ∀ text ∈ (ofSource source).map fun line => line.raw, OneLine text :=
    List.forall_mem_map.mpr fun line hMem => oneLine_raw hMem
  have hPieces :=
    pieces_intercalate (fun hNone => hSome (List.map_eq_nil_iff.mp hNone)) hTexts
  rw [ofSource, hPieces, List.map_map, List.zipIdx_map, List.filterMap_map,
    List.filterMap_eq_map_iff_forall_eq_some]
  rintro ⟨line, number⟩ hPlace
  obtain ⟨piece, _, -, hLine⟩ := exists_piece_of_mem (List.fst_mem_of_mem_zipIdx hPlace)
  exact ofPiece?_raw hLine number

end Line

/-! ## A script and its lines -/

/-- **A script is cut into lines exactly**, in whatever style its breaks are written.
It is laid out in one way as pieces with line breaks between them, and its lines are the
pieces that have words, in order, each with the blanks around it taken away and with its
number among all pieces; to cut them off one after another finds the same. Any text with
these pieces has the same lines, so also the pieces joined by line feeds, which is the
script with every other break made one. A line has at least one word, no word is empty
or has a blank or a comma in it, and the text of the line has no break and the same
words. And the texts of all lines, joined by line feeds, are cut into these lines again,
numbered one after another. -/
theorem ofSource_of_layout (source : String) :
    ∃ pieces, (∀ other, LaidOut source.toList other ↔ other = pieces) ∧
      (Line.ofSource source).map Line.toRow = rowsOf pieces ∧
      Row.ofSource source = .ok (rowsOf pieces) ∧
      (∀ restyled : String, LaidOut restyled.toList pieces →
        Line.ofSource restyled = Line.ofSource source) ∧
      (let unified := String.ofList (Line.unifyBreaks source.toList)
       unified = String.intercalate "\n" (pieces.map String.ofList) ∧
        Line.ofSource unified = Line.ofSource source) ∧
      (∀ line ∈ Line.ofSource source, line.tokens ≠ [] ∧
        (∀ token ∈ line.tokens, token ≠ "" ∧ ∀ c ∈ token.toList, isBlank c = false ∧
          c ≠ ',') ∧
        OneLine line.raw ∧ line.tokens = Line.words line.raw.toList) ∧
      Line.ofSource (String.intercalate "\n" ((Line.ofSource source).map fun line =>
        line.raw)) =
        ((Line.ofSource source).zipIdx 1).map fun (line, number) =>
          { line with number := number } := by
  have hSource := laidOut_pieces source
  have hRows := rowsOf_eq hSource
  refine ⟨Line.pieces source, fun other => laidOut_iff.trans eq_comm, hRows, ?cut,
    fun restyled => ofSource_eq_of_layout hSource,
      ⟨ofList_unifyBreaks hSource, ?unified⟩,
    fun line hMem => ⟨line.tokens_ne_nil, ?words, Line.oneLine_raw hMem,
      Line.tokens_eq_words hMem⟩, Line.ofSource_join source⟩
  case cut => rw [Row.ofSource_eq, hRows]
  case unified =>
    refine ofSource_eq_of_layout hSource ?_
    rw [String.toList_ofList]
    exact laidOut_unifyBreaks.mpr hSource
  case words =>
    rw [Line.tokens_eq_words hMem]
    exact fun token hToken => Line.solid_of_mem_words hToken

end PenScript
