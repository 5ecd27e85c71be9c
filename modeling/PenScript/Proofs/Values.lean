import PenScript.Phrase
import PenScript.Proofs.Numerals

/-!
# The values of a script

A value is written as a numeral or as a name, and any other word is refused where a
value should stand. Which of the two a word is never depends on the order in which they
are tried: no word is both.

A refusal gives one of two reasons, that the word is out of range or that it is neither
a number nor a name. The first is meant for numerals of numbers that do not fit. It
is found by the look of the word, though, from which all signs are taken before the
digits are looked at, and so it is also given to a word with more signs than one before
its digits, however small the number behind them. Every other refused word is told
that it is no value at all.

## Main results

* `readTerm_cases`: the four ways to read a word;
* `readTerm_of_grammar`: what is read is what the grammars say;
* `reason_of_refused`: which words are refused for which reason.
-/

namespace PenScript

open Text

/-! ## Kinds of words -/

/-- Whether characters are a numeral for a 32-bit word. -/
def FittingNumeral (cs : List Char) : Prop :=
  ∃ n, Numeral cs n ∧ -2147483648 ≤ n ∧ n ≤ 2147483647

/-- Whether characters are a numeral for a number that is no 32-bit word. -/
def OutsizedNumeral (cs : List Char) : Prop :=
  ∃ n, Numeral cs n ∧ (n < -2147483648 ∨ 2147483647 < n)

theorem fittingNumeral_of_toInt {cs : List Char} {value : Int32}
    (hNumeral : Numeral cs value.toInt) : FittingNumeral cs := by
  have hLow : -2147483648 ≤ value.toInt := Int32.le_toInt value
  have hHigh : value.toInt < 2147483648 := Int32.toInt_lt value
  exact ⟨value.toInt, hNumeral, hLow, Int.lt_add_one_iff.mp hHigh⟩

/-- What is too large or has too many signs is no numeral for a 32-bit word. -/
theorem not_fittingNumeral {cs : List Char}
    (hBlame : OutsizedNumeral cs ∨ Oversigned cs) :
    ¬FittingNumeral cs := by
  rintro ⟨n, hNumeral, hLow, hHigh⟩
  rcases hBlame with ⟨other, hOther, hOut⟩ | hOver
  · have hSame : n = other := hNumeral.unique hOther
    omega
  · exact hOver.not_numeral n hNumeral

/-- No name is a numeral of any size, or has signs. -/
theorem not_looksNumeric_of_name {word : String} (hName : Identifier word.toList) :
    ¬((∃ n, Numeral word.toList n) ∨ Oversigned word.toList) := by
  rw [← looksNumeric_iff, hName.not_looksNumeric]
  exact Bool.false_ne_true

theorem not_name_of_blame {word : String}
    (hBlame : OutsizedNumeral word.toList ∨ Oversigned word.toList) :
    ¬Identifier word.toList := by
  intro hName
  refine not_looksNumeric_of_name hName (hBlame.imp_left ?_)
  rintro ⟨n, hNumeral, -⟩
  exact ⟨n, hNumeral⟩

/-- **A word is read in one of four ways.** -/
theorem readTerm_cases (form : Form) (word : String) :
    (∃ value : Int32, Numeral word.toList value.toInt ∧
      readTerm form word = .ok (.number value)) ∨
    (Identifier word.toList ∧ readTerm form word = .ok (.var word)) ∨
    ((OutsizedNumeral word.toList ∨ Oversigned word.toList) ∧
      readTerm form word = .error (.outOfRange word form)) ∨
    ((¬∃ n, Numeral word.toList n) ∧ ¬Identifier word.toList ∧ ¬Oversigned word.toList ∧
      readTerm form word = .error (.badValue word form)) := by
  cases hRead : readInt32? word with
  | some value =>
      exact Or.inl ⟨value, readInt32?_eq_some_iff.mp hRead, readTerm_number form hRead⟩
  | none =>
      have hOut := readInt32?_eq_none_iff.mp hRead
      right
      cases hName : isName word with
      | true => exact Or.inl ⟨isName_iff.mp hName, readTerm_name form hRead hName⟩
      | false =>
          have hNoName : ¬Identifier word.toList := by
            rw [← isName_iff, hName]
            exact Bool.false_ne_true
          right
          cases hLooks : looksNumeric word with
          | true =>
              have hEq : readTerm form word = .error (.outOfRange word form) := by
                simp [readTerm, hRead, hName, hLooks]
              refine Or.inl ⟨(looksNumeric_iff.mp hLooks).imp_left ?_, hEq⟩
              rintro ⟨n, hNumeral⟩
              exact ⟨n, hNumeral, hOut n hNumeral⟩
          | false =>
              have hEq : readTerm form word = .error (.badValue word form) := by
                simp [readTerm, hRead, hName, hLooks]
              rw [← Bool.not_eq_true, looksNumeric_iff, not_or] at hLooks
              exact Or.inr ⟨hLooks.1, hNoName, hLooks.2, hEq⟩

section

variable {form : Form} {word : String}

/-! ## What is read -/

theorem readTerm_number_iff {value : Int32} :
    readTerm form word = .ok (.number value) ↔ Numeral word.toList value.toInt := by
  constructor
  · intro hRead
    rcases readTerm_cases form word with
      ⟨_, hNumeral, hEq⟩ | ⟨-, hEq⟩ | ⟨-, hEq⟩ | ⟨-, -, -, hEq⟩
    all_goals
      rw [hEq] at hRead
      cases hRead
    exact hNumeral
  · exact fun hNumeral => readTerm_number form (readInt32?_eq_some_iff.mpr hNumeral)

theorem readTerm_var_iff {name : String} :
    readTerm form word = .ok (.var name) ↔ name = word ∧ Identifier word.toList := by
  constructor
  · intro hRead
    rcases readTerm_cases form word with
      ⟨_, -, hEq⟩ | ⟨hName, hEq⟩ | ⟨-, hEq⟩ | ⟨-, -, -, hEq⟩
    all_goals
      rw [hEq] at hRead
      cases hRead
    exact ⟨rfl, hName⟩
  · rintro ⟨rfl, hName⟩
    have hNone : readInt32? name = none := by
      refine readInt32?_eq_none_iff.mpr fun n hNumeral => ?_
      exact absurd (Or.inl ⟨n, hNumeral⟩) (not_looksNumeric_of_name hName)
    exact readTerm_name form hNone (isName_iff.mpr hName)

/-! ## What is refused -/

/-- There are two faults to refuse a word for. -/
theorem fault_of_readTerm {fault : Fault}
    (hRefused : readTerm form word = .error fault) :
    fault = .outOfRange word form ∨ fault = .badValue word form := by
  rcases readTerm_cases form word with
    ⟨_, -, hEq⟩ | ⟨-, hEq⟩ | ⟨-, hEq⟩ | ⟨-, -, -, hEq⟩
  all_goals
    rw [hEq] at hRefused
    cases hRefused
  · exact Or.inl rfl
  · exact Or.inr rfl

theorem readTerm_outOfRange_iff :
    readTerm form word = .error (.outOfRange word form) ↔
      OutsizedNumeral word.toList ∨ Oversigned word.toList := by
  rcases readTerm_cases form word with
    ⟨value, hNumeral, hEq⟩ | ⟨hName, hEq⟩ | ⟨hBlame, hEq⟩ | ⟨hNone, -, hFew, hEq⟩
  · exact iff_of_false (by simp [hEq]) fun hBlame =>
      not_fittingNumeral hBlame (fittingNumeral_of_toInt hNumeral)
  · exact iff_of_false (by simp [hEq]) fun hBlame => not_name_of_blame hBlame hName
  · exact iff_of_true hEq hBlame
  · refine iff_of_false (by simp [hEq]) ?_
    rintro (⟨n, hNumeral, -⟩ | hOver)
    · exact hNone ⟨n, hNumeral⟩
    · exact hFew hOver

theorem readTerm_badValue_iff :
    readTerm form word = .error (.badValue word form) ↔
      (¬∃ n, Numeral word.toList n) ∧ ¬Identifier word.toList ∧
        ¬Oversigned word.toList := by
  rcases readTerm_cases form word with
    ⟨value, hNumeral, hEq⟩ | ⟨hName, hEq⟩ | ⟨⟨n, hNumeral, -⟩ | hOver, hEq⟩ |
    ⟨hNone, hNoName, hFew, hEq⟩
  · exact iff_of_false (by simp [hEq]) fun hBad => hBad.1 ⟨value.toInt, hNumeral⟩
  · exact iff_of_false (by simp [hEq]) fun hBad => hBad.2.1 hName
  · exact iff_of_false (by simp [hEq]) fun hBad => hBad.1 ⟨n, hNumeral⟩
  · exact iff_of_false (by simp [hEq]) fun hBad => hBad.2.2 hOver
  · exact iff_of_true hEq ⟨hNone, hNoName, hFew⟩

/-- What is refused is neither a numeral for a 32-bit word nor a name, and
it is a fault of form. -/
theorem readTerm_refused_iff :
    (∃ fault, readTerm form word = .error fault ∧ fault.kind = .form) ↔
      ¬FittingNumeral word.toList ∧ ¬Identifier word.toList := by
  rcases readTerm_cases form word with
    ⟨value, hNumeral, hEq⟩ | ⟨hName, hEq⟩ | ⟨hBlame, hEq⟩ | ⟨hNone, hNoName, -, hEq⟩
  · exact iff_of_false (by simp [hEq]) fun hNeither =>
      hNeither.1 (fittingNumeral_of_toInt hNumeral)
  · exact iff_of_false (by simp [hEq]) fun hNeither => hNeither.2 hName
  · exact iff_of_true ⟨_, hEq, rfl⟩ ⟨not_fittingNumeral hBlame,
      not_name_of_blame hBlame⟩
  · refine iff_of_true ⟨_, hEq, rfl⟩ ⟨?_, hNoName⟩
    rintro ⟨n, hNumeral, -⟩
    exact hNone ⟨n, hNumeral⟩

/-! ## The reasons in words -/

theorem message_outOfRange :
    (Fault.outOfRange word form).message = s!"`{word}` is out of range; {form.usage}" :=
      rfl

theorem message_badValue :
    (Fault.badValue word form).message =
      s!"`{word}` is not a number or variable name; {form.usage}" := rfl

/-- The two reasons are not told in the same words, for the second
takes more of them. -/
theorem message_outOfRange_ne :
    (Fault.outOfRange word form).message ≠ (Fault.badValue word form).message := by
  have hReasons :
      "` is out of range; ".length ≠ "` is not a number or variable name; ".length := by
        decide
  rw [message_outOfRange, message_badValue]
  intro hSame
  have hLength := congrArg String.length hSame
  simp only [String.length_append, toString] at hLength
  omega

/-- A reason in words stands for the fault. -/
theorem exists_refused_iff {fault : Fault}
    (hFault : fault = .outOfRange word form ∨ fault = .badValue word form) :
    (∃ found, readTerm form word = .error found ∧ found.message = fault.message) ↔
      readTerm form word = .error fault := by
  refine ⟨?_, fun hEq => ⟨fault, hEq, rfl⟩⟩
  rintro ⟨found, hEq, hMessage⟩
  have hSame : found = fault := by
    rcases fault_of_readTerm hEq with rfl | rfl <;> rcases hFault with rfl | rfl
    · rfl
    · exact absurd hMessage message_outOfRange_ne
    · exact absurd hMessage.symm message_outOfRange_ne
    · rfl
  exact hSame ▸ hEq

end

/-! ## Values by their grammar -/

/-- **Values are read exactly by their grammar.** Where a value should stand, a word is
read as a number if it is a numeral for it and the number has 32 bits, as a variable if
it is a name, namely as the variable of that name, and it is refused for its form in all
other cases. The number is the one that is built up from the digits within 32 bits. And
the decimal text of a 32-bit word is read as that word. -/
theorem readTerm_of_grammar (form : Form) :
    (∀ word : String,
      (∀ n : Int, (∃ value : Int32, readTerm form word = .ok (.number value) ∧
        value.toInt = n) ↔
        Numeral word.toList n ∧ -2147483648 ≤ n ∧ n ≤ 2147483647) ∧
      (∀ name, readTerm form word = .ok (.var name) ↔ name = word ∧
        Identifier word.toList) ∧
      ((∃ fault, readTerm form word = .error fault ∧ fault.kind = .form) ↔
        ¬FittingNumeral word.toList ∧ ¬Identifier word.toList) ∧
      ∀ value : Int32, readTerm form word = .ok (.number value) ↔
        accumulate? word.toList = some value) ∧
    ∀ value : Int32, readTerm form (decimal value) = .ok (.number value) := by
  refine ⟨fun word => ⟨fun n => ?number, fun _ => readTerm_var_iff,
    readTerm_refused_iff, fun value => ?within⟩, fun value =>
      readTerm_number_iff.mpr (numeral_decimal value)⟩
  case number =>
    simp only [readTerm_number_iff]
    constructor
    · rintro ⟨value, hNumeral, rfl⟩
      have hLow : -2147483648 ≤ value.toInt := Int32.le_toInt value
      have hHigh : value.toInt < 2147483648 := Int32.toInt_lt value
      exact ⟨hNumeral, hLow, Int.lt_add_one_iff.mp hHigh⟩
    · rintro ⟨hNumeral, hLow, hHigh⟩
      have hValue : (Int32.ofInt n).toInt = n := Int32.toInt_ofInt_of_le hLow (by omega)
      exact ⟨Int32.ofInt n, hValue.symm ▸ hNumeral, hValue⟩
  case within => rw [accumulate_eq, readInt32?_eq_some_iff, readTerm_number_iff]

/-- **Why a word is refused.** It is called out of range if it is a numeral for a
number that does not fit into 32 bits, and also if it has more signs than one before its
digits. It is called neither a number nor a name if it is no numeral at all, no name,
and no digits behind more signs than one. -/
theorem reason_of_refused (form : Form) (word : String) :
    ((∃ fault, readTerm form word = .error fault ∧
        fault.message = s!"`{word}` is out of range; {form.usage}") ↔
      OutsizedNumeral word.toList ∨ Oversigned word.toList) ∧
    ((∃ fault, readTerm form word = .error fault ∧
        fault.message = s!"`{word}` is not a number or variable name; {form.usage}") ↔
      (¬∃ n, Numeral word.toList n) ∧ ¬Identifier word.toList ∧
        ¬Oversigned word.toList) := by
  rw [← message_outOfRange, ← message_badValue]
  constructor
  · rw [exists_refused_iff (Or.inl rfl), readTerm_outOfRange_iff]
  · rw [exists_refused_iff (Or.inr rfl), readTerm_badValue_iff]

/-- A word with two signs is called out of range, though it is no numeral
for any number. -/
theorem reason_of_two_signs :
    (∃ fault, readTerm (.command (.draw .circle)) "--5" = .error fault ∧
      fault.message = "`--5` is out of range; usage: circle <radius>") ∧
    ¬∃ n, Numeral "--5".toList n := by
  have hOver : Oversigned "--5".toList :=
    ⟨['-', '-'], ['5'], rfl, by simp, le_rfl, isDigits_iff.mp rfl⟩
  refine ⟨⟨_, readTerm_outOfRange_iff.mpr (Or.inr hOver), rfl⟩, ?_⟩
  rintro ⟨n, hNumeral⟩
  exact hOver.not_numeral n hNumeral

end PenScript
