import Mathlib
import PenScript.Text.Numeral

/-!
# The grammars of numerals and names

Whether a word is a numeral or a name is found elsewhere by tests on its characters,
and its value by going through its digits. Here both are said without any procedure: a
numeral is one sign or none in front of decimal digits, which count by their places, and
a name is a letter or an underscore in front of letters, digits and underscores. The two
have no word in common, since they begin differently.

A numeral of any length is first read as an unbounded number and then put into 32 bits.
The number can as well be built up within 32 bits, digit by digit, giving up at the
first step that does not fit. It has to grow on the side of zero where its sign will
put it, for there is one more number below zero than above. Then no step is given up in
vain: every number on the way is nearer to zero than the last one.

What looks like a number to the eye may still be none: a word with more signs than one
before its digits.

## Main results

* `readInt?_eq_some_iff`, `readInt32?_eq_some_iff`, `isName_iff`: words are
  read by their grammars;
* `numeral_decimal`: the decimal text of a number is a numeral for it;
* `accumulate_eq`: building up a number within 32 bits finds what reading it finds;
* `looksNumeric_iff`: the look of a number is that of a numeral or of too many signs.
-/

namespace PenScript.Text

/-! ## Grammars -/

/-- Whether characters are decimal digits, at least one. -/
def Digits (cs : List Char) : Prop := cs ≠ [] ∧ ∀ c ∈ cs, '0' ≤ c ∧ c ≤ '9'

/-- The number that digits denote by their places, the last of which counts ones. -/
def placeValue (digits : List Char) : Nat :=
  Nat.ofDigits 10 (digits.reverse.map fun digit => digit.toNat - '0'.toNat)

/-- Whether characters are a numeral for an integer: one sign or none,
and then digits. -/
inductive Numeral : List Char → Int → Prop where
  | unsigned {digits : List Char} (hDigits : Digits digits) :
      Numeral digits (placeValue digits)
  | positive {digits : List Char} (hDigits : Digits digits) :
      Numeral ('+' :: digits) (placeValue digits)
  | negative {digits : List Char} (hDigits : Digits digits) :
      Numeral ('-' :: digits) (-(placeValue digits : Int))

/-- Whether characters are digits behind more than one sign. -/
def Oversigned (cs : List Char) : Prop :=
  ∃ signs digits, cs = signs ++ digits ∧ (∀ c ∈ signs, c = '-' ∨ c = '+') ∧
    2 ≤ signs.length ∧
    Digits digits

/-- Whether a character is an ASCII letter. -/
def Letter (c : Char) : Prop := ('a' ≤ c ∧ c ≤ 'z') ∨ ('A' ≤ c ∧ c ≤ 'Z')

/-- Whether characters are a name: a letter or an underscore, and then letters,
digits and underscores. -/
inductive Identifier : List Char → Prop where
  | letters {first : Char} {rest : List Char} (hFirst : Letter first ∨ first = '_')
      (hRest : ∀ c ∈ rest, Letter c ∨ ('0' ≤ c ∧ c ≤ '9') ∨ c = '_') :
      Identifier (first :: rest)

/-! ## Characters -/

theorem isDigit_iff (c : Char) : c.isDigit = true ↔ '0' ≤ c ∧ c ≤ '9' := by
  simp [Char.isDigit, Char.le_def]

theorem isAlpha_iff (c : Char) : c.isAlpha = true ↔ Letter c := by
  simp [Char.isAlpha, Char.isUpper, Char.isLower, Letter, Char.le_def, or_comm]

theorem isSign_iff (c : Char) : isSign c = true ↔ c = '-' ∨ c = '+' := by
  simp [isSign]

theorem isDigits_iff {cs : List Char} : isDigits cs = true ↔ Digits cs := by
  simp [isDigits, Digits, isDigit_iff]

/-- Nothing that digits begin with is a sign. -/
theorem Digits.not_sign {first : Char} {rest : List Char}
    (hDigits : Digits (first :: rest)) : ¬(first = '-' ∨ first = '+') := by
  have hFirst := hDigits.2 first List.mem_cons_self
  rintro (rfl | rfl)
  · exact absurd hFirst (by decide)
  · exact absurd hFirst (by decide)

/-! ## Reading a numeral -/

/-- Counting digits from the front or by their places gives the same number. -/
theorem spelled_eq (digits : List Char) : spelled digits = placeValue digits := by
  induction digits using List.reverseRecOn with
  | nil => rfl
  | append_singleton digits digit ih =>
      rw [spelled_append, ih, placeValue, placeValue, List.reverse_append,
        List.reverse_singleton, List.singleton_append, List.map_cons, Nat.ofDigits_cons,
        Nat.add_comm]

/-- What stands behind a sign is read if it consists of digits, with that sign. -/
theorem map_readNat?_eq_some_iff {digits : List Char} {n : Int} (sign : Int → Int) :
    (readNat? digits : Option Int).map sign = some n ↔
      Digits digits ∧ n = sign (placeValue digits) := by
  by_cases hDigits : Digits digits
  · have hRead : readNat? digits = some (placeValue digits) := by
      rw [readNat?, if_pos (isDigits_iff.mpr hDigits), spelled_eq]
    simp [hRead, hDigits, eq_comm]
  · have hRead : readNat? digits = none := if_neg fun hTest =>
      hDigits (isDigits_iff.mp hTest)
    simp [hRead, hDigits]

/-- **An integer is read exactly from its numerals.** -/
theorem readInt?_eq_some_iff {cs : List Char} {n : Int} :
    readInt? cs = some n ↔ Numeral cs n := by
  constructor
  · intro hRead
    unfold readInt? at hRead
    split at hRead
    · obtain ⟨hDigits, rfl⟩ := (map_readNat?_eq_some_iff _).mp hRead
      exact .negative hDigits
    · obtain ⟨hDigits, rfl⟩ := (map_readNat?_eq_some_iff _).mp hRead
      exact .positive hDigits
    · obtain ⟨hDigits, rfl⟩ := (map_readNat?_eq_some_iff _).mp hRead
      exact .unsigned hDigits
  · intro hNumeral
    cases hNumeral with
    | positive hDigits => exact (map_readNat?_eq_some_iff _).mpr ⟨hDigits, rfl⟩
    | negative hDigits => exact (map_readNat?_eq_some_iff _).mpr ⟨hDigits, rfl⟩
    | unsigned hDigits =>
        unfold readInt?
        split
        · exact absurd (Or.inl rfl) hDigits.not_sign
        · exact absurd (Or.inr rfl) hDigits.not_sign
        · exact (map_readNat?_eq_some_iff _).mpr ⟨hDigits, rfl⟩

/-- Characters are a numeral for one integer at most. -/
theorem Numeral.unique {cs : List Char} {m n : Int} (hFirst : Numeral cs m)
    (hSecond : Numeral cs n) : m = n :=
  Option.some.inj
    ((readInt?_eq_some_iff.mpr hFirst).symm.trans (readInt?_eq_some_iff.mpr hSecond))

/-! ## Putting it into 32 bits -/

theorem fitInt32?_eq_some_iff {n : Int} {value : Int32} :
    fitInt32? n = some value ↔ value.toInt = n :=
  ⟨toInt_of_fitInt32?, fun hValue => hValue ▸ fitInt32?_toInt value⟩

theorem fitInt32?_eq_none_iff {n : Int} :
    fitInt32? n = none ↔ n < -2147483648 ∨ 2147483647 < n := by
  unfold fitInt32?
  split
  · exact iff_of_false (Option.some_ne_none _) (by omega)
  · exact iff_of_true rfl (by omega)

theorem readInt32?_eq_some_iff {word : String} {value : Int32} :
    readInt32? word = some value ↔ Numeral word.toList value.toInt := by
  rw [readInt32?, Option.bind_eq_some_iff]
  constructor
  · rintro ⟨n, hRead, hFit⟩
    rw [fitInt32?_eq_some_iff.mp hFit]
    exact readInt?_eq_some_iff.mp hRead
  · intro hNumeral
    exact ⟨value.toInt, readInt?_eq_some_iff.mpr hNumeral, fitInt32?_toInt value⟩

/-- Nothing is read from a word that is no numeral, or one for a number
that does not fit. -/
theorem readInt32?_eq_none_iff {word : String} :
    readInt32? word = none ↔
      ∀ n, Numeral word.toList n → n < -2147483648 ∨ 2147483647 < n := by
  rw [readInt32?, Option.bind_eq_none_iff]
  refine forall_congr' fun n => ?_
  rw [readInt?_eq_some_iff, fitInt32?_eq_none_iff]

/-! ## The decimal text of a number -/

/-- The digits of a number spell it. -/
theorem spelled_toDigits (n : Nat) : spelled (Nat.toDigits 10 n) = n := by
  induction n using Nat.strongRecOn with
  | ind n ih =>
      have hDigit : ∀ digit < 10, (Nat.digitChar digit).toNat - '0'.toNat = digit := by
        intro digit hLess
        rw [Nat.toNat_digitChar_of_lt_ten hLess]
        exact Nat.add_sub_cancel_left 48 digit
      by_cases hLess : n < 10
      · rw [Nat.toDigits_of_lt_base hLess, ← List.nil_append [Nat.digitChar n],
          spelled_append, spelled_nil, hDigit n hLess, Nat.mul_zero, Nat.zero_add]
      · rw [Nat.toDigits_of_base_le (by decide) (Nat.le_of_not_lt hLess),
          spelled_append, ih (n / 10) (by omega), hDigit _ (Nat.mod_lt n (by decide))]
        exact Nat.div_add_mod n 10

theorem digits_toDigits (n : Nat) : Digits (Nat.toDigits 10 n) :=
  ⟨Nat.toDigits_ne_nil, fun digit hMem =>
    (isDigit_iff digit).mp (Nat.isDigit_of_mem_toDigits (by decide) (by decide) hMem)⟩

theorem placeValue_toDigits (n : Nat) : placeValue (Nat.toDigits 10 n) = n := by
  rw [← spelled_eq, spelled_toDigits]

theorem numeral_toString (n : Nat) : Numeral (toString n).toList n := by
  have hText : (toString n).toList = Nat.toDigits 10 n := Nat.toList_repr
  have hNumeral := Numeral.unsigned (digits_toDigits n)
  rwa [placeValue_toDigits, ← hText] at hNumeral

/-- **The decimal text of a 32-bit word is a numeral for it.** -/
theorem numeral_decimal (value : Int32) :
    Numeral (decimal value).toList value.toInt := by
  unfold decimal
  cases value.toInt with
  | ofNat n => exact numeral_toString n
  | negSucc n =>
      have hDigits : (toString (n + 1)).toList = Nat.toDigits 10 (n + 1) :=
        Nat.toList_repr
      have hText : (toString (Int.negSucc n)).toList =
          '-' :: Nat.toDigits 10 (n + 1) := by
        rw [← hDigits]
        exact String.toList_append
      have hNumeral := Numeral.negative (digits_toDigits (n + 1))
      rwa [placeValue_toDigits, ← hText] at hNumeral

/-- A number that fits is read as itself. -/
theorem readInt32?_toString {n : Nat} (hFits : n ≤ 2147483647) :
    ∃ word : Int32, readInt32? (toString n) = some word ∧ word.toInt = n := by
  have hValue : (Int32.ofInt n).toInt = n :=
    Int32.toInt_ofInt_of_le (by omega) (by omega)
  refine ⟨Int32.ofInt n, readInt32?_eq_some_iff.mpr ?_, hValue⟩
  rw [hValue]
  exact numeral_toString n

/-! ## Digit by digit -/

/-- A number with a sign. -/
def signed (negative : Bool) (n : Nat) : Int := if negative then -(n : Int) else n

/-- A number with one more digit at its end, if both steps to it stay within 32 bits:
ten times the number, and then the digit away from zero. -/
def appendDigit? (negative : Bool) (n : Int32) (digit : Char) : Option Int32 := do
  let tenfold ← fitInt32? (10 * n.toInt)
  fitInt32? (tenfold.toInt + signed negative (digit.toNat - '0'.toNat))

/-- The number that digits denote, built up from the front within 32 bits. -/
def accumulateDigits? (negative : Bool) (digits : List Char) : Option Int32 :=
  if isDigits digits then digits.foldlM (appendDigit? negative) 0 else none

/-- The number that a numeral denotes, built up from the front within 32 bits. -/
def accumulate? : List Char → Option Int32
  | '-' :: digits => accumulateDigits? true digits
  | '+' :: digits => accumulateDigits? false digits
  | digits => accumulateDigits? false digits

theorem signed_append (negative : Bool) (n ones : Nat) :
    signed negative (10 * n + ones) =
      10 * signed negative n + signed negative ones := by
  cases negative with
  | false => simp [signed]
  | true => simp [signed]; omega

/-- What does not fit has nothing that fits behind it. -/
theorem fitInt32?_signed_eq_none {negative : Bool} {near far : Nat} (hFar : near ≤ far)
    (hOut : fitInt32? (signed negative near) = none) :
    fitInt32? (signed negative far) = none := by
  rw [fitInt32?_eq_none_iff] at hOut ⊢
  cases negative with
  | false => simp only [signed, Bool.false_eq_true, if_false] at hOut ⊢; omega
  | true => simp only [signed, if_true] at hOut ⊢; omega

/-- Of the two steps only the last one decides. -/
theorem appendDigit?_eq {negative : Bool} {number : Int32} {n : Nat}
    (hNumber : number.toInt = signed negative n) (digit : Char) :
    appendDigit? negative number digit =
      fitInt32? (signed negative (10 * n + (digit.toNat - '0'.toNat))) := by
  have hTenfold : 10 * number.toInt = signed negative (10 * n + 0) := by
    rw [hNumber, signed_append]
    cases negative <;> simp [signed]
  rw [appendDigit?, hTenfold]
  cases hFit : fitInt32? (signed negative (10 * n + 0)) with
  | none =>
      rw [fitInt32?_signed_eq_none (Nat.add_le_add_left (Nat.zero_le _) _) hFit]
      rfl
  | some tenfold =>
      have hValue : tenfold.toInt = signed negative (10 * n + 0) :=
        fitInt32?_eq_some_iff.mp hFit
      show fitInt32? (tenfold.toInt + _) = _
      rw [hValue, ← hTenfold, hNumber, signed_append]

/-- The numbers on the way are the readings of the digits so far. -/
theorem foldlM_appendDigit? (negative : Bool) (digits : List Char) :
    digits.foldlM (appendDigit? negative) 0 =
      fitInt32? (signed negative (spelled digits)) := by
  induction digits using List.reverseRecOn with
  | nil => cases negative <;> rfl
  | append_singleton digits digit ih =>
      rw [List.foldlM_append, ih, spelled_append]
      cases hFit : fitInt32? (signed negative (spelled digits)) with
      | none =>
          rw [fitInt32?_signed_eq_none (by omega) hFit]
          rfl
      | some number =>
          rw [← appendDigit?_eq (fitInt32?_eq_some_iff.mp hFit)]
          simp

theorem accumulateDigits?_eq (negative : Bool) (digits : List Char) :
    accumulateDigits? negative digits =
      (readNat? digits).bind fun n => fitInt32? (signed negative n) := by
  unfold accumulateDigits? readNat?
  split
  · exact foldlM_appendDigit? negative digits
  · rfl

/-- **A number can be built up within 32 bits**, however long its numeral is. -/
theorem accumulate_eq (word : String) : accumulate? word.toList = readInt32? word := by
  rw [readInt32?]
  generalize word.toList = cs
  unfold accumulate?
  split
  · rename_i digits
    rw [accumulateDigits?_eq, readInt?_minus]
    cases readNat? digits <;> rfl
  · rename_i digits
    rw [accumulateDigits?_eq, readInt?_plus]
    cases readNat? digits <;> rfl
  · rename_i hMinus hPlus
    rw [accumulateDigits?_eq, readInt?]
    · cases readNat? cs <;> rfl
    · exact hMinus
    · exact hPlus

/-! ## Too many signs -/

/-- A word with more signs than one is no numeral. -/
theorem Oversigned.not_numeral {cs : List Char} (hOver : Oversigned cs) (n : Int) :
    ¬Numeral cs n := by
  obtain ⟨signs, digits, rfl, hSigns, hLength, -⟩ := hOver
  match signs, hSigns, hLength with
  | first :: second :: rest, hSigns, _ =>
      obtain ⟨hFirst, hOthers⟩ := List.forall_mem_cons.mp hSigns
      have hSecond : second = '-' ∨ second = '+' := hOthers second List.mem_cons_self
      intro hNumeral
      cases hNumeral with
      | unsigned hDigits => exact hDigits.not_sign hFirst
      | positive hDigits => exact hDigits.not_sign hSecond
      | negative hDigits => exact hDigits.not_sign hSecond

theorem looksNumeric_iff_signs {word : String} :
    looksNumeric word = true ↔
      ∃ signs digits, word.toList = signs ++ digits ∧ (∀ c ∈ signs, c = '-' ∨ c = '+') ∧
        Digits digits := by
  rw [looksNumeric, isDigits_iff]
  constructor
  · intro hDigits
    refine ⟨word.toList.takeWhile isSign, _, List.takeWhile_append_dropWhile.symm,
      ?_, hDigits⟩
    exact fun c hMem =>
      (isSign_iff c).mp (List.all_eq_true.mp List.all_takeWhile c hMem)
  · rintro ⟨signs, digits, hWord, hSigns, hDigits⟩
    have hAll : ∀ c ∈ signs, isSign c = true :=
      fun c hMem => (isSign_iff c).mpr (hSigns c hMem)
    rw [hWord, List.dropWhile_append_of_pos hAll]
    cases digits with
    | nil => exact hDigits
    | cons first rest =>
        have hFirst : ¬isSign first = true :=
          fun hSign => hDigits.not_sign ((isSign_iff _).mp hSign)
        rwa [List.dropWhile_cons_of_neg hFirst]

/-- **What looks like a number** is a numeral or has too many signs. -/
theorem looksNumeric_iff {word : String} :
    looksNumeric word = true ↔ (∃ n, Numeral word.toList n) ∨
      Oversigned word.toList := by
  rw [looksNumeric_iff_signs]
  constructor
  · rintro ⟨signs, digits, hWord, hSigns, hDigits⟩
    rw [hWord]
    match signs, hSigns with
    | [], _ => exact Or.inl ⟨_, .unsigned hDigits⟩
    | [sign], hSigns =>
        rcases hSigns sign List.mem_cons_self with rfl | rfl
        · exact Or.inl ⟨_, .negative hDigits⟩
        · exact Or.inl ⟨_, .positive hDigits⟩
    | first :: second :: rest, hSigns =>
        exact Or.inr ⟨_, digits, rfl, hSigns, Nat.le_add_left 2 rest.length, hDigits⟩
  · rintro (⟨n, hNumeral⟩ | ⟨signs, digits, hWord, hSigns, -, hDigits⟩)
    · generalize hChars : word.toList = cs at hNumeral
      cases hNumeral with
      | unsigned hDigits =>
          exact ⟨[], cs, rfl, fun _ hMem => absurd hMem List.not_mem_nil, hDigits⟩
      | positive hDigits => exact ⟨['+'], _, rfl, by simp, hDigits⟩
      | negative hDigits => exact ⟨['-'], _, rfl, by simp, hDigits⟩
    · exact ⟨signs, digits, hWord, hSigns, hDigits⟩

/-! ## Names -/

theorem isName_iff {word : String} : isName word = true ↔ Identifier word.toList := by
  unfold isName
  cases word.toList with
  | nil => exact iff_of_false Bool.false_ne_true (by rintro ⟨⟩)
  | cons first rest =>
      have hStart : isNameStart first = true ↔ Letter first ∨ first = '_' := by
        simp [isNameStart, isAlpha_iff]
      have hParts : rest.all isNamePart = true ↔
          ∀ c ∈ rest, Letter c ∨ ('0' ≤ c ∧ c ≤ '9') ∨ c = '_' := by
        simp [isNamePart, Char.isAlphanum, isAlpha_iff, isDigit_iff, or_assoc]
      rw [Bool.and_eq_true, hStart, hParts]
      constructor
      · exact fun hBoth => .letters hBoth.1 hBoth.2
      · rintro ⟨hFirst, hRest⟩
        exact ⟨hFirst, hRest⟩

/-- A name begins with no sign and with no digit. -/
theorem Identifier.not_looksNumeric {word : String} (hName : Identifier word.toList) :
    looksNumeric word = false := by
  generalize hChars : word.toList = cs at hName
  rw [looksNumeric, hChars]
  cases hName with
  | @letters first rest hFirst hRest =>
      have hSign : isSign first = false := by
        rcases hFirst with hLetter | rfl
        · rw [← Bool.not_eq_true, isSign_iff]
          rintro (rfl | rfl)
          · exact absurd hLetter (by unfold Letter; decide)
          · exact absurd hLetter (by unfold Letter; decide)
        · decide
      have hDigit : ¬('0' ≤ first ∧ first ≤ '9') := by
        intro hRange
        rcases hFirst with hLetter | rfl
        · simp [Letter, Char.le_def, UInt32.le_iff_toNat_le] at hLetter hRange
          omega
        · exact absurd hRange (by decide)
      rw [List.dropWhile_cons_of_neg (by simp [hSign]), ← Bool.not_eq_true,
        isDigits_iff]
      exact fun hDigits => hDigit (hDigits.2 first List.mem_cons_self)

end PenScript.Text
