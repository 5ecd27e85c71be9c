/-!
# White space

The characters that separate words and that are trimmed from both ends of a
line: exactly those with the Unicode property `White_Space`. There are
twenty-five of them, in ten runs, and the set is closed by the standard's
stability policy, so it is written out as a test on code points rather than
kept as a table.

## Main results

* `trim_append_trimmed`: trimming only ever removes blanks, from the two ends.
-/

namespace PenScript.Text

/-- Characters with the property `White_Space`. -/
def isBlank (c : Char) : Bool :=
  let n := c.toNat
  (0x9 ≤ n && n ≤ 0xD) || n == 0x20 || n == 0x85 || n == 0xA0 || n == 0x1680 ||
  (0x2000 ≤ n && n ≤ 0x200A) || n == 0x2028 || n == 0x2029 || n == 0x202F ||
  n == 0x205F || n == 0x3000

/-- Without the blanks at its end. -/
def trimEnd (cs : List Char) : List Char := (cs.reverse.dropWhile isBlank).reverse

/-- Without the blanks at both ends; blanks inside stay. -/
def trim (cs : List Char) : List Char := trimEnd (cs.dropWhile isBlank)

/-- The trimmed form of a text. -/
def trimmed (s : String) : String := String.ofList (trim s.toList)

/-! ## Small laws -/

/-- What `trimEnd` removes is a run of blanks. -/
theorem trimEnd_append_blanks (cs : List Char) :
    ∃ blanks, (∀ c ∈ blanks, isBlank c = true) ∧ trimEnd cs ++ blanks = cs := by
  refine ⟨(cs.reverse.takeWhile isBlank).reverse, ?_, ?_⟩
  · intro c hMem
    have hAll := List.all_takeWhile (p := isBlank) (l := cs.reverse)
    exact List.all_eq_true.mp hAll c (List.mem_reverse.mp hMem)
  · rw [trimEnd, ← List.reverse_append, List.takeWhile_append_dropWhile,
      List.reverse_reverse]

/-- **Trimming loses blanks only**: a text is its trimmed form between
two runs of blanks. -/
theorem trim_append_trimmed (cs : List Char) :
    ∃ front back, (∀ c ∈ front ++ back, isBlank c = true) ∧
      front ++ trim cs ++ back = cs := by
  obtain ⟨back, hBack, hJoin⟩ := trimEnd_append_blanks (cs.dropWhile isBlank)
  refine ⟨cs.takeWhile isBlank, back, ?_, ?_⟩
  · intro c hMem
    rcases List.mem_append.mp hMem with hFront | hLast
    · exact List.all_eq_true.mp (List.all_takeWhile (p := isBlank) (l := cs)) c hFront
    · exact hBack c hLast
  · rw [trim, List.append_assoc, hJoin, List.takeWhile_append_dropWhile]

end PenScript.Text
