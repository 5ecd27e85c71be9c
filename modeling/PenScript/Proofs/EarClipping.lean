import Mathlib
import PenScript.Studio.Painting

/-!
# Triangles that split an outline

The triangles that clipping keeps are pieces of the outline that do not overlap,
and this is bookkeeping alone: it holds whatever the tests for ears and flat
corners answer, so for outlines that cross themselves, for points that repeat
and for coordinates that are no numbers.

Pieces of an outline are told apart by positions. Read cyclically, the positions
have a circular order, and a ring is in order if its vertices come round as they
do in the outline. Taking a vertex out keeps a ring in order, be it at either end
of the list or within, and all that is left afterwards lies on the arc that
leads from behind the gap around to before it.

## Main results

* `loses_of_cut?`: what a cut does to a ring, up to where the list starts;
* `Loses.mem_arc`: after a cut no vertex is left on the arc that was cut off;
* `settled`: clipping ends with three vertices, or where it is stuck;
* `splits_triangles`: the triangles split the ring, for all outcomes of the tests;
* `length_triangles_of_ears`: there are as many as there can be if all corners are ears;
* `triangulate_splits_outline`: what that means for outlines and for the canvas.
-/

namespace PenScript.Plane

/-- Positions in an outline, read cyclically: after the last one comes
the first one again. -/
instance circularPositions : CircularOrder Nat := LinearOrder.toCircularOrder Nat

/-- The three vertices of a corner. -/
def Corner.vertices {ι : Type} (corner : Corner ι) : List ι :=
  [corner.prev, corner.tip, corner.next]

theorem Corner.tip_mem_vertices {ι : Type} (corner : Corner ι) :
    corner.tip ∈ corner.vertices :=
  List.mem_cons_of_mem _ List.mem_cons_self

namespace Ring

/-! ## Taking a vertex out of a ring -/

section

variable {ι : Type} {test : Corner ι → Bool} {ring rest : List ι} {corner : Corner ι}

/-- Along a path, a corner reaches from the vertex before its tip to
the vertex after it. -/
theorem getElem?_cornersAlong (prev first tip : ι) (before after : List ι) :
    (cornersAlong prev first (before ++ tip :: after))[before.length]? =
      some ⟨before.getLastD prev, tip, after.headD first⟩ := by
  induction before generalizing prev with
  | nil => cases after <;> rfl
  | cons vertex before ih =>
      rw [List.getLastD_cons, ← ih vertex]
      cases before <;> rfl

/-- In a ring, a corner reaches from the end to the start of what is left without its
tip, read from behind the gap around to before it. -/
theorem ends_of_getElem?_corners {before after : List ι} {tip : ι}
    (hAround : after ++ before ≠ [])
    (hCorner : (corners (before ++ tip :: after))[before.length]? = some corner) :
    corner.tip = tip ∧ (after ++ before).head? = some corner.next ∧
      (after ++ before).getLast? = some corner.prev := by
  cases before with
  | nil =>
      cases (getElem?_cornersAlong _ _ tip [] after).symm.trans hCorner
      cases after with
      | nil => exact absurd rfl hAround
      | cons next after =>
          refine ⟨rfl, rfl, ?_⟩
          simp [List.getLast?_eq_some_getLast]
  | cons first before =>
      cases (getElem?_cornersAlong _ _ tip (first :: before) after).symm.trans hCorner
      refine ⟨rfl, ?_, ?_⟩
      · cases after <;> rfl
      · simp [List.getLast?_eq_some_getLast]

/-- A cut is made at a corner of the ring that passes the test. -/
theorem parts_of_cut? (hCut : cut? test ring = some (corner, rest)) :
    ∃ before tip after, ring = before ++ tip :: after ∧ rest = before ++ after ∧
      (corners ring)[before.length]? = some corner ∧ test corner = true := by
  obtain ⟨⟨found, index⟩, hFound, hEq⟩ := Option.map_eq_some_iff.mp hCut
  cases hEq
  have hThere := List.mem_zipIdx_iff_getElem?.mp (List.mem_of_find?_eq_some hFound)
  have hIndex : index < ring.length := by
    rw [← length_corners ring]
    exact (List.getElem?_eq_some_iff.mp hThere).1
  refine ⟨ring.take index, ring[index], ring.drop (index + 1), ?_, ?_, ?_, ?_⟩
  · rw [← List.drop_eq_getElem_cons hIndex, List.take_append_drop]
  · rw [List.eraseIdx_eq_take_drop_succ]
  · rw [List.length_take_of_le hIndex.le]
    exact hThere
  · simpa only using List.find?_some hFound

/-- There is no cut exactly if no corner passes the test. -/
theorem cut?_eq_none_iff :
    cut? test ring = none ↔ ∀ corner ∈ corners ring, test corner = false := by
  rw [cut?, Option.map_eq_none_iff, List.find?_eq_none]
  constructor
  · intro hNone corner hCorner
    obtain ⟨index, hThere⟩ := List.mem_iff_getElem?.mp hCorner
    exact Bool.eq_false_iff.mpr
      (hNone (corner, index) (List.mem_zipIdx_iff_getElem?.mpr hThere))
  · intro hNone found hFound hPasses
    rw [hNone found.1 (List.fst_mem_of_mem_zipIdx hFound)] at hPasses
    cases hPasses

/-- A ring loses the tip of one of its corners: the two vertices beside it come
together, and the others stay. Where the lists start does not matter. -/
def Loses (ring : List ι) (corner : Corner ι) (rest : List ι) : Prop :=
  ∃ others, ring ~r corner.prev :: corner.tip :: corner.next :: others ∧
    rest ~r corner.prev :: corner.next :: others

/-- A cut takes out the tip of a corner, wherever in the list it stands. -/
theorem loses_of_cut? (hThree : 3 ≤ ring.length)
    (hCut : cut? test ring = some (corner, rest)) : Loses ring corner rest := by
  obtain ⟨before, tip, after, rfl, rfl, hCorner, -⟩ := parts_of_cut? hCut
  have hLength : 2 ≤ (after ++ before).length := by
    simp only [List.length_append, List.length_cons] at hThree ⊢
    omega
  obtain ⟨rfl, hNext, hPrev⟩ :=
    ends_of_getElem?_corners (List.ne_nil_of_length_pos (by omega)) hCorner
  obtain ⟨far, hFar⟩ := List.head?_eq_some_iff.mp hNext
  obtain ⟨others, rfl⟩ : ∃ others, far = others ++ [corner.prev] := by
    rw [hFar] at hPrev hLength
    have hMore : far ≠ [] := List.ne_nil_of_length_pos (Nat.lt_of_succ_lt_succ hLength)
    rw [List.getLast?_cons_of_ne_nil hMore] at hPrev
    exact List.getLast?_eq_some_iff.mp hPrev
  refine ⟨others, ?_, ?_⟩
  · have hTurned : before ++ corner.tip :: after ~r
        (corner.tip :: corner.next :: others) ++ [corner.prev] := by
      rw [List.cons_append, List.cons_append, ← hFar]
      exact List.isRotated_append
    exact hTurned.trans (List.isRotated_concat _ _)
  · have hTurned : before ++ after ~r (corner.next :: others) ++ [corner.prev] := by
      rw [List.cons_append, ← hFar]
      exact List.isRotated_append
    exact hTurned.trans (List.isRotated_concat _ _)

namespace Loses

theorem map {κ : Type} (f : ι → κ) (hLoses : Loses ring corner rest) :
    Loses (ring.map f) (corner.map f) (rest.map f) := by
  obtain ⟨others, hRing, hRest⟩ := hLoses
  exact ⟨others.map f, hRing.map f, hRest.map f⟩

theorem length_eq (hLoses : Loses ring corner rest) :
    ring.length = rest.length + 1 := by
  obtain ⟨others, hRing, hRest⟩ := hLoses
  rw [hRing.perm.length_eq, hRest.perm.length_eq]
  rfl

theorem two_le_length (hLoses : Loses ring corner rest) : 2 ≤ rest.length := by
  obtain ⟨others, -, hRest⟩ := hLoses
  rw [hRest.perm.length_eq]
  exact Nat.le_add_left 2 others.length

theorem mem_of_mem (hLoses : Loses ring corner rest) {vertex : ι}
    (hVertex : vertex ∈ rest) : vertex ∈ ring := by
  obtain ⟨others, hRing, hRest⟩ := hLoses
  rw [hRest.mem_iff] at hVertex
  exact hRing.mem_iff.mpr
    (List.mem_cons.mpr ((List.mem_cons.mp hVertex).imp_right (List.mem_cons_of_mem _)))

theorem vertices_subset (hLoses : Loses ring corner rest) : corner.vertices ⊆ ring := by
  obtain ⟨others, hRing, -⟩ := hLoses
  exact fun vertex hVertex => hRing.mem_iff.mpr (List.mem_append_left others hVertex)

end Loses

end

/-! ## Rings in order -/

section

variable {ring rest : List Nat} {corner : Corner Nat} {found : List (Corner Nat)}

/-- A ring is in order if any three of its vertices come round one after the other. -/
def InOrder (ring : List Nat) : Prop := ring.Triplewise sbtw

theorem inOrder_of_sorted (hSorted : ring.Pairwise (· < ·)) : InOrder ring := by
  induction hSorted with
  | nil => exact .nil
  | cons hFirst hRest ih =>
      refine .cons (hRest.imp_of_mem fun hNear _ hLess => ?_) ih
      exact .inl ⟨hFirst _ hNear, hLess⟩

/-- Being in order does not depend on where the list starts. -/
theorem InOrder.of_isRotated {turned : List Nat} (hOrder : InOrder ring)
    (hTurned : ring ~r turned) : InOrder turned := by
  obtain ⟨count, hCount, rfl⟩ := List.isRotated_iff_mod.mp hTurned
  rw [List.rotate_eq_drop_append_take hCount]
  rw [← List.take_append_drop count ring, InOrder, List.triplewise_append] at hOrder
  obtain ⟨hStart, hEnd, hOut, hBack⟩ := hOrder
  -- three vertices from both parts are the same three, one turn on or one turn back
  refine List.triplewise_append.mpr ⟨hEnd, hStart, ?_, ?_⟩
  · exact fun vertex hVertex => (hBack vertex hVertex).imp sbtw_cyclic_right
  · exact fun vertex hVertex => (hOut vertex hVertex).imp sbtw_cyclic_left

namespace Loses

theorem inOrder (hLoses : Loses ring corner rest) (hOrder : InOrder ring) :
    InOrder rest := by
  obtain ⟨others, hRing, hRest⟩ := hLoses
  obtain ⟨hPrev, hTip⟩ := List.triplewise_cons.mp (hOrder.of_isRotated hRing)
  have hLeft : InOrder (corner.prev :: corner.next :: others) :=
    List.triplewise_cons.mpr ⟨(List.pairwise_cons.mp hPrev).2,
      (List.triplewise_cons.mp hTip).2⟩
  exact hLeft.of_isRotated hRest.symm

theorem inTurn (hLoses : Loses ring corner rest) (hOrder : InOrder ring) :
    sbtw corner.prev corner.tip corner.next := by
  obtain ⟨others, hRing, -⟩ := hLoses
  obtain ⟨hPrev, -⟩ := List.triplewise_cons.mp (hOrder.of_isRotated hRing)
  exact (List.pairwise_cons.mp hPrev).1 corner.next List.mem_cons_self

/-- **What is left lies on the other arc**: from behind the gap around to before it. -/
theorem mem_arc (hLoses : Loses ring corner rest) (hOrder : InOrder ring) {vertex : Nat}
    (hVertex : vertex ∈ rest) : vertex ∈ Set.cIcc corner.next corner.prev := by
  have hLeft := hLoses.inOrder hOrder
  obtain ⟨others, -, hRest⟩ := hLoses
  obtain ⟨hPrev, -⟩ := List.triplewise_cons.mp (hLeft.of_isRotated hRest)
  rcases List.mem_cons.mp (hRest.mem_iff.mp hVertex) with rfl | hMore
  · exact Set.right_mem_cIcc _ _
  rcases List.mem_cons.mp hMore with rfl | hOther
  · exact Set.left_mem_cIcc _ _
  · have hAround : sbtw corner.prev corner.next vertex :=
      (List.pairwise_cons.mp hPrev).1 vertex hOther
    exact hAround.cyclic_left.btw

end Loses

/-! ## Splitting a ring -/

/-- Triangles, in the order in which they are found, split a ring of positions:
each takes its vertices from the ring, and the later ones keep to the arc that
an earlier one leaves. -/
structure Splits (ring : List Nat) (found : List (Corner Nat)) : Prop where
  few : found.length ≤ ring.length - 2
  within : ∀ corner ∈ found, corner.vertices ⊆ ring
  inTurn : ∀ corner ∈ found, sbtw corner.prev corner.tip corner.next
  apart : found.Pairwise fun earlier later =>
    ∀ vertex ∈ later.vertices, vertex ∈ Set.cIcc earlier.next earlier.prev

namespace Splits

theorem nil (ring : List Nat) : Splits ring [] where
  few := Nat.zero_le _
  within := List.forall_mem_nil _
  inTurn := List.forall_mem_nil _
  apart := .nil

theorem singleton (hThree : 3 ≤ ring.length) (hWithin : corner.vertices ⊆ ring)
    (hTurn : sbtw corner.prev corner.tip corner.next) : Splits ring [corner] where
  few := Nat.le_sub_of_add_le hThree
  within := List.forall_mem_singleton.mpr hWithin
  inTurn := List.forall_mem_singleton.mpr hTurn
  apart := List.pairwise_singleton _ _

/-- Triangles that split what is left split the ring, too. -/
theorem drop (hLoses : Loses ring corner rest) (hSplits : Splits rest found) :
    Splits ring found where
  few := hSplits.few.trans (Nat.sub_le_sub_right (by rw [hLoses.length_eq]; omega) 2)
  within kept hKept _ hVertex := hLoses.mem_of_mem (hSplits.within kept hKept hVertex)
  inTurn := hSplits.inTurn
  apart := hSplits.apart

/-- So they do with the triangle that has been cut off, before the others. -/
theorem keep (hOrder : InOrder ring) (hLoses : Loses ring corner rest)
    (hSplits : Splits rest found) : Splits ring (corner :: found) where
  few := by
    have hFew := hSplits.few
    have hLength := hLoses.length_eq
    have hTwo := hLoses.two_le_length
    rw [List.length_cons]
    omega
  within :=
    List.forall_mem_cons.mpr ⟨hLoses.vertices_subset, (hSplits.drop hLoses).within⟩
  inTurn := List.forall_mem_cons.mpr ⟨hLoses.inTurn hOrder, hSplits.inTurn⟩
  apart := by
    refine .cons (fun later hLater vertex hVertex => ?_) hSplits.apart
    exact hLoses.mem_arc hOrder (hSplits.within later hLater hVertex)

end Splits

end

section

variable {ι : Type} (tests : CornerTests ι) (position : ι → Nat)

theorem splits_lastTriangle (ring : List ι) (hOrder : InOrder (ring.map position)) :
    Splits (ring.map position)
      ((lastTriangle tests ring).map (Corner.map position)) := by
  fun_cases lastTriangle tests ring with
  | case1 a b c hFlat => exact .nil _
  | case2 a b c hFlat =>
      have hTurn : sbtw (position a) (position b) (position c) :=
        List.triplewise_triple.mp hOrder
      exact .singleton (Nat.le_refl 3) (List.Subset.refl _) hTurn
  | case3 => exact .nil _

/-- Clipping keeps an ear and goes on, or drops a flat corner and goes
on, or is stuck. -/
theorem clip_cases (k : Nat) (ring : List ι) :
    (∃ ear rest, cut? (tests.isEar ring) ring = some (ear, rest) ∧
      clip tests (k + 1) ring = (ear :: (clip tests k rest).1, (clip tests k rest).2)) ∨
    cut? (tests.isEar ring) ring = none ∧
      ((∃ flat rest, cut? tests.isFlat ring = some (flat, rest) ∧
        clip tests (k + 1) ring = clip tests k rest) ∨
      cut? tests.isFlat ring = none ∧ clip tests (k + 1) ring = ([], ring)) := by
  cases hEar : cut? (tests.isEar ring) ring with
  | some cut => exact Or.inl ⟨cut.1, cut.2, rfl, by simp only [clip, hEar]⟩
  | none =>
      refine Or.inr ⟨rfl, ?_⟩
      cases hFlat : cut? tests.isFlat ring with
      | some cut => exact Or.inl ⟨cut.1, cut.2, rfl, by simp only [clip, hEar, hFlat]⟩
      | none => exact Or.inr ⟨rfl, by simp only [clip, hEar, hFlat]⟩

/-- Clipping a ring of `k + 3` vertices ends with three of them, or where no
corner passes a test. -/
theorem settled_clip (k : Nat) (ring : List ι) (hLength : ring.length = k + 3) :
    let last := (clip tests k ring).2
    last.length = 3 ∨
      ∀ corner ∈ corners last, tests.isEar last corner = false ∧
        tests.isFlat corner = false := by
  induction k generalizing ring with
  | zero => exact Or.inl hLength
  | succ k ih =>
      rcases clip_cases tests k ring with
        ⟨ear, rest, hCut, hClip⟩ | ⟨hEar, ⟨flat, rest, hCut, hClip⟩ | ⟨hFlat, hClip⟩⟩
      · rw [hClip]
        exact ih rest (by have := length_of_cut? hCut; omega)
      · rw [hClip]
        exact ih rest (by have := length_of_cut? hCut; omega)
      · rw [hClip]
        exact Or.inr fun corner hCorner =>
          ⟨cut?_eq_none_iff.mp hEar corner hCorner,
            cut?_eq_none_iff.mp hFlat corner hCorner⟩

/-- **Clipping does not end early**: it is not the number of cuts it may
make that stops it. -/
theorem settled (ring : List ι) :
    let last := (clip tests (ring.length - 3) ring).2
    last.length ≤ 3 ∨
      ∀ corner ∈ corners last, tests.isEar last corner = false ∧
        tests.isFlat corner = false := by
  intro last
  by_cases hLength : 3 ≤ ring.length
  · exact (settled_clip tests (ring.length - 3) ring (by omega)).imp_left Nat.le_of_eq
  · refine Or.inl ?_
    show (clip tests (ring.length - 3) ring).2.length ≤ 3
    rw [show ring.length - 3 = 0 by omega]
    exact Nat.le_of_not_le hLength

/-- Where every corner is an ear, every cut keeps a triangle. -/
theorem length_clip_of_ears (hEars : ∀ ring corner, tests.isEar ring corner = true)
    (k : Nat) (ring : List ι) (hLength : ring.length = k + 3) :
    (clip tests k ring).1.length = k ∧ (clip tests k ring).2.length = 3 := by
  induction k generalizing ring with
  | zero => exact ⟨rfl, hLength⟩
  | succ k ih =>
      rcases clip_cases tests k ring with ⟨ear, rest, hCut, hClip⟩ | ⟨hNone, -⟩
      · obtain ⟨hKept, hLast⟩ := ih rest (by have := length_of_cut? hCut; omega)
        rw [hClip]
        exact ⟨congrArg Nat.succ hKept, hLast⟩
      · -- the ring has corners, and each of them is an ear
        have hSome : corners ring ≠ [] := by
          apply List.ne_nil_of_length_pos
          rw [length_corners]
          omega
        obtain ⟨corner, hCorner⟩ := List.exists_mem_of_ne_nil _ hSome
        have hFails := cut?_eq_none_iff.mp hNone corner hCorner
        rw [hEars ring corner] at hFails
        cases hFails

/-- Clipping and the last triangle split a ring, since each cut leaves
a ring in order. -/
theorem splits_clip (k : Nat) (ring : List ι) (hLength : ring.length = k + 3)
    (hOrder : InOrder (ring.map position)) :
    Splits (ring.map position)
      (((clip tests k ring).1 ++ lastTriangle tests (clip tests k ring).2).map
        (Corner.map position)) := by
  induction k generalizing ring with
  | zero => exact splits_lastTriangle tests position ring hOrder
  | succ k ih =>
      rcases clip_cases tests k ring with
        ⟨ear, rest, hCut, hClip⟩ | ⟨-, ⟨flat, rest, hCut, hClip⟩ | ⟨-, hClip⟩⟩
      · have hRest := length_of_cut? hCut
        have hLoses := (loses_of_cut? (by omega) hCut).map position
        rw [hClip]
        exact .keep hOrder hLoses (ih rest (by omega) (hLoses.inOrder hOrder))
      · have hRest := length_of_cut? hCut
        have hLoses := (loses_of_cut? (by omega) hCut).map position
        rw [hClip]
        exact .drop hLoses (ih rest (by omega) (hLoses.inOrder hOrder))
      · rw [hClip]
        exact splits_lastTriangle tests position ring hOrder

/-- **The triangles split the ring**, for all outcomes of the tests. -/
theorem splits_triangles (ring : List ι) (hOrder : InOrder (ring.map position)) :
    Splits (ring.map position) ((triangles tests ring).map (Corner.map position)) := by
  by_cases hLength : 3 ≤ ring.length
  · exact splits_clip tests position (ring.length - 3) ring (by omega) hOrder
  · rw [triangles, show ring.length - 3 = 0 by omega]
    exact splits_lastTriangle tests position ring hOrder

/-- There can be as many triangles as the bound allows: it is reached if
every corner is an ear. -/
theorem length_triangles_of_ears (hEars : ∀ ring corner, tests.isEar ring corner = true)
    (hTurns : ∀ corner, tests.isFlat corner = false) (ring : List ι) :
    (triangles tests ring).length = ring.length - 2 := by
  by_cases hLength : 3 ≤ ring.length
  · obtain ⟨hKept, hLast⟩ :=
      length_clip_of_ears tests hEars (ring.length - 3) ring (by omega)
    obtain ⟨a, b, c, hThree⟩ := List.length_eq_three.mp hLast
    have hTriangle : lastTriangle tests [a, b, c] = [⟨a, b, c⟩] := by
      rw [lastTriangle, hTurns, if_neg Bool.false_ne_true]
    show ((clip tests (ring.length - 3) ring).1 ++ lastTriangle tests _).length = _
    rw [hThree, hTriangle, List.length_append, hKept, List.length_singleton]
    omega
  · rcases ring with _ | ⟨a, _ | ⟨b, _ | ⟨c, rest⟩⟩⟩
    · rfl
    · rfl
    · rfl
    · exact absurd (Nat.le_add_left 3 rest.length) hLength

/-- The first cut goes around the start of the list. -/
example : triangles ⟨fun _ _ => true, fun _ => false⟩ [0, 1, 2, 3, 4] =
    [⟨4, 0, 1⟩, ⟨4, 1, 2⟩, ⟨2, 3, 4⟩] := by decide

end

end Ring

/-! ## Splitting an outline -/

/-- Two chords of an outline cross if the second has an end on each
side of the first. -/
def Crosses (a b c d : Nat) : Prop := sbtw a c b ∧ sbtw b d a ∨ sbtw a d b ∧ sbtw b c a

/-- Triangles, in the order in which they are found, are pieces of an
outline of `n` points. -/
structure PartialTriangulation (n : Nat) (found : List (Corner Nat)) : Prop where
  few : found.length ≤ n - 2
  below : ∀ corner ∈ found, ∀ vertex ∈ corner.vertices, vertex < n
  /-- Each has three vertices, in the order of the outline. -/
  inTurn : ∀ corner ∈ found, sbtw corner.prev corner.tip corner.next
  distinct : ∀ corner ∈ found, corner.vertices.Nodup
  /-- Later ones keep to the arc that an earlier one leaves. -/
  apart : found.Pairwise fun earlier later =>
    ∀ vertex ∈ later.vertices, vertex ∈ Set.cIcc earlier.next earlier.prev
  /-- The tip that an earlier one has cut off is no vertex of a later one. -/
  unused : found.Pairwise fun earlier later => earlier.tip ∉ later.vertices
  nodup : found.Nodup
  /-- No side of a later one crosses a side of an earlier one. -/
  uncrossed : found.Pairwise fun earlier later =>
    ∀ a ∈ earlier.vertices, ∀ b ∈ earlier.vertices,
      ∀ c ∈ later.vertices, ∀ d ∈ later.vertices, ¬Crosses a b c d

theorem not_crosses {earlier : Corner Nat} {a b c d : Nat}
    (hTurn : sbtw earlier.prev earlier.tip earlier.next)
    (hA : a ∈ earlier.vertices) (hB : b ∈ earlier.vertices)
    (hC : c ∈ Set.cIcc earlier.next earlier.prev)
    (hD : d ∈ Set.cIcc earlier.next earlier.prev) :
    ¬Crosses a b c d := by
  simp only [Corner.vertices, List.mem_cons, List.not_mem_nil, or_false] at hA hB
  simp only [Crosses, Set.mem_cIcc, btw_iff, sbtw_iff] at hTurn hC hD ⊢
  rcases hA with rfl | rfl | rfl <;> rcases hB with rfl | rfl | rfl <;> omega

theorem distinct_of_inTurn {corner : Corner Nat}
    (hTurn : sbtw corner.prev corner.tip corner.next) : corner.vertices.Nodup := by
  simp only [sbtw_iff] at hTurn
  simp only [Corner.vertices, List.nodup_cons, List.mem_cons,
    List.not_mem_nil, or_false, not_false_eq_true, List.nodup_nil, and_true]
  omega

/-- What splits the ring of all positions is a partial triangulation. -/
theorem Ring.Splits.partialTriangulation {n : Nat} {found : List (Corner Nat)}
    (hSplits : Splits (List.range n) found) : PartialTriangulation n found := by
  have hTurned := List.Pairwise.and_mem.mp hSplits.apart
  have hUnused : found.Pairwise fun earlier later => earlier.tip ∉ later.vertices := by
    refine hTurned.imp fun ⟨hEarlier, _, hArc⟩ hTip => ?_
    exact not_btw_of_sbtw (hSplits.inTurn _ hEarlier) (hArc _ hTip)
  exact
    { few := by simpa only [List.length_range] using hSplits.few
      below := fun corner hCorner vertex hVertex =>
        List.mem_range.mp (hSplits.within corner hCorner hVertex)
      inTurn := hSplits.inTurn
      distinct := fun corner hCorner =>
        distinct_of_inTurn (hSplits.inTurn corner hCorner)
      apart := hSplits.apart
      unused := hUnused
      nodup := by
        refine hUnused.imp ?_
        rintro earlier _ hTip rfl
        exact hTip earlier.tip_mem_vertices
      uncrossed := hTurned.imp fun ⟨hEarlier, _, hArc⟩ _ hA _ hB _ hC _ hD =>
        not_crosses (hSplits.inTurn _ hEarlier) hA hB (hArc _ hC) (hArc _ hD) }

theorem index_ringOf {α : Type} (outline : List (Point α)) :
    (ringOf outline).map Vertex.index = List.range outline.length := by
  rw [ringOf, List.map_map, List.range_eq_range']
  exact List.zipIdx_map_snd 0 outline

/-- A mesh on the canvas is an outline with its triangles. -/
theorem mesh_of_mem_paint {drawing : Drawing} {points : List PaintPoint}
    {triangles : List (Corner Nat)} {fill : Ink}
    (hMesh : Stroke.mesh points triangles fill ∈ Painting.paint drawing) :
    ∃ outline : List (Point Float),
      points = outline.map Painting.rounded ∧ triangles = triangulate outline := by
  simp only [Painting.paint, List.mem_cons, List.mem_append, List.mem_flatMap,
    reduceCtorEq, false_or, List.not_mem_nil, or_false] at hMesh
  obtain ⟨figure, -, hMesh⟩ := hMesh
  unfold Painting.strokes at hMesh
  split at hMesh
  · cases List.mem_singleton.mp hMesh
  · split at hMesh
    · rcases List.mem_cons.mp hMesh with hEq | hOutline
      · cases hEq
        exact ⟨_, rfl, rfl⟩
      · cases List.mem_singleton.mp hOutline
    · cases List.mem_singleton.mp hMesh
  · cases List.mem_singleton.mp hMesh

/-- **Triangles are pieces of the outline.** Whatever the tests say of its corners, the
triangles found for an outline are at most two fewer than its points, each goes through
three points in the order of the outline, and none overlaps another one. So it is for an
outline in any arithmetic, and all that is painted as a mesh refers to points that are
there. Clipping ends with three vertices or where no corner can be cut off, and there
are as many triangles as there may be if every corner is an ear. -/
theorem triangulate_splits_outline :
    (∀ {α : Type} (tests : CornerTests (Vertex α)) (outline : List (Point α)),
      PartialTriangulation outline.length
        ((Ring.triangles tests (ringOf outline)).map (Corner.map Vertex.index))) ∧
    (∀ {α : Type} [Coordinate α] (outline : List (Point α)),
      PartialTriangulation outline.length (triangulate outline)) ∧
    (∀ (drawing : Drawing) (points : List PaintPoint) (triangles : List (Corner Nat))
      (fill : Ink), Stroke.mesh points triangles fill ∈ Painting.paint drawing →
        ∀ corner ∈ triangles, ∀ vertex ∈ corner.vertices, vertex < points.length) ∧
    ∀ {α : Type} (tests : CornerTests (Vertex α)) (outline : List (Point α)),
      let last := (Ring.clip tests (outline.length - 3) (ringOf outline)).2
      (last.length ≤ 3 ∨ ∀ corner ∈ Ring.corners last,
        tests.isEar last corner = false ∧ tests.isFlat corner = false) ∧
      ((∀ ring corner, tests.isEar ring corner = true) →
        (∀ corner, tests.isFlat corner = false) →
        (Ring.triangles tests (ringOf outline)).length = outline.length - 2) := by
  have hAll : ∀ {α : Type} (tests : CornerTests (Vertex α)) (outline : List (Point α)),
      PartialTriangulation outline.length
        ((Ring.triangles tests (ringOf outline)).map (Corner.map Vertex.index)) := by
    intro α tests outline
    have hOrder : Ring.InOrder ((ringOf outline).map Vertex.index) := by
      rw [index_ringOf]
      exact Ring.inOrder_of_sorted List.pairwise_lt_range
    have hSplits := Ring.splits_triangles tests Vertex.index (ringOf outline) hOrder
    rw [index_ringOf] at hSplits
    exact hSplits.partialTriangulation
  refine ⟨hAll, fun outline => hAll (outlineTests outline) outline, ?painted, ?clipped⟩
  case painted =>
    intro drawing points triangles fill hMesh corner hCorner vertex hVertex
    obtain ⟨outline, rfl, rfl⟩ := mesh_of_mem_paint hMesh
    rw [List.length_map]
    exact (hAll (outlineTests outline) outline).below corner hCorner vertex hVertex
  case clipped =>
    intro α tests outline
    rw [← length_ringOf outline]
    exact ⟨Ring.settled tests (ringOf outline), fun hEars hTurns =>
      Ring.length_triangles_of_ears tests hEars hTurns (ringOf outline)⟩

/-- A filled triangle is painted as a mesh that refers to three points. -/
theorem triangulate_splits_outline_triangle :
    let outline : List (Point Float) := [⟨0.0, 0.0⟩, ⟨4.0, 0.0⟩, ⟨0.0, 3.0⟩]
    let drawing : Drawing :=
      { figures := #[{ shape := .polygon outline, filled := true, color := .red }] }
    Stroke.mesh (outline.map Painting.rounded) (triangulate outline) Color.red.rgb ∈
        Painting.paint drawing ∧
      ∀ corner ∈ triangulate outline, ∀ vertex ∈ corner.vertices, vertex < 3 := by
  intro outline drawing
  have hMesh :
      Stroke.mesh (outline.map Painting.rounded) (triangulate outline) Color.red.rgb ∈
        Painting.paint drawing := List.mem_cons_of_mem _ List.mem_cons_self
  exact ⟨hMesh, triangulate_splits_outline.2.2.1 drawing _ _ _ hMesh⟩

end PenScript.Plane
