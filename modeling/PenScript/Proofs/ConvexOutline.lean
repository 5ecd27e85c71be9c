import PenScript.Proofs.Area

/-!
# Convex outlines

An outline is strictly convex if any three of its points, taken in order, turn, and all
of them the same way. Clipping is never stuck on such an outline, and it does not have
to search: the first vertex of the ring is always an ear.

The triangle of that corner has one side that is no edge of the ring, from the vertex
behind the tip to the last one. Every other vertex lies beyond this side, whereas seen
from the edge before the tip it lies within. So it is not in the triangle, and the
cut is made. What is left is convex again, and the last vertex stays the last. The
triangles form a fan around it.

Which way the outline turns need not be known beforehand. Clipped for the way its
corners turn, it loses only triangles that turn this way, so its area has the same sign.

## Main results

* `isEar_of_turnsBy`: the first vertex of a convex ring is an ear;
* `clip_fan`: a convex ring is clipped to a fan;
* `triangulate_of_convex`: the triangles of a convex outline.
-/

namespace PenScript.Plane

/-- Any three points, taken in order, turn, and all of them the same way. -/
def IsStrictlyConvex (outline : List (Point Rat)) : Prop :=
  (outline.Triplewise fun a b c => 0 < turn a b c) ∨
    outline.Triplewise fun a b c => turn a b c < 0

/-- Any three points, taken in order, turn the way of a unit. -/
def TurnsBy (unit : Rat) (points : List (Point Rat)) : Prop :=
  points.Triplewise fun a b c => 0 < turn a b c * unit

theorem exists_turnsBy {outline : List (Point Rat)}
    (hConvex : IsStrictlyConvex outline) :
    ∃ unit, (unit = 1 ∨ unit = -1) ∧ TurnsBy unit outline := by
  rcases hConvex with hPositive | hNegative
  · refine ⟨1, Or.inl rfl, hPositive.imp fun hTurn => ?_⟩
    rwa [mul_one]
  · refine ⟨-1, Or.inr rfl, hNegative.imp fun hTurn => ?_⟩
    rwa [mul_neg_one, neg_pos]

/-! ## Outside a triangle -/

/-- A triangle turns alike from each of its corners. -/
theorem turn_cycle (a b c : Point Rat) : turn c a b = turn a b c := by
  simp only [turn_eq]
  ring

theorem turn_flip (a b c : Point Rat) : turn a c b = -turn a b c := by
  simp only [turn_eq]
  ring

/-- A point on different sides of two edges is outside. -/
theorem inTriangle_of_turns {unit : Rat} (hUnit : unit = 1 ∨ unit = -1)
    {a b p z : Point Rat}
    (hBefore : 0 < turn a p z * unit) (hBeyond : 0 < turn b p z * unit) :
    inTriangle z a b p = false := by
  have hSides : inTriangle z a b p =
      !((decide (turn a p z < 0) || decide (turn a b p < 0) ||
        decide (-turn b p z < 0)) &&
        (decide (0 < turn a p z) || decide (0 < turn a b p) ||
          decide (0 < -turn b p z))) := by
    rw [← turn_cycle a p z, ← turn_flip b p z]
    simp only [inTriangle, List.any_cons, List.any_nil, Bool.or_false, Bool.or_assoc]
    rfl
  rw [hSides]
  rcases hUnit with rfl | rfl
  · rw [mul_one] at hBefore hBeyond
    simp [hBefore, hBeyond]
  · rw [mul_neg_one, neg_pos] at hBefore hBeyond
    simp [hBefore, hBeyond]

/-! ## The first vertex of a ring -/

/-- The first vertex is taken out if its corner passes. -/
theorem Ring.cut?_first {ι : Type} {test : Corner ι → Bool} {a b z : ι}
    {middle : List ι} (hTest : test ⟨z, a, b⟩ = true) :
    cut? test (a :: b :: (middle ++ [z])) = some (⟨z, a, b⟩, b :: (middle ++ [z])) := by
  have hLast : (a :: b :: (middle ++ [z])).getLast (List.cons_ne_nil _ _) = z := by simp
  have hCorners : corners (a :: b :: (middle ++ [z])) =
      ⟨z, a, b⟩ :: cornersAlong a a (b :: (middle ++ [z])) := by
    rw [corners, hLast]
    rfl
  simp only [cut?, hCorners, List.zipIdx_cons, List.find?_cons, hTest]
  rfl

section

variable {unit : Rat} (hUnit : unit = 1 ∨ unit = -1) {a b z : Vertex Rat}
  {middle : List (Vertex Rat)}

include hUnit

/-- **The first vertex of a convex ring is an ear.** -/
theorem isEar_of_turnsBy
    (hTurns : TurnsBy unit ((a :: b :: (middle ++ [z])).map Vertex.point)) :
    (cornerTests unit).isEar (a :: b :: (middle ++ [z])) ⟨z, a, b⟩ = true := by
  simp only [TurnsBy, List.map_cons, List.map_append, List.map_nil,
    List.triplewise_cons, List.pairwise_cons, List.pairwise_append, List.mem_append,
    List.mem_singleton, List.mem_map] at hTurns
  obtain ⟨⟨hTip, hFromTip⟩, hFromNext, -⟩ := hTurns
  have hEar : 0 < Corner.turning ⟨z, a, b⟩ * unit := by
    have hTurn : Corner.turning ⟨z, a, b⟩ = turn a.point b.point z.point :=
      turn_cycle _ _ _
    rw [hTurn]
    exact hTip z.point (Or.inr rfl)
  have hFree : ∀ other ∈ a :: b :: (middle ++ [z]),
      Corner.isBlockedBy ⟨z, a, b⟩ other = false := by
    intro other hOther
    -- the corner's own vertices do not block it, and the others are outside
    simp only [List.mem_cons, List.mem_append, List.not_mem_nil, or_false] at hOther
    rcases hOther with rfl | rfl | hMiddle | rfl
    · simp [Corner.isBlockedBy]
    · simp [Corner.isBlockedBy]
    · have hPoint : ∃ vertex ∈ middle, vertex.point = other.point :=
        ⟨other, hMiddle, rfl⟩
      have hOutside : inTriangle z.point a.point b.point other.point = false :=
        inTriangle_of_turns hUnit (hFromTip.2.2 other.point hPoint z.point rfl)
          (hFromNext.2.2 other.point hPoint z.point rfl)
      rw [Corner.isBlockedBy, hOutside, Bool.and_false]
    · simp [Corner.isBlockedBy]
  have hNone : (a :: b :: (middle ++ [z])).any (Corner.isBlockedBy ⟨z, a, b⟩) = false :=
    List.any_eq_false.mpr fun other hOther => Bool.eq_false_iff.mp (hFree other hOther)
  show (decide (0 < Corner.turning ⟨z, a, b⟩ * unit) && !_) = true
  rw [hNone, decide_eq_true hEar]
  rfl

end

/-! ## The fan -/

/-- The last positions of a ring, apart from the first two. -/
theorem exists_of_positions {ring : List (Vertex Rat)} {s k : Nat}
    (hPositions : ring.map Vertex.index = List.range' s (k + 3)) :
    ∃ a b middle z, ring = a :: b :: (middle ++ [z]) ∧
      a.index = s ∧ b.index = s + 1 ∧ z.index = s + k + 2 := by
  have hRange : List.range' s (k + 3) =
      s :: (s + 1) :: (List.range' (s + 2) k ++ [s + k + 2]) := by
    rw [List.range'_succ, List.range'_succ, List.range'_concat]
    simp only [List.cons.injEq, List.append_cancel_left_eq, true_and, and_true]
    omega
  rw [hRange] at hPositions
  obtain ⟨a, rest, rfl, hA, hRest⟩ := List.map_eq_cons_iff.mp hPositions
  obtain ⟨b, rest, rfl, hB, hRest⟩ := List.map_eq_cons_iff.mp hRest
  obtain ⟨middle, last, rfl, -, hLast⟩ := List.map_eq_append_iff.mp hRest
  obtain ⟨z, rfl, hZ⟩ := List.map_eq_singleton_iff.mp hLast
  exact ⟨a, b, middle, z, rfl, hA, hB, hZ⟩

/-- **A convex ring is clipped to a fan** around its last vertex. -/
theorem clip_fan {unit : Rat} (hUnit : unit = 1 ∨ unit = -1) (k s : Nat)
    (ring : List (Vertex Rat)) (hTurns : TurnsBy unit (ring.map Vertex.point))
    (hPositions : ring.map Vertex.index = List.range' s (k + 3)) :
    (Ring.clip (cornerTests unit) k ring).1.map (Corner.map Vertex.index) =
        (List.range' s k).map (fun i => ⟨s + k + 2, i, i + 1⟩) ∧
      (Ring.clip (cornerTests unit) k ring).2 = ring.drop k := by
  induction k generalizing s ring with
  | zero => exact ⟨rfl, rfl⟩
  | succ k ih =>
      obtain ⟨a, b, middle, z, rfl, hA, hB, hZ⟩ := exists_of_positions hPositions
      have hCut : Ring.cut? _ (a :: b :: (middle ++ [z])) = some (⟨z, a, b⟩, _) :=
        Ring.cut?_first (isEar_of_turnsBy hUnit hTurns)
      have hLeft : (b :: (middle ++ [z])).map Vertex.index =
          List.range' (s + 1) (k + 3) := by
        rw [List.range'_succ, List.map_cons] at hPositions
        exact (List.cons.inj hPositions).2
      have hStill : TurnsBy unit ((b :: (middle ++ [z])).map Vertex.point) :=
        (List.triplewise_cons.mp hTurns).2
      obtain ⟨hFan, hLast⟩ := ih (s + 1) _ hStill hLeft
      have hClip : Ring.clip (cornerTests unit) (k + 1) (a :: b :: (middle ++ [z])) =
          (⟨z, a, b⟩ :: (Ring.clip (cornerTests unit) k (b :: (middle ++ [z]))).1,
            (Ring.clip (cornerTests unit) k (b :: (middle ++ [z]))).2) := by
        simp only [Ring.clip, hCut]
      rw [hClip]
      refine ⟨?_, hLast⟩
      have hApex : s + 1 + k + 2 = s + (k + 1) + 2 := by omega
      rw [List.map_cons, hFan, List.range'_succ, List.map_cons, hApex, Corner.map,
        hA, hB, hZ]

/-! ## The triangles of a convex outline -/

section

variable {unit : Rat} (hUnit : unit = 1 ∨ unit = -1) {outline : List (Point Rat)}
  (hThree : 3 ≤ outline.length) (hTurns : TurnsBy unit outline)

include hUnit hThree hTurns

/-- The fan of an outline, and the three vertices that are left of it. -/
theorem clip_ringOf :
    let clipped := Ring.clip (cornerTests unit) (outline.length - 3) (ringOf outline)
    clipped.1.map (Corner.map Vertex.index) =
        (List.range (outline.length - 3)).map (fun i =>
          ⟨outline.length - 1, i, i + 1⟩) ∧
      ∃ a b c, clipped.2 = [a, b, c] ∧ a.index = outline.length - 3 ∧
        b.index = outline.length - 2 ∧ c.index = outline.length - 1 ∧
        0 < turn a.point b.point c.point * unit := by
  intro clipped
  have hPositions : (ringOf outline).map Vertex.index =
      List.range' 0 (outline.length - 3 + 3) := by
    rw [index_ringOf, List.range_eq_range', Nat.sub_add_cancel hThree]
  have hPoints : TurnsBy unit ((ringOf outline).map Vertex.point) := by
    rw [point_ringOf]
    exact hTurns
  obtain ⟨hFan, hLast⟩ :=
    clip_fan hUnit (outline.length - 3) 0 (ringOf outline) hPoints hPositions
  refine ⟨?_, ?_⟩
  · rw [hFan, List.range_eq_range']
    have hApex : 0 + (outline.length - 3) + 2 = outline.length - 1 := by omega
    rw [hApex]
  · have hIndices : clipped.2.map Vertex.index =
        [outline.length - 3, outline.length - 2, outline.length - 1] := by
      rw [hLast, List.map_drop, hPositions, List.drop_range']
      have hLeft : outline.length - 3 + 3 - (outline.length - 3) = 3 := by omega
      rw [hLeft]
      simp only [List.range'_succ, List.range'_zero, List.cons.injEq, and_true]
      omega
    have hStill : TurnsBy unit (clipped.2.map Vertex.point) := by
      rw [hLast, List.map_drop]
      rw [TurnsBy,
        ← List.take_append_drop (outline.length - 3) ((ringOf outline).map _),
        List.triplewise_append] at hPoints
      exact hPoints.2.1
    obtain ⟨a, rest, hA, hAIndex, hRest⟩ := List.map_eq_cons_iff.mp hIndices
    obtain ⟨b, rest, rfl, hBIndex, hRest⟩ := List.map_eq_cons_iff.mp hRest
    obtain ⟨c, rfl, hCIndex⟩ := List.map_eq_singleton_iff.mp hRest
    rw [hA] at hStill
    exact ⟨a, b, c, hA, hAIndex, hBIndex, hCIndex, List.triplewise_triple.mp hStill⟩

/-- **The corners decide which way the outline turns**: nothing that is clipped
turns the other way. -/
theorem doubledArea_pos : 0 < doubledArea outline * unit := by
  have hLength : (ringOf outline).length = outline.length - 3 + 3 := by
    rw [length_ringOf, Nat.sub_add_cancel hThree]
  have hClips := Ring.clips_clip (cornerTests unit) _ _ hLength
  obtain ⟨-, a, b, c, hLast, -, -, -, hTurn⟩ := clip_ringOf hUnit hThree hTurns
  have hArea := doubledArea_of_clips hClips
  rw [point_ringOf, hLast] at hArea
  have hEars : 0 ≤ ((Ring.clip (cornerTests unit) (outline.length - 3)
      (ringOf outline)).1.map Corner.turning).sum * unit := by
    rw [← List.sum_map_mul_right]
    exact List.sum_nonneg
      (List.forall_mem_map.mpr fun ear hEar => (hClips.turning_pos ear hEar).le)
  have hTriangle : doubledArea [a.point, b.point, c.point] =
      turn a.point b.point c.point :=
    doubledArea_triangle _ _ _
  simp only [List.map_cons, List.map_nil] at hArea
  rw [hArea, hTriangle, add_mul]
  exact add_pos_of_nonneg_of_pos hEars hTurn

end

/-- An outline has the sign of the way its corners turn. -/
theorem windingOf_eq {unit : Rat} (hUnit : unit = 1 ∨ unit = -1)
    {outline : List (Point Rat)}
    (hArea : 0 < doubledArea outline * unit) : windingOf outline = unit := by
  rcases hUnit with rfl | rfl
  · rw [mul_one] at hArea
    exact if_neg hArea.le.not_gt
  · rw [mul_neg_one, neg_pos] at hArea
    exact if_pos hArea

/-- **The triangles of a convex outline** are a fan around its last point, without a
break, and the three points it ends with. -/
theorem triangulate_of_convex {outline : List (Point Rat)} (hThree : 3 ≤ outline.length)
    (hConvex : IsStrictlyConvex outline) :
    let n := outline.length
    triangulate outline =
      (List.range (n - 3)).map (fun k => ⟨n - 1, k, k + 1⟩) ++
        [⟨n - 3, n - 2, n - 1⟩] := by
  intro n
  obtain ⟨unit, hUnit, hTurns⟩ := exists_turnsBy hConvex
  -- the fan was found for the way the corners turn, and this is the way of the outline
  have hTests : outlineTests outline = cornerTests unit := by
    rw [← windingOf_eq hUnit (doubledArea_pos hUnit hThree hTurns)]
    rfl
  obtain ⟨hFan, a, b, c, hLast, hA, hB, hC, hTurn⟩ := clip_ringOf hUnit hThree hTurns
  have hNotFlat : ¬(cornerTests unit).isFlat ⟨a, b, c⟩ = true := by
    intro hFlat
    have hZero : turn a.point b.point c.point = 0 := isFlat_iff.mp hFlat
    rw [hZero, zero_mul] at hTurn
    exact lt_irrefl _ hTurn
  have hTriangle : Ring.lastTriangle (cornerTests unit) [a, b, c] = [⟨a, b, c⟩] :=
    if_neg hNotFlat
  rw [triangulate, Ring.triangles, length_ringOf, hTests, List.map_append, hFan,
    hLast, hTriangle, List.map_singleton, Corner.map, hA, hB, hC]

/-- A pentagon that turns the negative way. -/
theorem triangulate_of_convex_pentagon :
    let outline : List (Point Rat) := [⟨0, 2⟩, ⟨2, 3⟩, ⟨4, 2⟩, ⟨3, 0⟩, ⟨1, 0⟩]
    3 ≤ outline.length ∧ IsStrictlyConvex outline ∧
      triangulate outline = [⟨4, 0, 1⟩, ⟨4, 1, 2⟩, ⟨2, 3, 4⟩] := by
  intro outline
  have hConvex : IsStrictlyConvex outline := by
    right
    simp only [outline, List.triplewise_cons, List.pairwise_cons,
      List.forall_mem_cons, turn_eq]
    norm_num
  exact ⟨by decide, hConvex, triangulate_of_convex (by decide) hConvex⟩

end PenScript.Plane
