import PenScript.Proofs.EarClipping

/-!
# Area in exact arithmetic

In exact arithmetic, splitting an outline into triangles preserves its area.
What an outline encloses is a sum over its edges and does not depend on where the
outline starts. Taking out a vertex replaces two edges by one, and the sum changes
by exactly how far the corner turns: an ear takes its triangle with it, and a
flat corner takes nothing.

So the triangles that are cut off and the ring that is left have together what the
outline has, after every cut. Areas count as positive or negative here, by the way a
triangle turns. Ears turn the way of the outline, so nothing cancels among them; only
the triangle of the last three vertices, which is not tested, may turn the other way.

## Main results

* `doubledArea_of_isRotated`, `doubledArea_of_loses`: what a cut does to the area;
* `clips_clip`: clipping as a sequence of cuts;
* `doubledArea_of_clips`: no area is lost by clipping;
* `area_of_triangulate`: the areas of the triangles add up to that of the outline.
-/

namespace PenScript.Plane

/-- Exact coordinates. -/
instance : Coordinate Rat where
  neutral := 0
  unitSign x := if x < 0 then -1 else 1
  isPositive x := decide (0 < x)
  isNegative x := decide (x < 0)
  isZero x := decide (x = 0)

/-! ## What an outline encloses -/

/-- What an edge adds to the doubled area: the doubled area of its triangle
with the origin. -/
def shear (p q : Point Rat) : Rat := p.x * q.y - q.x * p.y

theorem turn_eq (a b c : Point Rat) :
    turn a b c = (b.x - a.x) * (c.y - a.y) - (b.y - a.y) * (c.x - a.x) := rfl

/-- A triangle has the area that its edges enclose. -/
theorem turn_eq_shear (a b c : Point Rat) :
    turn a b c = shear a b + shear b c + shear c a := by
  simp only [turn_eq, shear]
  ring

theorem shear_swap (p q : Point Rat) : shear q p = -shear p q := by
  simp only [shear]
  ring

theorem doubledArea_eq_sum (outline : List (Point Rat)) :
    doubledArea outline = (List.zipWith shear outline (outline.rotate 1)).sum := by
  have hRotate : outline.drop 1 ++ outline.take 1 = outline.rotate 1 := by
    cases outline with
    | nil => rfl
    | cons first rest => rw [List.rotate_cons_succ, List.rotate_zero]; rfl
  rw [List.sum_eq_foldl, List.zipWith_foldl_eq_zip_foldl, ← hRotate]
  rfl

/-- **The area does not depend on where the outline starts.** -/
theorem doubledArea_of_isRotated {outline turned : List (Point Rat)}
    (hTurned : outline ~r turned) : doubledArea outline = doubledArea turned := by
  obtain ⟨count, rfl⟩ := hTurned
  have hEdges : List.zipWith shear (outline.rotate count)
      ((outline.rotate count).rotate 1) =
      (List.zipWith shear outline (outline.rotate 1)).rotate count := by
    rw [List.zipWith_rotate_distrib _ _ _ _ (List.length_rotate _ _).symm,
      List.rotate_rotate, List.rotate_rotate, Nat.add_comm]
  rw [doubledArea_eq_sum, doubledArea_eq_sum, hEdges]
  exact (List.rotate_perm _ _).sum_eq.symm

theorem doubledArea_cons (first next : Point Rat) (others : List (Point Rat)) :
    doubledArea (first :: next :: others) =
      shear first next +
        (List.zipWith shear (next :: others) (others ++ [first])).sum := by
  rw [doubledArea_eq_sum, List.rotate_cons_succ, List.rotate_zero, List.cons_append,
    List.zipWith_cons_cons, List.sum_cons]

theorem doubledArea_triangle (a b c : Point Rat) :
    doubledArea [a, b, c] = turn a b c := by
  rw [doubledArea_cons, turn_eq_shear, List.singleton_append, List.zipWith_cons_cons,
    List.zipWith_cons_cons, List.zipWith_nil_left, List.sum_cons,
    List.sum_singleton, add_assoc]

/-- **A cut takes the triangle of its corner.** -/
theorem doubledArea_of_loses {ring rest : List (Point Rat)}
    {corner : Corner (Point Rat)}
    (hLoses : Ring.Loses ring corner rest) :
    doubledArea ring = turn corner.prev corner.tip corner.next + doubledArea rest := by
  obtain ⟨others, hRing, hRest⟩ := hLoses
  rw [doubledArea_of_isRotated hRing, doubledArea_of_isRotated hRest, doubledArea_cons,
    doubledArea_cons, List.cons_append, List.zipWith_cons_cons, List.sum_cons,
    turn_eq_shear, shear_swap corner.prev corner.next]
  ring

/-! ## Clipping as a sequence of cuts -/

section

variable {ι : Type}

/-- A ring is clipped by cuts: each takes out an ear, which is kept,
or a flat corner. -/
inductive Ring.Clips (tests : CornerTests ι) : List ι → List (Corner ι) → List ι → Prop
  | done (ring : List ι) : Clips tests ring [] ring
  | ear {ring rest last : List ι} {corner : Corner ι} {ears : List (Corner ι)}
      (hEar : tests.isEar ring corner = true) (hLoses : Loses ring corner rest)
      (hRest : Clips tests rest ears last) : Clips tests ring (corner :: ears) last
  | flat {ring rest last : List ι} {corner : Corner ι} {ears : List (Corner ι)}
      (hFlat : tests.isFlat corner = true) (hLoses : Loses ring corner rest)
      (hRest : Clips tests rest ears last) : Clips tests ring ears last

namespace Ring

variable {tests : CornerTests ι}

theorem passes_of_cut? {test : Corner ι → Bool} {ring rest : List ι} {corner : Corner ι}
    (hCut : cut? test ring = some (corner, rest)) : test corner = true := by
  obtain ⟨-, -, -, -, -, -, hPasses⟩ := parts_of_cut? hCut
  exact hPasses

/-- **Clipping is a sequence of cuts.** -/
theorem clips_clip (tests : CornerTests ι) (k : Nat) (ring : List ι)
    (hLength : ring.length = k + 3) :
    Clips tests ring (clip tests k ring).1 (clip tests k ring).2 := by
  induction k generalizing ring with
  | zero => exact .done ring
  | succ k ih =>
      rcases clip_cases tests k ring with
        ⟨ear, rest, hCut, hClip⟩ | ⟨-, ⟨flat, rest, hCut, hClip⟩ | ⟨-, hClip⟩⟩
      · have hRest := length_of_cut? hCut
        rw [hClip]
        exact .ear (passes_of_cut? hCut) (loses_of_cut? (by omega) hCut)
          (ih rest (by omega))
      · have hRest := length_of_cut? hCut
        rw [hClip]
        exact .flat (passes_of_cut? hCut) (loses_of_cut? (by omega) hCut)
          (ih rest (by omega))
      · rw [hClip]
        exact .done ring

/-- What is kept and what is left has its vertices from the ring. -/
theorem Clips.subset {ring last : List ι} {ears : List (Corner ι)}
    (hClips : Clips tests ring ears last) :
    (∀ ear ∈ ears, ear.vertices ⊆ ring) ∧ last ⊆ ring := by
  induction hClips with
  | done ring => exact ⟨List.forall_mem_nil _, List.Subset.refl _⟩
  | ear _ hLoses _ ih =>
      refine ⟨List.forall_mem_cons.mpr ⟨hLoses.vertices_subset, fun ear hEar => ?_⟩, ?_⟩
      · exact fun _ hVertex => hLoses.mem_of_mem (ih.1 ear hEar hVertex)
      · exact fun _ hVertex => hLoses.mem_of_mem (ih.2 hVertex)
  | flat _ hLoses _ ih =>
      refine ⟨fun ear hEar => ?_, ?_⟩
      · exact fun _ hVertex => hLoses.mem_of_mem (ih.1 ear hEar hVertex)
      · exact fun _ hVertex => hLoses.mem_of_mem (ih.2 hVertex)

theorem vertices_of_lastTriangle (ring : List ι) :
    ∀ corner ∈ lastTriangle tests ring, corner.vertices ⊆ ring := by
  fun_cases lastTriangle tests ring with
  | case1 a b c hFlat => exact List.forall_mem_nil _
  | case2 a b c hFlat => exact List.forall_mem_singleton.mpr (List.Subset.refl _)
  | case3 => exact List.forall_mem_nil _

end Ring

end

/-! ## The area along the way -/

section

variable {winding : Rat} {ring last : List (Vertex Rat)}
    {ears : List (Corner (Vertex Rat))}

theorem isFlat_iff {corner : Corner (Vertex Rat)} :
    (cornerTests winding).isFlat corner = true ↔ corner.turning = 0 :=
      decide_eq_true_iff

theorem turning_of_isEar {corner : Corner (Vertex Rat)}
    (hEar : (cornerTests winding).isEar ring corner = true) :
    0 < corner.turning * winding := by
  obtain ⟨hTurns, -⟩ := Bool.and_eq_true_iff.mp hEar
  exact of_decide_eq_true hTurns

/-- Every ear turns the way of the outline. -/
theorem Ring.Clips.turning_pos
    (hClips : Ring.Clips (cornerTests winding) ring ears last) :
    ∀ ear ∈ ears, 0 < ear.turning * winding := by
  induction hClips with
  | done ring => exact List.forall_mem_nil _
  | ear hEar _ _ ih => exact List.forall_mem_cons.mpr ⟨turning_of_isEar hEar, ih⟩
  | flat _ _ _ ih => exact ih

/-- **No area is lost by clipping**: the ears and the ring that is left have
what the ring has. -/
theorem doubledArea_of_clips
    (hClips : Ring.Clips (cornerTests winding) ring ears last) :
    doubledArea (ring.map Vertex.point) =
      (ears.map Corner.turning).sum + doubledArea (last.map Vertex.point) := by
  induction hClips with
  | done ring => rw [List.map_nil, List.sum_nil, zero_add]
  | ear _ hLoses _ ih =>
      rw [doubledArea_of_loses (hLoses.map Vertex.point), ih, List.map_cons,
        List.sum_cons, add_assoc]
      rfl
  | @flat _ _ _ corner _ hFlat hLoses _ ih =>
      have hTurn : turn corner.prev.point corner.tip.point corner.next.point = 0 :=
        isFlat_iff.mp hFlat
      rw [doubledArea_of_loses (hLoses.map Vertex.point), ih]
      show turn corner.prev.point corner.tip.point corner.next.point + _ = _
      rw [hTurn, zero_add]

/-- The last triangle is left out where it has no area. -/
theorem sum_lastTriangle (a b c : Vertex Rat) :
    ((Ring.lastTriangle (cornerTests winding) [a, b, c]).map Corner.turning).sum =
      Corner.turning ⟨a, b, c⟩ := by
  by_cases hFlat : (cornerTests winding).isFlat ⟨a, b, c⟩ = true
  · rw [Ring.lastTriangle, if_pos hFlat, isFlat_iff.mp hFlat]
    rfl
  · rw [Ring.lastTriangle, if_neg hFlat, List.map_singleton, List.sum_singleton]

end

/-! ## The triangles of an outline -/

/-- How far three positions in an outline turn. -/
def Corner.turningIn (outline : List (Point Rat)) (corner : Corner Nat) : Rat :=
  turn (outline.getD corner.prev default) (outline.getD corner.tip default)
    (outline.getD corner.next default)

/-- Clipping an outline: the triangles cut off and the ring that is
left, as positions. -/
def clipOutline (outline : List (Point Rat)) : List (Corner Nat) × List Nat :=
  let (ears, last) :=
    Ring.clip (outlineTests outline) (outline.length - 3) (ringOf outline)
  (ears.map (Corner.map Vertex.index), last.map Vertex.index)

section

variable {outline : List (Point Rat)}

theorem getD_of_mem_ringOf {vertex : Vertex Rat} (hVertex : vertex ∈ ringOf outline) :
    outline.getD vertex.index default = vertex.point := by
  obtain ⟨⟨point, index⟩, hMem, rfl⟩ := List.mem_map.mp hVertex
  rw [List.getD_eq_getElem?_getD, List.mem_zipIdx_iff_getElem?.mp hMem,
    Option.getD_some]

/-- A corner turns as far as its positions in the outline do. -/
theorem turningIn_map {corner : Corner (Vertex Rat)}
    (hCorner : corner.vertices ⊆ ringOf outline) :
    (corner.map Vertex.index).turningIn outline = corner.turning := by
  simp only [Corner.vertices, List.cons_subset] at hCorner
  obtain ⟨hPrev, hTip, hNext, -⟩ := hCorner
  unfold Corner.turningIn Corner.map
  rw [getD_of_mem_ringOf hPrev, getD_of_mem_ringOf hTip, getD_of_mem_ringOf hNext]
  rfl

theorem map_turningIn {corners : List (Corner (Vertex Rat))}
    (hCorners : ∀ corner ∈ corners, corner.vertices ⊆ ringOf outline) :
    (corners.map (Corner.map Vertex.index)).map (Corner.turningIn outline) =
      corners.map Corner.turning := by
  rw [List.map_map]
  exact List.map_congr_left fun corner hMem => turningIn_map (hCorners corner hMem)

theorem point_ringOf : (ringOf outline).map Vertex.point = outline := by
  rw [ringOf, List.map_map]
  exact List.zipIdx_map_fst 0 outline

end

/-- What has the sign of a unit is the unit times its absolute value. -/
theorem abs_eq_mul_unit {x unit : Rat} (hUnit : unit = 1 ∨ unit = -1)
    (hSign : 0 ≤ x * unit) : |x| = x * unit := by
  rcases hUnit with rfl | rfl
  · rw [mul_one] at hSign ⊢
    exact abs_of_nonneg hSign
  · rw [mul_neg_one] at hSign ⊢
    exact abs_of_nonpos (neg_nonneg.mp hSign)

/-- Where nothing turns the other way, nothing cancels. -/
theorem sum_abs_of_unit {turns : List Rat} {unit : Rat} (hUnit : unit = 1 ∨ unit = -1)
    (hSigns : ∀ x ∈ turns, 0 ≤ x * unit) : (turns.map abs).sum = |turns.sum| := by
  have hEach : turns.map abs = turns.map (· * unit) :=
    List.map_congr_left fun x hMem => abs_eq_mul_unit hUnit (hSigns x hMem)
  have hSum : (turns.map (· * unit)).sum = turns.sum * unit := by
    rw [List.sum_map_mul_right, List.map_id']
  have hNonneg : 0 ≤ turns.sum * unit := by
    rw [← hSum]
    exact List.sum_nonneg (List.forall_mem_map.mpr hSigns)
  rw [hEach, hSum, abs_eq_mul_unit hUnit hNonneg]

/-- The way an outline turns. An outline without area counts as turning
the positive way. -/
def windingOf (outline : List (Point Rat)) : Rat :=
  if doubledArea outline < 0 then -1 else 1

theorem windingOf_unit (outline : List (Point Rat)) :
    windingOf outline = 1 ∨ windingOf outline = -1 := by
  unfold windingOf
  split
  · exact Or.inr rfl
  · exact Or.inl rfl

section

variable {outline : List (Point Rat)} {ears : List (Corner (Vertex Rat))}
    {a b c : Vertex Rat}

/-- The triangles of an outline are the ears and what the last three vertices add. -/
theorem triangulate_eq
    (hClip : Ring.clip (outlineTests outline) (outline.length - 3) (ringOf outline) =
      (ears, [a, b, c])) :
    triangulate outline =
      (ears ++ Ring.lastTriangle (outlineTests outline) [a, b, c]).map
        (Corner.map Vertex.index) := by
  rw [triangulate, Ring.triangles, length_ringOf, hClip]

/-- The last triangle is one of the triangles unless it is flat. -/
theorem map_lastTriangle (hVertices : [a, b, c] ⊆ ringOf outline) :
    let last : Corner Nat := ⟨a.index, b.index, c.index⟩
    (Ring.lastTriangle (outlineTests outline) [a, b, c]).map (Corner.map Vertex.index) =
      if last.turningIn outline = 0 then [] else [last] := by
  intro last
  have hLast : last.turningIn outline = Corner.turning ⟨a, b, c⟩ :=
    @turningIn_map outline ⟨a, b, c⟩ hVertices
  rw [hLast, Ring.lastTriangle]
  by_cases hFlat : Corner.turning ⟨a, b, c⟩ = 0
  · have hTest : (outlineTests outline).isFlat ⟨a, b, c⟩ = true := isFlat_iff.mpr hFlat
    rw [if_pos hFlat, if_pos hTest]
    rfl
  · have hTest : ¬(outlineTests outline).isFlat ⟨a, b, c⟩ = true :=
      hFlat ∘ isFlat_iff.mp
    rw [if_neg hFlat, if_neg hTest]
    rfl

/-- Together the triangles turn as far as the outline. -/
theorem sum_turning_of_clips
    (hClips : Ring.Clips (outlineTests outline) (ringOf outline) ears [a, b, c]) :
    ((ears ++ Ring.lastTriangle (outlineTests outline) [a, b, c]).map
      Corner.turning).sum =
      doubledArea outline := by
  have hArea := doubledArea_of_clips hClips
  rw [point_ringOf] at hArea
  rw [hArea, List.map_append, List.sum_append, outlineTests, sum_lastTriangle]
  exact congrArg _ (doubledArea_triangle a.point b.point c.point).symm

end

/-- **The areas of the triangles add up to that of the outline**, as long as clipping is
not stuck. The triangles that were cut off turn the way of the outline. So if the last
three vertices do not turn the other way, the areas add up as absolute values, too. -/
theorem area_of_triangulate (outline : List (Point Rat))
    (hSettled : (clipOutline outline).2.length = 3) :
    ∃ a b c, (clipOutline outline).2 = [a, b, c] ∧
      let ears := (clipOutline outline).1
      let last : Corner Nat := ⟨a, b, c⟩
      triangulate outline =
        ears ++ (if last.turningIn outline = 0 then [] else [last]) ∧
      ((triangulate outline).map (Corner.turningIn outline)).sum = doubledArea outline ∧
      (∀ ear ∈ ears, 0 < ear.turningIn outline * windingOf outline) ∧
      (0 ≤ last.turningIn outline * windingOf outline →
        ((triangulate outline).map fun found => |found.turningIn outline|).sum =
          |doubledArea outline|) := by
  obtain ⟨ears, vertices, hClip⟩ : ∃ ears vertices,
      Ring.clip (outlineTests outline) (outline.length - 3) (ringOf outline) =
        (ears, vertices) :=
    ⟨_, _, rfl⟩
  have hPositions : clipOutline outline =
      (ears.map (Corner.map Vertex.index), vertices.map Vertex.index) := by
    rw [clipOutline, hClip]
  rw [hPositions] at hSettled ⊢
  obtain ⟨a, b, c, rfl⟩ :=
    List.length_eq_three.mp ((List.length_map _).symm.trans hSettled)
  have hLength : (ringOf outline).length = outline.length - 3 + 3 := by
    have hKept :=
      Ring.length_clip (outlineTests outline) (outline.length - 3) (ringOf outline)
    rw [hClip, length_ringOf] at hKept
    simp only [List.length_cons, List.length_nil] at hKept
    rw [length_ringOf]
    omega
  have hClips := Ring.clips_clip (outlineTests outline) _ _ hLength
  rw [hClip] at hClips
  obtain ⟨hEars, hVertices⟩ := hClips.subset
  have hTriangles := triangulate_eq hClip
  have hLast := map_lastTriangle hVertices
  have hTurns : (triangulate outline).map (Corner.turningIn outline) =
      (ears ++ Ring.lastTriangle (outlineTests outline) [a, b, c]).map
        Corner.turning := by
    rw [hTriangles]
    refine map_turningIn (List.forall_mem_append.mpr ⟨hEars, fun corner hCorner => ?_⟩)
    exact List.Subset.trans (Ring.vertices_of_lastTriangle _ corner hCorner) hVertices
  have hEarTurns : ∀ ear ∈ ears.map (Corner.map Vertex.index),
      0 < ear.turningIn outline * windingOf outline := by
    refine List.forall_mem_map.mpr fun ear hEar => ?_
    rw [turningIn_map (hEars ear hEar)]
    exact hClips.turning_pos ear hEar
  have hSum : ((triangulate outline).map (Corner.turningIn outline)).sum =
      doubledArea outline := by
    rw [hTurns, sum_turning_of_clips hClips]
  refine ⟨a.index, b.index, c.index, rfl, ?_, hSum, hEarTurns, fun hSame => ?_⟩
  · rw [hTriangles, List.map_append, hLast]
  · rw [← hSum, ← sum_abs_of_unit (windingOf_unit outline), List.map_map]
    · rfl
    · refine List.forall_mem_map.mpr fun found hFound => ?_
      rw [hTriangles, List.map_append, hLast] at hFound
      rcases List.mem_append.mp hFound with hEar | hRest
      · exact (hEarTurns found hEar).le
      · split at hRest
        · cases hRest
        · rw [List.mem_singleton.mp hRest]
          exact hSame

/-- An outline with a notch that turns the negative way has five as its area. -/
theorem area_of_triangulate_notched :
    let outline : List (Point Rat) := [⟨0, 3⟩, ⟨3, 3⟩, ⟨3, 2⟩, ⟨1, 2⟩, ⟨1, 0⟩, ⟨0, 0⟩]
    (clipOutline outline).2.length = 3 ∧
      ((triangulate outline).map (Corner.turningIn outline)).sum = -10 ∧
      ((triangulate outline).map fun found => |found.turningIn outline|).sum = 10 := by
  intro outline
  have hClip : clipOutline outline =
      ([⟨0, 1, 2⟩, ⟨0, 2, 3⟩, ⟨5, 0, 3⟩], [3, 4, 5]) := by
    unfold outline
    cbv
  have hArea : doubledArea outline = -10 := by
    unfold outline
    cbv
  have hLength : (clipOutline outline).2.length = 3 := by rw [hClip]; rfl
  obtain ⟨a, b, c, hLast, -, hSum, -, hAbs⟩ := area_of_triangulate outline hLength
  rw [hClip] at hLast
  cases hLast
  have hSame : 0 ≤ Corner.turningIn outline ⟨3, 4, 5⟩ * windingOf outline := by
    have hTurn : Corner.turningIn outline ⟨3, 4, 5⟩ = -2 := by
      unfold outline
      cbv
    rw [hTurn, windingOf, hArea]
    norm_num
  refine ⟨hLength, hSum.trans hArea, ?_⟩
  rw [hAbs hSame, hArea]
  norm_num

end PenScript.Plane
