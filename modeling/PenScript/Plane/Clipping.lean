/-!
# Clipping a ring

A ring is a list of vertices read cyclically, and clipping takes vertices out of
it one at a time until three are left. A vertex goes either because its corner
is an *ear*, which is kept as a triangle, or, if there is no ear anywhere,
because its corner is *flat*, which is not. Where there is neither, clipping is
stuck and ends early.

What makes a corner an ear or flat is left to two tests, and nothing is assumed
of them. So whatever is said of clipping here concerns the bookkeeping alone and
holds for every outline, however degenerate, and for every arithmetic.

A ring of `k + 3` vertices is clipped at most `k` times; the recursion is on `k`.

## Main results

* `length_corners`: every vertex is the tip of one corner;
* `length_of_cut?`: taking out a vertex leaves one fewer;
* `length_clip`: each triangle kept is a vertex gone.
-/

namespace PenScript.Plane

/-- Three vertices in a row. -/
structure Corner (ι : Type) where
  prev : ι
  tip : ι
  next : ι
deriving DecidableEq, Repr

/-- A corner of other things. -/
def Corner.map {ι κ : Type} (f : ι → κ) (corner : Corner ι) : Corner κ :=
  ⟨f corner.prev, f corner.tip, f corner.next⟩

/-- What clipping asks about corners. -/
structure CornerTests (ι : Type) where
  /-- Whether a corner of the given ring can be cut off as a triangle. -/
  isEar : List ι → Corner ι → Bool
  /-- Whether a corner encloses no area. -/
  isFlat : Corner ι → Bool

namespace Ring

variable {ι : Type}

/-- The corners along a path that comes from `prev` and goes on to `first`. -/
def cornersAlong (prev first : ι) : List ι → List (Corner ι)
  | [] => []
  | [tip] => [⟨prev, tip, first⟩]
  | tip :: next :: rest => ⟨prev, tip, next⟩ :: cornersAlong tip first (next :: rest)

/-- The corners of a ring, in the order of their tips. -/
def corners : List ι → List (Corner ι)
  | [] => []
  | first :: rest =>
      cornersAlong ((first :: rest).getLast (List.cons_ne_nil _ _)) first
        (first :: rest)

/-- Takes out the first vertex whose corner passes the test. -/
def cut? (test : Corner ι → Bool) (ring : List ι) : Option (Corner ι × List ι) :=
  ((corners ring).zipIdx.find? fun found => test found.1).map fun found =>
    (found.1, ring.eraseIdx found.2)

/-- Clips a ring up to `k` times: the triangles kept, in order, and the
ring that is left. -/
def clip (tests : CornerTests ι) : Nat → List ι → List (Corner ι) × List ι
  | 0, ring => ([], ring)
  | k + 1, ring =>
      match cut? (tests.isEar ring) ring with
      | some (ear, rest) =>
          let (ears, last) := clip tests k rest
          (ear :: ears, last)
      | none =>
          match cut? tests.isFlat ring with
          | some (_, rest) => clip tests k rest
          | none => ([], ring)

/-- What three remaining vertices add: their triangle, unless it is flat. -/
def lastTriangle (tests : CornerTests ι) : List ι → List (Corner ι)
  | [a, b, c] => if tests.isFlat ⟨a, b, c⟩ then [] else [⟨a, b, c⟩]
  | _ => []

/-- The triangles a ring is split into, in the order in which they are found. -/
def triangles (tests : CornerTests ι) (ring : List ι) : List (Corner ι) :=
  let (ears, last) := clip tests (ring.length - 3) ring
  ears ++ lastTriangle tests last

/-! ## Small laws -/

theorem length_cornersAlong (prev first : ι) (path : List ι) :
    (cornersAlong prev first path).length = path.length := by
  fun_induction cornersAlong prev first path with
  | case1 => rfl
  | case2 => rfl
  | case3 prev tip next rest ih =>
      rw [List.length_cons, ih]
      rfl

theorem length_corners (ring : List ι) : (corners ring).length = ring.length := by
  cases ring with
  | nil => rfl
  | cons first rest => exact length_cornersAlong _ _ _

/-- Taking out a vertex leaves one fewer. -/
theorem length_of_cut? {test : Corner ι → Bool} {ring rest : List ι} {corner : Corner ι}
    (hCut : cut? test ring = some (corner, rest)) : rest.length + 1 = ring.length := by
  obtain ⟨found, hFound, hEq⟩ := Option.map_eq_some_iff.mp hCut
  have hMem := List.mem_of_find?_eq_some hFound
  have hIndex : found.2 < ring.length := by
    rw [← length_corners ring]
    exact List.snd_lt_of_mem_zipIdx hMem
  cases hEq
  rw [List.length_eraseIdx_of_lt hIndex]
  omega

/-- Each triangle kept is a vertex gone. -/
theorem length_clip (tests : CornerTests ι) (k : Nat) (ring : List ι) :
    (clip tests k ring).1.length + (clip tests k ring).2.length ≤ ring.length := by
  induction k generalizing ring with
  | zero => simp [clip]
  | succ k ih =>
      rw [clip]
      split
      · rename_i ear rest hCut
        have hRest := ih rest
        have hLength := length_of_cut? hCut
        simp only [List.length_cons]
        omega
      · split
        · rename_i flat rest hCut
          have hRest := ih rest
          have hLength := length_of_cut? hCut
          omega
        · simp

end Ring

end PenScript.Plane
