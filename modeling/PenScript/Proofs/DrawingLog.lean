import Mathlib
import PenScript.Drawing

/-!
# The drawing as a log

A drawing is told to follow gestures, and now and then its figures are taken away. What
it holds can be read off this history, without following it.

The pen is what was last set, separately for its place, its color and its fill setting,
as far back as the latest reset. The figures are those drawn since they were last
erased or taken, one for each gesture that draws, in the same order. Each has the ink
of the pen at its own time, which may have been set long before the figures were erased:
erasing and taking leave the pen alone.

The pen and the figures each follow from one fact about a single request, by induction
on the history from its end.

## Main results

* `play_eq_serveAll`: the gestures of a session are requests;
* `penAfter_snoc`, `figuresFrom_append`: how the two histories go on;
* `pen_serveAll`, `figures_serveAll`: the drawing is what they say;
* `drawing_of_requests`: both, and what erasing and taking do.
-/

namespace PenScript

open Plane

/-- What a drawing is asked for: to follow a gesture, or to hand out its figures. -/
inductive Request where
  | make (gesture : Gesture)
  | take

namespace Drawing

/-- The drawing after a request. -/
def serve (drawing : Drawing) : Request → Drawing
  | .make gesture => drawing.apply gesture
  | .take => drawing.take.2

/-- The drawing after requests, one after another. -/
def serveAll (drawing : Drawing) (requests : List Request) : Drawing :=
  requests.foldl serve drawing

theorem serveAll_snoc (drawing : Drawing) (requests : List Request)
    (request : Request) :
    drawing.serveAll (requests ++ [request]) =
      (drawing.serveAll requests).serve request :=
  List.foldl_concat ..

/-- Playing gestures is asking for each of them. -/
theorem play_eq_serveAll (drawing : Drawing) (gestures : List Gesture) :
    drawing.play gestures = drawing.serveAll (gestures.map Request.make) := by
  rw [play, serveAll, List.foldl_map]
  rfl

end Drawing

/-! ## What a history says -/

namespace Request

/-- The place where a request puts the pen. -/
def place? : Request → Option (Int32 × Int32)
  | make (.moveTo x y) | make (.lineTo x y) => some (x, y)
  | _ => none

/-- The color a request sets. -/
def color? : Request → Option Color
  | make (.setColor color) => some color
  | _ => none

/-- The fill setting a request sets. -/
def fill? : Request → Option Bool
  | make (.setFill on) => some on
  | _ => none

/-- Whether the settings of the pen survive a request. -/
def keepsPen : Request → Bool
  | make .resetPen => false
  | _ => true

/-- Whether the figures survive a request. -/
def keepsFigures : Request → Bool
  | make .erase | take => false
  | _ => true

/-- Whether a request draws. -/
def draws : Request → Bool
  | make (.lineTo _ _) | make (.circle _) | make (.rectangle _ _) | make (.triangle _)
  | make (.polygon _) => true
  | _ => false

/-- The figure a request adds, with the pen as it is then. Coordinates are those
of the pen and of the request as doubles: a line starts at the pen, a circle and
a rectangle are centered on it, and the base of a triangle has its middle there.
A line is never filled. -/
def figure? (pen : Pen) : Request → Option Figure
  | make (.lineTo x y) =>
      let start : Point Float := ⟨pen.x.toFloat, pen.y.toFloat⟩
      some ⟨.line start ⟨x.toFloat, y.toFloat⟩, false, pen.color⟩
  | make (.circle radius) =>
      let center : Point Float := ⟨pen.x.toFloat, pen.y.toFloat⟩
      some ⟨.circle center radius.toFloat, pen.fill, pen.color⟩
  | make (.rectangle width height) =>
      let center : Point Float := ⟨pen.x.toFloat, pen.y.toFloat⟩
      some ⟨.rectangle center ⟨width.toFloat, height.toFloat⟩, pen.fill, pen.color⟩
  | make (.triangle triangle) =>
      let left : Point Float :=
        ⟨pen.x.toFloat - triangle.base.toFloat / 2.0, pen.y.toFloat⟩
      let right : Point Float :=
        ⟨pen.x.toFloat + triangle.base.toFloat / 2.0, pen.y.toFloat⟩
      let apex : Point Float := ⟨pen.x.toFloat, pen.y.toFloat - triangle.height⟩
      some ⟨.polygon [left, right, apex], pen.fill, pen.color⟩
  | make (.polygon points) =>
      let corners := points.map fun point =>
        (⟨point.x.toFloat, point.y.toFloat⟩ : Point Float)
      some ⟨.polygon corners, pen.fill, pen.color⟩
  | _ => none

end Request

/-- What was last set of something since the latest reset of the pen. -/
def lastSet {α : Type} (set? : Request → Option α) (requests : List Request) :
    Option α :=
  ((requests.rtakeWhile Request.keepsPen).filterMap set?).getLast?

/-- The pen that a history leaves: every setting as it was last made, or
as it is at first. -/
def penAfter (requests : List Request) : Pen :=
  let place := (lastSet Request.place? requests).getD (0, 0)
  { x := place.1
    y := place.2
    color := (lastSet Request.color? requests).getD .black
    fill := (lastSet Request.fill? requests).getD false }

/-- The figures that requests add after others, each with the pen that all requests
before it have left. -/
def figuresFrom : List Request → List Request → List Figure
  | _, [] => []
  | before, request :: rest =>
      (request.figure? (penAfter before)).toList ++
        figuresFrom (before ++ [request]) rest

/-! ## The pen -/

theorem lastSet_snoc {α : Type} (set? : Request → Option α) (requests : List Request)
    (request : Request) :
    lastSet set? (requests ++ [request]) =
      if request.keepsPen then (set? request).or (lastSet set? requests) else none := by
  unfold lastSet
  by_cases hKeeps : request.keepsPen
  · rw [List.rtakeWhile_concat_pos _ _ _ hKeeps, if_pos hKeeps, List.filterMap_append]
    cases hSet : set? request <;> simp [hSet]
  · rw [List.rtakeWhile_concat_neg _ _ _ hKeeps, if_neg hKeeps]
    rfl

/-- **One more request** sets one thing about the pen, or resets it, or
leaves it as it is. -/
theorem penAfter_snoc (requests : List Request) (request : Request) :
    penAfter (requests ++ [request]) =
      match request with
      | .make (.moveTo x y) | .make (.lineTo x y) => { penAfter requests with x, y }
      | .make (.setColor color) => { penAfter requests with color }
      | .make (.setFill on) => { penAfter requests with fill := on }
      | .make .resetPen => {}
      | _ => penAfter requests := by
  simp only [penAfter, lastSet_snoc]
  cases request with
  | take => rfl
  | make gesture => cases gesture <;> rfl

/-- **The pen** is what was last set. -/
theorem pen_serveAll (requests : List Request) :
    (({} : Drawing).serveAll requests).pen = penAfter requests := by
  induction requests using List.reverseRecOn with
  | nil => rfl
  | append_singleton requests request ih =>
      rw [Drawing.serveAll_snoc, penAfter_snoc, ← ih]
      cases request with
      | take => rfl
      | make gesture => cases gesture <;> rfl

/-! ## The figures -/

theorem figuresFrom_append (before front back : List Request) :
    figuresFrom before (front ++ back) =
      figuresFrom before front ++ figuresFrom (before ++ front) back := by
  induction front generalizing before with
  | nil => simp [figuresFrom]
  | cons request rest ih => simp [figuresFrom, ih]

theorem isSome_figure? (pen : Pen) (request : Request) :
    (request.figure? pen).isSome = request.draws := by
  cases request with
  | take => rfl
  | make gesture => cases gesture <;> rfl

/-- There is one figure for each request that draws. -/
theorem length_figuresFrom (before requests : List Request) :
    (figuresFrom before requests).length = requests.countP Request.draws := by
  induction requests generalizing before with
  | nil => rfl
  | cons request rest ih =>
      rw [figuresFrom, List.length_append, ih, List.countP_cons,
        ← isSome_figure? (penAfter before)]
      cases request.figure? (penAfter before) <;> simp [Nat.add_comm]

/-- A request adds its figure, unless it leaves none. -/
theorem figures_serve (drawing : Drawing) (request : Request) :
    (drawing.serve request).figures.toList =
      if request.keepsFigures then
        drawing.figures.toList ++ (request.figure? drawing.pen).toList
      else [] := by
  cases request with
  | take => rfl
  | make gesture => cases gesture <;> simp [Drawing.serve, Drawing.apply, Drawing.draw,
      Drawing.moveTo, Pen.place, Triangle.outline, Triangle.halfOf,
      Request.keepsFigures, Request.figure?, Shape.isClosed]

/-- **The figures** are those drawn since they were last erased or taken. -/
theorem figures_serveAll (requests : List Request) :
    (({} : Drawing).serveAll requests).figures.toList =
      figuresFrom (requests.rdropWhile Request.keepsFigures)
        (requests.rtakeWhile Request.keepsFigures) := by
  induction requests using List.reverseRecOn with
  | nil => rfl
  | append_singleton requests request ih =>
      rw [Drawing.serveAll_snoc, figures_serve, ih, pen_serveAll]
      by_cases hKeeps : request.keepsFigures
      · rw [if_pos hKeeps, List.rdropWhile_concat_pos _ _ _ hKeeps,
          List.rtakeWhile_concat_pos _ _ _ hKeeps, figuresFrom_append,
          List.rdropWhile_append_rtakeWhile]
        simp [figuresFrom]
      · rw [if_neg hKeeps, List.rtakeWhile_concat_neg _ _ _ hKeeps]
        rfl

/-! ## Both together -/

/-- **A drawing is a faithful log** of what it has been asked for. Its pen is what
was last set since the latest reset. Its figures are those drawn since they were last
erased or taken, one for each request that draws, and each with the pen of its own time.
Erasing and taking leave no figures and keep the pen, and what is taken are the figures.
Playing the gestures of a session is asking for each of them. -/
theorem drawing_of_requests (requests : List Request) :
    let drawing := ({} : Drawing).serveAll requests
    let recent := requests.rtakeWhile Request.keepsFigures
    drawing.pen = penAfter requests ∧
      drawing.figures.toList =
        figuresFrom (requests.rdropWhile Request.keepsFigures) recent ∧
      drawing.figures.size = recent.countP Request.draws ∧
      drawing.take.1 = drawing.figures ∧
      drawing.serve .take = { drawing with figures := #[] } ∧
      drawing.serve (.make .erase) = { drawing with figures := #[] } ∧
      ∀ gestures, drawing.play gestures = drawing.serveAll (gestures.map .make) := by
  intro drawing recent
  have hFigures : drawing.figures.toList =
      figuresFrom (requests.rdropWhile Request.keepsFigures) recent :=
        figures_serveAll requests
  have hCount : drawing.figures.size = recent.countP Request.draws := by
    rw [← length_figuresFrom, ← hFigures, Array.length_toList]
  exact ⟨pen_serveAll requests, hFigures, hCount, rfl, rfl, rfl,
    drawing.play_eq_serveAll⟩

end PenScript
