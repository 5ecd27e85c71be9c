import Mathlib
import PenScript.Proofs.Inheritance

/-!
# What drawing commands amount to

A drawing command stands for gestures, and which ones is said here without following
how they are found: each term of the command denotes a value, and the values in their
order make a circle, a rectangle and so on, if they are such as the figure needs. What
the gestures of a command carry is all of its values and nothing else.

A command that can be performed is performed in full. Otherwise it is refused, for a
term that denotes nothing, for a negative measure or for sides that do not meet, and by
then the canvas has not been told anything.

The shape with a few values is the circle, the rectangle or the triangle with the same
values, except for the usage that its faults mention. With more it is a polygon, for
which the values must come in pairs. That is seen to when the line is read.

## Main results

* `Command.gestures_eq_ok_iff`: a command has gestures exactly if it can be performed;
* `endsLike_drawShape`: a shape with few values and the figure of its own name;
* `measured_runLines`: no run draws a figure with a negative measure;
* `draw_of_read`: all of this for the commands that can be read.
-/

namespace PenScript

open Plane Exec

/-! ## What a command says -/

/-- What a term stands for. -/
inductive Term.Denotes (vars : Variables) : Term → Int32 → Prop where
  | number (value : Int32) : Denotes vars (.number value) value
  | var {name : String} {value : Int32} (hValue : vars.get? name = some value) :
      Denotes vars (.var name) value

namespace Command

/-- The terms of a command, in the order in which they are written. -/
def terms : Command → List Term
  | .moveTo x y | .drawTo x y => [x, y]
  | .pen _ | .fill _ | .clear | .reset => []
  | .circle radius => [radius]
  | .rectangle width height => [width, height]
  | .triangle adjacent base hypotenuse => [adjacent, base, hypotenuse]
  | .drawShape values => values

/-- Whether gestures are what a command makes of the values of its terms. -/
def Makes (gestures : List Gesture) : Command → List Int32 → Prop
  | .moveTo _ _, [x, y] => gestures = [.moveTo x y]
  | .drawTo _ _, [x, y] => gestures = [.lineTo x y]
  | .pen color, [] => gestures = [.setColor color]
  | .fill on, [] => gestures = [.setFill on]
  | .clear, [] => gestures = [.erase, .resetPen]
  | .reset, [] => gestures = [.resetPen]
  | .circle _, [radius] | .drawShape _, [radius] =>
      0 ≤ radius.toInt ∧ gestures = [.circle radius]
  | .rectangle _ _, [width, height] | .drawShape _, [width, height] =>
      0 ≤ width.toInt ∧ 0 ≤ height.toInt ∧ gestures = [.rectangle width height]
  | .triangle _ _ _, [adjacent, base, hypotenuse]
  | .drawShape _, [adjacent, base, hypotenuse] =>
      0 ≤ base.toInt ∧ 0 ≤ hypotenuse.toInt ∧
        ∃ found, Triangle.ofSides? adjacent base hypotenuse = some found ∧
          gestures = [.triangle found]
  | .drawShape _, values =>
      ∃ points, gestures = [.polygon points] ∧
        points.flatMap (fun point => [point.x, point.y]) = values
  | _, _ => False

/-- Whether a command can be performed, and by which gestures. -/
def Performs (vars : Variables) (command : Command) (gestures : List Gesture) : Prop :=
  ∃ values, List.Forall₂ (Term.Denotes vars) command.terms values ∧
    command.Makes gestures values

/-- The figure with one to three values that goes by its own name. -/
def ofFew? : List Term → Option Command
  | [radius] => some (.circle radius)
  | [width, height] => some (.rectangle width height)
  | [adjacent, base, hypotenuse] => some (.triangle adjacent base hypotenuse)
  | _ => none

end Command

/-! ## When the gestures of a command are found -/

theorem bind_found_iff {α β : Type} {found : Except Fault α} {next : α → Except Fault β}
    {result : β} :
    (found >>= next) = .ok result ↔ ∃ value, found = .ok value ∧
      next value = .ok result := by
  cases found with
  | error fault =>
      constructor
      · intro hFound
        cases hFound
      · rintro ⟨value, hFound, -⟩
        cases hFound
  | ok value =>
      constructor
      · exact fun hFound => ⟨value, rfl, hFound⟩
      · rintro ⟨other, hOther, hNext⟩
        cases hOther
        exact hNext

theorem Term.valueIn_eq_ok_iff {vars : Variables} {verb : Option Verb} {term : Term}
    {value : Int32} : term.valueIn vars verb = .ok value ↔ term.Denotes vars value := by
  cases term with
  | number found =>
      constructor
      · intro hFound
        cases hFound
        exact .number value
      · rintro ⟨⟩
        rfl
  | var name =>
      rw [valueIn]
      constructor
      · intro hFound
        split at hFound
        · rename_i hValue
          cases hFound
          exact .var hValue
        · cases hFound
      · rintro (_ | ⟨hValue⟩)
        rw [hValue]

theorem Term.mapM_valueIn_eq_ok_iff {vars : Variables} {verb : Option Verb}
    {terms : List Term} :
    ∀ {values : List Int32}, terms.mapM (valueIn vars verb) = .ok values ↔
      List.Forall₂ (Term.Denotes vars) terms values := by
  induction terms with
  | nil =>
      intro values
      rw [List.forall₂_nil_left_iff]
      exact ⟨fun hFound => by cases hFound; rfl, fun hNil => by rw [hNil]; rfl⟩
  | cons term rest ih =>
      intro values
      rw [List.mapM_cons, bind_found_iff, List.forall₂_cons_left_iff]
      refine exists_congr fun value => ?_
      simp only [bind_found_iff, Term.valueIn_eq_ok_iff, ih, pure, Except.pure,
        Except.ok.injEq]
      constructor
      · rintro ⟨hTerm, others, hRest, rfl⟩
        exact ⟨others, hTerm, hRest, rfl⟩
      · rintro ⟨others, hTerm, hRest, rfl⟩
        exact ⟨hTerm, others, hRest, rfl⟩

theorem Measure.check_eq_ok_iff {measure : Measure} {verb : Verb} {value : Int32}
    {done : Unit} : measure.check verb value = .ok done ↔ 0 ≤ value.toInt := by
  have hSign : value < 0 ↔ value.toInt < 0 := Int32.lt_iff_toInt_lt
  rw [check]
  split
  · rename_i hNegative
    have hLess : value.toInt < 0 := hSign.mp hNegative
    constructor
    · intro hFound
      cases hFound
    · exact fun hPositive => absurd hLess (Int.not_lt.mpr hPositive)
  · rename_i hPositive
    exact ⟨fun _ => Int.not_lt.mp fun hLess => hPositive (hSign.mpr hLess),
      fun _ => rfl⟩

namespace Gesture

variable {verb : Verb} {gestures : List Gesture}

theorem circles_eq_ok_iff {radius : Int32} :
    circles verb radius = .ok gestures ↔ 0 ≤ radius.toInt ∧
      gestures = [circle radius] := by
  simp only [circles, bind_found_iff, Measure.check_eq_ok_iff, exists_const]
  simp [pure, Except.pure, eq_comm]

theorem rectangles_eq_ok_iff {width height : Int32} :
    rectangles verb width height = .ok gestures ↔
      0 ≤ width.toInt ∧ 0 ≤ height.toInt ∧ gestures = [rectangle width height] := by
  simp only [rectangles, bind_found_iff, Measure.check_eq_ok_iff, exists_const]
  simp [pure, Except.pure, eq_comm]

theorem triangles_eq_ok_iff {adjacent base hypotenuse : Int32} :
    triangles verb adjacent base hypotenuse = .ok gestures ↔
      0 ≤ base.toInt ∧ 0 ≤ hypotenuse.toInt ∧
        ∃ found, Triangle.ofSides? adjacent base hypotenuse = some found ∧
          gestures = [triangle found] := by
  simp only [triangles, bind_found_iff, Measure.check_eq_ok_iff, exists_const]
  refine and_congr_right fun _ => and_congr_right fun _ => ?_
  cases Triangle.ofSides? adjacent base hypotenuse with
  | none => simp
  | some found => simp [pure, Except.pure, eq_comm]

/-- The points of a polygon are determined by their coordinates in order. -/
theorem eq_pairUp_iff {values : List Int32} (hEven : values.length % 2 = 0)
    {points : List (Point Int32)} : points = pairUp values ↔
      points.flatMap (fun point => [point.x, point.y]) = values := by
  constructor
  · rintro rfl
    exact pairUp_flatten values hEven
  · rintro rfl
    clear hEven
    induction points with
    | nil => rfl
    | cons point rest ih =>
        simp only [List.flatMap_cons, List.cons_append, List.nil_append, pairUp]
        rw [← ih]

theorem shapes_eq_ok_iff {values : List Int32} {terms : List Term}
    (hCounted : (Command.drawShape terms).IsWellCounted)
    (hLength : values.length = terms.length) :
    shapes verb values = .ok gestures ↔
      (Command.drawShape terms).Makes gestures values := by
  have hEven : 3 < values.length → values.length % 2 = 0 := by
    intro hMany
    rw [Command.IsWellCounted, ← hLength, Nat.even_iff] at hCounted
    omega
  rcases values with _ | ⟨first, _ | ⟨second, _ | ⟨third, _ | ⟨fourth, rest⟩⟩⟩⟩
  · rw [Command.IsWellCounted, ← hLength] at hCounted
    exact absurd hCounted.1 (Nat.lt_irrefl 0)
  · exact circles_eq_ok_iff
  · exact rectangles_eq_ok_iff
  · exact triangles_eq_ok_iff
  · have hPoints :=
      @eq_pairUp_iff (first :: second :: third :: fourth :: rest) (hEven (by simp))
    simp only [shapes, Command.Makes, ← hPoints, Except.ok.injEq]
    constructor
    · rintro rfl
      exact ⟨_, rfl, rfl⟩
    · rintro ⟨points, rfl, rfl⟩
      rfl

end Gesture

/-! ## When a command can be performed -/

theorem exists_forall₂_nil {α β : Type} {R : α → β → Prop} {P : List β → Prop} :
    (∃ values, List.Forall₂ R [] values ∧ P values) ↔ P [] := by
  simp only [List.forall₂_nil_left_iff, exists_eq_left]

theorem exists_forall₂_cons {α β : Type} {R : α → β → Prop} {P : List β → Prop}
    {first : α}
    {rest : List α} : (∃ values, List.Forall₂ R (first :: rest) values ∧ P values) ↔
      ∃ value, R first value ∧ ∃ others, List.Forall₂ R rest others ∧
        P (value :: others) := by
  simp only [List.forall₂_cons_left_iff]
  constructor
  · rintro ⟨values, ⟨value, others, hFirst, hRest, rfl⟩, hValues⟩
    exact ⟨value, hFirst, others, hRest, hValues⟩
  · rintro ⟨value, hFirst, others, hRest, hValues⟩
    exact ⟨value :: others, ⟨value, others, hFirst, hRest, rfl⟩, hValues⟩

/-- **A command has gestures exactly if it can be performed.** -/
theorem Command.gestures_eq_ok_iff {vars : Variables} {command : Command}
    {gestures : List Gesture} (hCounted : command.IsWellCounted) :
    command.gestures vars = .ok gestures ↔ command.Performs vars gestures := by
  cases command with
  | drawShape values =>
      simp only [Command.gestures, Performs, terms, bind_found_iff,
        Term.mapM_valueIn_eq_ok_iff]
      refine exists_congr fun found => and_congr_right fun hFound => ?_
      exact Gesture.shapes_eq_ok_iff hCounted hFound.length_eq.symm
  | _ =>
      simp only [Command.gestures, Performs, terms, Makes, bind_found_iff,
        exists_forall₂_nil, exists_forall₂_cons, Term.valueIn_eq_ok_iff,
        Gesture.circles_eq_ok_iff, Gesture.rectangles_eq_ok_iff,
        Gesture.triangles_eq_ok_iff, pure, Except.pure, Except.ok.injEq,
        @eq_comm _ gestures]

/-! ## What the gestures carry -/

/-- The values that a gesture carries, in order. -/
def Gesture.values : Gesture → List Int32
  | .moveTo x y | .lineTo x y => [x, y]
  | .circle radius => [radius]
  | .rectangle width height => [width, height]
  | .triangle found => [found.adjacent, found.base, found.hypotenuse]
  | .polygon points => points.flatMap fun point => [point.x, point.y]
  | .setColor _ | .setFill _ | .erase | .resetPen => []

/-- **No value is lost**: the gestures carry the values of the terms, and nothing else.
There are two of them for erasing and one for everything else. -/
theorem Command.values_of_makes {command : Command} {gestures : List Gesture}
    {values : List Int32} (hMakes : command.Makes gestures values) :
    gestures.flatMap Gesture.values = values ∧
      gestures.length = if command = .clear then 2 else 1 := by
  unfold Makes at hMakes
  split at hMakes
  case h_1 | h_2 | h_3 | h_4 | h_5 | h_6 =>
    cases hMakes
    exact ⟨rfl, rfl⟩
  case h_7 | h_8 =>
    obtain ⟨-, rfl⟩ := hMakes
    exact ⟨rfl, rfl⟩
  case h_9 | h_10 =>
    obtain ⟨-, -, rfl⟩ := hMakes
    exact ⟨rfl, rfl⟩
  case h_11 | h_12 =>
    obtain ⟨-, -, found, hFound, rfl⟩ := hMakes
    obtain ⟨rfl, rfl, rfl⟩ := Triangle.sides_of_ofSides? hFound
    exact ⟨rfl, rfl⟩
  case h_13 =>
    obtain ⟨points, rfl, rfl⟩ := hMakes
    exact ⟨List.append_nil _, rfl⟩
  case h_14 => exact hMakes.elim

/-! ## Shapes with few values -/

/-- Whether two computations find the same, or both fail with a fault
of the same kind. -/
inductive FindsLike {α : Type} : Except Fault α → Except Fault α → Prop where
  | ok (value : α) : FindsLike (.ok value) (.ok value)
  | error {fault other : Fault} (hKind : fault.kind = other.kind) :
      FindsLike (.error fault) (.error other)

theorem FindsLike.bind {α β : Type} {first second : Except Fault α}
    {next next' : α → Except Fault β} (hFirst : FindsLike first second)
    (hNext : ∀ value, FindsLike (next value) (next' value)) :
    FindsLike (first >>= next) (second >>= next') := by
  cases hFirst with
  | ok value => exact hNext value
  | error hKind => exact .error hKind

theorem Term.findsLike_valueIn (vars : Variables) (verb verb' : Option Verb)
    (term : Term) : FindsLike (term.valueIn vars verb) (term.valueIn vars verb') := by
  cases term with
  | number value => exact .ok value
  | var name =>
      rw [valueIn, valueIn]
      cases vars.get? name with
      | none => exact .error rfl
      | some value => exact .ok value

theorem Measure.findsLike_check (measure : Measure) (verb verb' : Verb)
    (value : Int32) :
    FindsLike (measure.check verb value) (measure.check verb' value) := by
  rw [check, check]
  split
  · exact .error rfl
  · exact .ok ()

theorem Gesture.findsLike_circles (verb verb' : Verb) (radius : Int32) :
    FindsLike (circles verb radius) (circles verb' radius) :=
  (Measure.findsLike_check .radius verb verb' radius).bind fun _ => .ok _

theorem Gesture.findsLike_rectangles (verb verb' : Verb) (width height : Int32) :
    FindsLike (rectangles verb width height) (rectangles verb' width height) :=
  (Measure.findsLike_check .width verb verb' width).bind fun _ =>
    (Measure.findsLike_check .height verb verb' height).bind fun _ => .ok _

theorem Gesture.findsLike_triangles (verb verb' : Verb)
    (adjacent base hypotenuse : Int32) :
    FindsLike (triangles verb adjacent base hypotenuse)
      (triangles verb' adjacent base hypotenuse) := by
  refine (Measure.findsLike_check .base verb verb' base).bind fun _ =>
    (Measure.findsLike_check .hypotenuse verb verb' hypotenuse).bind fun _ => ?_
  cases Triangle.ofSides? adjacent base hypotenuse with
  | none => exact .error rfl
  | some found => exact .ok _

/-- A shape with few values finds the gesture of the figure that goes
by its own name. -/
theorem Command.findsLike_drawShape (vars : Variables) {values : List Term}
    {figure : Command} (hFew : ofFew? values = some figure) :
    FindsLike ((drawShape values).gestures vars) (figure.gestures vars) := by
  have hTerm (verb : Verb) (term : Term) :=
    Term.findsLike_valueIn vars (some .drawShape) (some verb) term
  unfold ofFew? at hFew
  split at hFew
  · cases hFew
    simp only [Command.gestures, List.mapM_cons, List.mapM_nil, bind_assoc, pure_bind]
    exact (hTerm .circle _).bind fun _ => Gesture.findsLike_circles _ _ _
  · cases hFew
    simp only [Command.gestures, List.mapM_cons, List.mapM_nil, bind_assoc, pure_bind]
    exact (hTerm .rectangle _).bind fun _ => (hTerm .rectangle _).bind fun _ =>
      Gesture.findsLike_rectangles _ _ _ _
  · cases hFew
    simp only [Command.gestures, List.mapM_cons, List.mapM_nil, bind_assoc, pure_bind]
    exact (hTerm .triangle _).bind fun _ => (hTerm .triangle _).bind fun _ =>
      (hTerm .triangle _).bind fun _ => Gesture.findsLike_triangles _ _ _ _ _
  · cases hFew

/-- Whether two actions do the same, or both do nothing and stop with a fault of the
same kind at the same place. -/
def EndsLike (first second : Exec Unit) : Prop :=
  ∀ machine : Machine, first machine = second machine ∨
    ∃ fault other : Fault, ∃ site : Site, fault.kind = other.kind ∧
      first machine = .error ⟨fault, site⟩ machine ∧
        second machine = .error ⟨other, site⟩ machine

/-- **A shape with few values is drawn as the figure that goes by its own name.** -/
theorem endsLike_drawShape {values : List Term} {figure : Command}
    (hFew : Command.ofFew? values = some figure) (site : Site) :
    EndsLike (Exec.draw (.drawShape values) site) (Exec.draw figure site) := by
  intro machine
  rw [draw_apply, draw_apply]
  split
  · have hLike := Command.findsLike_drawShape machine.store.vars hFew
    generalize (Command.drawShape values).gestures machine.store.vars = shape at hLike
    generalize figure.gestures machine.store.vars = named at hLike
    cases hLike with
    | ok gestures => exact Or.inl rfl
    | @error fault other hKind => exact Or.inr ⟨fault, other, site, hKind, rfl, rfl⟩
  · exact Or.inl rfl

/-! ## What is drawn has no negative measure -/

/-- Whether the measures of a gesture are not negative. -/
def Gesture.IsMeasured : Gesture → Prop
  | .circle radius => 0 ≤ radius.toInt
  | .rectangle width height => 0 ≤ width.toInt ∧ 0 ≤ height.toInt
  | .triangle found => 0 ≤ found.base.toInt ∧ 0 ≤ found.hypotenuse.toInt
  | _ => True

/-- Whether the measures of what is found, if anything is, are not negative. -/
def FindsMeasured (found : Except Fault (List Gesture)) : Prop :=
  ∀ gestures, found = .ok gestures → ∀ gesture ∈ gestures, gesture.IsMeasured

theorem findsMeasured_single {gesture : Gesture} (hMeasured : gesture.IsMeasured) :
    FindsMeasured (.ok [gesture]) := by
  intro gestures hFound
  cases hFound
  exact List.forall_mem_singleton.mpr hMeasured

namespace Gesture

theorem findsMeasured_circles (verb : Verb) (radius : Int32) :
    FindsMeasured (circles verb radius) := by
  intro gestures hFound
  obtain ⟨hRadius, rfl⟩ := circles_eq_ok_iff.mp hFound
  exact List.forall_mem_singleton.mpr hRadius

theorem findsMeasured_rectangles (verb : Verb) (width height : Int32) :
    FindsMeasured (rectangles verb width height) := by
  intro gestures hFound
  obtain ⟨hWidth, hHeight, rfl⟩ := rectangles_eq_ok_iff.mp hFound
  exact List.forall_mem_singleton.mpr ⟨hWidth, hHeight⟩

theorem findsMeasured_triangles (verb : Verb) (adjacent base hypotenuse : Int32) :
    FindsMeasured (triangles verb adjacent base hypotenuse) := by
  intro gestures hFound
  obtain ⟨hBase, hHypotenuse, found, hSides, rfl⟩ := triangles_eq_ok_iff.mp hFound
  obtain ⟨-, rfl, rfl⟩ := Triangle.sides_of_ofSides? hSides
  exact List.forall_mem_singleton.mpr ⟨hBase, hHypotenuse⟩

theorem findsMeasured_shapes (verb : Verb) (values : List Int32) :
    FindsMeasured (shapes verb values) := by
  unfold shapes
  split
  · exact findsMeasured_circles _ _
  · exact findsMeasured_rectangles _ _ _
  · exact findsMeasured_triangles _ _ _ _
  · exact findsMeasured_single trivial

end Gesture

theorem Command.findsMeasured_gestures (vars : Variables) (command : Command) :
    FindsMeasured (command.gestures vars) := by
  cases command with
  | moveTo x y | drawTo x y =>
      exact forall_of_bind_ok fun _ => forall_of_bind_ok fun _ =>
        findsMeasured_single trivial
  | pen color => exact findsMeasured_single trivial
  | fill on => exact findsMeasured_single trivial
  | reset => exact findsMeasured_single trivial
  | clear =>
      intro gestures hFound
      cases hFound
      exact List.forall_mem_cons.mpr ⟨trivial, List.forall_mem_singleton.mpr trivial⟩
  | circle radius => exact forall_of_bind_ok fun _ => Gesture.findsMeasured_circles _ _
  | rectangle width height =>
      exact forall_of_bind_ok fun _ => forall_of_bind_ok fun _ =>
        Gesture.findsMeasured_rectangles _ _ _
  | triangle adjacent base hypotenuse =>
      exact forall_of_bind_ok fun _ => forall_of_bind_ok fun _ =>
        forall_of_bind_ok fun _ =>
        Gesture.findsMeasured_triangles _ _ _ _
  | drawShape values =>
      exact forall_of_bind_ok fun _ => Gesture.findsMeasured_shapes _ _

/-- Whether nothing with a negative measure has been drawn so far. -/
def Machine.IsMeasured (machine : Machine) : Prop :=
  ∀ gesture ∈ machine.trace.toList, gesture.IsMeasured

/-- Nothing with a negative measure is drawn, whatever is executed and
however it ends. -/
def Law.measured (limits : Limits) : Law limits where
  Good _ := True
  Holds := Machine.IsMeasured
  Ends _ _ := True
  Stops _ _ after := after.IsMeasured
  refl _ := trivial
  trans _ _ := trivial
  trans_stops _ hStops := hStops
  good_body _ _ _ := trivial
  good_stored _ _ _ _ := trivial
  counted hHolds _ := ⟨hHolds, trivial⟩
  exhausted _ hHolds _ := hHolds
  assigned _ _ hHolds := ⟨hHolds, trivial⟩
  drawn {machine command gestures} hHolds _ hFound := by
    refine ⟨fun gesture hMem => ?_, trivial⟩
    have hEither : gesture ∈ machine.trace.toList ++ gestures := by simpa using hMem
    exact (List.mem_append.mp hEither).elim (hHolds gesture)
      (command.findsMeasured_gestures machine.store.vars gestures hFound gesture)
  defined hHolds _ _ := ⟨hHolds, trivial⟩
  faulted _ hHolds _ := hHolds
  deepened _ hHolds := hHolds
  raised hHolds _ := hHolds
  gated _ hHolds := hHolds
  ungated _ hAfter _ := ⟨hAfter, trivial⟩
  ungated_stops _ hStops := hStops
  called hHolds _ := hHolds
  returned _ hAfter _ := ⟨hAfter, trivial⟩
  returned_stops _ hStops := hStops

/-- **No run draws a figure with a negative measure.** -/
theorem measured_runLines (session : Session) (lines : List Line) :
    ∀ gesture ∈ (session.runLines lines).gestures, gesture.IsMeasured := by
  have hObeys : (Law.measured session.limits).Obeys
      (runItems session.limits (read .complete lines).items) :=
    Law.obeys_runItems _ (fun _ _ => trivial) fun _ _ _ hHolds => hHolds
  have hStart : session.machine.IsMeasured := fun _ hMem => absurd hMem List.not_mem_nil
  have hRun := hObeys session.machine hStart
  obtain ⟨final, hEnd, -, hGestures, -⟩ := runLines_cases session lines
  rw [hGestures]
  rcases hEnd with ⟨hOk, -⟩ | ⟨problem, hError, -⟩
  · rw [hOk] at hRun
    exact hRun.1
  · rw [hError] at hRun
    exact hRun

/-! ## Commands that can be read -/

/-- **A drawing command is all or nothing.** Where drawing is on, a command that could
be read is performed in full, with all its values, or it is refused with nothing done,
and it is refused only if it cannot be performed. A shape with few values is the figure
that goes by its own name, and no run draws a figure with a negative measure. -/
theorem draw_of_read :
    (∀ (verb : Verb) (args : List String) (command : Command),
      readCommand verb args = .ok command →
      ∀ (site : Site) (machine : Machine), machine.gate = true →
        (∃ values gestures,
          List.Forall₂ (Term.Denotes machine.store.vars) command.terms values ∧
          command.Makes gestures values ∧ gestures.flatMap Gesture.values = values ∧
          gestures.length = (if command = .clear then 2 else 1) ∧
          Exec.draw command site machine =
            .ok () { machine with trace := machine.trace.appendList gestures }) ∨
        (∀ gestures, ¬command.Performs machine.store.vars gestures) ∧
          ∃ fault, Exec.draw command site machine = .error ⟨fault, site⟩ machine) ∧
    (∀ (values : List Term) (figure : Command) (site : Site),
      Command.ofFew? values = some figure →
        EndsLike (Exec.draw (.drawShape values) site) (Exec.draw figure site)) ∧
    ∀ (session : Session) (source : String),
      ∀ gesture ∈ (session.runSource source).gestures, gesture.IsMeasured := by
  refine ⟨fun verb args command hRead site machine hOpen => ?_,
    fun values figure site hFew => endsLike_drawShape hFew site,
    fun session source => measured_runLines session _⟩
  have hCounted := isWellCounted_of_readCommand verb args command hRead
  rw [draw_apply, if_pos hOpen]
  cases hFound : command.gestures machine.store.vars with
  | ok gestures =>
      obtain ⟨values, hDenotes, hMakes⟩ :=
        (Command.gestures_eq_ok_iff hCounted).mp hFound
      obtain ⟨hValues, hLength⟩ := Command.values_of_makes hMakes
      exact Or.inl ⟨values, gestures, hDenotes, hMakes, hValues, hLength, rfl⟩
  | error fault =>
      refine Or.inr ⟨fun gestures hPerforms => ?_, fault, rfl⟩
      have hOther := (Command.gestures_eq_ok_iff hCounted).mpr hPerforms
      rw [hFound] at hOther
      cases hOther

/-- A polygon with a variable in it, where the variable has a value and
where it has none. -/
theorem draw_of_read_polygon :
    let args := ["n", "2", "3", "n"]
    let command := Command.drawShape [.var "n", .number 2, .number 3, .var "n"]
    let site : Site := ⟨1, "drawshape n 2 3 n"⟩
    let known : Machine := { store.vars := NameMap.empty.insert "n" 7 }
    let unknown : Machine := {}
    readCommand .drawShape args = .ok command ∧
      command.Performs known.store.vars [.polygon [⟨7, 2⟩, ⟨3, 7⟩]] ∧
      (∃ values gestures, command.Makes gestures values ∧
        gestures.flatMap Gesture.values = values ∧ gestures.length = 1 ∧
        Exec.draw command site known =
          .ok () { known with trace := known.trace.appendList gestures }) ∧
      ∃ fault, Exec.draw command site unknown = .error ⟨fault, site⟩ unknown := by
  intro args command site known unknown
  have hRead : readCommand .drawShape args = .ok command := by
    unfold args command
    cbv
  have hKnown : Term.Denotes known.store.vars (.var "n") 7 :=
    .var (NameMap.get?_insert_self _ _ _)
  have hPerforms : command.Performs known.store.vars [.polygon [⟨7, 2⟩, ⟨3, 7⟩]] :=
    ⟨[7, 2, 3, 7],
      .cons hKnown (.cons (.number 2) (.cons (.number 3) (.cons hKnown .nil))),
      _, rfl, rfl⟩
  obtain ⟨hAll, -, -⟩ := draw_of_read
  refine ⟨hRead, hPerforms, ?_, ?_⟩
  · rcases hAll _ _ _ hRead site known rfl with
      ⟨values, gestures, -, hMakes, hValues, hLength, hDrawn⟩ | ⟨hNever, -⟩
    · exact ⟨values, gestures, hMakes, hValues, hLength, hDrawn⟩
    · exact absurd hPerforms (hNever _)
  · rcases hAll _ _ _ hRead site unknown rfl with
      ⟨values, gestures, hDenotes, -⟩ | ⟨-, hRefused⟩
    · cases hDenotes with
      | cons hFirst _ =>
          cases hFirst with
          | var hValue => cases hValue
    · exact hRefused

end PenScript
