import RouteGeometry.Coordinate.Exact
import RouteGeometry.Polyline

/-! # Points along a polyline

The point of 64 bits at a fraction of the way, and the points of the rational plane that lines,
segments and polylines cover. The exact tests on coordinates of any type are about the latter. -/

namespace RouteGeometry

namespace Polyline

/-- `x`, moved to the nearer end of the interval from zero to one if it lies
outside. NaN stays NaN. -/
def clampedFraction (x : Float) : Float :=
  if x < 0 then 0 else if x > 1 then 1 else x

section
variable {α : Type} [Coordinate α]

def onSegment (s : Segment α) (t : Float) : Point Float 2 :=
  let start := s.start.toFloat
  start + (s.finish.toFloat - start) * t

/-- The point after the way `remaining` along the segments, if it ends on one of
them. Segments without a positive length are passed over. -/
def walk (remaining : Float) : List (Segment α) → Option (Point Float 2)
  | [] => none
  | s :: rest =>
    let length := s.length
    if length > 0 && remaining ≤ length then some (onSegment s (remaining / length))
    else walk (remaining - length) rest

/-- The point at `fraction` of the length: the last point if rounding leaves a
rest after all segments, and none if there are no points. -/
def position (l : Polyline α) (fraction : Float) : Option (Point Float 2) :=
  match l.last? with
  | none => none
  | some last =>
    some ((walk (clampedFraction fraction * l.length) l.segments).getD last.toFloat)

end

end Polyline

/-! ## Exact point sets -/

/-- The point at the fraction `t` of the way from `p` to `q`. -/
def Point.along (p q : Point Rat 2) (t : Rat) : Point Rat 2 := p + (q - p) * t

/-- A line covers the points at all fractions of the way between its points. -/
def Line.Covers (l : Line Rat) (x : Point Rat 2) : Prop := ∃ t, x = l.p₁.along l.p₂ t

/-- A segment covers the points at the fractions from zero to one. -/
def Segment.Covers (s : Segment Rat) (x : Point Rat 2) : Prop :=
  ∃ t, 0 ≤ t ∧ t ≤ 1 ∧ x = s.start.along s.finish t

def Polyline.Covers (l : Polyline Rat) (x : Point Rat 2) : Prop :=
  ∃ s ∈ l.segments, s.Covers x

/-- How far a polyline goes to the left and to the right in all. -/
def Polyline.travelX (l : Polyline Rat) : Rat :=
  l.segments.foldr (fun s rest => (s.finish.x - s.start.x).abs + rest) 0

def Polyline.travelY (l : Polyline Rat) : Rat :=
  l.segments.foldr (fun s rest => (s.finish.y - s.start.y).abs + rest) 0

/-- The polyline with the same exact points, if all coordinates are finite. -/
def Polyline.toRat? {α : Type} [Coordinate α] (l : Polyline α) : Option (Polyline Rat) :=
  (l.points.mapM Point.toRat?).map Polyline.mk

end RouteGeometry
