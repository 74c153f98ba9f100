import RouteGeometry.Coordinate.Exact
import RouteGeometry.Line

/-! # How two lines meet

Whether two infinite lines cross in one point, overlap or never meet is told by signs. The crossing
point is calculated in numbers of 64 bits, and if that comes to nothing, once more in exact
rationals. -/

namespace RouteGeometry

inductive Meeting where
  | crossing (point : Point Float 2)
  /-- One line contains the other. -/
  | overlapping
  | parallel

inductive Meeting.Kind where
  | crossing
  | overlapping
  | parallel
  deriving DecidableEq, Repr

def Meeting.kind : Meeting → Kind
  | crossing _ => .crossing
  | overlapping => .overlapping
  | parallel => .parallel

namespace Line

/-- The point in which two exact lines cross that are not parallel. -/
def meetingPoint? (a b : Line Rat) : Option (Point Rat 2) :=
  let d₁ := a.p₂ - a.p₁
  let d₂ := b.p₂ - b.p₁
  let denominator := d₁.area d₂
  if denominator = 0 then none
  else
    let t := (b.p₁ - a.p₁).area d₂ / denominator
    some (a.p₁ + d₁ * t)

section
variable {α : Type} [Coordinate α]

/-- The nearest point of 64 bits to the exact crossing point. -/
def exactCrossing? (a b : Line α) : Option (Point Float 2) :=
  match a.toRat?, b.toRat? with
  | some a', some b' => (a'.meetingPoint? b').map fun p => p.map Number.toFloat
  | _, _ => none

/-- The crossing point of two lines that are not parallel. In numbers of 64 bits
nearly parallel lines can lose the denominator and large ones their coordinates;
then the exact solution is taken. -/
def crossing (a b : Line α) : Point Float 2 :=
  let origin := a.p₁.toFloat
  let d₁ := a.p₂.toFloat - origin
  let d₂ := b.p₂.toFloat - b.p₁.toFloat
  let denominator := d₁.area d₂
  let t := (b.p₁.toFloat - origin).area d₂ / denominator
  let point := origin + d₁ * t
  if denominator != 0 && point.x.isFinite && point.y.isFinite then point
  else (exactCrossing? a b).getD point

/-- Whether two parallel lines share a point. A degenerate line is parallel to
every other one, so the question is put to a line that has a direction, if there
is one. -/
def overlaps (a b : Line α) : Bool :=
  match a.isDegenerate, b.isDegenerate with
  | true, true => a.p₁.equal b.p₁
  | true, false => (Orientation.ofPoints b.p₁ b.p₂ a.p₁).isColinear
  | false, _ => (Orientation.ofPoints a.p₁ a.p₂ b.p₁).isColinear

def meeting (a b : Line α) : Meeting :=
  if Coordinate.crossSign a.p₁ a.p₂ b.p₁ b.p₂ != .eq then .crossing (crossing a b)
  else if overlaps a b then .overlapping
  else .parallel

end

end Line

end RouteGeometry
