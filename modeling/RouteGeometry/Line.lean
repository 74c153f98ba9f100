import RouteGeometry.Point.Arithmetic
import RouteGeometry.Point.Comparison

/-! # Lines

A line goes through two points, which may coincide: a degenerate line has no direction, is both
horizontal and vertical, and consists of its one point. Slopes and the places where a line crosses
a horizontal or a vertical one are numbers of 64 bits; the sign of a turn tells what it contains. -/

namespace RouteGeometry

structure Line (α : Type) where
  p₁ : Point α 2
  p₂ : Point α 2

namespace Line

section
variable {α : Type} [Coordinate α]

def isDegenerate (l : Line α) : Bool := l.p₁.equal l.p₂

def isHorizontal (l : Line α) : Bool := Coordinate.equal l.p₁.y l.p₂.y

def isVertical (l : Line α) : Bool := Coordinate.equal l.p₁.x l.p₂.x

def dx (l : Line α) : Checked α := Coordinate.sub l.p₂.x l.p₁.x

def dy (l : Line α) : Checked α := Coordinate.sub l.p₂.y l.p₁.y

def direction (l : Line α) : Checked (Displacement α 2) := l.p₂.sub l.p₁

def length (l : Line α) : Float := l.p₁.distance l.p₂

/-- How much the line rises per unit to the right. Vertical lines have no slope.
The differences are taken in the coordinate type, the rise first. -/
def slope (l : Line α) : Checked (Option Float) := do
  if l.isVertical then
    return none
  let rise ← l.dy
  let run ← l.dx
  return some (Coordinate.toFloat rise / Coordinate.toFloat run)

/-- The height at which a line that is not vertical crosses the y axis. -/
def yIntercept (l : Line α) : Checked (Option Float) := do
  let slope? ← l.slope
  return slope?.map fun slope => Coordinate.toFloat l.p₁.y - slope * Coordinate.toFloat l.p₁.x

def contains (l : Line α) (p : Point α 2) : Bool :=
  if l.isDegenerate then l.p₁.equal p else (Orientation.ofPoints l.p₁ l.p₂ p).isColinear

/-- The x coordinate at which a line that is not horizontal has the height `y`. -/
def xAtHeight (l : Line α) (y : Float) : Option Float :=
  if l.isHorizontal then none
  else
    let p := l.p₁.toFloat
    let q := l.p₂.toFloat
    some (p.x + (y - p.y) * (q.x - p.x) / (q.y - p.y))

def heightAtX (l : Line α) (x : Float) : Option Float :=
  if l.isVertical then none
  else
    let p := l.p₁.toFloat
    let q := l.p₂.toFloat
    some (p.y + (x - p.x) * (q.y - p.y) / (q.x - p.x))

def toRat? (l : Line α) : Option (Line Rat) :=
  match l.p₁.toRat?, l.p₂.toRat? with
  | some p₁, some p₂ => some ⟨p₁, p₂⟩
  | _, _ => none

end

end Line

end RouteGeometry
