import RouteGeometry.Line

/-! # Segments and polylines

Polylines are open chains of points, such as the bends of a route. Equal points may follow each
other. -/

namespace RouteGeometry

structure Segment (α : Type) where
  start : Point α 2
  finish : Point α 2

/-- Whether `c` lies between `a` and `b`, which may come in either order. -/
def isBetween {α : Type} [Coordinate α] (c a b : α) : Bool :=
  let (low, high) := if Coordinate.less a b then (a, b) else (b, a)
  Coordinate.lessOrEqual low c && Coordinate.lessOrEqual c high

namespace Segment

section
variable {α : Type} [Coordinate α]

def line (s : Segment α) : Line α := ⟨s.start, s.finish⟩

def reversed (s : Segment α) : Segment α := ⟨s.finish, s.start⟩

def isDegenerate (s : Segment α) : Bool := s.start.equal s.finish

def dx (s : Segment α) : Checked α := s.line.dx

def dy (s : Segment α) : Checked α := s.line.dy

def length (s : Segment α) : Float := s.start.distance s.finish

/-- Whether `p` is on the segment: on its line, and in neither direction beyond
an end. -/
def contains (s : Segment α) (p : Point α 2) : Bool :=
  (Orientation.ofPoints s.start s.finish p).isColinear &&
    isBetween p.x s.start.x s.finish.x && isBetween p.y s.start.y s.finish.y

end

end Segment

/-! ## Polylines -/

structure Polyline (α : Type) where
  points : List (Point α 2) := []

namespace Polyline

section
variable {α : Type}

def size (l : Polyline α) : Nat := l.points.length

def isEmpty (l : Polyline α) : Bool := l.points.isEmpty

def first? (l : Polyline α) : Option (Point α 2) := l.points.head?

def last? (l : Polyline α) : Option (Point α 2) := l.points.getLast?

def point (l : Polyline α) (i : Nat) : Checked (Point α 2) :=
  match l.points[i]? with
  | some p => .ok p
  | none => .error (.indexOutOfBounds l.size i)

def push (l : Polyline α) (p : Point α 2) : Polyline α := ⟨l.points ++ [p]⟩

def append (l : Polyline α) (points : List (Point α 2)) : Polyline α := ⟨l.points ++ points⟩

def reverse (l : Polyline α) : Polyline α := ⟨l.points.reverse⟩

def segments (l : Polyline α) : List (Segment α) :=
  l.points.zipWith Segment.mk l.points.tail

end

section
variable {α : Type} [Coordinate α]

def equal (l m : Polyline α) : Bool :=
  l.size == m.size && (l.points.zip m.points).all fun c => c.1.equal c.2

/-- `points` without those that equal `kept` or the point kept before them. -/
def withoutRepeats (kept : Point α 2) : List (Point α 2) → List (Point α 2)
  | [] => []
  | p :: rest => if p.equal kept then withoutRepeats kept rest else p :: withoutRepeats p rest

/-- The chain with one point in place of equal consecutive ones, the first of them. -/
def unify (l : Polyline α) : Polyline α :=
  match l.points with
  | [] => ⟨[]⟩
  | p :: rest => ⟨p :: withoutRepeats p rest⟩

def length (l : Polyline α) : Float := sumFloat (l.segments.map Segment.length)

/-- The points in brackets, separated by a comma and a space. -/
def text (l : Polyline α) : String :=
  "[" ++ ", ".intercalate (l.points.map Point.text) ++ "]"

end

end Polyline

end RouteGeometry
