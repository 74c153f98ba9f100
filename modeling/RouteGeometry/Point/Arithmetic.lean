import RouteGeometry.Coordinate.Binary

/-! # Arithmetic on points and displacements

Checked in a coordinate type, where the first fault from left to right stops the whole, and rounded
in numbers of 64 bits, in which all lengths are measured. -/

namespace RouteGeometry

section
variable {α : Type} {n : Nat}

/-- All of the coordinates, or the first fault among them. -/
def allChecked (coords : Vector (Checked α) n) : Checked (Vector α n) :=
  coords.mapM id

namespace Point

/-- The point as one whose coordinates are calculated. -/
def checked (p : Point α n) : Point (Checked α) n := p.map .ok

def result (p : Point (Checked α) n) : Checked (Point α n) := do
  return ⟨← allChecked p.coords⟩

def coordinate (p : Point α n) (i : Nat) : Checked α :=
  if h : i < n then .ok p.coords[i] else .error (.indexOutOfBounds n i)

end Point

namespace Displacement

def checked (d : Displacement α n) : Displacement (Checked α) n := d.map .ok

def result (d : Displacement (Checked α) n) : Checked (Displacement α n) := do
  return ⟨← allChecked d.coords⟩

def coordinate (d : Displacement α n) (i : Nat) : Checked α :=
  if h : i < n then .ok d.coords[i] else .error (.indexOutOfBounds n i)

end Displacement

variable [Coordinate α]

namespace Point

def add (p : Point α n) (d : Displacement α n) : Checked (Point α n) :=
  (p.checked + d.checked).result

/-- The point from which `d` leads to `p`. -/
def retreat (p : Point α n) (d : Displacement α n) : Checked (Point α n) :=
  (p.checked - d.checked).result

def sub (p q : Point α n) : Checked (Displacement α n) :=
  (p.checked - q.checked).result

def scale (p : Point α n) (k : α) : Checked (Point α n) :=
  (p.checked * (.ok k : Checked α)).result

end Point

namespace Displacement

def zero : Displacement α n := ⟨Vector.replicate n Coordinate.zero⟩

def isZero (d : Displacement α n) : Bool :=
  d.coords.toList.all fun c => Coordinate.equal c Coordinate.zero

def add (d e : Displacement α n) : Checked (Displacement α n) :=
  (d.checked + e.checked).result

def sub (d e : Displacement α n) : Checked (Displacement α n) :=
  (d.checked - e.checked).result

def neg (d : Displacement α n) : Checked (Displacement α n) :=
  (-d.checked).result

def scale (d : Displacement α n) (k : α) : Checked (Displacement α n) :=
  (d.checked * (.ok k : Checked α)).result

def dot (d e : Displacement α n) : Checked α :=
  scalarProduct (.ok Coordinate.zero) d.checked e.checked

def squaredMagnitude (d : Displacement α n) : Checked α := d.dot d

def cross (d e : Displacement α 2) : Checked α :=
  d.checked.area e.checked

end Displacement

def Point.dot (p q : Point α n) : Checked α := p.fromOrigin.dot q.fromOrigin

end

/-! ## Values and lengths -/

section
variable {α : Type} [Coordinate α] {n : Nat}

def Point.toFloat (p : Point α n) : Point Float n := p.map Coordinate.toFloat

/-- The planar point with the same exact coordinates, if all of them are finite. -/
def Point.toRat? (p : Point α 2) : Option (Point Rat 2) := p.mapPlane? Coordinate.toRat?

/-- The sum of the terms, from left to right. Negative zero is the sum of no
terms: it leaves every term it is added to unchanged. -/
def sumFloat (terms : List Float) : Float := terms.foldl (· + ·) (-0.0)

def Displacement.norm (d : Displacement α n) : Float :=
  (sumFloat (d.coords.toList.map fun c => Coordinate.toFloat c * Coordinate.toFloat c)).sqrt

def Point.norm (p : Point α n) : Float := p.fromOrigin.norm

def Point.distance (p q : Point α n) : Float := (q.toFloat - p.toFloat).norm

end

end RouteGeometry
