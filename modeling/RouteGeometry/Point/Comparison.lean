import RouteGeometry.Coordinate

/-! # Comparing points, and the turn at three of them -/

namespace RouteGeometry

section
variable {α : Type} [Coordinate α] {n : Nat}

/-- The verdict of the first pair that is not equal. -/
def lexicographic : List (α × α) → Option Ordering
  | [] => some .eq
  | (a, b) :: rest =>
    match Coordinate.order? a b with
    | some .eq => lexicographic rest
    | verdict => verdict

def Point.equal (p q : Point α n) : Bool :=
  (p.coords.toList.zip q.coords.toList).all fun c => Coordinate.equal c.1 c.2

def Point.order? (p q : Point α n) : Option Ordering :=
  lexicographic (p.coords.toList.zip q.coords.toList)

def Displacement.equal (d e : Displacement α n) : Bool := d.fromOrigin.equal e.fromOrigin

def Displacement.order? (d e : Displacement α n) : Option Ordering :=
  d.fromOrigin.order? e.fromOrigin

/-- The coordinates in parentheses, separated by commas. -/
def Point.text (p : Point α n) : String :=
  "(" ++ ",".intercalate (p.coords.toList.map Coordinate.text) ++ ")"

end

theorem Point.equal_plane {α : Type} [Coordinate α] (p q : Point α 2) :
    p.equal q = (Coordinate.equal p.x q.x && Coordinate.equal p.y q.y) := by
  obtain ⟨⟨⟨ps⟩, hp⟩⟩ := p
  obtain ⟨⟨⟨qs⟩, hq⟩⟩ := q
  match ps, hp, qs, hq with
  | [_, _], _, [_, _], _ => simp [Point.equal, Point.x, Point.y, Vector.toList]

/-! ## Orientation -/

inductive Orientation where
  | counterClockWise
  | clockWise
  | coLinear
  deriving DecidableEq, Repr

namespace Orientation

def ofSign : Ordering → Orientation
  | .gt => counterClockWise
  | .lt => clockWise
  | .eq => coLinear

/-- The turn of the path through `p`, `q` and `r`. -/
def ofPoints {α : Type} [Coordinate α] (p q r : Point α 2) : Orientation :=
  ofSign (Coordinate.turnSign p q r)

/-- The turn of the same path walked backwards. -/
def reverse : Orientation → Orientation
  | counterClockWise => clockWise
  | clockWise => counterClockWise
  | coLinear => coLinear

def isColinear (o : Orientation) : Bool := o = coLinear

def isCounterClockWise (o : Orientation) : Bool := o = counterClockWise

def isClockWise (o : Orientation) : Bool := o = clockWise

theorem ofSign_swap (s : Ordering) : ofSign s.swap = (ofSign s).reverse := by
  cases s <;> rfl

theorem isColinear_ofSign (s : Ordering) : (ofSign s).isColinear = (s == .eq) := by
  cases s <;> rfl

end Orientation

end RouteGeometry
