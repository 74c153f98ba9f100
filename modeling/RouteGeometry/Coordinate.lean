import RouteGeometry.Point

/-! # Faults and coordinate types

A fault stops a calculation, and a rejection refuses a number before anything is calculated. Lifted
to operators on `Checked`, the arithmetic of a coordinate type reports the first fault in the order
of evaluation. Every exact question about points rests on the signs of two kinds of cross products,
of which `gt` is the positive one. -/

namespace RouteGeometry

inductive Operation where
  | addition
  | subtraction
  | multiplication
  | negation
  deriving DecidableEq, Repr

namespace Operation

def verb : Operation → String
  | addition => "add"
  | subtraction => "subtract"
  | multiplication => "multiply"
  | negation => "negate"

def noun : Operation → String
  | addition => "Addition"
  | subtraction => "Subtraction"
  | multiplication => "Multiplication"
  | negation => "Negation"

end Operation

inductive Fault where
  /-- The exact result lies outside the range of a fixed-width integer. -/
  | overflow (operation : Operation)
  | notANumber (operation : Operation)
  | indexOutOfBounds (length index : Nat)
  deriving DecidableEq, Repr

def Fault.message : Fault → String
  | overflow operation => "attempt to " ++ operation.verb ++ " with overflow"
  | notANumber operation => operation.noun ++ " resulted in NaN: FloatIsNan"
  | indexOutOfBounds length index =>
    "index out of bounds: the len is " ++ toString length ++ " but the index is " ++ toString index

/-- A calculation that ends with a result or stops with a fault. -/
abbrev Checked (α : Type) := Except Fault α

inductive Rejection where
  | angleNotANumber
  | angleOutOfRange
  /-- NaN is no coordinate of a type that excludes it. -/
  | coordinateNotANumber
  deriving DecidableEq, Repr

def Rejection.message : Rejection → String
  | angleNotANumber => "Not a number"
  | angleOutOfRange => "Angle must lie between 0 and pi radians"
  | coordinateNotANumber => "NotNan constructed with NaN"

/-! ## Coordinate types -/

class Coordinate (α : Type) where
  zero : α
  /-- The coordinate with the value of a small constant. -/
  ofInt8 : Int8 → α
  add : α → α → Checked α
  sub : α → α → Checked α
  mul : α → α → Checked α
  neg : α → Checked α
  equal : α → α → Bool
  order? : α → α → Option Ordering
  /-- The nearest number of 64 bits. -/
  toFloat : α → Float
  /-- The exact value. NaN and the infinities have none. -/
  toRat? : α → Option Rat
  /-- The sign of the cross product of the ways from `a₁` to `a₂` and from `b₁` to `b₂`. -/
  crossSign (a₁ a₂ b₁ b₂ : Point α 2) : Ordering
  /-- The sign of the cross product of the ways from `p` to `q` and from `p` to `r`:
  positive when `p`, `q`, `r` turn counter-clockwise. -/
  turnSign (p q r : Point α 2) : Ordering := crossSign p q p r
  text : α → String

namespace Coordinate

section
variable {α : Type} [Coordinate α]

def less (a b : α) : Bool := order? a b == some .lt

def lessOrEqual (a b : α) : Bool := order? a b == some .lt || order? a b == some .eq

instance : Add (Checked α) where
  add a b := do add (← a) (← b)

instance : Sub (Checked α) where
  sub a b := do sub (← a) (← b)

instance : Mul (Checked α) where
  mul a b := do mul (← a) (← b)

instance : Neg (Checked α) where
  neg a := do neg (← a)

end

end Coordinate

end RouteGeometry
