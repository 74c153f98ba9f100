import RouteGeometry.Coordinate.Binary

/-! # The twelve coordinate types -/

namespace RouteGeometry

/-! ## Floating point in a total order -/

/-- NaN equals NaN and is greater than everything else. Zero still equals its negative. -/
structure Ordered (F : Type) where
  value : F

namespace Ordered

section
variable {F : Type} [Binary F]

def equal (a b : Ordered F) : Bool :=
  if Binary.isNaN a.value then Binary.isNaN b.value else Binary.equal a.value b.value

def order (a b : Ordered F) : Ordering :=
  match Binary.order? a.value b.value with
  | some o => o
  | none =>
    if Binary.isNaN a.value then if Binary.isNaN b.value then .eq else .gt
    else .lt

instance : Coordinate (Ordered F) where
  zero := ⟨Binary.zero⟩
  ofInt8 i := ⟨Binary.ofInt8 i⟩
  add a b := .ok ⟨a.value + b.value⟩
  sub a b := .ok ⟨a.value - b.value⟩
  mul a b := .ok ⟨a.value * b.value⟩
  neg a := .ok ⟨-a.value⟩
  equal := equal
  order? a b := some (order a b)
  toFloat a := Binary.toFloat a.value
  toRat? a := Binary.toRat? a.value
  crossSign a₁ a₂ b₁ b₂ :=
    Binary.crossSign (a₁.map value) (a₂.map value) (b₁.map value) (b₂.map value)
  turnSign p q r := Binary.turnSign (p.map value) (q.map value) (r.map value)
  text a := Binary.text a.value

end

end Ordered

/-! ## Floating point without NaN -/

/-- A number other than NaN, infinities included. Negation never makes a NaN. -/
structure NotNan (F : Type) [Binary F] where
  value : F
  value_ne_nan : Binary.isNaN value = false

namespace NotNan

section
variable {F : Type} [Binary F]

def ofValue? (x : F) : Option (NotNan F) :=
  if h : Binary.isNaN x = false then some ⟨x, h⟩ else none

def ofValue (x : F) : Except Rejection (NotNan F) :=
  match ofValue? x with
  | some a => .ok a
  | none => .error .coordinateNotANumber

/-- The result `x` of an operation, or a fault if it is NaN. -/
def result (operation : Operation) (x : F) : Checked (NotNan F) :=
  match ofValue? x with
  | some a => .ok a
  | none => .error (.notANumber operation)

instance : Coordinate (NotNan F) where
  zero := ⟨Binary.zero, Binary.isNaN_zero⟩
  ofInt8 i := ⟨Binary.ofInt8 i, Binary.isNaN_ofInt8 i⟩
  add a b := result .addition (a.value + b.value)
  sub a b := result .subtraction (a.value - b.value)
  mul a b := result .multiplication (a.value * b.value)
  neg a := .ok ⟨-a.value, Binary.isNaN_neg a.value_ne_nan⟩
  equal a b := Binary.equal a.value b.value
  order? a b := Binary.order? a.value b.value
  toFloat a := Binary.toFloat a.value
  toRat? a := Binary.toRat? a.value
  crossSign a₁ a₂ b₁ b₂ :=
    Binary.crossSign (a₁.map value) (a₂.map value) (b₁.map value) (b₂.map value)
  turnSign p q r := Binary.turnSign (p.map value) (q.map value) (r.map value)
  text a := Binary.text a.value

end

end NotNan

/-! ## All types -/

inductive CoordinateKind where
  | int8
  | int16
  | int32
  | int64
  | integer
  | rational
  | float32
  | float64
  | ordered32
  | ordered64
  | notNan32
  | notNan64
  deriving DecidableEq, Repr

namespace CoordinateKind

@[reducible] def Carrier : CoordinateKind → Type
  | int8 => FixedInt 8
  | int16 => FixedInt 16
  | int32 => FixedInt 32
  | int64 => FixedInt 64
  | integer => Int
  | rational => Rat
  | float32 => Float32
  | float64 => Float
  | ordered32 => Ordered Float32
  | ordered64 => Ordered Float
  | notNan32 => NotNan Float32
  | notNan64 => NotNan Float

instance (k : CoordinateKind) : Coordinate k.Carrier :=
  match k with
  | int8 => inferInstanceAs (Coordinate (FixedInt 8))
  | int16 => inferInstanceAs (Coordinate (FixedInt 16))
  | int32 => inferInstanceAs (Coordinate (FixedInt 32))
  | int64 => inferInstanceAs (Coordinate (FixedInt 64))
  | integer => inferInstanceAs (Coordinate Int)
  | rational => inferInstanceAs (Coordinate Rat)
  | float32 => inferInstanceAs (Coordinate Float32)
  | float64 => inferInstanceAs (Coordinate Float)
  | ordered32 => inferInstanceAs (Coordinate (Ordered Float32))
  | ordered64 => inferInstanceAs (Coordinate (Ordered Float))
  | notNan32 => inferInstanceAs (Coordinate (NotNan Float32))
  | notNan64 => inferInstanceAs (Coordinate (NotNan Float))

/-- Whether every coordinate of the type has an exact value, by which it is compared. -/
def isExact : CoordinateKind → Bool
  | int8 | int16 | int32 | int64 | integer | rational => true
  | float32 | float64 | ordered32 | ordered64 | notNan32 | notNan64 => false

end CoordinateKind

end RouteGeometry
