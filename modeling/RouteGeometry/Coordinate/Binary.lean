import RouteGeometry.Coordinate.Determinant
import RouteGeometry.Coordinate.Exact

/-! # Binary floating-point coordinates

Numbers of 32 and of 64 bits. Every operation has a result, rounded to the type's own width; NaN
differs from everything and is comparable with nothing. The sign of a cross product is exact when
all coordinates are finite. That of a turn is calculated in 64 bits, and numbers near the ends of
the range can spoil it. -/

namespace RouteGeometry

class Binary (F : Type) extends Add F, Sub F, Mul F, Neg F where
  zero : F
  ofInt8 : Int8 → F
  isNaN : F → Bool
  equal : F → F → Bool
  less : F → F → Bool
  /-- The number of 64 bits with the same value. -/
  toFloat : F → Float
  toRat? : F → Option Rat
  text : F → String
  isNaN_zero : isNaN zero = false
  isNaN_ofInt8 (i : Int8) : isNaN (ofInt8 i) = false
  isNaN_neg {x : F} (h : isNaN x = false) : isNaN (-x) = false

namespace Binary

instance : Binary Float where
  zero := 0
  ofInt8 i := Number.toFloat i.toInt
  isNaN x := x.isNaN
  equal x y := x == y
  less x y := x < y
  toFloat x := x
  toRat? x := Number.toRat? x.toModel.unpack
  text := Number.floatText
  isNaN_zero := by decide
  isNaN_ofInt8 i := Number.isNaN_toFloat i.toInt
  isNaN_neg := Number.isNaN_float_neg

instance : Binary Float32 where
  zero := 0
  ofInt8 i := Number.toFloat32 i.toInt
  isNaN x := x.isNaN
  equal x y := x == y
  less x y := x < y
  toFloat := Number.widen
  toRat? x := Number.toRat? x.toModel.unpack
  text := Number.float32Text
  isNaN_zero := by decide
  isNaN_ofInt8 i := Number.isNaN_toFloat32 i.toInt
  isNaN_neg := Number.isNaN_float32_neg

def roundedCrossSign (a₁ a₂ b₁ b₂ : Point Float 2) : Ordering :=
  Determinant.signOf ((a₂ - a₁).area (b₂ - b₁))

section
variable {F : Type} [Binary F]

def order? (x y : F) : Option Ordering :=
  if less x y then some .lt
  else if equal x y then some .eq
  else if less y x then some .gt
  else none

def crossSign (a₁ a₂ b₁ b₂ : Point F 2) : Ordering :=
  match a₁.mapPlane? toRat?, a₂.mapPlane? toRat?, b₁.mapPlane? toRat?, b₂.mapPlane? toRat? with
  | some a₁', some a₂', some b₁', some b₂' => Coordinate.crossSign a₁' a₂' b₁' b₂'
  | _, _, _, _ =>
    roundedCrossSign (a₁.map toFloat) (a₂.map toFloat) (b₁.map toFloat) (b₂.map toFloat)

end

def turnSign {F : Type} [Binary F] (p q r : Point F 2) : Ordering :=
  Determinant.turnSign (p.map toFloat) (q.map toFloat) (r.map toFloat)

@[reducible] def coordinate (F : Type) [Binary F] : Coordinate F where
  zero := zero
  ofInt8 := ofInt8
  add x y := .ok (x + y)
  sub x y := .ok (x - y)
  mul x y := .ok (x * y)
  neg x := .ok (-x)
  equal := equal
  order? := order?
  toFloat := toFloat
  toRat? := toRat?
  crossSign := crossSign
  turnSign := turnSign
  text := text

instance : Coordinate Float := coordinate Float

instance : Coordinate Float32 := coordinate Float32

end Binary

end RouteGeometry
