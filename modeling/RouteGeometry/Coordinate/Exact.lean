import RouteGeometry.Coordinate
import RouteGeometry.Number.Decimal

/-! # Exact coordinates

Integers of a fixed width, whose arithmetic stops with a fault where the result does not fit, and
integers and rationals of any size. -/

namespace RouteGeometry

/-- A two's complement integer of `w` bits. -/
structure FixedInt (w : Nat) where
  bits : BitVec w
  deriving DecidableEq, Repr

namespace FixedInt

section
variable {w : Nat}

def toInt (a : FixedInt w) : Int := a.bits.toInt

/-- The integer with the low `w` bits of `i`. -/
def ofInt (i : Int) : FixedInt w := ⟨BitVec.ofInt w i⟩

def ofInt? (i : Int) : Option (FixedInt w) :=
  if (ofInt i : FixedInt w).toInt = i then some (ofInt i) else none

def add (a b : FixedInt w) : Checked (FixedInt w) :=
  if a.bits.saddOverflow b.bits then .error (.overflow .addition) else .ok ⟨a.bits + b.bits⟩

def sub (a b : FixedInt w) : Checked (FixedInt w) :=
  if a.bits.ssubOverflow b.bits then .error (.overflow .subtraction) else .ok ⟨a.bits - b.bits⟩

def mul (a b : FixedInt w) : Checked (FixedInt w) :=
  if a.bits.smulOverflow b.bits then .error (.overflow .multiplication) else .ok ⟨a.bits * b.bits⟩

def neg (a : FixedInt w) : Checked (FixedInt w) :=
  if a.bits.negOverflow then .error (.overflow .negation) else .ok ⟨-a.bits⟩

structure Gap (w : Nat) where
  magnitude : BitVec (2 * w)
  isNegative : Bool
  deriving DecidableEq, Repr

/-- `a - b`. The subtraction wraps around to the magnitude when its bits are read
without a sign. -/
def gap (a b : FixedInt w) : Gap w :=
  if a.bits.slt b.bits then ⟨(b.bits - a.bits).setWidth (2 * w), true⟩
  else ⟨(a.bits - b.bits).setWidth (2 * w), false⟩

def Gap.productIsNegative (u v : Gap w) : Bool :=
  u.isNegative != v.isNegative && u.magnitude != 0 && v.magnitude != 0

def crossSign (a₁ a₂ b₁ b₂ : Point (FixedInt w) 2) : Ordering :=
  let ux := gap a₂.x a₁.x
  let uy := gap a₂.y a₁.y
  let vx := gap b₂.x b₁.x
  let vy := gap b₂.y b₁.y
  let left := ux.magnitude * vy.magnitude
  let right := uy.magnitude * vx.magnitude
  match ux.productIsNegative vy, uy.productIsNegative vx with
  | true, false => .lt
  | false, true => .gt
  | true, true => compare right.toNat left.toNat
  | false, false => compare left.toNat right.toNat

instance : Coordinate (FixedInt w) where
  zero := ofInt 0
  ofInt8 i := ofInt i.toInt
  add := add
  sub := sub
  mul := mul
  neg := neg
  equal a b := a == b
  order? a b := some (compare a.toInt b.toInt)
  toFloat a := Number.toFloat a.toInt
  toRat? a := some a.toInt
  crossSign := crossSign
  text a := toString a.toInt

end

end FixedInt

/-! ## Numbers of any size -/

namespace Coordinate

instance : Coordinate Int where
  zero := 0
  ofInt8 i := i.toInt
  add a b := .ok (a + b)
  sub a b := .ok (a - b)
  mul a b := .ok (a * b)
  neg a := .ok (-a)
  equal a b := a == b
  order? a b := some (compare a b)
  toFloat a := Number.toFloat a
  toRat? a := some a
  crossSign a₁ a₂ b₁ b₂ :=
    let u := a₂ - a₁
    let v := b₂ - b₁
    compare (u.x * v.y) (u.y * v.x)
  text a := toString a

instance : Coordinate Rat where
  zero := 0
  ofInt8 i := i.toInt
  add a b := .ok (a + b)
  sub a b := .ok (a - b)
  mul a b := .ok (a * b)
  neg a := .ok (-a)
  equal a b := a == b
  order? a b := some (Number.order a b)
  toFloat a := Number.toFloat a
  toRat? a := some a
  crossSign a₁ a₂ b₁ b₂ :=
    let u := a₂ - a₁
    let v := b₂ - b₁
    Number.order (u.x * v.y) (u.y * v.x)
  text a := Number.ratText a

end Coordinate

end RouteGeometry
