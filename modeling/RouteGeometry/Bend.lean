import RouteGeometry.Point.Arithmetic
import RouteGeometry.Point.Comparison

/-! # Angles and bends

The interior angle at a point of a path is a straight angle less the angle by which the path turns.
Whether it goes straight on is decided exactly: a step of no length turns nothing, and whatever
turns, however slightly, stays below a straight angle. The arctangent of a turn is a parameter, so
that a statement can name what it needs of it. -/

namespace RouteGeometry

def pi : Float := Float.ofBits 0x400921FB54442D18

structure Angle where
  radians : Float
  nonneg : 0 ≤ radians
  le_pi : radians ≤ pi

namespace Angle

def zero : Angle := ⟨0, by decide, by decide⟩

def right : Angle := ⟨Float.ofBits 0x3FF921FB54442D18, by decide, by decide⟩

def straight : Angle := ⟨pi, by decide, by decide⟩

/-- The angle of `radians`. Negative zero is an angle. -/
def ofRadians (radians : Float) : Except Rejection Angle :=
  if radians.isNaN then .error .angleNotANumber
  else if h : 0 ≤ radians ∧ radians ≤ pi then .ok ⟨radians, h.1, h.2⟩
  else .error .angleOutOfRange

def degreesPerRadian : Float := Float.ofBits 0x404CA5DC1A63C1F8

def degrees (a : Angle) : Float := a.radians * degreesPerRadian

def equal (a b : Angle) : Bool := a.radians == b.radians

def order? (a b : Angle) : Option Ordering := Binary.order? a.radians b.radians

def text (a : Angle) : String := "Angle(" ++ Number.floatText a.degrees ++ " degrees)"

end Angle

instance : Inhabited Angle := ⟨Angle.straight⟩

/-! ## Interior angles -/

/-- The largest number of 64 bits below a straight angle. -/
def belowStraight : Float := Float.ofBits (pi.toBits - 1)

/-- `x`, or the limit if `x` is greater or NaN. -/
def atMost (limit x : Float) : Float := if x ≤ limit then x else limit

section
variable {α : Type} [Coordinate α]

/-- Whether the steps from `a` to `p` and from `p` to `b` go the same way along
both axes. -/
def sameWay (a p b : Point α 2) : Bool :=
  Coordinate.order? p.x a.x == Coordinate.order? b.x p.x &&
    Coordinate.order? p.y a.y == Coordinate.order? b.y p.y

/-- The interior angle at `p` where both steps are on different lines. -/
def turnAngle (arctan₂ : Float → Float → Float) (a p b : Point α 2) : Float :=
  let incoming := p.toFloat - a.toFloat
  let outgoing := b.toFloat - p.toFloat
  atMost belowStraight
    (pi - arctan₂ (incoming.area outgoing).abs (incoming.scalarProduct 0 outgoing))

/-- The interior angle at `p` of the path from `a` over `p` to `b`, in radians. -/
def interiorAngle (arctan₂ : Float → Float → Float) (a p b : Point α 2) : Float :=
  if a.equal p || p.equal b then pi
  else if Coordinate.crossSign a p p b == .eq then if sameWay a p b then pi else 0
  else turnAngle arctan₂ a p b

end

end RouteGeometry
