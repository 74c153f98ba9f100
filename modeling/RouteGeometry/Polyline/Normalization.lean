import RouteGeometry.Bend
import RouteGeometry.Chain.Thinning
import RouteGeometry.Polyline

/-! # Normalizing a polyline

Bends whose interior angle is at least a threshold are taken out, by default only those where the
polyline goes straight on. Without anchors both ends stay. A source anchor stands in front of the
first point and a target anchor behind the last one, which makes those points removable too; anchors
themselves never enter the polyline. -/

namespace RouteGeometry

/-- What to take out of a polyline. -/
structure Normalization (α : Type) where
  source? : Option (Point α 2) := none
  target? : Option (Point α 2) := none
  /-- Bends with at least this interior angle are taken out. -/
  minAngle : Angle := .straight

/-- A point that was taken out of a polyline. -/
structure Removal (α : Type) where
  /-- Its place in the polyline as it was at the beginning. -/
  index : Nat
  point : Point α 2
  angle : Float

/-- Whether the polyline went exactly straight on at the point. -/
def Removal.isStraight {α : Type} (r : Removal α) : Bool := r.angle == pi

def Removal.angleText {α : Type} (r : Removal α) : String := Number.fixedText 9 r.angle

structure NormalizationSummary where
  before : Nat
  after : Nat
  passes : Nat
  deriving DecidableEq, Repr

structure Normalized (α : Type) where
  polyline : Polyline α
  /-- The points taken out, in the order in which that happened. -/
  removals : List (Removal α)
  /-- There is none when the polyline was left alone. -/
  summary? : Option NormalizationSummary

/-- The elements whose flag is set. Elements past the end of the flags stay. -/
def flagged {β : Type} : List β → List Bool → List β
  | [], _ => []
  | x :: items, [] => x :: items
  | x :: items, true :: flags => x :: flagged items flags
  | _ :: items, false :: flags => flagged items flags

namespace Polyline

section
variable {α : Type}

/-- The points of a polyline between its anchors. -/
def nodes (l : Polyline α) (n : Normalization α) : List (Point α 2) :=
  n.source?.toList ++ l.points ++ n.target?.toList

/-- Take out bends by the angle that `angle` finds between their neighbours. -/
def normalizeBy (angle : Point α 2 → Point α 2 → Point α 2 → Float) (l : Polyline α)
    (n : Normalization α) : Normalized α :=
  if l.size < 2 then { polyline := l, removals := [], summary? := none }
  else
    let nodes := l.nodes n
    let chain := Chain.full nodes.length n.source?.isSome n.target?.isSome
    let thinned := chain.thin (fun i j k => angle nodes[i] nodes[j] nodes[k]) n.minAngle.radians
    let kept := flagged l.points thinned.1.survivors
    let anchors := if n.source?.isSome then 1 else 0
    { polyline := ⟨kept⟩
      removals := thinned.2.flatten.map fun r => ⟨r.1.val - anchors, nodes[r.1], r.2⟩
      summary? := some ⟨l.size, kept.length, thinned.2.length⟩ }

end

section
variable {α : Type} [Coordinate α]

/-- Take out bends by their interior angle, measured with the arctangent `arctan₂`. -/
def normalizeUsing (arctan₂ : Float → Float → Float) (l : Polyline α) (n : Normalization α) :
    Normalized α :=
  l.normalizeBy (interiorAngle arctan₂) n

def normalizeWith (l : Polyline α) (n : Normalization α) : Normalized α :=
  l.normalizeUsing Float.atan2 n

/-- Take out the bends at which the polyline goes straight on. -/
def normalize (l : Polyline α) : Normalized α := l.normalizeWith {}

end

end Polyline

end RouteGeometry
