import RouteGeometry.Line.Meeting
import RouteGeometry.Polyline.Normalization
import RouteGeometry.Polyline.Position
import RouteGeometry.Proofs.Chain.Counted
import RouteGeometry.Proofs.Coordinate.FixedInt

/-! # Which queries overflow

Queries whose answer is no coordinate compare integers, convert them, tell signs of cross products
and, to normalize, count places. Each of these steps is checked here, and none of them overflows.
Only the slope, and what is calculated with it, takes differences before it converts them. -/

namespace RouteGeometry

/-! ## Signs -/

namespace FixedInt

section
variable {w : Nat}

/-- The product of two magnitudes, in twice the width. -/
def Gap.checkedProduct (u v : Gap w) : Checked (BitVec (2 * w)) :=
  if u.magnitude.umulOverflow v.magnitude then .error (.overflow .multiplication)
  else .ok (u.magnitude * v.magnitude)

/-- The sign of a cross product. Products are calculated where both have the same sign. -/
def checkedCrossSign (a₁ a₂ b₁ b₂ : Point (FixedInt w) 2) : Checked Ordering :=
  let ux := gap a₂.x a₁.x
  let uy := gap a₂.y a₁.y
  let vx := gap b₂.x b₁.x
  let vy := gap b₂.y b₁.y
  match ux.productIsNegative vy, uy.productIsNegative vx with
  | true, false => .ok .lt
  | false, true => .ok .gt
  | true, true => do
    let right ← uy.checkedProduct vx
    let left ← ux.checkedProduct vy
    return compare right.toNat left.toNat
  | false, false => do
    let left ← ux.checkedProduct vy
    let right ← uy.checkedProduct vx
    return compare left.toNat right.toNat

theorem checkedProduct_gap (a b c d : FixedInt w) :
    (gap a b).checkedProduct (gap c d) = .ok ((gap a b).magnitude * (gap c d).magnitude) := by
  rw [Gap.checkedProduct, umulOverflow_gap]
  rfl

theorem checkedCrossSign_eq (a₁ a₂ b₁ b₂ : Point (FixedInt w) 2) :
    checkedCrossSign a₁ a₂ b₁ b₂ = .ok (Coordinate.crossSign a₁ a₂ b₁ b₂) := by
  change _ = Except.ok (crossSign a₁ a₂ b₁ b₂)
  unfold checkedCrossSign crossSign
  simp only [checkedProduct_gap]
  cases (gap a₂.x a₁.x).productIsNegative (gap b₂.y b₁.y) <;>
    cases (gap a₂.y a₁.y).productIsNegative (gap b₂.x b₁.x) <;> rfl

def checkedTurn (p q r : Point (FixedInt w) 2) : Checked Orientation :=
  (checkedCrossSign p q p r).map .ofSign

theorem checkedTurn_eq (p q r : Point (FixedInt w) 2) :
    checkedTurn p q r = .ok (.ofPoints p q r) := by
  rw [checkedTurn, checkedCrossSign_eq]
  rfl

end

end FixedInt

/-! ## Lines and segments -/

section
variable {w : Nat}

namespace Line

def checkedContains (l : Line (FixedInt w)) (p : Point (FixedInt w) 2) : Checked Bool :=
  if l.isDegenerate then .ok (l.p₁.equal p)
  else (FixedInt.checkedTurn l.p₁ l.p₂ p).map (·.isColinear)

theorem checkedContains_eq (l : Line (FixedInt w)) (p : Point (FixedInt w) 2) :
    l.checkedContains p = .ok (l.contains p) := by
  unfold checkedContains contains
  rw [FixedInt.checkedTurn_eq]
  split <;> rfl

def checkedOverlaps (a b : Line (FixedInt w)) : Checked Bool :=
  match a.isDegenerate, b.isDegenerate with
  | true, true => .ok (a.p₁.equal b.p₁)
  | true, false => (FixedInt.checkedTurn b.p₁ b.p₂ a.p₁).map (·.isColinear)
  | false, _ => (FixedInt.checkedTurn a.p₁ a.p₂ b.p₁).map (·.isColinear)

theorem checkedOverlaps_eq (a b : Line (FixedInt w)) :
    a.checkedOverlaps b = .ok (a.overlaps b) := by
  unfold checkedOverlaps overlaps
  simp only [FixedInt.checkedTurn_eq]
  cases a.isDegenerate <;> cases b.isDegenerate <;> rfl

/-- How two lines meet. The crossing point is calculated in 64 bits and in exact rationals. -/
def checkedMeeting (a b : Line (FixedInt w)) : Checked Meeting := do
  let sign ← FixedInt.checkedCrossSign a.p₁ a.p₂ b.p₁ b.p₂
  if sign != .eq then return .crossing (crossing a b)
  else if ← a.checkedOverlaps b then return .overlapping
  else return .parallel

theorem checkedMeeting_eq (a b : Line (FixedInt w)) :
    a.checkedMeeting b = .ok (a.meeting b) := by
  unfold checkedMeeting meeting
  rw [FixedInt.checkedCrossSign_eq, checkedOverlaps_eq]
  change (if _ then _ else if _ then _ else _) = _
  split
  · rfl
  · split <;> rfl

end Line

def Segment.checkedContains (s : Segment (FixedInt w)) (p : Point (FixedInt w) 2) :
    Checked Bool := do
  let turn ← FixedInt.checkedTurn s.start s.finish p
  return turn.isColinear && isBetween p.x s.start.x s.finish.x && isBetween p.y s.start.y s.finish.y

theorem Segment.checkedContains_eq (s : Segment (FixedInt w)) (p : Point (FixedInt w) 2) :
    s.checkedContains p = .ok (s.contains p) := by
  rw [checkedContains, FixedInt.checkedTurn_eq]
  rfl

/-! ## Normalization -/

section
variable (arctan₂ : Float → Float → Float)

def checkedInteriorAngle (a p b : Point (FixedInt w) 2) : Checked Float := do
  if a.equal p || p.equal b then return pi
  else
    let sign ← FixedInt.checkedCrossSign a p p b
    if sign == .eq then return if sameWay a p b then pi else 0
    else return turnAngle arctan₂ a p b

theorem checkedInteriorAngle_eq (a p b : Point (FixedInt w) 2) :
    checkedInteriorAngle arctan₂ a p b = .ok (interiorAngle arctan₂ a p b) := by
  unfold checkedInteriorAngle interiorAngle
  rw [FixedInt.checkedCrossSign_eq]
  split
  · rfl
  · change (if _ then _ else _) = _
    split <;> rfl

namespace Polyline

def checkedNormalize (l : Polyline (FixedInt w)) (n : Normalization (FixedInt w)) :
    Checked (Normalized (FixedInt w)) :=
  if l.size < 2 then .ok { polyline := l, removals := [], summary? := none }
  else do
    let nodes := l.nodes n
    let chain := Chain.full nodes.length n.source?.isSome n.target?.isSome
    let thinned ← chain.checkedThin
      (fun i j k => checkedInteriorAngle arctan₂ nodes[i] nodes[j] nodes[k]) n.minAngle.radians
    let flags ← thinned.1.checkedSurvivors
    let kept := flagged l.points flags
    let anchors := if n.source?.isSome then 1 else 0
    return {
      polyline := ⟨kept⟩
      removals := thinned.2.flatten.map fun r => ⟨r.1.val - anchors, nodes[r.1], r.2⟩
      summary? := some ⟨l.size, kept.length, thinned.2.length⟩ }

theorem checkedNormalize_eq (l : Polyline (FixedInt w)) (n : Normalization (FixedInt w)) :
    l.checkedNormalize arctan₂ n = .ok (l.normalizeUsing arctan₂ n) := by
  unfold checkedNormalize normalizeUsing normalizeBy
  by_cases few : l.size < 2
  · rw [if_pos few, if_pos few]
  · have places : 0 < (l.nodes n).length := by
      have : l.points.length ≤ (l.nodes n).length := by simp [nodes]; omega
      unfold size at few
      omega
    rw [if_neg few, if_neg few]
    simp only [checkedInteriorAngle_eq, Chain.checkedThin_full]
    change (Chain.checkedSurvivors _).bind _ = _
    rw [Chain.checkedSurvivors_of_pos _ places]
    rfl

end Polyline

end

/-! ## Slopes -/

/-- An integer of `w` bits can be `i`. -/
def FixedInt.Fits (w : Nat) (i : Int) : Prop := -2 ^ (w - 1) ≤ i ∧ i < 2 ^ (w - 1)

instance {w : Nat} {i : Int} : Decidable (FixedInt.Fits w i) :=
  inferInstanceAs (Decidable (_ ∧ _))

theorem FixedInt.sub_cases (a b : FixedInt w) :
    (Fits w (a.toInt - b.toInt) ∧ ∃ d, Coordinate.sub a b = .ok d) ∨
      (¬Fits w (a.toInt - b.toInt) ∧ Coordinate.sub a b = .error (.overflow .subtraction)) := by
  have overflow : a.bits.ssubOverflow b.bits = true ↔ ¬Fits w (a.toInt - b.toInt) := by
    unfold BitVec.ssubOverflow Fits toInt
    rw [Bool.or_eq_true, decide_eq_true_iff, decide_eq_true_iff]
    omega
  change (_ ∧ ∃ d, FixedInt.sub a b = .ok d) ∨ (_ ∧ FixedInt.sub a b = _)
  unfold FixedInt.sub
  by_cases h : Fits w (a.toInt - b.toInt)
  · rw [if_neg (fun o => overflow.1 o h)]
    exact .inl ⟨h, _, rfl⟩
  · rw [if_pos (overflow.2 h)]
    exact .inr ⟨h, rfl⟩

namespace Line

/-- The line is not vertical, and the difference of two coordinates does not fit into the type. -/
def SlopeOverflows (l : Line (FixedInt w)) : Prop :=
  l.isVertical = false ∧ ¬(FixedInt.Fits w (l.p₂.y.toInt - l.p₁.y.toInt) ∧
    FixedInt.Fits w (l.p₂.x.toInt - l.p₁.x.toInt))

instance (l : Line (FixedInt w)) : Decidable l.SlopeOverflows :=
  inferInstanceAs (Decidable (_ ∧ _))

theorem slope_cases (l : Line (FixedInt w)) :
    (¬l.SlopeOverflows ∧ ∃ x?, l.slope = .ok x?) ∨
      (l.SlopeOverflows ∧ l.slope = .error (.overflow .subtraction)) := by
  unfold SlopeOverflows slope dy dx
  cases l.isVertical with
  | true => exact .inl ⟨fun h => Bool.noConfusion h.1, none, rfl⟩
  | false =>
    rcases FixedInt.sub_cases l.p₂.y l.p₁.y with ⟨fits, rise, hy⟩ | ⟨tooLarge, hy⟩
    · rcases FixedInt.sub_cases l.p₂.x l.p₁.x with ⟨fits', run, hx⟩ | ⟨tooLarge, hx⟩
      · rw [hy, hx]
        exact .inl ⟨fun h => h.2 ⟨fits, fits'⟩, _, rfl⟩
      · rw [hy, hx]
        exact .inr ⟨⟨rfl, fun h => tooLarge h.2⟩, rfl⟩
    · rw [hy]
      exact .inr ⟨⟨rfl, fun h => tooLarge h.1⟩, rfl⟩

theorem slope_eq_error_iff (l : Line (FixedInt w)) (fault : Fault) :
    l.slope = .error fault ↔ fault = .overflow .subtraction ∧ l.SlopeOverflows := by
  rcases l.slope_cases with ⟨fits, x?, h⟩ | ⟨overflows, h⟩
  · rw [h]
    exact ⟨nofun, fun h => absurd h.2 fits⟩
  · rw [h]
    exact ⟨fun h => ⟨(Except.error.inj h).symm, overflows⟩, fun h => by rw [h.1]⟩

theorem yIntercept_eq_error_iff (l : Line (FixedInt w)) (fault : Fault) :
    l.yIntercept = .error fault ↔ l.slope = .error fault := by
  unfold yIntercept
  cases l.slope with
  | error other => exact ⟨id, id⟩
  | ok x? => exact ⟨nofun, nofun⟩

/-- A line through the whole range of 8 bits has a length and crosses the horizontal axis, but its
slope overflows. -/
theorem slope_overflows_int8 :
    let l : Line (FixedInt 8) := ⟨.plane (.ofInt 0) (.ofInt (-128)), .plane (.ofInt 1) (.ofInt 127)⟩
    l.SlopeOverflows ∧ l.slope = .error (.overflow .subtraction) ∧
      l.yIntercept = .error (.overflow .subtraction) ∧ l.length.isFinite = true ∧
        (l.xAtHeight 0).any (·.isFinite) = true := by
  intro l
  have overflows : l.SlopeOverflows := by decide
  have slope := (l.slope_eq_error_iff _).2 ⟨rfl, overflows⟩
  exact ⟨overflows, slope, (l.yIntercept_eq_error_iff _).2 slope, by decide +kernel,
    by decide +kernel⟩

end Line

end

/-! ## All queries -/

/-- What can be asked about integers of `w` bits and is not answered by one of them. -/
inductive Query (w : Nat) where
  | slope (l : Line (FixedInt w))
  | yIntercept (l : Line (FixedInt w))
  | lineLength (l : Line (FixedInt w))
  | onLine (l : Line (FixedInt w)) (p : Point (FixedInt w) 2)
  | xAtHeight (l : Line (FixedInt w)) (y : Float)
  | heightAtX (l : Line (FixedInt w)) (x : Float)
  | meeting (a b : Line (FixedInt w))
  | segmentLength (s : Segment (FixedInt w))
  | onSegment (s : Segment (FixedInt w)) (p : Point (FixedInt w) 2)
  | polylineLength (l : Polyline (FixedInt w))
  | position (l : Polyline (FixedInt w)) (fraction : Float)
  | normalized (l : Polyline (FixedInt w)) (n : Normalization (FixedInt w))

inductive Answer (w : Nat) where
  | number (x : Float)
  | number? (x? : Option Float)
  | truth (b : Bool)
  | meeting (m : Meeting)
  | place? (p? : Option (Point Float 2))
  | normalized (r : Normalized (FixedInt w))

namespace Query

section
variable {w : Nat} (arctan₂ : Float → Float → Float)

def answer : Query w → Checked (Answer w)
  | slope l => l.slope.map .number?
  | yIntercept l => l.yIntercept.map .number?
  | lineLength l => .ok (.number l.length)
  | onLine l p => .ok (.truth (l.contains p))
  | xAtHeight l y => .ok (.number? (l.xAtHeight y))
  | heightAtX l x => .ok (.number? (l.heightAtX x))
  | meeting a b => .ok (.meeting (a.meeting b))
  | segmentLength s => .ok (.number s.length)
  | onSegment s p => .ok (.truth (s.contains p))
  | polylineLength l => .ok (.number l.length)
  | position l fraction => .ok (.place? (l.position fraction))
  | normalized l n => .ok (.normalized (l.normalizeUsing arctan₂ n))

/-- The answer, with a check on every step in integers. Lengths, positions and crossings with
horizontal and vertical lines have none, since all coordinates are converted first. -/
def checkedAnswer : Query w → Checked (Answer w)
  | slope l => l.slope.map .number?
  | yIntercept l => l.yIntercept.map .number?
  | lineLength l => .ok (.number l.length)
  | onLine l p => (l.checkedContains p).map .truth
  | xAtHeight l y => .ok (.number? (l.xAtHeight y))
  | heightAtX l x => .ok (.number? (l.heightAtX x))
  | meeting a b => (a.checkedMeeting b).map .meeting
  | segmentLength s => .ok (.number s.length)
  | onSegment s p => (s.checkedContains p).map .truth
  | polylineLength l => .ok (.number l.length)
  | position l fraction => .ok (.place? (l.position fraction))
  | normalized l n => (l.checkedNormalize arctan₂ n).map .normalized

theorem checkedAnswer_eq (q : Query w) : q.checkedAnswer arctan₂ = q.answer arctan₂ := by
  cases q with
  | onLine l p => rw [checkedAnswer, Line.checkedContains_eq]; rfl
  | meeting a b => rw [checkedAnswer, Line.checkedMeeting_eq]; rfl
  | onSegment s p => rw [checkedAnswer, Segment.checkedContains_eq]; rfl
  | normalized l n => rw [checkedAnswer, Polyline.checkedNormalize_eq]; rfl
  | slope | yIntercept | lineLength | xAtHeight | heightAtX | segmentLength | polylineLength
  | position => rfl

theorem map_eq_error_iff {α β : Type} {x : Checked α} {f : α → β} {fault : Fault} :
    x.map f = .error fault ↔ x = .error fault := by
  cases x with
  | error other =>
    change Except.error other = .error fault ↔ _
    rw [Except.error.injEq, Except.error.injEq]
  | ok a => exact ⟨nofun, nofun⟩

/-- **Only slopes overflow.** Whatever the width, and with every step in integers checked, a query
has the same answer as without, and it stops with a fault exactly if it asks for the slope of a line
that is not vertical, or for what is calculated with it, and the difference of two coordinates does
not fit into the type. -/
theorem checkedAnswer_eq_error_iff (q : Query w) :
    q.checkedAnswer arctan₂ = q.answer arctan₂ ∧
      ∀ fault, q.checkedAnswer arctan₂ = .error fault ↔ fault = .overflow .subtraction ∧
        ∃ l : Line (FixedInt w), (q = .slope l ∨ q = .yIntercept l) ∧ l.SlopeOverflows := by
  have same := q.checkedAnswer_eq arctan₂
  refine ⟨same, fun fault => ?_⟩
  rw [same]
  cases q with
  | slope l =>
    rw [answer, map_eq_error_iff, Line.slope_eq_error_iff]
    refine and_congr_right fun _ => ⟨fun h => ⟨l, .inl rfl, h⟩, ?_⟩
    rintro ⟨l', same | other, overflows⟩
    · cases same
      exact overflows
    · cases other
  | yIntercept l =>
    rw [answer, map_eq_error_iff, Line.yIntercept_eq_error_iff, Line.slope_eq_error_iff]
    refine and_congr_right fun _ => ⟨fun h => ⟨l, .inr rfl, h⟩, ?_⟩
    rintro ⟨l', other | same, overflows⟩
    · cases other
    · cases same
      exact overflows
  | lineLength | onLine | xAtHeight | heightAtX | meeting | segmentLength | onSegment
  | polylineLength | position | normalized =>
    refine ⟨nofun, ?_⟩
    rintro ⟨-, l, other | other, -⟩ <;> cases other

end

end Query

end RouteGeometry
