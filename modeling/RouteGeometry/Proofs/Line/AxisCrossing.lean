import RouteGeometry.Line
import RouteGeometry.Proofs.Coordinate.Conversion

/-! # Where a line crosses a horizontal or a vertical one

Whether there is such a place is decided by the coordinates, but it is calculated by dividing by the
difference of the converted ones. For integers of up to 64 bits that difference is zero exactly if
both are converted to the same number, and otherwise it is at least one, so that the quotient is not
greater than what is divided. -/

namespace RouteGeometry

/-! ## The calculation -/

namespace Number

section
variable {origin numerator divisor : Float} {a d : Rat}

/-- Adding the quotient by a number of at least one to a small number does not lead out of the
finite numbers, and in no case to NaN. -/
theorem divide_step (ha : toRat? origin.toModel.unpack = some a) (small : |a| < 2 ^ 970)
    (hd : toRat? divisor.toModel.unpack = some d) (least : 1 ≤ |d|) {v : Rat}
    (hv : Holds numerator v) :
    (origin + numerator / divisor).isNaN = false ∧
      (numerator.isFinite = true → (origin + numerator / divisor).isFinite = true) := by
  have nonzero : d ≠ 0 := by
    rintro rfl
    norm_num at least
  rcases hv with value | ⟨s, infinite, -⟩
  · obtain ⟨q, holds, closest⟩ := holds_div value hd nonzero
    have quotient : |v / d| ≤ greatest := by
      rw [abs_div]
      exact (div_le_self (abs_nonneg v) least).trans (Number.abs_le_greatest value)
    have hq := holds.toRat?_of_le (closest.abs_le_of_le isBinary_greatest quotient)
    obtain ⟨w, hw, -⟩ := add_small ha hq small
    have finite := isFinite_iff.2 ⟨w, hw⟩
    exact ⟨not_nan_of_isFinite finite, fun _ => finite⟩
  · obtain ⟨s', quotient⟩ := unpack_div_infinity infinite hd
    have sum := unpack_add_infinity ha quotient
    refine ⟨congrArg Float.Model.UnpackedFloat.isNaN sum, fun finite => ?_⟩
    obtain ⟨w, hw⟩ := isFinite_iff.1 finite
    rw [infinite] at hw
    cases hw

theorem divide_by_zero (hd : toRat? divisor.toModel.unpack = some 0) :
    (origin + numerator / divisor).isFinite = false := by
  by_contra finite
  obtain ⟨v, hv⟩ := isFinite_iff.1 (Bool.not_eq_false _ ▸ finite)
  obtain ⟨-, q, hq⟩ := exists_toRat?_of_add hv
  rw [toRat?_div_zero numerator hd] at hq
  cases hq

end

end Number

/-! ## Converted coordinates -/

namespace FixedInt

section
variable {w : Nat}

/-- What comes of dividing by the difference of two converted coordinates and adding the result to
another one. -/
structure DividedBy (a b : FixedInt w) (numerator answer : Float) : Prop where
  /-- The divisor is zero exactly if both are converted to the same number. -/
  divisor_eq : (Coordinate.toFloat b - Coordinate.toFloat a == 0) =
    (Coordinate.toFloat a == Coordinate.toFloat b)
  /-- They are not if they have few digits or are far apart. -/
  apart : ConvertApart a b → (Coordinate.toFloat a == Coordinate.toFloat b) = false
  /-- Then the division makes nothing NaN or infinite that is not so before. -/
  regular : (Coordinate.toFloat a == Coordinate.toFloat b) = false →
    answer.isNaN = false ∧ (numerator.isFinite = true → answer.isFinite = true)
  /-- Otherwise the answer is NaN or infinite. -/
  irregular : (Coordinate.toFloat a == Coordinate.toFloat b) = true → answer.isFinite = false

/-- The formula for the place at which the line from `(x₁, y₁)` to `(x₂, y₂)` has the height `t`. -/
theorem dividedBy (narrow : w ≤ 64) (x₁ x₂ : FixedInt w) {y₁ y₂ : FixedInt w}
    (different : y₁ ≠ y₂) {t : Float} (finite : t.isFinite = true) :
    DividedBy y₁ y₂
      ((t - Coordinate.toFloat y₁) * (Coordinate.toFloat x₂ - Coordinate.toFloat x₁))
      (Coordinate.toFloat x₁ +
        (t - Coordinate.toFloat y₁) * (Coordinate.toFloat x₂ - Coordinate.toFloat x₁) /
          (Coordinate.toFloat y₂ - Coordinate.toFloat y₁)) := by
  have small : (2 : Rat) ^ 63 < 2 ^ 970 := pow_lt_pow_right₀ one_lt_two (by decide)
  obtain ⟨d, hd, divisor⟩ := exists_divisor narrow y₁ y₂
  have zero := Number.float_beq hd Number.toRat?_zero
  refine ⟨?_, toFloat_apart narrow different, fun apart => ?_, fun same => ?_⟩
  · rw [zero]
    rcases divisor with ⟨same, rfl⟩ | ⟨apart, least⟩
    · rw [same, decide_eq_true rfl]
    · rw [apart, decide_eq_false_iff_not]
      rintro rfl
      norm_num at least
  · obtain ⟨a, ha, -, bound⟩ := toRat?_toFloat narrow x₁
    obtain ⟨b, hb, -, bound'⟩ := toRat?_toFloat narrow y₁
    obtain ⟨s, hs⟩ := Number.isFinite_iff.1 finite
    obtain ⟨m, hm, -⟩ := Number.sub_small hs hb (bound'.trans_lt small)
    obtain ⟨r, hr, -⟩ := exists_divisor narrow x₁ x₂
    obtain ⟨v, holds, -⟩ := Number.holds_mul hm hr
    rcases divisor with ⟨same, -⟩ | ⟨-, least⟩
    · rw [apart] at same
      cases same
    · exact Number.divide_step ha (bound.trans_lt small) hd least holds
  · rcases divisor with ⟨-, rfl⟩ | ⟨apart, -⟩
    · exact Number.divide_by_zero hd
    · rw [apart] at same
      cases same

end

end FixedInt

/-! ## Lines -/

namespace Line

section
variable {w : Nat}

theorem xAtHeight_eq {l : Line (FixedInt w)} (slanted : l.isHorizontal = false) (y : Float) :
    l.xAtHeight y = some (l.p₁.toFloat.x + (y - l.p₁.toFloat.y) *
      (l.p₂.toFloat.x - l.p₁.toFloat.x) / (l.p₂.toFloat.y - l.p₁.toFloat.y)) := by
  rw [xAtHeight, slanted]
  rfl

theorem heightAtX_eq {l : Line (FixedInt w)} (slanted : l.isVertical = false) (x : Float) :
    l.heightAtX x = some (l.p₁.toFloat.y + (x - l.p₁.toFloat.x) *
      (l.p₂.toFloat.y - l.p₁.toFloat.y) / (l.p₂.toFloat.x - l.p₁.toFloat.x)) := by
  rw [heightAtX, slanted]
  rfl

/-- **Crossings divide by zero only where two coordinates are converted to the same number.** For
integers of up to 64 bits and a finite argument a line that is not horizontal crosses every
horizontal one, and a line that is not vertical every vertical one. The divisor is zero exactly if
the two coordinates that differ are converted to the same number. That does not happen to integers
of up to 54 bits, nor to those of at most `2 ^ 53` or at a distance of more than `2 ^ 10`; then the
answer is not NaN, and it is finite if what is divided is. If it happens, the answer is NaN or
infinite. -/
theorem axisCrossings (narrow : w ≤ 64) (l : Line (FixedInt w)) {t : Float}
    (finite : t.isFinite = true) :
    let p := l.p₁.toFloat
    let q := l.p₂.toFloat
    (l.isHorizontal = false → ∃ x, l.xAtHeight t = some x ∧
      FixedInt.DividedBy l.p₁.y l.p₂.y ((t - p.y) * (q.x - p.x)) x) ∧
      (l.isVertical = false → ∃ y, l.heightAtX t = some y ∧
        FixedInt.DividedBy l.p₁.x l.p₂.x ((t - p.x) * (q.y - p.y)) y) := by
  intro p q
  have converted (r : Point (FixedInt w) 2) :
      r.toFloat.x = Coordinate.toFloat r.x ∧ r.toFloat.y = Coordinate.toFloat r.y :=
    ⟨Point.x_map _ r, Point.y_map _ r⟩
  have different {a b : FixedInt w} (h : Coordinate.equal a b = false) : a ≠ b :=
    beq_eq_false_iff_ne.1 h
  constructor
  · intro slanted
    refine ⟨_, xAtHeight_eq slanted t, ?_⟩
    simp only [p, q, converted]
    exact FixedInt.dividedBy narrow l.p₁.x l.p₂.x (different slanted) finite
  · intro slanted
    refine ⟨_, heightAtX_eq slanted t, ?_⟩
    simp only [p, q, converted]
    exact FixedInt.dividedBy narrow l.p₁.y l.p₂.y (different slanted) finite

/-- Large integers at a distance of `2 ^ 11` do not fall together. -/
theorem axisCrossings_int64 :
    let l : Line (FixedInt 64) :=
      ⟨.plane (.ofInt (-9223372036854775808)) (.ofInt 9223372036854773759),
        .plane (.ofInt 9223372036854775807) (.ofInt 9223372036854775807)⟩
    64 ≤ 64 ∧ (1 : Float).isFinite = true ∧ l.isHorizontal = false ∧
      FixedInt.ConvertApart l.p₁.y l.p₂.y ∧ ∃ x, l.xAtHeight 1 = some x ∧ x.isFinite = true := by
  intro l
  have slanted : l.isHorizontal = false := by decide +kernel
  have apart : FixedInt.ConvertApart l.p₁.y l.p₂.y := .inr (.inr (by decide +kernel))
  obtain ⟨x, found, divided⟩ := (axisCrossings le_rfl l (t := 1) rfl).1 slanted
  have regular := (divided.regular (divided.apart apart)).2 (by decide +kernel)
  exact ⟨le_rfl, rfl, slanted, apart, x, found, regular⟩

/-- Two integers of 64 bits next to each other are converted to the same number. The line through
them is not horizontal, but it is divided by zero: at the height of the first one the answer is
NaN, and elsewhere infinite. -/
theorem xAtHeight_of_converted_equal :
    let l : Line (FixedInt 64) := ⟨.plane (.ofInt 0) (.ofInt 9007199254740992),
      .plane (.ofInt 1) (.ofInt 9007199254740993)⟩
    l.isHorizontal = false ∧ (l.p₂.toFloat.y - l.p₁.toFloat.y == 0) = true ∧
      (l.xAtHeight 9007199254740992).any (·.isNaN) = true ∧
        (l.xAtHeight 0).any (·.isInf) = true := by
  decide +kernel

end

end Line

end RouteGeometry
