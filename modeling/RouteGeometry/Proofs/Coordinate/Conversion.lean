import RouteGeometry.Proofs.Coordinate.Faithful
import RouteGeometry.Proofs.Number.Bounded

/-! # Integers of a fixed width as numbers of 64 bits

Integers of up to 54 bits keep their values. Larger ones are rounded to integers, and two of them
can end up as the same number if they are close to each other. -/

namespace RouteGeometry

/-! ## Rounding integers -/

namespace Number

section
variable {i j : Int} {v : Rat}

theorem Closest.multiple_of_int (h : Closest i v) : Multiple 0 v := by
  rcases le_or_gt |i| (2 ^ 53) with small | large
  · rw [h.eq_of_isBinary (isBinary_intCast small)]
    exact ⟨i, by simp⟩
  · refine (h.binary.multiple_or_abs_le 0).resolve_right ?_
    rintro ⟨below, -⟩
    have beyond : (2 : Rat) ^ 53 ≤ |(i : Rat)| := by exact_mod_cast large.le
    have := (h.le_abs (isBinary_two_pow 53) beyond).trans below
    norm_num at this

/-- An integer of 64 bits is moved by half of `2 ^ 10` at most. -/
theorem Closest.near_int (h : Closest i v) (range : |i| ≤ 2 ^ 63) : |v - i| ≤ 2 ^ 9 := by
  let q := (i + 2 ^ 9) / 2 ^ 10
  obtain ⟨lower, upper⟩ := abs_le.1 range
  have fits : |q| ≤ 2 ^ 53 := by
    rw [abs_le]
    constructor <;> omega
  have best := h.best _ (isBinary_mul_zpow (t := 10) fits (by decide))
  have near : |q * 2 ^ 10 - i| ≤ 2 ^ 9 := by
    rw [abs_le]
    constructor <;> omega
  refine best.trans ?_
  exact_mod_cast near

end

section
variable {x y : Float} {a b : Rat}

theorem float_beq (ha : toRat? x.toModel.unpack = some a) (hb : toRat? y.toModel.unpack = some b) :
    (x == y) = decide (a = b) := by
  have := Binary.Lawful.equal_eq (F := Float) (x := x) (y := y) ha hb
  rwa [order_beq_eq] at this

end

end Number

/-! ## Integers of a fixed width -/

namespace FixedInt

section
variable {w : Nat}

theorem abs_toInt_le {n : Nat} (narrow : w ≤ n + 1) (a : FixedInt w) : |a.toInt| ≤ 2 ^ n := by
  have upper := a.bits.two_mul_toInt_lt
  have lower := a.bits.le_two_mul_toInt
  have range : (2 ^ w : Int) ≤ 2 ^ n * 2 := by
    rw [← pow_succ]
    exact_mod_cast Nat.pow_le_pow_right two_pos narrow
  unfold toInt
  rw [abs_le]
  constructor <;> omega

theorem toRat?_toFloat (narrow : w ≤ 64) (a : FixedInt w) :
    ∃ v, Number.toRat? (Coordinate.toFloat a).toModel.unpack = some v ∧
      Number.Closest a.toInt v ∧ |v| ≤ 2 ^ 63 := by
  have range := abs_toInt_le (n := 63) narrow a
  exact Number.toRat?_toFloat (by exact_mod_cast range) (by decide)

theorem bounded_toFloat (narrow : w ≤ 64) (a : FixedInt w) :
    Number.Bounded 63 (Coordinate.toFloat a) :=
  have ⟨v, hv, _, bound⟩ := toRat?_toFloat narrow a
  ⟨v, hv, bound⟩

/-- The integers have so few digits, or are so far apart, that they are not converted to the same
number unless they are equal. -/
def ConvertApart (a b : FixedInt w) : Prop :=
  w ≤ 54 ∨ (|a.toInt| ≤ 2 ^ 53 ∧ |b.toInt| ≤ 2 ^ 53) ∨ 2 ^ 10 < |b.toInt - a.toInt|

theorem toFloat_apart (narrow : w ≤ 64) {a b : FixedInt w} (different : a ≠ b)
    (apart : ConvertApart a b) : (Coordinate.toFloat a == Coordinate.toFloat b) = false := by
  obtain ⟨v, hv, closest, -⟩ := toRat?_toFloat narrow a
  obtain ⟨v', hv', closest', -⟩ := toRat?_toFloat narrow b
  rw [Number.float_beq hv hv', decide_eq_false_iff_not]
  rintro rfl
  have exact (small : |a.toInt| ≤ 2 ^ 53 ∧ |b.toInt| ≤ 2 ^ 53) : False := by
    have same := (closest.eq_of_isBinary (Number.isBinary_intCast small.1)).symm.trans
      (closest'.eq_of_isBinary (Number.isBinary_intCast small.2))
    exact different (toInt_inj.1 (by exact_mod_cast same))
  rcases apart with few | small | far
  · exact exact ⟨abs_toInt_le few a, abs_toInt_le few b⟩
  · exact exact small
  · have near := closest.near_int (abs_toInt_le narrow a)
    have near' := closest'.near_int (abs_toInt_le narrow b)
    have far : (2 ^ 10 : Rat) < |(b.toInt : Rat) - a.toInt| := by exact_mod_cast far
    have triangle := abs_sub_le (b.toInt : Rat) v a.toInt
    rw [abs_sub_comm _ v] at triangle
    linarith

/-- The difference of two converted integers is zero if they are converted to the same number, and
otherwise it is at least one. -/
theorem exists_divisor (narrow : w ≤ 64) (a b : FixedInt w) :
    ∃ d, Number.toRat? (Coordinate.toFloat b - Coordinate.toFloat a).toModel.unpack = some d ∧
      ((Coordinate.toFloat a == Coordinate.toFloat b) = true ∧ d = 0 ∨
        (Coordinate.toFloat a == Coordinate.toFloat b) = false ∧ 1 ≤ |d|) := by
  obtain ⟨v, hv, closest, bound⟩ := toRat?_toFloat narrow a
  obtain ⟨v', hv', closest', -⟩ := toRat?_toFloat narrow b
  have small : |v| < 2 ^ 970 :=
    bound.trans_lt (pow_lt_pow_right₀ one_lt_two (by decide))
  obtain ⟨d, hd, rounded⟩ := Number.sub_small hv' hv small
  refine ⟨d, hd, ?_⟩
  rw [Number.float_beq hv hv', decide_eq_true_iff, decide_eq_false_iff_not]
  by_cases same : v = v'
  · left
    rw [same, sub_self] at rounded
    exact ⟨same, rounded.eq_of_isBinary (Number.isBinary_intCast (i := 0) (by decide))⟩
  · right
    have apart := (closest'.multiple_of_int.sub closest.multiple_of_int).le_abs
      (sub_ne_zero.2 (Ne.symm same))
    exact ⟨same, rounded.le_abs (Number.isBinary_two_pow 0) apart⟩

end

end FixedInt

end RouteGeometry
