import Mathlib.Algebra.Order.Field.Power
import Mathlib.Tactic.FieldSimp
import Mathlib.Tactic.Linarith
import Mathlib.Tactic.NormNum
import Mathlib.Tactic.Positivity
import RouteGeometry.Proofs.Number.Comparison

/-! # What rounding to 64 bits takes away

A number given by a significand of any length and an exponent is shifted to the right until 53
digits are left. Two residual digits tell on which side of the middle between two significands it
lies, however far it is shifted, so the nearest significand is chosen.

* `Represents`: what a significand with its residual digits says of a number; shifts preserve it;
* `roundWithAccuracy_spec`, `round_spec`: a number is rounded to the nearest multiple of its last
  digit (`CorrectAt`), in canonical form, and so to one next to it (`RoundedAt`);
* `Within`: relative errors, and how they add up along a calculation;
* `Within.order_eq`, `Rounded.order_eq`: when what is left has the right sign. -/

namespace RouteGeometry.Number

open Float.Model (Format UnpackedFloat totalExponent)
open Float.Model.UnpackedFloat

/-! ## Shifting -/

/-- Where the digits behind a significand leave the number `x` that it stands for: whether it lies
below, on or above the middle of the way to the next significand. -/
def Represents (x : Rat) : ExtendedMantissa → Prop
  | ⟨m, false, false⟩ => x = m
  | ⟨m, false, true⟩ => m < x ∧ x < m + 1 / 2
  | ⟨m, true, false⟩ => x = m + 1 / 2
  | ⟨m, true, true⟩ => m + 1 / 2 < x ∧ x < m + 1

theorem shiftRightOne_even (m : Nat) (round sticky : Bool) :
    ExtendedMantissa.shiftRightOne ⟨2 * m, round, sticky⟩ = ⟨m, false, round || sticky⟩ := by
  simp [ExtendedMantissa.shiftRightOne]

theorem shiftRightOne_odd (m : Nat) (round sticky : Bool) :
    ExtendedMantissa.shiftRightOne ⟨2 * m + 1, round, sticky⟩ = ⟨m, true, round || sticky⟩ := by
  have half : (2 * m + 1) / 2 = m := by omega
  have last : (2 * m + 1) % 2 = 1 := by omega
  simp [ExtendedMantissa.shiftRightOne, half, last]

theorem Represents.shiftRightOne {x : Rat} {em : ExtendedMantissa} (h : Represents x em) :
    Represents (x / 2) em.shiftRightOne := by
  obtain ⟨m, round, sticky⟩ := em
  obtain ⟨k, rfl | rfl⟩ := m.even_or_odd'
  · rw [shiftRightOne_even]
    cases round <;> cases sticky <;> simp only [Represents, Bool.or_false, Bool.or_true] at h ⊢ <;>
      push_cast at h <;> first | linarith | constructor <;> linarith
  · rw [shiftRightOne_odd]
    cases round <;> cases sticky <;> simp only [Represents, Bool.or_false, Bool.or_true] at h ⊢ <;>
      push_cast at h <;> first | linarith | constructor <;> linarith

theorem Represents.shiftRight {x : Rat} {em : ExtendedMantissa} (h : Represents x em) (k : Nat) :
    Represents (x / 2 ^ k) (em >>> k) := by
  change Represents _ (k.repeat ExtendedMantissa.shiftRightOne em)
  induction k with
  | zero =>
    rw [pow_zero, div_one]
    exact h
  | succ k ih =>
    rw [pow_succ, ← div_div]
    exact ih.shiftRightOne

theorem Represents.roundedMantissa {x : Rat} {em : ExtendedMantissa} (h : Represents x em) :
    |em.roundedMantissa - x| ≤ 1 / 2 := by
  obtain ⟨m, round, sticky⟩ := em
  have last : ((m % 2 : Nat) : Rat) ≤ 1 := by
    exact_mod_cast Nat.le_of_lt_succ (Nat.mod_lt m two_pos)
  have nonneg : (0 : Rat) ≤ (m % 2 : Nat) := Nat.cast_nonneg _
  rw [abs_le]
  cases round <;> cases sticky <;>
    simp only [Represents, ExtendedMantissa.roundedMantissa, ExtendedMantissa.accuracy,
      Accuracy.roundToNearestEven] at h ⊢ <;>
    push_cast <;> constructor <;> linarith

/-- Rounding does not pass an integer. -/
theorem Represents.roundedMantissa_le {x : Rat} {em : ExtendedMantissa} (h : Represents x em)
    {n : Nat} (le : x ≤ n) : em.roundedMantissa ≤ n := by
  have near := (abs_le.1 h.roundedMantissa).2
  have : (em.roundedMantissa : Rat) < (n + 1 : Nat) := by
    push_cast
    linarith
  exact Nat.le_of_lt_succ (Nat.cast_lt.1 this)

theorem Represents.le_roundedMantissa {x : Rat} {em : ExtendedMantissa} (h : Represents x em)
    {n : Nat} (le : n ≤ x) : n ≤ em.roundedMantissa := by
  have near := (abs_le.1 h.roundedMantissa).1
  have : (n : Rat) < (em.roundedMantissa + 1 : Nat) := by
    push_cast
    linarith
  exact Nat.le_of_lt_succ (Nat.cast_lt.1 this)

theorem Represents.mantissa_le {x : Rat} {em : ExtendedMantissa} (h : Represents x em) :
    em.mantissa ≤ x := by
  obtain ⟨m, round, sticky⟩ := em
  cases round <;> cases sticky <;> simp only [Represents] at h ⊢ <;> linarith

theorem Represents.lt_mantissa_add_one {x : Rat} {em : ExtendedMantissa} (h : Represents x em) :
    x < em.mantissa + 1 := by
  obtain ⟨m, round, sticky⟩ := em
  cases round <;> cases sticky <;> simp only [Represents] at h ⊢ <;> linarith

theorem mantissa_ofMantissaAndAccuracy (m : Nat) (accuracy : Accuracy) :
    (ExtendedMantissa.ofMantissaAndAccuracy m accuracy).mantissa = m := by
  cases accuracy with
  | exact => rfl
  | inexact relative => cases relative <;> rfl

/-! ## Multiples of a power of two -/

/-- A power of two as a multiple of a lower one. -/
theorem two_zpow_eq_of_le {t e : Int} (le : t ≤ e) : (2 : Rat) ^ e = 2 ^ (e - t).toNat * 2 ^ t := by
  have split : e = (e - t).toNat + t := by omega
  rw [← zpow_natCast, ← zpow_add₀ two_ne_zero, ← split]

def Multiple (t : Int) (x : Rat) : Prop := ∃ i : Int, x = i * 2 ^ t

theorem multiple_zero (t : Int) : Multiple t 0 := ⟨0, by simp⟩

theorem Multiple.neg {t : Int} {x : Rat} (h : Multiple t x) : Multiple t (-x) := by
  obtain ⟨i, rfl⟩ := h
  exact ⟨-i, by rw [Int.cast_neg, neg_mul]⟩

theorem Multiple.sub {t : Int} {x y : Rat} (h : Multiple t x) (h' : Multiple t y) :
    Multiple t (x - y) := by
  obtain ⟨i, rfl⟩ := h
  obtain ⟨j, rfl⟩ := h'
  exact ⟨i - j, by rw [Int.cast_sub, sub_mul]⟩

theorem Multiple.mono {t e : Int} {x : Rat} (h : Multiple e x) (le : t ≤ e) : Multiple t x := by
  obtain ⟨i, rfl⟩ := h
  refine ⟨i * 2 ^ (e - t).toNat, ?_⟩
  rw [two_zpow_eq_of_le le]
  push_cast
  ring

/-- Different multiples are at least one step apart. -/
theorem Multiple.le_abs {t : Int} {x : Rat} (h : Multiple t x) (nonzero : x ≠ 0) : 2 ^ t ≤ |x| := by
  obtain ⟨i, rfl⟩ := h
  have positive : (0 : Rat) < 2 ^ t := by positivity
  have : i ≠ 0 := by
    rintro rfl
    simp at nonzero
  have : (1 : Rat) ≤ |(i : Rat)| := by exact_mod_cast Int.one_le_abs this
  rw [abs_mul, abs_of_pos positive]
  exact le_mul_of_one_le_left positive.le this

/-! ## Rounding to 64 bits -/

/-- The exponent of the last digit that 64 bits keep of `m * 2 ^ e`. -/
def lastExponent (m : Nat) (e : Int) : Int := max (m.log2 + 1 + e - 53) (-1074)

/-- All digits of a significand are kept until there are 53 of them. -/
theorem le_lastExponent_of_le {m : Nat} (full : 2 ^ 52 ≤ m) (e : Int) : e ≤ lastExponent m e := by
  have := (Nat.le_log2 (Nat.pos_of_ne_zero (by omega)).ne').2 full
  unfold lastExponent
  omega

theorem shiftToTargetExponent_eq (m : Nat) (e : Int) (accuracy : Accuracy) :
    shiftToTargetExponent .binary64 m e accuracy =
      (ExtendedMantissa.ofMantissaAndAccuracy m accuracy >>> (lastExponent m e - e).toNat,
        e + (lastExponent m e - e).toNat) := rfl

/-- A significand that fits stays as it is. -/
theorem shiftToTargetExponent_of_fits {m : Nat} {e : Int} (fits : m < 2 ^ 53) (least : -1074 ≤ e) :
    shiftToTargetExponent .binary64 m e .exact = (⟨m, false, false⟩, e) := by
  have digits : m.log2 < 53 := by
    rcases Nat.eq_zero_or_pos m with rfl | positive
    · decide
    · exact (Nat.log2_lt positive.ne').2 fits
  have none : (lastExponent m e - e).toNat = 0 := by
    unfold lastExponent
    omega
  rw [shiftToTargetExponent_eq, none]
  simp only [Nat.cast_zero, add_zero]
  rfl

/-- A significand that rounding has given one more digit loses a zero. -/
theorem shiftToTargetExponent_carry {e : Int} (least : -1074 ≤ e) :
    shiftToTargetExponent .binary64 (2 ^ 53) e .exact = (⟨2 ^ 52, false, false⟩, e + 1) := by
  have one : (lastExponent (2 ^ 53) e - e).toNat = 1 := by
    rw [lastExponent, Nat.log2_two_pow]
    omega
  rw [shiftToTargetExponent_eq, one]
  rfl

/-- `v` is the multiple of `2 ^ t` nearest to `x`, and 64 bits keep no digit of `x` behind that. -/
structure CorrectAt (x v : Rat) (t : Int) : Prop where
  least : -1074 ≤ t
  multiple : Multiple t v
  near : |v - x| ≤ 2 ^ t / 2
  leads : -1074 < t → 2 ^ 52 * 2 ^ t ≤ |x|

/-- The value is one whose last digit counts `2 ^ t`, and next to `x` among these. -/
structure RoundedAt (x v : Rat) (t : Int) : Prop where
  least : -1074 ≤ t
  near : |v - x| ≤ 2 ^ t / 2
  unit : v = 0 ∨ 2 ^ t ≤ |v|
  leads : -1074 < t → 2 ^ 52 * 2 ^ t ≤ |v|

section
variable {x v : Rat} {t : Int}

theorem CorrectAt.eq_of_multiple (h : CorrectAt x v t) (hx : Multiple t x) : v = x := by
  by_contra different
  have apart := (h.multiple.sub hx).le_abs (sub_ne_zero.2 different)
  have positive : (0 : Rat) < 2 ^ t := by positivity
  linarith [h.near]

/-- Rounding does not take the leading digit away. -/
theorem CorrectAt.roundedAt (h : CorrectAt x v t) : RoundedAt x v t where
  least := h.least
  near := h.near
  unit := by
    by_cases zero : v = 0
    · exact .inl zero
    · exact .inr (h.multiple.le_abs zero)
  leads normal := by
    have full := h.leads normal
    have positive : (0 : Rat) < 2 ^ t := by positivity
    obtain ⟨i, hi⟩ := h.multiple
    have size : |v| = |i| * 2 ^ t := by
      rw [hi, abs_mul, abs_of_pos positive, Int.cast_abs]
    have close : |x| - |v| ≤ 2 ^ t / 2 := by
      have := abs_sub_abs_le_abs_sub x v
      rw [abs_sub_comm] at this
      exact this.trans h.near
    -- The distance is half a step at most, and whole steps are counted.
    have : ((2 ^ 52 - 1 : Int) : Rat) < |i| := by
      refine lt_of_mul_lt_mul_right ?_ positive.le
      rw [← size]
      push_cast
      linarith
    have : (2 ^ 52 : Int) ≤ |i| := by
      have := Int.cast_lt.1 this
      omega
    rw [size]
    exact mul_le_mul_of_nonneg_right (by exact_mod_cast this) positive.le

end

/-- The number is in canonical form and has a value with the given property. -/
def Yields (u : UnpackedFloat) (P : Rat → Prop) : Prop :=
  ∃ v, toRat? u = some v ∧ Canonical .binary64 u ∧ P v

theorem Yields.imp {u : UnpackedFloat} {P Q : Rat → Prop} (h : Yields u P) (imp : ∀ v, P v → Q v) :
    Yields u Q :=
  let ⟨v, hv, canonical, hP⟩ := h
  ⟨v, hv, canonical, imp v hP⟩

section
variable {m : Nat} {e : Int} {s : Sign} {accuracy : Accuracy}

theorem roundWithAccuracy_eq {k : Nat} (h : lastExponent m e = e + k) :
    roundWithAccuracy .binary64 s m e accuracy =
      let last := shiftToTargetExponent .binary64
        (ExtendedMantissa.ofMantissaAndAccuracy m accuracy >>> k).roundedMantissa (e + k) .exact
      if h : last.1.mantissa = 0 then .zero s
      else .finite s last.1.mantissa last.2 (Nat.pos_of_ne_zero h) := by
  have count : (lastExponent m e - e).toNat = k := by omega
  rw [roundWithAccuracy, shiftToTargetExponent_eq m e, count]

/-- What the second shift makes of a significand that the first one left with `53` digits: rounding
up may have made it `2 ^ 53`, which is the only case in which a digit is shifted out. -/
theorem settled_spec {R : Nat} {t : Int} (fits : R ≤ 2 ^ 53) (least : -1074 ≤ t)
    (leads : -1074 < t → 2 ^ 52 ≤ R) :
    ∃ (M : Nat) (E : Int), shiftToTargetExponent .binary64 R t .exact = (⟨M, false, false⟩, E) ∧
      (M : Rat) * 2 ^ E = R * 2 ^ t ∧ M < 2 ^ 53 ∧ -1074 ≤ E ∧ (-1074 < E → 2 ^ 52 ≤ M) := by
  rcases Nat.lt_or_eq_of_le fits with below | rfl
  · exact ⟨R, t, shiftToTargetExponent_of_fits below least, rfl, below, least, leads⟩
  · refine ⟨2 ^ 52, t + 1, shiftToTargetExponent_carry least, ?_, by decide, by omega,
      fun _ => le_rfl⟩
    rw [zpow_add_one₀ two_ne_zero]
    norm_num
    ring

theorem apply_cast (s : Sign) (m : Nat) : ((s.apply m : Int) : Rat) = (s.apply 1 : Int) * m := by
  cases s <;> simp [Sign.apply]

theorem abs_apply_one (s : Sign) : |((s.apply 1 : Int) : Rat)| = 1 := by
  cases s <;> simp [Sign.apply]

theorem abs_apply_mul_zpow (s : Sign) (m : Nat) (e : Int) :
    |((s.apply m : Int) : Rat) * 2 ^ e| = m * 2 ^ e := by
  rw [apply_cast, mul_assoc, abs_mul, abs_apply_one, one_mul, abs_of_nonneg (by positivity)]

/-- The nearest significand makes up the nearest multiple. -/
theorem correctAt_roundedMantissa {x : Rat} {em : ExtendedMantissa} {t : Int}
    (represented : Represents x em) (least : -1074 ≤ t) (leads : -1074 < t → 2 ^ 52 ≤ x) :
    CorrectAt ((s.apply 1 : Int) * (x * 2 ^ t)) ((s.apply em.roundedMantissa : Int) * 2 ^ t) t where
  least := least
  multiple := ⟨_, rfl⟩
  near := by
    have positive : (0 : Rat) < 2 ^ t := by positivity
    have near := mul_le_mul_of_nonneg_right represented.roundedMantissa positive.le
    rw [apply_cast, mul_assoc, ← mul_sub, ← sub_mul, abs_mul, abs_apply_one, one_mul, abs_mul,
      abs_of_pos positive]
    linarith
  leads normal := by
    have positive : (0 : Rat) < 2 ^ t := by positivity
    rw [abs_mul, abs_apply_one, one_mul, abs_mul, abs_of_pos positive]
    exact mul_le_mul_of_nonneg_right ((leads normal).trans (le_abs_self x)) positive.le

section
variable {x : Rat} {k : Nat}

/-- The digits that are kept make up `2 ^ 53` at most. -/
theorem div_two_pow_le (h : lastExponent m e = e + k) (upper : x < m + 1) :
    x / 2 ^ k ≤ (2 ^ 53 : Nat) := by
  have digits : m.log2 + 1 ≤ 53 + k := by
    unfold lastExponent at h
    omega
  have : m + 1 ≤ 2 ^ (53 + k) :=
    Nat.lt_log2_self.trans_le (Nat.pow_le_pow_right two_pos digits)
  have : ((m + 1 : Nat) : Rat) ≤ 2 ^ (53 + k) := by exact_mod_cast this
  rw [div_le_iff₀ (by positivity)]
  push_cast at this ⊢
  rw [pow_add] at this
  linarith

/-- Above the least exponent they make up at least `2 ^ 52`. -/
theorem le_div_two_pow (h : lastExponent m e = e + k) (lower : m ≤ x) (normal : -1074 < e + k) :
    2 ^ 52 ≤ x / 2 ^ k := by
  have digits : 52 + k ≤ m.log2 := by
    unfold lastExponent at h
    omega
  have nonzero : m ≠ 0 := by
    rintro rfl
    simp only [Nat.log2_zero] at digits
    unfold lastExponent at h
    omega
  have : 2 ^ (52 + k) ≤ m :=
    (Nat.pow_le_pow_right two_pos digits).trans (Nat.log2_self_le nonzero)
  have : ((2 ^ (52 + k) : Nat) : Rat) ≤ m := by exact_mod_cast this
  rw [le_div_iff₀ (by positivity), ← pow_add]
  push_cast at this
  exact this.trans lower

end

/-- Rounding gives the nearest number in canonical form, whatever the significand, with what is
known of the digits behind it, stands for. -/
theorem roundWithAccuracy_spec {x : Rat}
    (represented : Represents x (ExtendedMantissa.ofMantissaAndAccuracy m accuracy))
    (h : e ≤ lastExponent m e) :
    Yields (roundWithAccuracy .binary64 s m e accuracy) fun v =>
      CorrectAt ((s.apply 1 : Int) * (x * 2 ^ e)) v (lastExponent m e) := by
  obtain ⟨k, hk⟩ : ∃ k : Nat, lastExponent m e = e + k := ⟨(lastExponent m e - e).toNat, by omega⟩
  have lower := represented.mantissa_le
  have upper := represented.lt_mantissa_add_one
  rw [mantissa_ofMantissaAndAccuracy] at lower upper
  have least : -1074 ≤ e + k := hk ▸ le_max_right _ _
  have below := div_two_pow_le hk upper
  have above := le_div_two_pow hk lower
  have shifted := represented.shiftRight k
  have correct := correctAt_roundedMantissa (s := s) shifted least above
  obtain ⟨M, E, last, value, fits, least', leads'⟩ :=
    settled_spec (shifted.roundedMantissa_le below) least
      fun normal => shifted.le_roundedMantissa (above normal)
  have scale : x / 2 ^ k * 2 ^ (e + k) = x * 2 ^ e := by
    rw [zpow_add₀ two_ne_zero, zpow_natCast]
    field_simp
  -- The first shift rounds, and the second one keeps the value.
  rw [roundWithAccuracy_eq hk, last, hk]
  refine ⟨(s.apply M : Int) * 2 ^ E, ?_, ?_, ?_⟩
  · by_cases zero : M = 0
    · refine (congrArg toRat? (dif_pos zero)).trans ?_
      rw [zero, apply_cast, Nat.cast_zero, mul_zero, zero_mul]
      rfl
    · exact congrArg toRat? (dif_neg zero)
  · exact canonical_dite (fun _ => trivial) fun _ => ⟨fits, least', leads'⟩
  · rw [scale, apply_cast s (ExtendedMantissa.roundedMantissa _), mul_assoc _ _ (2 ^ (e + k : Int)),
      ← value] at correct
    rw [apply_cast s M, mul_assoc _ _ (2 ^ E)]
    exact correct

theorem decreaseExponent_eq (m : Nat) (e t : Int) :
    decreaseExponent m e t = (m * 2 ^ (e - t).toNat, e - (e - t).toNat) := by
  rw [decreaseExponent, Nat.shiftLeft_eq]

/-- Zeros behind the significand and as many less in the exponent leave the value as it is. -/
theorem apply_mul_two_pow (s : Sign) (m k : Nat) (e : Int) :
    ((s.apply (m * 2 ^ k : Nat) : Int) : Rat) * 2 ^ (e - k) = (s.apply m : Int) * 2 ^ e := by
  rw [apply_cast, apply_cast s m, zpow_sub₀ two_ne_zero, zpow_natCast]
  push_cast
  field_simp

theorem apply_mul_two_pow_toNat (s : Sign) (m : Nat) {e t : Int} (h : t ≤ e) :
    ((s.apply (m * 2 ^ (e - t).toNat : Nat) : Int) : Rat) * 2 ^ t = (s.apply m : Int) * 2 ^ e := by
  have target : e - (e - t).toNat = t := by omega
  have value := apply_mul_two_pow s m (e - t).toNat e
  rwa [target] at value

theorem lastExponent_mul_two_pow (positive : 0 < m) (k : Nat) :
    lastExponent (m * 2 ^ k) (e - k) = lastExponent m e := by
  have digits : (m * 2 ^ k).log2 = m.log2 + k := by
    refine (Nat.log2_eq_iff (Nat.mul_pos positive (Nat.two_pow_pos k)).ne').2 ⟨?_, ?_⟩
    · rw [pow_add]
      exact Nat.mul_le_mul_right _ (Nat.log2_self_le positive.ne')
    · rw [add_right_comm, pow_add]
      exact Nat.mul_lt_mul_of_pos_right Nat.lt_log2_self (Nat.two_pow_pos k)
  unfold lastExponent
  omega

theorem roundWithAccuracy_exact (h : e ≤ lastExponent m e) :
    Yields (roundWithAccuracy .binary64 s m e .exact) fun v =>
      CorrectAt ((s.apply m : Int) * 2 ^ e) v (lastExponent m e) := by
  have represented : Represents m (ExtendedMantissa.ofMantissaAndAccuracy m .exact) := rfl
  have spec := roundWithAccuracy_spec (s := s) represented h
  rwa [← mul_assoc, ← apply_cast] at spec

/-- Any number with a significand and an exponent is rounded to the nearest one. -/
theorem round_spec (positive : 0 < m) :
    Yields (.round .binary64 s m e) fun v =>
      CorrectAt ((s.apply m : Int) * 2 ^ e) v (lastExponent m e) := by
  let k := (e - lastExponent m e).toNat
  have same : UnpackedFloat.round .binary64 s m e =
      roundWithAccuracy .binary64 s (m * 2 ^ k) (e - k) .exact := by
    change (let (m', e') := decreaseExponent m e (lastExponent m e)
      roundWithAccuracy .binary64 s m' e' .exact) = _
    rw [decreaseExponent_eq]
  have last := lastExponent_mul_two_pow (e := e) positive k
  have spec := roundWithAccuracy_exact (s := s) (m := m * 2 ^ k) (e := e - k) (last ▸ by omega)
  rwa [← same, apply_mul_two_pow, last] at spec

end

/-! ## Relative errors -/

/-- `v` is off `x` by no more than the part `ε` of `v`. -/
def Within (ε x v : Rat) : Prop := |v - x| ≤ ε * |v|

def roundoff : Rat := 1 / 2 ^ 53

theorem roundoff_nonneg : 0 ≤ roundoff := by
  unfold roundoff
  positivity

theorem roundoff_lt_one : roundoff < 1 := by
  norm_num [roundoff]

/-- The error that two errors add up to. -/
def compound (ε δ : Rat) : Rat := (1 + ε) * (1 + δ) - 1

theorem within_refl {ε : Rat} (h : 0 ≤ ε) (x : Rat) : Within ε x x := by
  rw [Within, sub_self, abs_zero]
  positivity

section
variable {ε δ x y v w : Rat}

theorem Within.abs_le_mul (h : Within ε x v) : |x| ≤ (1 + ε) * |v| := by
  have := abs_sub_abs_le_abs_sub x v
  rw [abs_sub_comm] at this
  unfold Within at h
  linarith

/-- Errors add up along a calculation. -/
theorem Within.trans (h : Within ε x y) (h' : Within δ y v) (hε : 0 ≤ ε) :
    Within (compound ε δ) x v := by
  have sum := abs_sub_le v y x
  have scaled := mul_le_mul_of_nonneg_left h'.abs_le_mul hε
  unfold Within compound at *
  linarith

/-- Errors of the factors add up in the product. -/
theorem Within.mul (h : Within ε x v) (h' : Within δ y w) (hε : 0 ≤ ε) :
    Within (compound ε δ) (x * y) (v * w) := by
  have first : Within ε (x * y) (v * y) := by
    rw [Within, ← sub_mul, abs_mul, abs_mul, ← mul_assoc]
    exact mul_le_mul_of_nonneg_right h (abs_nonneg y)
  have second : Within δ (v * y) (v * w) := by
    rw [Within, ← mul_sub, abs_mul, abs_mul, mul_left_comm]
    exact mul_le_mul_of_nonneg_left h' (abs_nonneg v)
  exact first.trans second hε

/-- A number with an error less than itself has the right sign. -/
theorem Within.order_eq (h : Within ε x v) (small : ε < 1) : order x 0 = order v 0 := by
  obtain ⟨lower, upper⟩ := abs_le.1 h
  rcases lt_trichotomy v 0 with below | rfl | above
  · rw [abs_of_neg below] at lower upper
    rw [order_eq_lt_iff.2 below, order_eq_lt_iff]
    nlinarith
  · rw [abs_zero, mul_zero] at lower upper
    rw [show x = 0 by linarith]
  · rw [abs_of_pos above] at lower upper
    rw [order_eq_gt_iff.2 above, order_eq_gt_iff]
    nlinarith

theorem Within.eq_zero (h : Within ε 0 v) (small : ε < 1) : v = 0 :=
  order_eq_eq_iff.1 ((h.order_eq small).symm.trans (order_eq_eq_iff.2 rfl))

theorem Within.nonneg (h : Within ε x v) (small : ε < 1) (hx : 0 ≤ x) : 0 ≤ v := by
  by_contra below
  have negative := order_eq_lt_iff.2 (not_le.1 below)
  rw [← h.order_eq small] at negative
  exact (order_eq_lt_iff.1 negative).not_ge hx

end

theorem two_zpow_eq_mul : (2 : Rat) ^ (-1022 : Int) = 2 ^ (-1074 : Int) * 2 ^ 52 := by
  rw [← zpow_natCast, ← zpow_add₀ two_ne_zero]
  rfl

section
variable {x v : Rat} {t : Int}

theorem RoundedAt.within_of_lt (h : RoundedAt x v t) (normal : -1074 < t) :
    Within roundoff x v := by
  have near := h.near
  have leads := h.leads normal
  unfold Within roundoff
  linarith

/-- Numbers that end where the least ones do lose nothing but surplus digits. -/
theorem CorrectAt.within_of_multiple (h : CorrectAt x v t) (grid : Multiple (-1074) x) :
    Within roundoff x v := by
  rcases h.least.lt_or_eq with normal | rfl
  · exact h.roundedAt.within_of_lt normal
  · rw [h.eq_of_multiple grid]
    exact within_refl roundoff_nonneg x

/-- A number that is not too small to have all digits is close to what it was made of. -/
theorem RoundedAt.within_of_le (h : RoundedAt x v t) (normal : 2 ^ (-1022 : Int) ≤ |v|) :
    Within roundoff x v := by
  rcases h.least.lt_or_eq with above | rfl
  · exact h.within_of_lt above
  · have near := h.near
    rw [two_zpow_eq_mul] at normal
    unfold Within roundoff
    linarith

theorem RoundedAt.normal_of_le (h : RoundedAt x v t) (large : 2 ^ (-1021 : Int) ≤ |x|) :
    2 ^ (-1022 : Int) ≤ |v| := by
  have near := h.near
  have double : (2 : Rat) ^ (-1021 : Int) = 2 ^ (-1022 : Int) * 2 := by
    rw [← zpow_add_one₀ two_ne_zero]
    rfl
  rw [double, two_zpow_eq_mul] at large
  rw [two_zpow_eq_mul]
  rcases h.least.lt_or_eq with above | rfl
  · have leads := h.leads above
    have grows : (2 : Rat) ^ (-1074 : Int) ≤ 2 ^ t := zpow_le_zpow_right₀ one_le_two h.least
    linarith
  · have := abs_sub_abs_le_abs_sub x v
    rw [abs_sub_comm] at this
    have positive : (0 : Rat) < 2 ^ (-1074 : Int) := by positivity
    linarith

/-- `v` is what 64 bits keep of `x`. -/
def Correct (x v : Rat) : Prop := ∃ t, CorrectAt x v t

/-- `v` is `x` or next to it among the numbers with as many digits. -/
def Rounded (x v : Rat) : Prop := v = x ∨ ∃ t, RoundedAt x v t

theorem correct_zero : Correct 0 0 :=
  ⟨-1074, le_rfl, multiple_zero _, by rw [sub_self, abs_zero]; positivity,
    fun normal => absurd normal (lt_irrefl _)⟩

theorem Correct.rounded (h : Correct x v) : Rounded x v :=
  let ⟨t, correct⟩ := h
  .inr ⟨t, correct.roundedAt⟩

theorem Rounded.within_of_le (h : Rounded x v) (normal : 2 ^ (-1022 : Int) ≤ |v|) :
    Within roundoff x v := by
  rcases h with rfl | ⟨t, near⟩
  · exact within_refl roundoff_nonneg v
  · exact near.within_of_le normal

theorem Rounded.within_of_large (h : Rounded x v) (large : 2 ^ (-1021 : Int) ≤ |x|) :
    Within roundoff x v := by
  rcases h with rfl | ⟨t, near⟩
  · exact within_refl roundoff_nonneg v
  · exact near.within_of_le (near.normal_of_le large)

theorem Rounded.eq_zero (h : Rounded 0 v) : v = 0 := by
  rcases h with zero | ⟨t, near⟩
  · exact zero
  · refine near.unit.resolve_right fun unit => ?_
    have half := near.near
    have positive : (0 : Rat) < 2 ^ t := by positivity
    rw [sub_zero] at half
    linarith

/-- A number that has not become zero has the right sign, however small it is: it lies at most
half as far from what it was made of as from zero. -/
theorem Rounded.order_eq (h : Rounded x v) (nonzero : v ≠ 0) : order x 0 = order v 0 := by
  rcases h with rfl | ⟨t, near⟩
  · rfl
  · have half : Within (1 / 2) x v := by
      have unit := near.unit.resolve_left nonzero
      have := near.near
      unfold Within
      linarith
    exact half.order_eq (by norm_num)

end

end RouteGeometry.Number
