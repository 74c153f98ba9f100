import RouteGeometry.Proofs.Number.Packing
import RouteGeometry.Proofs.Number.Rounding

/-! # Arithmetic of 64 bits

What sums, differences and products of finite numbers stand for, whatever their sizes. Sums and
differences are off by no more than half of their last digit, as no digit can be smaller than those
of the terms, while a product can be too small to have all of its digits. -/

namespace RouteGeometry.Number

open Float.Model (Format UnpackedFloat)
open Float.Model.UnpackedFloat

/-! ## Before the result is written as bits -/

theorem normalize_correct (i : Int) (e : Int) (s : Sign) :
    Yields (.normalize .binary64 i e s) (Correct (i * 2 ^ e)) := by
  unfold UnpackedFloat.normalize
  rcases Int.lt_trichotomy i 0 with below | rfl | above
  · have value : Sign.negative.apply ((-i).toNat : Nat) = i := by
      change -(((-i).toNat : Nat) : Int) = i
      omega
    rw [Int.compare_eq_lt.2 below]
    have := round_spec (m := (-i).toNat) (e := e) (s := .negative) (by omega)
    rw [value] at this
    exact this.imp fun _ correct => ⟨_, correct⟩
  · refine ⟨0, rfl, trivial, ?_⟩
    rw [Int.cast_zero, zero_mul]
    exact correct_zero
  · have value : Sign.positive.apply (i.toNat : Nat) = i := by
      change ((i.toNat : Nat) : Int) = i
      omega
    rw [Int.compare_eq_gt.2 above]
    have := round_spec (m := i.toNat) (e := e) (s := .positive) (by omega)
    rw [value] at this
    exact this.imp fun _ correct => ⟨_, correct⟩

theorem toRat?_finite (s : Sign) (m : Nat) (e : Int) (h : 0 < m) :
    toRat? (.finite s m e h) = some (((s.apply m : Int) : Rat) * 2 ^ e) := rfl

section
variable {u w : UnpackedFloat} {a b : Rat}

theorem correct_self (hu : Canonical .binary64 u) (ha : toRat? u = some a) : Correct a a := by
  cases u with
  | notANumber | infinity => cases ha
  | zero s =>
    cases ha
    exact correct_zero
  | finite s m e h =>
    obtain rfl := Option.some.inj ha
    refine ⟨e, hu.2.1, ⟨s.apply m, rfl⟩, ?_, fun normal => ?_⟩
    · rw [sub_self, abs_zero]
      positivity
    · have full : ((2 ^ 52 : Nat) : Rat) ≤ m := by exact_mod_cast hu.2.2 normal
      rw [abs_apply_mul_zpow]
      push_cast at full
      exact mul_le_mul_of_nonneg_right full (by positivity)

/-- Numbers in canonical form end where the least ones do. -/
theorem multiple_of_canonical (hu : Canonical .binary64 u) (ha : toRat? u = some a) :
    Multiple (-1074) a := by
  obtain ⟨t, correct⟩ := correct_self hu ha
  exact correct.multiple.mono correct.least

theorem add_correct (hu : Canonical .binary64 u) (hw : Canonical .binary64 w)
    (ha : toRat? u = some a) (hb : toRat? w = some b) :
    Yields (u.add .binary64 w) (Correct (a + b)) := by
  cases u with
  | notANumber | infinity => cases ha
  | zero s =>
    cases ha
    rw [zero_add]
    cases w with
    | notANumber | infinity => cases hb
    | zero s' =>
      cases hb
      cases s <;> cases s' <;> exact ⟨0, rfl, trivial, correct_zero⟩
    | finite => exact ⟨b, hb, hw, correct_self hw hb⟩
  | finite s m e h =>
    cases w with
    | notANumber | infinity => cases hb
    | zero s' =>
      cases hb
      rw [add_zero]
      exact ⟨a, ha, hu, correct_self hu ha⟩
    | finite s' m' e' h' =>
      obtain rfl := Option.some.inj ha
      obtain rfl := Option.some.inj hb
      rw [← apply_mul_two_pow_toNat s m (min_le_left e e'),
        ← apply_mul_two_pow_toNat s' m' (min_le_right e e'), ← add_mul, ← Int.cast_add]
      simp only [add, decreaseExponent_eq]
      exact normalize_correct _ _ _

/-- A sum loses no digit but those that do not fit. -/
theorem add_within (hu : Canonical .binary64 u) (hw : Canonical .binary64 w)
    (ha : toRat? u = some a) (hb : toRat? w = some b) :
    Yields (u.add .binary64 w) (Within roundoff (a + b)) := by
  have grid : Multiple (-1074) (a + b) := by
    rw [← sub_neg_eq_add]
    exact (multiple_of_canonical hu ha).sub (multiple_of_canonical hw hb).neg
  exact (add_correct hu hw ha hb).imp fun _ ⟨_, correct⟩ => correct.within_of_multiple grid

theorem apply_neg (s : Sign) (i : Int) : (-s).apply i = -s.apply i := by
  cases s with
  | negative => exact (Int.neg_neg i).symm
  | positive => rfl

theorem sub_eq_add (format : Format) (u w : UnpackedFloat) :
    u.sub format w = u.add format w.neg := by
  cases u <;> cases w <;> try rfl
  rename_i s m e _ s' m' e' _
  simp only [sub, add, neg, apply_neg, Int.sub_eq_add_neg]

theorem toRat?_neg (ha : toRat? u = some a) : toRat? u.neg = some (-a) := by
  cases u with
  | notANumber | infinity => cases ha
  | zero s =>
    cases ha
    rfl
  | finite s m e h =>
    obtain rfl := Option.some.inj ha
    rw [neg, toRat?_finite, apply_neg, Int.cast_neg, neg_mul]

theorem canonical_neg {format : Format} (h : Canonical format u) : Canonical format u.neg := by
  cases u <;> exact h

theorem sub_correct (hu : Canonical .binary64 u) (hw : Canonical .binary64 w)
    (ha : toRat? u = some a) (hb : toRat? w = some b) :
    Yields (u.sub .binary64 w) (Correct (a - b)) := by
  rw [sub_eq_add, Rat.sub_eq_add_neg]
  exact add_correct hu (canonical_neg hw) ha (toRat?_neg hb)

theorem sub_within (hu : Canonical .binary64 u) (hw : Canonical .binary64 w)
    (ha : toRat? u = some a) (hb : toRat? w = some b) :
    Yields (u.sub .binary64 w) (Within roundoff (a - b)) := by
  rw [sub_eq_add, Rat.sub_eq_add_neg]
  exact add_within hu (canonical_neg hw) ha (toRat?_neg hb)

theorem apply_mul (s s' : Sign) (m m' : Nat) :
    (s * s').apply (m * m' : Nat) = s.apply m * s'.apply m' := by
  rw [Nat.cast_mul]
  cases s <;> cases s' <;> simp only [Sign.apply, Int.neg_mul, Int.mul_neg, Int.neg_neg]

/-- The product of canonical numbers has at least as many digits as are kept. -/
theorem add_le_lastExponent_mul {s s' : Sign} {m m' : Nat} {e e' : Int} {h : 0 < m} {h' : 0 < m'}
    (hu : Canonical .binary64 (.finite s m e h)) (hw : Canonical .binary64 (.finite s' m' e' h')) :
    e + e' ≤ lastExponent (m * m') (e + e') := by
  have product (full : 2 ^ 52 ≤ m * m') : e + e' ≤ lastExponent (m * m') (e + e') := by
    have : 52 ≤ (m * m').log2 := (Nat.le_log2 (Nat.mul_pos h h').ne').2 full
    unfold lastExponent
    omega
  by_cases normal : -1074 < e
  · exact product ((hu.2.2 normal).trans (Nat.le_mul_of_pos_right m h'))
  · by_cases normal' : -1074 < e'
    · exact product ((hw.2.2 normal').trans (Nat.le_mul_of_pos_left m' h))
    · unfold lastExponent
      omega

theorem mul_correct (hu : Canonical .binary64 u) (hw : Canonical .binary64 w)
    (ha : toRat? u = some a) (hb : toRat? w = some b) :
    Yields (u.mul .binary64 w) (Correct (a * b)) := by
  cases u with
  | notANumber | infinity => cases ha
  | zero s =>
    cases ha
    rw [zero_mul]
    cases w with
    | notANumber | infinity => cases hb
    | zero | finite => exact ⟨0, rfl, trivial, correct_zero⟩
  | finite s m e h =>
    cases w with
    | notANumber | infinity => cases hb
    | zero s' =>
      cases hb
      rw [mul_zero]
      exact ⟨0, rfl, trivial, correct_zero⟩
    | finite s' m' e' h' =>
      obtain rfl := Option.some.inj ha
      obtain rfl := Option.some.inj hb
      have spec := roundWithAccuracy_exact (s := s * s') (add_le_lastExponent_mul hu hw)
      have value : (((s * s').apply (m * m' : Nat) : Int) : Rat) * 2 ^ (e + e') =
          (s.apply m : Int) * 2 ^ e * ((s'.apply m' : Int) * 2 ^ e') := by
        rw [apply_mul, Int.cast_mul, zpow_add₀ two_ne_zero, mul_mul_mul_comm]
      rw [value] at spec
      exact spec.imp fun _ correct => ⟨_, correct⟩

end

/-! ## Numbers of 64 bits -/

/-- A number of 64 bits has the value `v`, or it is an infinity because `v` is too large. -/
def Holds (x : Float) (v : Rat) : Prop :=
  toRat? x.toModel.unpack = some v ∨
    ∃ s : Sign, x.toModel.unpack = .infinity s ∧ 2 ^ 1024 ≤ (s.apply 1 : Int) * v

theorem two_pow_mul_zpow_le {m k : Nat} {e : Int} (full : 2 ^ k ≤ m) {n : Nat}
    (h : n ≤ k + e) : (2 : Rat) ^ n ≤ m * 2 ^ e := by
  have leads : (2 : Rat) ^ k ≤ m := by exact_mod_cast full
  calc (2 : Rat) ^ n = 2 ^ (n : Int) := (zpow_natCast 2 n).symm
    _ ≤ 2 ^ (k + e : Int) := zpow_le_zpow_right₀ one_le_two h
    _ = 2 ^ k * 2 ^ e := by rw [zpow_add₀ two_ne_zero, zpow_natCast]
    _ ≤ m * 2 ^ e := mul_le_mul_of_nonneg_right leads (by positivity)

theorem mul_zpow_lt_two_pow {m k : Nat} {e : Int} (fits : m < 2 ^ k) {n : Nat}
    (h : k + e ≤ n) : (m : Rat) * 2 ^ e < 2 ^ n := by
  have below : (m : Rat) < 2 ^ k := by exact_mod_cast fits
  calc (m : Rat) * 2 ^ e < 2 ^ k * 2 ^ e := mul_lt_mul_of_pos_right below (by positivity)
    _ = 2 ^ (k + e : Int) := by rw [zpow_add₀ two_ne_zero, zpow_natCast]
    _ ≤ 2 ^ (n : Int) := zpow_le_zpow_right₀ one_le_two h
    _ = 2 ^ n := zpow_natCast 2 n

theorem abs_lt_of_unpack {format : Format} {bits : BitVec format.numBits} {a : Rat} {n : Nat}
    (wide : 1 < format.exponentBits) (bound : 2 ^ format.exponentBits ≤ n + format.exponentBias + 1)
    (ha : toRat? (unpack format bits) = some a) : |a| < 2 ^ n := by
  have canonical := canonical_unpack format bits
  cases hu : unpack format bits with
  | notANumber | infinity =>
    rw [hu] at ha
    cases ha
  | zero s =>
    rw [hu] at ha
    obtain rfl := Option.some.inj ha
    simp
  | finite s m e positive =>
    have below := exponent_lt wide hu
    rw [hu] at ha canonical
    obtain rfl := Option.some.inj ha
    have bound : (2 : Int) ^ format.exponentBits ≤ n + format.exponentBias + 1 := by
      exact_mod_cast bound
    rw [abs_apply_mul_zpow]
    refine mul_zpow_lt_two_pow canonical.1 ?_
    push_cast
    omega

theorem holds_pack {u : UnpackedFloat} (h : Canonical .binary64 u) {v : Rat}
    (hv : toRat? u = some v) : Holds (.ofModel (.pack u)) v := by
  change toRat? (unpack .binary64 (pack .binary64 u)) = some v ∨
    ∃ s, unpack .binary64 (pack .binary64 u) = .infinity s ∧ 2 ^ 1024 ≤ (s.apply 1 : Int) * v
  cases u with
  | notANumber | infinity => cases hv
  | zero s => exact .inl ((congrArg toRat? unpack_packedZero).trans hv)
  | finite s m e positive =>
    rcases unpack_pack_finite h with same | ⟨large, infinite⟩
    · exact .inl ((congrArg toRat? same).trans hv)
    · refine .inr ⟨s, infinite, ?_⟩
      have above : 972 ≤ e := by
        change (2 : Int) ^ 11 ≤ e + (1023 : Nat) + (52 : Nat) + 1 at large
        omega
      have full : 2 ^ 52 ≤ m := h.2.2 (by change (-1074 : Int) < e; omega)
      obtain rfl := Option.some.inj hv
      have square : ((s.apply 1 : Int) : Rat) * (s.apply 1 : Int) = 1 := by
        cases s <;> simp [Sign.apply]
      rw [apply_cast, mul_assoc, ← mul_assoc, square, one_mul]
      exact two_pow_mul_zpow_le full (by omega)

/-- What is read back from the bits of a number without a value has none either. -/
theorem toRat?_pack_eq_none {u : UnpackedFloat} (h : toRat? u = none) :
    toRat? (Float.ofModel (.pack u)).toModel.unpack = none := by
  change toRat? (unpack .binary64 (pack .binary64 u)) = none
  cases u with
  | notANumber => exact congrArg toRat? unpack_packedNaN
  | infinity s => exact congrArg toRat? unpack_packedInfinity
  | zero | finite => cases h

section
variable {x y : Float} {a b v : Rat}

/-- A finite number of 64 bits is less than `2 ^ 1024`. -/
theorem abs_lt_of_toRat? (ha : toRat? x.toModel.unpack = some a) : |a| < 2 ^ 1024 :=
  abs_lt_of_unpack (by decide) (by decide) ha

theorem Holds.value_eq (h : Holds x v) (ha : toRat? x.toModel.unpack = some a) : a = v := by
  rcases h with hv | ⟨s, infinite, -⟩
  · exact Option.some.inj (ha.symm.trans hv)
  · rw [infinite] at ha
    cases ha

theorem Holds.toRat?_eq (h : Holds x v) (small : |v| < 2 ^ 1024) :
    toRat? x.toModel.unpack = some v := by
  refine h.resolve_right ?_
  rintro ⟨s, -, large⟩
  have := le_abs_self (((s.apply 1 : Int) : Rat) * v)
  rw [abs_mul, abs_apply_one, one_mul] at this
  exact (large.trans this).not_gt small

theorem holds_of_toRat? (ha : toRat? x.toModel.unpack = some a) : Holds x a := .inl ha

theorem Holds.neg (h : Holds x v) : Holds (-x) (-v) := by
  rcases h with hv | ⟨s, infinite, large⟩
  · exact holds_pack (canonical_neg (canonical_float x)) (toRat?_neg hv)
  · refine .inr ⟨-s, ?_, ?_⟩
    · change unpack .binary64 (pack .binary64 x.toModel.unpack.neg) = _
      rw [infinite]
      exact unpack_packedInfinity
    · rw [apply_neg, Int.cast_neg, neg_mul_neg]
      exact large

theorem holds_add (ha : toRat? x.toModel.unpack = some a) (hb : toRat? y.toModel.unpack = some b) :
    ∃ v, Holds (x + y) v ∧ Within roundoff (a + b) v := by
  obtain ⟨v, hv, canonical, near⟩ := add_within (canonical_float x) (canonical_float y) ha hb
  exact ⟨v, holds_pack canonical hv, near⟩

theorem holds_sub (ha : toRat? x.toModel.unpack = some a) (hb : toRat? y.toModel.unpack = some b) :
    ∃ v, Holds (x - y) v ∧ Within roundoff (a - b) v := by
  obtain ⟨v, hv, canonical, near⟩ := sub_within (canonical_float x) (canonical_float y) ha hb
  exact ⟨v, holds_pack canonical hv, near⟩

theorem holds_mul (ha : toRat? x.toModel.unpack = some a) (hb : toRat? y.toModel.unpack = some b) :
    ∃ v, Holds (x * y) v ∧ Rounded (a * b) v := by
  obtain ⟨v, hv, canonical, correct⟩ := mul_correct (canonical_float x) (canonical_float y) ha hb
  exact ⟨v, holds_pack canonical hv, correct.rounded⟩

/-- A product has a value only if its factors have. -/
theorem exists_toRat?_of_mul (h : toRat? (x * y).toModel.unpack = some v) :
    (∃ a, toRat? x.toModel.unpack = some a) ∧ ∃ b, toRat? y.toModel.unpack = some b := by
  have product : toRat? (x.toModel.unpack.mul .binary64 y.toModel.unpack) ≠ none := by
    intro none
    have := (toRat?_pack_eq_none none).symm.trans h
    cases this
  generalize x.toModel.unpack = u at product ⊢
  generalize y.toModel.unpack = w at product ⊢
  cases u <;> cases w <;> first | exact ⟨⟨_, rfl⟩, _, rfl⟩ | exact absurd rfl product

/-! ## Comparing -/

theorem toRat?_zero : toRat? (0 : Float).toModel.unpack = some 0 := rfl

theorem float_le_iff (ha : toRat? x.toModel.unpack = some a)
    (hb : toRat? y.toModel.unpack = some b) : x ≤ y ↔ a ≤ b := by
  rw [le_iff_compare, compare_of_toRat? (canonical_float x) (canonical_float y) ha hb,
    order_eq_compare]
  exact Ordering.isLE_iff_ne_gt.trans compare_le_iff_le

theorem float_lt_iff (ha : toRat? x.toModel.unpack = some a)
    (hb : toRat? y.toModel.unpack = some b) : x < y ↔ a < b := by
  rw [lt_iff_compare, compare_of_toRat? (canonical_float x) (canonical_float y) ha hb, beq_iff_eq,
    Option.some.injEq, order_eq_lt_iff]

/-- What a finite number does not exceed is not exceeded by it either, infinities included. -/
theorem Holds.le_of_le (h : Holds x v) (hb : toRat? y.toModel.unpack = some b) (le : y ≤ x) :
    b ≤ v := by
  rcases h with hv | ⟨s, infinite, large⟩
  · exact (float_le_iff hb hv).1 le
  · cases s with
    | negative =>
      rw [le_iff_compare, infinite, (compare_infinity hb).2.2.1] at le
      cases le
    | positive =>
      have large : 2 ^ 1024 ≤ v := by simpa [Sign.apply] using large
      exact ((abs_lt.1 (abs_lt_of_toRat? hb)).2.trans_le large).le

end

/-! ## Numbers of 32 bits -/

theorem abs_lt_of_toRat?_float32 {x : Float32} {a : Rat} (ha : toRat? x.toModel.unpack = some a) :
    |a| < 2 ^ 128 :=
  abs_lt_of_unpack (by decide) (by decide) ha

/-- Numbers of 32 bits keep their values in 64 bits. -/
theorem toRat?_widen (x : Float32) : toRat? (widen x).toModel.unpack = toRat? x.toModel.unpack := by
  have canonical := canonical_float32 x
  unfold widen
  cases hx : x.toModel.unpack with
  | notANumber | infinity => exact toRat?_pack_eq_none rfl
  | zero s => exact congrArg toRat? unpack_packedZero
  | finite s m e positive =>
    have small := abs_lt_of_toRat?_float32 (congrArg toRat? hx)
    rw [hx] at canonical
    have kept : lastExponent m e ≤ e := by
      have digits : m.log2 < 24 := (Nat.log2_lt positive.ne').2 canonical.1
      have least : -149 ≤ e := canonical.2.1
      unfold lastExponent
      omega
    obtain ⟨v, hv, canonical', correct⟩ := round_spec (s := s) (e := e) positive
    obtain rfl := correct.eq_of_multiple (Multiple.mono ⟨_, rfl⟩ kept)
    exact (holds_pack canonical' hv).toRat?_eq
      (small.trans (pow_lt_pow_right₀ one_lt_two (by decide)))

end RouteGeometry.Number
