import RouteGeometry.Proofs.Number.Arithmetic

/-! # Numbers far from the ends of the range of 64 bits

A calculation in 64 bits that starts from numbers of 32 bits stays far from the ends of the range:
each product adds up the exponents, and each rounding adds no more than one. -/

namespace RouteGeometry.Number

/-- The value lies between `2 ^ -k` and `2 ^ k` on either side of zero. -/
def Moderate (k : Nat) (v : Rat) : Prop := 1 ≤ 2 ^ k * |v| ∧ |v| ≤ 2 ^ k

section
variable {k l : Nat} {v w x : Rat}

theorem Moderate.ne_zero (h : Moderate k v) : v ≠ 0 := by
  rintro rfl
  have := h.1
  norm_num at this

theorem Moderate.mono (h : Moderate k v) (le : k ≤ l) : Moderate l v := by
  have grows : (2 : Rat) ^ k ≤ 2 ^ l := pow_le_pow_right₀ one_le_two le
  exact ⟨h.1.trans (mul_le_mul_of_nonneg_right grows (abs_nonneg v)), h.2.trans grows⟩

theorem Moderate.mul (h : Moderate k v) (h' : Moderate l w) : Moderate (k + l) (v * w) := by
  rw [Moderate, abs_mul, pow_add, mul_mul_mul_comm]
  exact ⟨one_le_mul_of_one_le_of_one_le h.1 h'.1,
    mul_le_mul h.2 h'.2 (abs_nonneg w) (by positivity)⟩

theorem Moderate.add_abs (h : Moderate k v) (h' : Moderate k w) :
    Moderate (k + 1) (|v| + |w|) := by
  have := abs_nonneg w
  have positive : (0 : Rat) < 2 ^ k := by positivity
  obtain ⟨above, below⟩ := h
  rw [Moderate, abs_of_nonneg (by positivity), pow_succ]
  constructor
  · nlinarith
  · linarith [h'.2]

/-- Rounding moves a number by less than a factor of two. -/
theorem Moderate.of_within (h : Moderate k x) (near : Within roundoff x v) :
    Moderate (k + 1) v := by
  have lower : |x| ≤ 2 * |v| := by
    refine near.abs_le_mul.trans (mul_le_mul_of_nonneg_right ?_ (abs_nonneg v))
    norm_num [roundoff]
  have upper : |v| ≤ 2 * |x| := by
    have := abs_sub_abs_le_abs_sub v x
    unfold Within roundoff at near
    linarith [abs_nonneg v]
  obtain ⟨above, below⟩ := h
  rw [Moderate, pow_succ]
  constructor
  · rw [mul_assoc]
    exact above.trans (mul_le_mul_of_nonneg_left lower (by positivity))
  · linarith

theorem Moderate.lt (h : Moderate k v) (le : k ≤ 1000) : |v| < 2 ^ 1024 := by
  refine h.2.trans_lt (pow_lt_pow_right₀ one_lt_two ?_)
  omega

theorem Moderate.le (h : Moderate k v) (le : k ≤ 1000) : 2 ^ (-1021 : Int) ≤ |v| := by
  have positive : (0 : Rat) < 2 ^ 1021 := by positivity
  change ((2 : Rat) ^ (1021 + 1 - 1))⁻¹ ≤ |v|
  rw [inv_le_iff_one_le_mul₀ positive, mul_comm]
  exact (h.mono (show k ≤ 1021 by omega)).1

theorem Moderate.normal (h : Moderate k v) (le : k ≤ 1000) : 2 ^ (-1022 : Int) ≤ |v| :=
  (zpow_le_zpow_right₀ one_le_two (by decide)).trans (h.le le)

end

section
variable {x y : Float} {a b v : Rat} {k l : Nat}

theorem Holds.moderate (h : Holds x v) {w : Rat} (hw : Moderate k w) (near : Within roundoff w v)
    (le : k < 1000) : toRat? x.toModel.unpack = some v ∧ Moderate (k + 1) v :=
  have moderate := hw.of_within near
  ⟨h.toRat?_eq (moderate.lt le), moderate⟩

theorem mul_moderate (ha : toRat? x.toModel.unpack = some a) (hb : toRat? y.toModel.unpack = some b)
    (moderate : Moderate k a) (moderate' : Moderate l b) (le : k + l < 1000) :
    ∃ v, toRat? (x * y).toModel.unpack = some v ∧ Moderate (k + l + 1) v := by
  obtain ⟨v, holds, rounded⟩ := holds_mul ha hb
  have product := moderate.mul moderate'
  exact ⟨v, holds.moderate product (rounded.within_of_large (product.le le.le)) le⟩

/-! ## Numbers of 32 bits -/

/-- Numbers of 32 bits are multiples of the least one. -/
theorem exists_int_of_toRat? {x : Float32} (ha : toRat? x.toModel.unpack = some a) :
    ∃ i : Int, a * 2 ^ 149 = i := by
  have canonical := canonical_float32 x
  generalize x.toModel.unpack = u at ha canonical
  cases u with
  | notANumber | infinity => cases ha
  | zero s =>
    obtain rfl := Option.some.inj ha
    exact ⟨0, by simp⟩
  | finite s m e positive =>
    obtain rfl := Option.some.inj ha
    have least : -149 ≤ e := canonical.2.1
    refine ⟨s.apply (m * 2 ^ (e - -149).toNat : Nat), ?_⟩
    rw [← apply_mul_two_pow_toNat s m least, mul_assoc, ← zpow_natCast, ← zpow_add₀ two_ne_zero]
    exact mul_one _

theorem moderate_sub {x y : Float32} (ha : toRat? x.toModel.unpack = some a)
    (hb : toRat? y.toModel.unpack = some b) (different : a ≠ b) : Moderate 149 (a - b) := by
  obtain ⟨i, hi⟩ := exists_int_of_toRat? ha
  obtain ⟨j, hj⟩ := exists_int_of_toRat? hb
  constructor
  · have scaled : 2 ^ 149 * (a - b) = ((i - j : Int) : Rat) := by
      rw [Int.cast_sub, ← hi, ← hj]
      ring
    have apart : i - j ≠ 0 := by
      intro none
      rw [none, Int.cast_zero] at scaled
      exact different (sub_eq_zero.1 ((mul_eq_zero.1 scaled).resolve_left (by positivity)))
    have positive : (0 : Rat) < 2 ^ 149 := by positivity
    rw [← abs_of_pos positive, ← abs_mul, scaled]
    exact_mod_cast Int.one_le_abs apart
  · have small := abs_lt_of_toRat?_float32 ha
    have small' := abs_lt_of_toRat?_float32 hb
    have := abs_sub a b
    norm_num at small small' ⊢
    linarith

/-- The rounded difference of two numbers of 32 bits is zero or neither large nor small. -/
theorem sub_moderate {x y : Float32} (ha : toRat? x.toModel.unpack = some a)
    (hb : toRat? y.toModel.unpack = some b) :
    ∃ v, toRat? (widen x - widen y).toModel.unpack = some v ∧ (v = 0 ∨ Moderate 150 v) := by
  obtain ⟨v, holds, near⟩ := holds_sub ((toRat?_widen x).trans ha) ((toRat?_widen y).trans hb)
  by_cases same : a = b
  · rw [same, sub_self] at near
    obtain rfl := near.eq_zero roundoff_lt_one
    refine ⟨0, holds.toRat?_eq ?_, .inl rfl⟩
    rw [abs_zero]
    positivity
  · have moderate := moderate_sub ha hb same
    exact ⟨v, (holds.moderate moderate near (by decide)).imp_right .inr⟩

end

end RouteGeometry.Number
