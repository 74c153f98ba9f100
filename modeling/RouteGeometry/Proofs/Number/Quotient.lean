import RouteGeometry.Proofs.Number.Closest
import RouteGeometry.Proofs.Number.Interval

/-! # Quotients and roots in 64 bits

A quotient is calculated with so many digits that rounding takes some away, and what remains of the
division tells on which side of the middle the others lie. So a quotient is rounded once, and with
it every rational. Of a root no more is said than that it is not below zero and how large it can
be. -/

namespace RouteGeometry.Number

open Float.Model (Format UnpackedFloat)
open Float.Model.UnpackedFloat

/-! ## Before the result is written as bits -/

/-- What remains of a division by `d` tells where the digits behind the quotient leave it. -/
theorem represents_remainder (q : Nat) {r d : Nat} (below : r < d) :
    Represents (q + (r : Rat) / d)
      (ExtendedMantissa.ofMantissaAndAccuracy q (accuracyOfFraction r d)) := by
  have divisor : (0 : Rat) < d := by exact_mod_cast Nat.zero_lt_of_lt below
  have less : (r : Rat) / d < 1 := by
    rw [div_lt_one divisor]
    exact_mod_cast below
  rcases Nat.eq_zero_or_pos r with rfl | remains
  · change ((q : Rat) + ((0 : Nat) : Rat) / d) = q
    rw [Nat.cast_zero, zero_div, add_zero]
  · have more : (0 : Rat) < r / d := div_pos (by exact_mod_cast remains) divisor
    rw [accuracyOfFraction, if_neg remains.ne']
    rcases Nat.lt_trichotomy (2 * r) d with lower | middle | upper
    · rw [Nat.compare_eq_lt.2 lower]
      have : (r : Rat) / d < 1 / 2 := by
        rw [div_lt_div_iff₀ divisor two_pos, one_mul, mul_comm]
        exact_mod_cast lower
      exact ⟨by linarith, by linarith⟩
    · rw [Nat.compare_eq_eq.2 middle]
      have : (r : Rat) / d = 1 / 2 := by
        rw [div_eq_div_iff divisor.ne' two_ne_zero, one_mul, mul_comm]
        exact_mod_cast middle
      change (q : Rat) + r / d = q + 1 / 2
      rw [this]
    · rw [Nat.compare_eq_gt.2 upper]
      have : 1 / 2 < (r : Rat) / d := by
        rw [div_lt_div_iff₀ two_pos divisor, one_mul, mul_comm]
        exact_mod_cast upper
      exact ⟨by linarith, by linarith⟩

theorem represents_fraction (n : Nat) {d : Nat} (positive : 0 < d) :
    Represents ((n : Rat) / d)
      (ExtendedMantissa.ofMantissaAndAccuracy (n / d) (accuracyOfFraction (n % d) d)) := by
  have divisor : (d : Rat) ≠ 0 := by exact_mod_cast positive.ne'
  have split : (n : Rat) / d = (n / d : Nat) + ((n % d : Nat) : Rat) / d := by
    rw [eq_comm, ← eq_sub_iff_add_eq', div_eq_iff divisor, sub_mul,
      div_mul_cancel₀ _ divisor, eq_sub_iff_add_eq']
    exact_mod_cast Nat.div_add_mod' n d
  rw [split]
  exact represents_remainder _ (Nat.mod_lt n positive)

section
variable {m m' : Nat} {e e' : Int}

def quotientExponent (m : Nat) (e : Int) (m' : Nat) (e' : Int) : Int :=
  min (e - e') (max (m.log2 + 1 + e - (m'.log2 + 1 + e') - 53) (-1074))

theorem div_eq (s s' : Sign) (h : 0 < m) (h' : 0 < m') :
    UnpackedFloat.div .binary64 (.finite s m e h) (.finite s' m' e' h') =
      let t := quotientExponent m e m' e'
      let n := m * 2 ^ (e - e' - t).toNat
      roundWithAccuracy .binary64 (s / s') (n / m') t (accuracyOfFraction (n % m') m') := by
  simp only [← Nat.shiftLeft_eq]
  rfl

/-- The quotient has at least as many digits as are kept. -/
theorem quotientExponent_le (h : 0 < m) (h' : 0 < m') :
    quotientExponent m e m' e' ≤
      lastExponent (m * 2 ^ (e - e' - quotientExponent m e m' e').toNat / m')
        (quotientExponent m e m' e') := by
  generalize ht : quotientExponent m e m' e' = t
  by_cases small : t ≤ -1074
  · exact small.trans (le_max_right _ _)
  · unfold quotientExponent at ht
    have digits : 53 + m'.log2 ≤ m.log2 + (e - e' - t).toNat := by omega
    have full : 2 ^ 52 ≤ m * 2 ^ (e - e' - t).toNat / m' := by
      rw [Nat.le_div_iff_mul_le h']
      calc 2 ^ 52 * m' ≤ 2 ^ 52 * 2 ^ (m'.log2 + 1) :=
            Nat.mul_le_mul_left _ Nat.lt_log2_self.le
        _ = 2 ^ (53 + m'.log2) := by ring
        _ ≤ 2 ^ (m.log2 + (e - e' - t).toNat) := Nat.pow_le_pow_right two_pos digits
        _ = 2 ^ m.log2 * 2 ^ (e - e' - t).toNat := pow_add _ _ _
        _ ≤ m * 2 ^ (e - e' - t).toNat := Nat.mul_le_mul_right _ (Nat.log2_self_le h.ne')
    exact le_lastExponent_of_le full t

theorem apply_one_ne_zero (s : Sign) : ((s.apply 1 : Int) : Rat) ≠ 0 := by
  cases s <;> norm_num [Sign.apply]

theorem div_apply_one (s s' : Sign) :
    (((s / s').apply 1 : Int) : Rat) = (s.apply 1 : Int) / (s'.apply 1 : Int) := by
  have product : (s / s').apply 1 * s'.apply 1 = s.apply 1 := by
    cases s <;> cases s' <;> rfl
  rw [eq_div_iff (apply_one_ne_zero s')]
  exact_mod_cast product

theorem finite_div_correct (s s' : Sign) (e e' : Int) (h : 0 < m) (h' : 0 < m') :
    Yields (UnpackedFloat.div .binary64 (.finite s m e h) (.finite s' m' e' h'))
      (Correct ((s.apply m : Int) * 2 ^ e / ((s'.apply m' : Int) * 2 ^ e'))) := by
  have spec := roundWithAccuracy_spec (s := s / s')
    (represents_fraction (m * 2 ^ (e - e' - quotientExponent m e m' e').toNat) h')
    (quotientExponent_le h h')
  rw [← div_eq s s' h h'] at spec
  have least : quotientExponent m e m' e' ≤ e - e' := min_le_left _ _
  generalize quotientExponent m e m' e' = t at spec least
  have value : (((s / s').apply 1 : Int) : Rat) *
      (((m * 2 ^ (e - e' - t).toNat : Nat) : Rat) / m' * 2 ^ t) =
        (s.apply m : Int) * 2 ^ e / ((s'.apply m' : Int) * 2 ^ e') := by
    have power : (2 : Rat) ^ e = 2 ^ (e - e' - t).toNat * 2 ^ t * 2 ^ e' := by
      rw [← two_zpow_eq_of_le least, ← zpow_add₀ two_ne_zero, sub_add_cancel]
    have divisor : (m' : Rat) ≠ 0 := by exact_mod_cast h'.ne'
    have unit := apply_one_ne_zero s'
    rw [div_apply_one, apply_cast s m, apply_cast s' m', power]
    push_cast
    field_simp
  rw [value] at spec
  exact spec.imp fun _ correct => ⟨_, correct⟩

end

section
variable {u w : UnpackedFloat} {a b : Rat}

theorem div_correct (ha : toRat? u = some a) (hb : toRat? w = some b) (nonzero : b ≠ 0) :
    Yields (u.div .binary64 w) (Correct (a / b)) := by
  cases w with
  | notANumber | infinity => cases hb
  | zero s' =>
    cases hb
    exact absurd rfl nonzero
  | finite s' m' e' h' =>
    cases u with
    | notANumber | infinity => cases ha
    | zero s =>
      cases ha
      rw [zero_div]
      exact ⟨0, rfl, trivial, correct_zero⟩
    | finite s m e h =>
      obtain rfl := Option.some.inj ha
      obtain rfl := Option.some.inj hb
      exact finite_div_correct s s' e e' h h'

theorem nearest_correct (q : Rat) : Yields (nearest .binary64 q) (Correct q) := by
  unfold nearest
  by_cases zero : q.num = 0
  · rw [dif_pos zero, Rat.num_eq_zero.1 zero]
    exact ⟨0, rfl, trivial, correct_zero⟩
  · rw [dif_neg zero]
    have sign : (if q.num < 0 then Sign.negative else .positive).apply (q.num.natAbs : Nat) =
        q.num := by
      split <;> simp only [Sign.apply] <;> omega
    have correct := finite_div_correct (if q.num < 0 then Sign.negative else .positive) .positive
      0 0 (show 0 < q.num.natAbs by omega) q.den_pos
    rw [sign, zpow_zero, mul_one, mul_one] at correct
    have value : (q.num : Rat) / ((Sign.positive.apply (q.den : Nat) : Int) : Rat) = q :=
      Rat.num_div_den q
    rwa [value] at correct

end

/-! ## Roots before they are written as bits -/

theorem exists_represents (em : ExtendedMantissa) : ∃ x, Represents x em := by
  obtain ⟨m, round, sticky⟩ := em
  cases round with
  | false =>
    cases sticky with
    | false => exact ⟨m, rfl⟩
    | true => exact ⟨m + 1 / 4, by norm_num, by norm_num⟩
  | true =>
    cases sticky with
    | false => exact ⟨m + 1 / 2, rfl⟩
    | true => exact ⟨m + 3 / 4, by norm_num, by norm_num⟩

section
variable {m : Nat} {e : Int}

def rootExponent (m : Nat) (e : Int) : Int :=
  min (e / 2) (max ((m.log2 + 1 + e + 1) / 2 - 53) (-1074))

theorem sqrt_eq (positive : 0 < m) : ∃ accuracy,
    UnpackedFloat.sqrt .binary64 (.finite .positive m e positive) =
      roundWithAccuracy .binary64 .positive
        (Nat.sqrt (m * 2 ^ (e - 2 * rootExponent m e).toNat)) (rootExponent m e) accuracy := by
  rw [← Nat.shiftLeft_eq]
  exact ⟨_, rfl⟩

/-- The root has at least as many digits as are kept. -/
theorem rootExponent_le (positive : 0 < m) :
    rootExponent m e ≤
      lastExponent (Nat.sqrt (m * 2 ^ (e - 2 * rootExponent m e).toNat)) (rootExponent m e) := by
  generalize ht : rootExponent m e = t
  by_cases small : t ≤ -1074
  · exact small.trans (le_max_right _ _)
  · unfold rootExponent at ht
    have digits : 104 ≤ m.log2 + (e - 2 * t).toNat := by omega
    have full : 2 ^ 52 ≤ Nat.sqrt (m * 2 ^ (e - 2 * t).toNat) := by
      rw [Nat.le_sqrt]
      calc 2 ^ 52 * 2 ^ 52 = 2 ^ 104 := by norm_num
        _ ≤ 2 ^ (m.log2 + (e - 2 * t).toNat) := Nat.pow_le_pow_right two_pos digits
        _ = 2 ^ m.log2 * 2 ^ (e - 2 * t).toNat := pow_add _ _ _
        _ ≤ m * 2 ^ (e - 2 * t).toNat := Nat.mul_le_mul_right _ (Nat.log2_self_le positive.ne')
    exact le_lastExponent_of_le full t

/-- A root that is rounded down is not greater than the exact one. -/
theorem sqrt_mul_zpow_le {n k : Nat} {t : Int} (bound : (n : Rat) * (2 ^ t * 2 ^ t) ≤ 4 ^ k) :
    (Nat.sqrt n : Rat) * 2 ^ t ≤ 2 ^ k := by
  have below : ((Nat.sqrt n * Nat.sqrt n : Nat) : Rat) ≤ n := by
    exact_mod_cast Nat.sqrt_le n
  refine le_of_sq_le_sq ?_ (by positivity)
  calc ((Nat.sqrt n : Rat) * 2 ^ t) ^ 2
      = ((Nat.sqrt n * Nat.sqrt n : Nat) : Rat) * (2 ^ t * 2 ^ t) := by
        push_cast
        ring
    _ ≤ n * (2 ^ t * 2 ^ t) := mul_le_mul_of_nonneg_right below (by positivity)
    _ ≤ 4 ^ k := bound
    _ = (2 ^ k) ^ 2 := by rw [← pow_mul, mul_comm, pow_mul]; norm_num

/-- The calculated root of a positive number is not far above the exact one. -/
theorem finite_sqrt_bounded (positive : 0 < m) :
    Yields (UnpackedFloat.sqrt .binary64 (.finite .positive m e positive)) fun v =>
      0 ≤ v ∧ ∀ k : Nat, (m : Rat) * 2 ^ e ≤ 4 ^ k → v ≤ 2 ^ (k + 1) := by
  obtain ⟨accuracy, rounded⟩ := sqrt_eq (e := e) positive
  have last := rootExponent_le (e := e) positive
  have least : 2 * rootExponent m e ≤ e := by
    have : rootExponent m e ≤ e / 2 := min_le_left _ _
    omega
  rw [rounded]
  generalize rootExponent m e = t at last least
  generalize hn : m * 2 ^ (e - 2 * t).toNat = n at last
  obtain ⟨x, represented⟩ := exists_represents
    (ExtendedMantissa.ofMantissaAndAccuracy (Nat.sqrt n) accuracy)
  have lower := represented.mantissa_le
  have upper := represented.lt_mantissa_add_one
  rw [mantissa_ofMantissaAndAccuracy] at lower upper
  obtain ⟨v, hv, canonical, correct⟩ := roundWithAccuracy_spec (s := .positive) represented last
  have closest := Correct.closest ⟨_, correct⟩ (isBinary_of_canonical canonical hv)
  rw [show ((Sign.positive.apply 1 : Int) : Rat) = 1 from Int.cast_one, one_mul] at closest
  refine ⟨v, hv, canonical, closest.nonneg ?_, fun k bound => ?_⟩
  · have : (0 : Rat) ≤ x := (Nat.cast_nonneg _).trans lower
    positivity
  · have value : (n : Rat) * (2 ^ t * 2 ^ t) = m * 2 ^ e := by
      rw [two_zpow_eq_of_le least, two_mul, zpow_add₀ two_ne_zero, ← two_mul, ← hn]
      push_cast
      ring
    have root_le : (Nat.sqrt n : Rat) * 2 ^ t ≤ 2 ^ k := sqrt_mul_zpow_le (value ▸ bound)
    -- A root is at least one, so what its last digit leaves open at most doubles it.
    have one_le : (1 : Rat) ≤ Nat.sqrt n := by
      have : 0 < n := hn ▸ Nat.mul_pos positive (Nat.two_pow_pos _)
      exact_mod_cast Nat.sqrt_pos.2 this
    refine closest.le_of_le (isBinary_two_pow (k + 1)) ?_
    calc x * 2 ^ t ≤ (Nat.sqrt n + Nat.sqrt n) * 2 ^ t :=
          mul_le_mul_of_nonneg_right (by linarith) (by positivity)
      _ = Nat.sqrt n * 2 ^ t * 2 := by ring
      _ ≤ 2 ^ (k + 1) := by
        rw [pow_succ]
        linarith

/-- The root of a number that is not below zero is not either, and not far above the exact one. -/
theorem sqrt_bounded {u : UnpackedFloat} {a : Rat} (ha : toRat? u = some a) (nonneg : 0 ≤ a) :
    Yields (u.sqrt .binary64) fun v => 0 ≤ v ∧ ∀ k : Nat, a ≤ 4 ^ k → v ≤ 2 ^ (k + 1) := by
  cases u with
  | notANumber | infinity => cases ha
  | zero s => exact ⟨0, rfl, trivial, le_rfl, fun k _ => by positivity⟩
  | finite s m e positive =>
    cases s with
    | negative =>
      obtain rfl := Option.some.inj ((toRat?_negative m e positive).symm.trans ha)
      exact absurd nonneg (not_le.2 (negative_lt_zero positive e))
    | positive =>
      obtain rfl := Option.some.inj ha
      exact finite_sqrt_bounded positive

end

/-! ## Numbers of 64 bits -/

section
variable {x y : Float} {a b v : Rat}

theorem holds_div (ha : toRat? x.toModel.unpack = some a) (hb : toRat? y.toModel.unpack = some b)
    (nonzero : b ≠ 0) : ∃ v, Holds (x / y) v ∧ Closest (a / b) v :=
  holds_closest (div_correct ha hb nonzero)

theorem holds_toFloat (q : Rat) : ∃ v, Holds (toFloat q) v ∧ Closest q v :=
  holds_closest (nearest_correct q)

/-- A rational within the range of 64 bits has a number closest to it. -/
theorem toRat?_toFloat {q : Rat} {n : Nat} (le : |q| ≤ 2 ^ n) (small : n < 1024) :
    ∃ v, toRat? (toFloat q).toModel.unpack = some v ∧ Closest q v ∧ |v| ≤ 2 ^ n := by
  obtain ⟨v, holds, closest⟩ := holds_toFloat q
  have bound := closest.abs_le_of_le (isBinary_two_pow n) le
  exact ⟨v, holds.toRat?_eq (bound.trans_lt (pow_lt_pow_right₀ one_lt_two small)), closest, bound⟩

theorem unpack_div_infinity {s : Sign} (hx : x.toModel.unpack = .infinity s)
    (hb : toRat? y.toModel.unpack = some b) :
    ∃ s', (x / y).toModel.unpack = .infinity s' := by
  have bits : (x / y).toModel.unpack =
      unpack .binary64 (pack .binary64 (x.toModel.unpack.div .binary64 y.toModel.unpack)) := rfl
  rw [bits, hx]
  generalize y.toModel.unpack = u at hb
  cases u with
  | notANumber | infinity => cases hb
  | zero s' => exact ⟨s / s', unpack_packedInfinity⟩
  | finite s' => exact ⟨s / s', unpack_packedInfinity⟩

theorem toRat?_div_zero (x : Float) (hb : toRat? y.toModel.unpack = some 0) :
    toRat? (x / y).toModel.unpack = none := by
  refine toRat?_pack_eq_none ?_
  generalize y.toModel.unpack = u at hb
  cases u with
  | notANumber | infinity => cases hb
  | finite s m e positive =>
    have size := abs_apply_mul_zpow s m e
    rw [Option.some.inj hb, abs_zero] at size
    have : (0 : Rat) < m * 2 ^ e := magnitude_pos positive e
    exact absurd size this.ne
  | zero s =>
    generalize x.toModel.unpack = v
    cases v <;> rfl

/-- A part of a positive length is a fraction between zero and one. -/
theorem div_between (hb : toRat? y.toModel.unpack = some b) (nonneg : 0 ≤ x) (le : x ≤ y)
    (positive : 0 < b) : 0 ≤ x / y ∧ x / y ≤ 1 := by
  obtain ⟨a, ha, lower, upper⟩ := exists_toRat?_of_between toRat?_zero hb nonneg le
  obtain ⟨v, holds, closest⟩ := holds_div ha hb positive.ne'
  have one : toRat? (1 : Float).toModel.unpack = some 1 := by decide +kernel
  have above := closest.nonneg (div_nonneg lower positive.le)
  have below : v ≤ 1 := closest.le_of_le (isBinary_two_pow 0) (div_le_one_of_le₀ upper positive.le)
  have value := holds.toRat?_eq (by
    rw [abs_of_nonneg above]
    exact below.trans_lt (one_lt_pow₀ one_lt_two (by decide)))
  exact ⟨(float_le_iff toRat?_zero value).2 above, (float_le_iff value one).2 below⟩

/-- A root is finite and not far above the exact one. -/
theorem toRat?_sqrt (ha : toRat? x.toModel.unpack = some a) (nonneg : 0 ≤ a) {k : Nat}
    (bound : a ≤ 4 ^ k) (small : k + 1 < 1024) :
    ∃ v, toRat? x.sqrt.toModel.unpack = some v ∧ 0 ≤ v ∧ v ≤ 2 ^ (k + 1) := by
  obtain ⟨v, hv, canonical, above, below⟩ := sqrt_bounded ha nonneg
  refine ⟨v, Holds.toRat?_eq (holds_pack canonical hv) ?_, above, below k bound⟩
  rw [abs_of_nonneg above]
  exact (below k bound).trans_lt (pow_lt_pow_right₀ one_lt_two small)

theorem sqrt_nonneg_or_nan (x : Float) : 0 ≤ x.sqrt ∨ x.sqrt.isNaN = true := by
  have bits : x.sqrt.toModel.unpack =
      unpack .binary64 (pack .binary64 (x.toModel.unpack.sqrt .binary64)) := rfl
  have nan (h : x.toModel.unpack.sqrt .binary64 = .notANumber) : x.sqrt.isNaN = true := by
    rw [h] at bits
    exact congrArg UnpackedFloat.isNaN (bits.trans unpack_packedNaN)
  have nonneg {a : Rat} (ha : toRat? x.toModel.unpack = some a) (h : 0 ≤ a) : 0 ≤ x.sqrt := by
    obtain ⟨v, hv, canonical, above, -⟩ := sqrt_bounded ha h
    exact Holds.nonneg (holds_pack canonical hv) above
  cases hx : x.toModel.unpack with
  | notANumber => exact .inr (nan (congrArg _ hx))
  | infinity s =>
    cases s with
    | negative => exact .inr (nan (congrArg _ hx))
    | positive =>
      left
      rw [hx] at bits
      rw [le_iff_compare, bits.trans unpack_packedInfinity]
      rfl
  | zero s => exact .inl (nonneg (congrArg toRat? hx) le_rfl)
  | finite s m e positive =>
    cases s with
    | negative => exact .inr (nan (congrArg _ hx))
    | positive =>
      refine .inl (nonneg (congrArg toRat? hx) ?_)
      simp only [Sign.apply]
      positivity

end

end RouteGeometry.Number
