import Mathlib.Algebra.Order.Field.Rat
import Mathlib.Order.Compare
import Mathlib.Order.WithBot
import Mathlib.Tactic.Ring
import RouteGeometry.Number.Exact

/-! # Comparing binary numbers by their values

A binary number in canonical form has as many digits as the format allows, unless its exponent is
the least one. So of two such numbers the one with the greater exponent is the greater one, and
comparing exponents first and significands afterwards compares the values. -/

namespace RouteGeometry.Number

open Float.Model (Format UnpackedFloat)
open Float.Model.UnpackedFloat (Sign)

/-! ## The order of rationals -/

theorem order_eq_compare (x y : Rat) : order x y = compare x y := by
  unfold order
  split
  · rename_i h
    exact (compare_lt_iff_lt.2 h).symm
  · rename_i h
    split
    · rename_i h'
      exact (compare_eq_iff_eq.2 h').symm
    · rename_i h'
      exact (compare_gt_iff_gt.2 (lt_of_le_of_ne (not_lt.1 h) (Ne.symm h'))).symm

theorem order_eq_eq_iff {x y : Rat} : order x y = .eq ↔ x = y := by
  rw [order_eq_compare]
  exact compare_eq_iff_eq

theorem order_eq_lt_iff {x y : Rat} : order x y = .lt ↔ x < y := by
  rw [order_eq_compare]
  exact compare_lt_iff_lt

theorem order_eq_gt_iff {x y : Rat} : order x y = .gt ↔ y < x := by
  rw [order_eq_compare]
  exact compare_gt_iff_gt

theorem order_beq_eq (x y : Rat) : (order x y == .eq) = decide (x = y) := by
  refine Bool.eq_iff_iff.2 ?_
  rw [beq_iff_eq, order_eq_eq_iff, decide_eq_true_iff]

theorem order_intCast (i j : Int) : order i j = compare i j := by
  unfold order
  simp only [Rat.intCast_lt_intCast, Rat.intCast_inj]
  rfl

/-! ## Canonical form -/

def leastExponent (format : Format) : Int :=
  1 - (format.exponentBias + format.mantissaBitsWithoutImplicit)

/-- The significand fits, and has its leading digit unless the exponent is the least one. -/
def Canonical (format : Format) : UnpackedFloat → Prop
  | .finite _ significand exponent _ =>
    significand < 2 ^ (format.mantissaBitsWithoutImplicit + 1) ∧
      leastExponent format ≤ exponent ∧
      (leastExponent format < exponent → 2 ^ format.mantissaBitsWithoutImplicit ≤ significand)
  | _ => True

/-- The significand that a fraction and its leading digit make up. -/
theorem significand_eq {w : Nat} (fraction : BitVec w) :
    (1#1 ++ fraction).toNat = 2 ^ w + fraction.toNat := by
  have apart := Nat.two_pow_add_eq_or_of_lt fraction.isLt 1
  rw [Nat.mul_one] at apart
  rw [apart, BitVec.toNat_append]
  simp [Nat.shiftLeft_eq]

theorem canonical_dite {format : Format} {c : Prop} [Decidable c] {u : c → UnpackedFloat}
    {v : ¬ c → UnpackedFloat} (hu : ∀ h, Canonical format (u h))
    (hv : ∀ h, Canonical format (v h)) : Canonical format (dite c u v) := by
  by_cases h : c
  · rw [dif_pos h]
    exact hu h
  · rw [dif_neg h]
    exact hv h

theorem canonical_unpack (format : Format) (bits : BitVec format.numBits) :
    Canonical format (UnpackedFloat.unpack format bits) := by
  have fraction := (UnpackedFloat.unpackMantissa bits).isLt
  delta UnpackedFloat.unpack
  refine canonical_dite (fun _ => canonical_dite (fun _ => trivial) fun _ => trivial) fun _ =>
    canonical_dite (fun hz => canonical_dite (fun _ => trivial) fun _ => ?_) fun hz => ?_
  · have zero : (UnpackedFloat.unpackExponent bits).toNat = 0 := by
      rw [hz]
      rfl
    refine ⟨?_, ?_, fun h => ?_⟩
    · rw [Nat.pow_succ]
      omega
    · unfold leastExponent
      omega
    · unfold leastExponent at h
      omega
  · have nonzero : (UnpackedFloat.unpackExponent bits).toNat ≠ 0 := fun h =>
      hz (BitVec.eq_of_toNat_eq h)
    refine ⟨?_, ?_, fun _ => ?_⟩
    · rw [significand_eq, Nat.pow_succ]
      omega
    · unfold leastExponent
      omega
    · rw [significand_eq]
      exact Nat.le_add_right _ _

def magnitude (significand : Nat) (exponent : Int) : Rat := significand * 2 ^ exponent

theorem magnitude_pos {significand : Nat} (h : 0 < significand) (exponent : Int) :
    0 < magnitude significand exponent :=
  Rat.mul_pos (Rat.natCast_pos.2 h) (Rat.zpow_pos (by decide))

/-- A greater exponent outweighs every significand. -/
theorem magnitude_lt_of_exponent_lt {format : Format} {s₁ s₂ : Sign} {m₁ m₂ : Nat} {e₁ e₂ : Int}
    {h₁ : 0 < m₁} {h₂ : 0 < m₂} (c₁ : Canonical format (.finite s₁ m₁ e₁ h₁))
    (c₂ : Canonical format (.finite s₂ m₂ e₂ h₂)) (h : e₁ < e₂) :
    magnitude m₁ e₁ < magnitude m₂ e₂ := by
  obtain ⟨fits, least, -⟩ := c₁
  obtain ⟨-, -, leads⟩ := c₂
  have full : 2 ^ format.mantissaBitsWithoutImplicit ≤ m₂ := leads (by omega)
  obtain ⟨k, rfl⟩ : ∃ k : Nat, e₂ = e₁ + (k + 1) := ⟨(e₂ - e₁ - 1).toNat, by omega⟩
  have shifted : m₁ < m₂ * 2 ^ (k + 1) := by
    have h₁ : 2 ^ format.mantissaBitsWithoutImplicit * 2 ≤ m₂ * 2 := Nat.mul_le_mul_right 2 full
    have h₂ : m₂ * 2 ≤ m₂ * 2 * 2 ^ k := Nat.le_mul_of_pos_right _ (Nat.two_pow_pos k)
    rw [Nat.pow_succ] at fits
    rw [Nat.pow_succ', ← Nat.mul_assoc]
    omega
  have split : (2 : Rat) ^ (e₁ + (k + 1) : Int) = 2 ^ e₁ * ((2 ^ (k + 1) : Nat) : Rat) := by
    rw [Rat.zpow_add (by decide), ← Int.natCast_succ, Rat.zpow_natCast, Rat.natCast_pow]
    rfl
  calc magnitude m₁ e₁ < ((m₂ * 2 ^ (k + 1) : Nat) : Rat) * 2 ^ e₁ :=
        Rat.mul_lt_mul_of_pos_right (Rat.natCast_lt_natCast.2 shifted) (Rat.zpow_pos (by decide))
    _ = magnitude m₂ (e₁ + (k + 1)) := by
        rw [magnitude, split, Rat.natCast_mul]
        ring

theorem magnitude_lt_of_significand_lt {m₁ m₂ : Nat} (h : m₁ < m₂) (e : Int) :
    magnitude m₁ e < magnitude m₂ e :=
  Rat.mul_lt_mul_of_pos_right (Rat.natCast_lt_natCast.2 h) (Rat.zpow_pos (by decide))

/-- Exponents first and significands afterwards order the magnitudes. -/
theorem compare_then_compare {format : Format} {s₁ s₂ : Sign} {m₁ m₂ : Nat} {e₁ e₂ : Int}
    {h₁ : 0 < m₁} {h₂ : 0 < m₂} (c₁ : Canonical format (.finite s₁ m₁ e₁ h₁))
    (c₂ : Canonical format (.finite s₂ m₂ e₂ h₂)) :
    (compare e₁ e₂).then (compare m₁ m₂) = order (magnitude m₁ e₁) (magnitude m₂ e₂) := by
  rcases Int.lt_trichotomy e₁ e₂ with he | rfl | he
  · rw [Int.compare_eq_lt.2 he, order_eq_lt_iff.2 (magnitude_lt_of_exponent_lt c₁ c₂ he)]
    rfl
  · rw [Int.compare_eq_eq.2 rfl]
    rcases Nat.lt_trichotomy m₁ m₂ with hm | rfl | hm
    · rw [Nat.compare_eq_lt.2 hm, order_eq_lt_iff.2 (magnitude_lt_of_significand_lt hm e₁)]
      rfl
    · rw [Nat.compare_eq_eq.2 rfl, order_eq_eq_iff.2 rfl]
      rfl
    · rw [Nat.compare_eq_gt.2 hm, order_eq_gt_iff.2 (magnitude_lt_of_significand_lt hm e₁)]
      rfl
  · rw [Int.compare_eq_gt.2 he, order_eq_gt_iff.2 (magnitude_lt_of_exponent_lt c₂ c₁ he)]
    rfl

/-! ## Comparing -/

theorem order_neg (x y : Rat) : order (-x) (-y) = (order x y).swap := by
  rw [order_eq_compare, order_eq_compare]
  rcases lt_trichotomy x y with h | rfl | h
  · rw [compare_gt_iff_gt.2 (Rat.neg_lt_neg h), compare_lt_iff_lt.2 h]
    rfl
  · rw [compare_eq_iff_eq.2 rfl, compare_eq_iff_eq.2 rfl]
    rfl
  · rw [compare_lt_iff_lt.2 (Rat.neg_lt_neg h), compare_gt_iff_gt.2 h]
    rfl

theorem toRat?_negative (m : Nat) (e : Int) (h : 0 < m) :
    toRat? (.finite .negative m e h) = some (-magnitude m e) := by
  have : ((-(m : Int) : Int) : Rat) = -(m : Rat) := by rw [Rat.intCast_neg, Rat.intCast_natCast]
  change some (((-(m : Int) : Int) : Rat) * 2 ^ e) = some (-magnitude m e)
  rw [this, Rat.neg_mul]
  rfl

theorem negative_lt_zero {m : Nat} (h : 0 < m) (e : Int) : -magnitude m e < 0 :=
  Rat.neg_lt_iff.1 (by simpa using magnitude_pos h e)

theorem compare_of_toRat? {format : Format} {u v : UnpackedFloat} (hu : Canonical format u)
    (hv : Canonical format v) {x y : Rat} (hx : toRat? u = some x) (hy : toRat? v = some y) :
    u.compare v = some (order x y) := by
  cases u with
  | notANumber | infinity => cases hx
  | zero =>
    cases hx
    cases v with
    | notANumber | infinity => cases hy
    | zero =>
      cases hy
      rfl
    | finite s m e h =>
      cases s with
      | negative =>
        cases (toRat?_negative m e h).symm.trans hy
        exact congrArg some (order_eq_gt_iff.2 (negative_lt_zero h e)).symm
      | positive =>
        cases hy
        exact congrArg some (order_eq_lt_iff.2 (magnitude_pos h e)).symm
  | finite s m e h =>
    cases v with
    | notANumber | infinity => cases hy
    | zero =>
      cases hy
      cases s with
      | negative =>
        cases (toRat?_negative m e h).symm.trans hx
        exact congrArg some (order_eq_lt_iff.2 (negative_lt_zero h e)).symm
      | positive =>
        cases hx
        exact congrArg some (order_eq_gt_iff.2 (magnitude_pos h e)).symm
    | finite s' m' e' h' =>
      -- The signs decide unless they are the same; then the magnitudes do.
      have both := compare_then_compare hu hv
      cases s with
      | negative =>
        cases (toRat?_negative m e h).symm.trans hx
        cases s' with
        | negative =>
          cases (toRat?_negative m' e' h').symm.trans hy
          rw [order_neg, ← both]
          rfl
        | positive =>
          cases hy
          have := (negative_lt_zero h e).trans (magnitude_pos h' e')
          exact congrArg some (order_eq_lt_iff.2 this).symm
      | positive =>
        cases hx
        cases s' with
        | negative =>
          cases (toRat?_negative m' e' h').symm.trans hy
          have := (negative_lt_zero h' e').trans (magnitude_pos h e)
          exact congrArg some (order_eq_gt_iff.2 this).symm
        | positive =>
          cases hy
          exact congrArg some both

/-- The place of a number among the rationals with both infinities. NaN has none. -/
def place? : UnpackedFloat → Option (WithBot (WithTop Rat))
  | .infinity .negative => some ⊥
  | .infinity .positive => some (⊤ : WithTop Rat)
  | u => (toRat? u).map fun q => ((q : WithTop Rat) : WithBot (WithTop Rat))

/-- What has a place is infinite or has a value. -/
theorem place?_cases {u : UnpackedFloat} {x : WithBot (WithTop Rat)} (h : place? u = some x) :
    (u = .infinity .negative ∧ x = ⊥) ∨ (u = .infinity .positive ∧ x = (⊤ : WithTop Rat)) ∨
      ∃ q : Rat, toRat? u = some q ∧ x = (q : WithTop Rat) := by
  cases u with
  | notANumber => cases h
  | infinity s =>
    cases s with
    | negative => exact .inl ⟨rfl, (Option.some.inj h).symm⟩
    | positive => exact .inr (.inl ⟨rfl, (Option.some.inj h).symm⟩)
  | zero | finite => exact .inr (.inr ⟨_, rfl, (Option.some.inj h).symm⟩)

theorem compare_infinity {u : UnpackedFloat} {x : Rat} (h : toRat? u = some x) :
    (UnpackedFloat.infinity .negative).compare u = some .lt ∧
      (UnpackedFloat.infinity .positive).compare u = some .gt ∧
      u.compare (.infinity .negative) = some .gt ∧
      u.compare (.infinity .positive) = some .lt := by
  cases u with
  | notANumber | infinity => cases h
  | zero | finite => exact ⟨rfl, rfl, rfl, rfl⟩

theorem compare_eq_compare {format : Format} {u v : UnpackedFloat} (hu : Canonical format u)
    (hv : Canonical format v) {x y : WithBot (WithTop Rat)} (hx : place? u = some x)
    (hy : place? v = some y) : u.compare v = some (compare x y) := by
  rcases place?_cases hx with ⟨rfl, rfl⟩ | ⟨rfl, rfl⟩ | ⟨p, hp, rfl⟩ <;>
    rcases place?_cases hy with ⟨rfl, rfl⟩ | ⟨rfl, rfl⟩ | ⟨q, hq, rfl⟩
  · exact congrArg some (compare_eq_iff_eq.2 rfl).symm
  · exact congrArg some (compare_lt_iff_lt.2 (WithBot.bot_lt_coe _)).symm
  · rw [(compare_infinity hq).1, compare_lt_iff_lt.2 (WithBot.bot_lt_coe _)]
  · exact congrArg some (compare_gt_iff_gt.2 (WithBot.bot_lt_coe _)).symm
  · exact congrArg some (compare_eq_iff_eq.2 rfl).symm
  · rw [(compare_infinity hq).2.1,
      compare_gt_iff_gt.2 (WithBot.coe_lt_coe.2 (WithTop.coe_lt_top q))]
  · rw [(compare_infinity hp).2.2.1, compare_gt_iff_gt.2 (WithBot.bot_lt_coe _)]
  · rw [(compare_infinity hp).2.2.2,
      compare_lt_iff_lt.2 (WithBot.coe_lt_coe.2 (WithTop.coe_lt_top p))]
  · rw [compare_of_toRat? hu hv hp hq, order_eq_compare]
    rcases lt_trichotomy p q with h | rfl | h
    · rw [compare_lt_iff_lt.2 h,
        compare_lt_iff_lt.2 (WithBot.coe_lt_coe.2 (WithTop.coe_lt_coe.2 h))]
    · rw [compare_eq_iff_eq.2 rfl, compare_eq_iff_eq.2 rfl]
    · rw [compare_gt_iff_gt.2 h,
        compare_gt_iff_gt.2 (WithBot.coe_lt_coe.2 (WithTop.coe_lt_coe.2 h))]

/-! ## Numbers of 32 and of 64 bits -/

theorem canonical_float (x : Float) : Canonical .binary64 x.toModel.unpack :=
  canonical_unpack .binary64 _

theorem canonical_float32 (x : Float32) : Canonical .binary32 x.toModel.unpack :=
  canonical_unpack .binary32 _

theorem le_iff_compare {x y : Float} :
    x ≤ y ↔ (x.toModel.unpack.compare y.toModel.unpack).any (·.isLE) = true := by
  change decide (x.toModel ≤ y.toModel) = true ↔ _
  exact decide_eq_true_iff

theorem lt_iff_compare {x y : Float} :
    x < y ↔ (x.toModel.unpack.compare y.toModel.unpack == some .lt) = true := by
  change decide (x.toModel < y.toModel) = true ↔ _
  exact decide_eq_true_iff

/-- Only NaN has no place, and it is not comparable. -/
theorem exists_place? {u : UnpackedFloat} (h : u ≠ .notANumber) : ∃ p, place? u = some p := by
  cases u with
  | notANumber => exact absurd rfl h
  | infinity s => cases s <;> exact ⟨_, rfl⟩
  | zero | finite => exact ⟨_, rfl⟩

theorem place?_of_compare {u v : UnpackedFloat} {o : Ordering} (h : u.compare v = some o) :
    (∃ p, place? u = some p) ∧ ∃ q, place? v = some q := by
  refine ⟨exists_place? ?_, exists_place? ?_⟩
  · rintro rfl
    cases h
  · rintro rfl
    cases u <;> cases h

/-- Only numbers with a place are comparable, and they are ordered by it. -/
theorem le_iff_place {x y : Float} :
    x ≤ y ↔ ∃ p q, place? x.toModel.unpack = some p ∧ place? y.toModel.unpack = some q ∧ p ≤ q := by
  rw [le_iff_compare]
  constructor
  · intro h
    obtain ⟨o, ho, hle⟩ := (Option.any_eq_true _ _).1 h
    obtain ⟨⟨p, hp⟩, ⟨q, hq⟩⟩ := place?_of_compare ho
    rw [compare_eq_compare (canonical_float x) (canonical_float y) hp hq] at ho
    obtain rfl := Option.some.inj ho
    exact ⟨p, q, hp, hq, compare_le_iff_le.1 (Ordering.isLE_iff_ne_gt.1 hle)⟩
  · rintro ⟨p, q, hp, hq, hle⟩
    rw [compare_eq_compare (canonical_float x) (canonical_float y) hp hq]
    exact Ordering.isLE_iff_ne_gt.2 (compare_le_iff_le.2 hle)

theorem unpack_of_isNaN {x : Float} (h : x.isNaN = true) : x.toModel.unpack = .notANumber := by
  change x.toModel.unpack.isNaN = true at h
  generalize x.toModel.unpack = u at h ⊢
  cases u with
  | notANumber => rfl
  | infinity | zero | finite => cases h

theorem not_nan_of_place? {x : Float} {p : WithBot (WithTop Rat)}
    (h : place? x.toModel.unpack = some p) : x.isNaN = false := by
  by_contra nan
  rw [unpack_of_isNaN (Bool.not_eq_false _ ▸ nan)] at h
  cases h

theorem not_nan_of_le {x y : Float} (h : x ≤ y) : x.isNaN = false ∧ y.isNaN = false := by
  obtain ⟨p, q, hp, hq, -⟩ := le_iff_place.1 h
  exact ⟨not_nan_of_place? hp, not_nan_of_place? hq⟩

theorem not_nan_of_isFinite {x : Float} (h : x.isFinite = true) : x.isNaN = false := by
  by_contra nan
  change x.toModel.unpack.isFinite = true at h
  rw [unpack_of_isNaN (Bool.not_eq_false _ ▸ nan)] at h
  cases h

theorem exists_float_place? {x : Float} (h : x.isNaN = false) :
    ∃ p, place? x.toModel.unpack = some p := by
  refine exists_place? fun nan => ?_
  change x.toModel.unpack.isNaN = false at h
  rw [nan] at h
  cases h

/-- Of two numbers that are not NaN one is not greater than the other. -/
theorem float_le_of_not_lt {x y : Float} (hx : x.isNaN = false) (hy : y.isNaN = false)
    (h : ¬x < y) : y ≤ x := by
  obtain ⟨p, hp⟩ := exists_float_place? hx
  obtain ⟨q, hq⟩ := exists_float_place? hy
  refine le_iff_place.2 ⟨q, p, hq, hp, not_lt.1 fun less => h ?_⟩
  rw [lt_iff_compare, compare_eq_compare (canonical_float x) (canonical_float y) hp hq,
    compare_lt_iff_lt.2 less]
  rfl

theorem float_le_of_lt {x y : Float} (h : x < y) : x ≤ y := by
  rw [lt_iff_compare, beq_iff_eq] at h
  rw [le_iff_compare, h]
  rfl

theorem float_lt_of_not_le {x y : Float} (h : x ≤ y) (h' : ¬ y ≤ x) : x < y := by
  by_contra other
  exact h' (float_le_of_not_lt (not_nan_of_le h).1 (not_nan_of_le h).2 other)

theorem float_le_trans {x y z : Float} (hxy : x ≤ y) (hyz : y ≤ z) : x ≤ z := by
  obtain ⟨p, q, hp, hq, hpq⟩ := le_iff_place.1 hxy
  obtain ⟨q', r, hq', hr, hqr⟩ := le_iff_place.1 hyz
  obtain rfl : q = q' := Option.some.inj (hq.symm.trans hq')
  exact le_iff_place.2 ⟨p, r, hp, hr, hpq.trans hqr⟩

end RouteGeometry.Number
