import RouteGeometry.Proofs.Number.Arithmetic

/-! # Signs and bounds in 64 bits

Rounding does not carry a result across zero, and what lies between finite numbers is finite. -/

namespace RouteGeometry.Number

open Float.Model (Format UnpackedFloat)
open Float.Model.UnpackedFloat

section
variable {x y z : Float} {a b v : Rat}

theorem isFinite_iff : x.isFinite = true ↔ ∃ v, toRat? x.toModel.unpack = some v := by
  change x.toModel.unpack.isFinite = true ↔ _
  cases x.toModel.unpack with
  | notANumber | infinity => exact ⟨nofun, fun ⟨_, h⟩ => nomatch h⟩
  | zero | finite => exact ⟨fun _ => ⟨_, rfl⟩, fun _ => rfl⟩

/-- A result whose value is not below zero is not below zero, infinite or not. -/
theorem Holds.nonneg (h : Holds x v) (hv : 0 ≤ v) : 0 ≤ x := by
  rcases h with hx | ⟨s, infinite, large⟩
  · exact (float_le_iff toRat?_zero hx).2 hv
  · cases s with
    | negative =>
      have positive : (0 : Rat) < 2 ^ 1024 := by positivity
      have large : 2 ^ 1024 ≤ -v := by simpa [Sign.apply] using large
      exact absurd (positive.trans_le large) (not_lt.2 (neg_nonpos.2 hv))
    | positive =>
      rw [le_iff_compare, infinite]
      rfl

theorem exists_toRat?_of_between (hx : toRat? x.toModel.unpack = some a)
    (hz : toRat? z.toModel.unpack = some b) (above : x ≤ y) (below : y ≤ z) :
    ∃ v, toRat? y.toModel.unpack = some v ∧ a ≤ v ∧ v ≤ b := by
  suffices finite : ∃ v, toRat? y.toModel.unpack = some v by
    obtain ⟨v, hy⟩ := finite
    exact ⟨v, hy, (float_le_iff hx hy).1 above, (float_le_iff hy hz).1 below⟩
  rw [le_iff_compare] at above below
  cases hy : y.toModel.unpack with
  | notANumber =>
    rw [hy] at below
    cases below
  | infinity s =>
    cases s with
    | negative =>
      rw [hy, (compare_infinity hx).2.2.1] at above
      cases above
    | positive =>
      rw [hy, (compare_infinity hz).2.1] at below
      cases below
  | zero | finite => exact ⟨_, rfl⟩

theorem sub_nonneg_of_le (hx : toRat? x.toModel.unpack = some a)
    (hy : toRat? y.toModel.unpack = some b) (le : b ≤ a) : 0 ≤ x - y := by
  obtain ⟨v, holds, near⟩ := holds_sub hx hy
  exact holds.nonneg (near.nonneg roundoff_lt_one (sub_nonneg.2 le))

/-- The same for what is left of an infinity. -/
theorem float_sub_nonneg (hy : toRat? y.toModel.unpack = some b) (le : y ≤ x) : 0 ≤ x - y := by
  have bits : (x - y).toModel.unpack =
      unpack .binary64 (pack .binary64 (x.toModel.unpack.sub .binary64 y.toModel.unpack)) := rfl
  cases hx : x.toModel.unpack with
  | notANumber =>
    have nan : x.isNaN = true := congrArg UnpackedFloat.isNaN hx
    rw [(not_nan_of_le le).2] at nan
    cases nan
  | infinity s =>
    cases s with
    | negative =>
      rw [le_iff_compare, hx, (compare_infinity hy).2.2.1] at le
      cases le
    | positive =>
      have result : (UnpackedFloat.infinity .positive).sub .binary64 y.toModel.unpack =
          .infinity .positive := by
        generalize y.toModel.unpack = u at hy
        cases u with
        | notANumber | infinity => cases hy
        | zero | finite => rfl
      rw [hx, result] at bits
      rw [le_iff_compare, bits.trans unpack_packedInfinity]
      rfl
  | zero | finite =>
    exact sub_nonneg_of_le (congrArg toRat? hx) hy ((float_le_iff hy (congrArg toRat? hx)).1 le)

theorem unpack_add_infinity {s : Sign} (ha : toRat? x.toModel.unpack = some a)
    (hy : y.toModel.unpack = .infinity s) : (x + y).toModel.unpack = .infinity s := by
  have bits : (x + y).toModel.unpack =
      unpack .binary64 (pack .binary64 (x.toModel.unpack.add .binary64 y.toModel.unpack)) := rfl
  rw [bits, hy]
  generalize x.toModel.unpack = u at ha
  cases u with
  | notANumber | infinity => cases ha
  | zero | finite => exact unpack_packedInfinity

theorem isNaN_sub_of_isNaN (x : Float) (h : y.isNaN = true) : (x - y).isNaN = true := by
  have result : x.toModel.unpack.sub .binary64 y.toModel.unpack = .notANumber := by
    rw [unpack_of_isNaN h]
    cases x.toModel.unpack <;> rfl
  change (unpack .binary64 (pack .binary64 (x.toModel.unpack.sub .binary64 _))).isNaN = true
  rw [result]
  exact congrArg UnpackedFloat.isNaN unpack_packedNaN

theorem isNaN_sub_of_isNaN_left (y : Float) (h : x.isNaN = true) : (x - y).isNaN = true := by
  change (unpack .binary64 (pack .binary64 (x.toModel.unpack.sub .binary64 _))).isNaN = true
  rw [unpack_of_isNaN h]
  exact congrArg UnpackedFloat.isNaN unpack_packedNaN

theorem isNaN_mul_of_isNaN (y : Float) (h : x.isNaN = true) : (x * y).isNaN = true := by
  change (unpack .binary64 (pack .binary64 (x.toModel.unpack.mul .binary64 _))).isNaN = true
  rw [unpack_of_isNaN h]
  exact congrArg UnpackedFloat.isNaN unpack_packedNaN

theorem toRat?_abs {u : UnpackedFloat} (ha : toRat? u = some a) : toRat? u.abs = some |a| := by
  cases u with
  | notANumber | infinity => cases ha
  | zero s =>
    cases ha
    rw [abs_zero]
    rfl
  | finite s m e positive =>
    obtain rfl := Option.some.inj ha
    rw [abs_apply_mul_zpow]
    rfl

theorem canonical_abs {format : Format} {u : UnpackedFloat} (h : Canonical format u) :
    Canonical format u.abs := by
  cases u <;> exact h

theorem holds_abs (ha : toRat? x.toModel.unpack = some a) : Holds x.abs |a| :=
  holds_pack (canonical_abs (canonical_float x)) (toRat?_abs ha)

theorem abs_nonneg_or_nan (x : Float) : 0 ≤ x.abs ∨ x.abs.isNaN = true := by
  have bits : x.abs.toModel.unpack = unpack .binary64 (pack .binary64 x.toModel.unpack.abs) := rfl
  cases hx : x.toModel.unpack with
  | notANumber =>
    right
    rw [hx] at bits
    exact congrArg UnpackedFloat.isNaN (bits.trans unpack_packedNaN)
  | infinity s =>
    left
    rw [hx] at bits
    rw [le_iff_compare, bits.trans unpack_packedInfinity]
    rfl
  | zero | finite =>
    left
    exact (holds_abs (congrArg toRat? hx)).nonneg (abs_nonneg _)

end

end RouteGeometry.Number
