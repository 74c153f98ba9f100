/-! # Binary floating point and exact rationals

The way from a binary number to the rational it stands for, and back by rounding once. -/

namespace RouteGeometry.Number

open Float.Model (Format UnpackedFloat)
open Float.Model.UnpackedFloat (Sign)

def toRat? : UnpackedFloat → Option Rat
  | .zero _ => some 0
  | .finite sign significand exponent _ => some (sign.apply significand * 2 ^ exponent)
  | .infinity _ | .notANumber => none

/-- The number of the format `format` nearest to `q`: numerator and denominator,
both held exactly, are divided and the quotient is rounded once. -/
def nearest (format : Format) (q : Rat) : UnpackedFloat :=
  if h : q.num = 0 then .zero .positive
  else
    .div format
      (.finite (if q.num < 0 then .negative else .positive) q.num.natAbs 0 (by omega))
      (.finite .positive q.den 0 q.den_pos)

def toFloat (q : Rat) : Float :=
  .ofModel (.pack (nearest .binary64 q))

def toFloat32 (q : Rat) : Float32 :=
  .ofModel (.pack (nearest .binary32 q))

/-- The number of 64 bits with the same value, sign of zero and infinities included. -/
def widen (x : Float32) : Float :=
  match x.toModel.unpack with
  | .finite sign significand exponent _ =>
    .ofModel (.pack (.round .binary64 sign significand exponent))
  | other => .ofModel (.pack other)

def order (x y : Rat) : Ordering :=
  if x < y then .lt else if x = y then .eq else .gt

/-! ## What is never NaN -/

theorem isNaN_dite {c : Prop} [Decidable c] {a : c → UnpackedFloat} {b : ¬ c → UnpackedFloat}
    (ha : ∀ h, (a h).isNaN = false) (hb : ∀ h, (b h).isNaN = false) :
    (dite c a b).isNaN = false := by
  by_cases h : c
  · rw [dif_pos h]
    exact ha h
  · rw [dif_neg h]
    exact hb h

/-- Only bits whose exponent is all ones are NaN. -/
theorem isNaN_unpack {format : Format} {bits : BitVec format.numBits}
    (h : UnpackedFloat.unpackExponent bits ≠ -1#_) :
    (UnpackedFloat.unpack format bits).isNaN = false := by
  delta UnpackedFloat.unpack
  rw [if_neg h]
  exact isNaN_dite (fun _ => isNaN_dite (fun _ => rfl) (fun _ => rfl)) (fun _ => rfl)

theorem isNaN_unpack_packComponents {format : Format} {sign : Sign}
    {exponent : BitVec format.exponentBits}
    {significand : BitVec format.mantissaBitsWithoutImplicit} (h : exponent ≠ -1#_) :
    (UnpackedFloat.unpack format
      (UnpackedFloat.packComponents format sign exponent significand)).isNaN = false :=
  isNaN_unpack (by rwa [UnpackedFloat.unpackExponent_packComponents])

/-- Bits whose fraction is zero are not NaN either. -/
theorem isNaN_unpack_packedInfinity (format : Format) (sign : Sign) :
    (UnpackedFloat.unpack format (UnpackedFloat.packedInfinity format sign)).isNaN = false := by
  delta UnpackedFloat.unpack
  have h : UnpackedFloat.unpackExponent (UnpackedFloat.packedInfinity format sign) = -1#_ :=
    UnpackedFloat.unpackExponent_packComponents
  have h' : UnpackedFloat.unpackMantissa (UnpackedFloat.packedInfinity format sign) = 0#_ :=
    UnpackedFloat.unpackMantissa_packComponents
  rw [if_pos h, if_pos h']
  rfl

theorem zero_ne_allOnes (format : Format) : BitVec.ofNat format.exponentBits 0 ≠ -1#_ := by
  intro h
  have h₁ := congrArg BitVec.toNat h
  rw [BitVec.neg_one_eq_allOnes, BitVec.toNat_allOnes, BitVec.toNat_ofNat, Nat.zero_mod] at h₁
  have h₂ : 2 ^ 1 ≤ 2 ^ format.exponentBits := Nat.pow_le_pow_right (by decide) format.he
  omega

theorem ofNat_ne_allOnes {w n : Nat} (h : n < (BitVec.allOnes w).toNat) :
    BitVec.ofNat w n ≠ -1#_ := by
  intro h₁
  have h₂ := congrArg BitVec.toNat h₁
  rw [BitVec.toNat_allOnes] at h
  rw [BitVec.neg_one_eq_allOnes, BitVec.toNat_allOnes, BitVec.toNat_ofNat,
    Nat.mod_eq_of_lt (by omega)] at h₂
  omega

theorem isNaN_unpack_pack (format : Format) {u : UnpackedFloat} (h : u.isNaN = false) :
    (UnpackedFloat.unpack format (UnpackedFloat.pack format u)).isNaN = false := by
  cases u with
  | notANumber => exact Bool.noConfusion h
  | infinity sign => exact isNaN_unpack_packedInfinity format sign
  | zero sign => exact isNaN_unpack_packComponents (zero_ne_allOnes format)
  | finite sign significand exponent positive =>
    let reads (bits : BitVec format.numBits) := (UnpackedFloat.unpack format bits).isNaN = false
    refine iteInduction (motive := reads) (fun _ => isNaN_unpack_packedInfinity format sign)
      fun inRange => iteInduction (motive := reads) (fun _ => ?_)
        fun _ => isNaN_unpack_packComponents (zero_ne_allOnes format)
    refine isNaN_unpack_packComponents (ofNat_ne_allOnes ?_)
    rw [BitVec.toNat_allOnes]
    omega

theorem isNaN_roundWithAccuracy {format : Format} {sign : Sign} {significand : Nat} {exponent : Int}
    {accuracy : UnpackedFloat.Accuracy} :
    (UnpackedFloat.roundWithAccuracy format sign significand exponent accuracy).isNaN = false := by
  delta UnpackedFloat.roundWithAccuracy
  exact isNaN_dite (fun _ => rfl) (fun _ => rfl)

theorem isNaN_nearest (format : Format) (q : Rat) : (nearest format q).isNaN = false :=
  isNaN_dite (fun _ => rfl) (fun _ => isNaN_roundWithAccuracy)

theorem isNaN_toFloat (q : Rat) : (toFloat q).isNaN = false :=
  isNaN_unpack_pack .binary64 (isNaN_nearest .binary64 q)

theorem isNaN_toFloat32 (q : Rat) : (toFloat32 q).isNaN = false :=
  isNaN_unpack_pack .binary32 (isNaN_nearest .binary32 q)

theorem isNaN_neg (u : UnpackedFloat) : u.neg.isNaN = u.isNaN := by
  cases u <;> rfl

theorem isNaN_float_neg {x : Float} (h : x.isNaN = false) : (-x).isNaN = false :=
  isNaN_unpack_pack .binary64 ((isNaN_neg _).trans h)

theorem isNaN_float32_neg {x : Float32} (h : x.isNaN = false) : (-x).isNaN = false :=
  isNaN_unpack_pack .binary32 ((isNaN_neg _).trans h)

end RouteGeometry.Number
