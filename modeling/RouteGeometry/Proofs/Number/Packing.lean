import Mathlib
import RouteGeometry.Proofs.Number.Comparison

/-! # Numbers written as bits

A number in canonical form fits the bits of its format unless its exponent is too large, and then it
is written as an infinity. -/

namespace RouteGeometry.Number

open Float.Model (Format UnpackedFloat)
open Float.Model.UnpackedFloat

section
variable {format : Format} {s : Sign} {exponent : BitVec format.exponentBits}
  {fraction : BitVec format.mantissaBitsWithoutImplicit}

theorem unpack_packedInfinity : unpack format (packedInfinity format s) = .infinity s := by
  simp [packedInfinity, unpack]

/-- Bits with a fraction but without an exponent are those of a number next to zero. -/
theorem unpack_packComponents_zero (h : 0 < fraction.toNat) :
    unpack format (packComponents format s 0#_ fraction) =
      .finite s fraction.toNat (leastExponent format) h := by
  have nonzero : fraction ≠ 0#_ := by
    rintro rfl
    simp at h
  have small := zero_ne_allOnes format
  have exponent : -((format.exponentBias : Int) + format.mantissaBitsWithoutImplicit) + 1 =
      leastExponent format := by
    unfold leastExponent
    omega
  simpa [unpack, nonzero, small] using exponent

theorem unpack_packComponents (h : exponent ≠ -1#_) (h' : exponent ≠ 0#_)
    (positive : 0 < (1#1 ++ fraction).toNat) :
    unpack format (packComponents format s exponent fraction) =
      .finite s (1#1 ++ fraction).toNat
        (exponent.toNat - (format.exponentBias + format.mantissaBitsWithoutImplicit))
        positive := by
  simp [unpack, h, h']

section
variable {m : Nat} {positive : 0 < m}

/-- Short significands are written without an exponent. -/
theorem unpack_short (positive : 0 < m) (below : m < 2 ^ format.mantissaBitsWithoutImplicit) :
    unpack format (packComponents format s 0#_ (BitVec.ofNat _ m)) =
      .finite s m (leastExponent format) positive := by
  have fraction : (BitVec.ofNat format.mantissaBitsWithoutImplicit m).toNat = m := by
    rw [BitVec.toNat_ofNat, Nat.mod_eq_of_lt below]
  rw [unpack_packComponents_zero (fraction.symm ▸ positive), UnpackedFloat.finite.injEq, fraction]
  exact ⟨rfl, rfl, rfl⟩

/-- Of full significands the leading digit is left out, as the exponent tells of it. -/
theorem unpack_full {b : Nat} (above : 2 ^ format.mantissaBitsWithoutImplicit ≤ m)
    (fits : m < 2 ^ (format.mantissaBitsWithoutImplicit + 1))
    (inRange : b + 1 < 2 ^ format.exponentBits - 1) :
    unpack format (packComponents format s (BitVec.ofNat _ (b + 1)) (BitVec.ofNat _ m)) =
      .finite s m (b + 1 - (format.exponentBias + format.mantissaBitsWithoutImplicit))
        positive := by
  rw [Nat.pow_succ] at fits
  have exponent : (BitVec.ofNat format.exponentBits (b + 1)).toNat = b + 1 := by
    rw [BitVec.toNat_ofNat, Nat.mod_eq_of_lt (by omega)]
  have fraction : (BitVec.ofNat format.mantissaBitsWithoutImplicit m).toNat =
      m - 2 ^ format.mantissaBitsWithoutImplicit := by
    rw [BitVec.toNat_ofNat, Nat.mod_eq_sub_mod above, Nat.mod_eq_of_lt (by omega)]
  have upper : BitVec.ofNat format.exponentBits (b + 1) ≠ -1#_ := by
    refine ofNat_ne_allOnes ?_
    rwa [BitVec.toNat_allOnes]
  have lower : BitVec.ofNat format.exponentBits (b + 1) ≠ 0#_ := by
    intro zero
    rw [zero] at exponent
    simp at exponent
  have leading : 0 < (1#1 ++ BitVec.ofNat format.mantissaBitsWithoutImplicit m).toNat := by
    rw [significand_eq]
    positivity
  rw [unpack_packComponents upper lower leading, UnpackedFloat.finite.injEq, significand_eq,
    fraction, exponent]
  exact ⟨rfl, by omega, by omega⟩

/-- Writing a finite number in canonical form as bits and reading it back gives the same number,
or an infinity if its exponent is too large. -/
theorem unpack_pack_finite {e : Int} (h : Canonical format (.finite s m e positive)) :
    unpack format (pack format (.finite s m e positive)) = .finite s m e positive ∨
      2 ^ format.exponentBits ≤ e + format.exponentBias + format.mantissaBitsWithoutImplicit + 1 ∧
        unpack format (pack format (.finite s m e positive)) = .infinity s := by
  obtain ⟨fits, least, leads⟩ := h
  unfold leastExponent at least leads
  obtain ⟨b, rfl⟩ : ∃ b : Nat,
      e = b + 1 - (format.exponentBias + format.mantissaBitsWithoutImplicit) :=
    ⟨(e + format.exponentBias + format.mantissaBitsWithoutImplicit - 1).toNat, by omega⟩
  have biased : ((b + 1 - (format.exponentBias + format.mantissaBitsWithoutImplicit) : Int) +
      format.exponentBias + format.mantissaBitsWithoutImplicit).toNat = b + 1 := by
    omega
  simp only [pack, biased]
  split
  · rename_i large
    refine .inr ⟨?_, unpack_packedInfinity⟩
    have : ((2 ^ format.exponentBits : Nat) : Int) ≤ (b + 1 + 1 : Nat) := by exact_mod_cast large
    push_cast at this
    omega
  · rename_i inRange
    left
    split
    · rename_i full
      refine unpack_full ((Nat.le_log2 positive.ne').1 ?_) fits (by omega)
      unfold Format.mantissaBits at full
      omega
    · rename_i short
      have below : m < 2 ^ format.mantissaBitsWithoutImplicit := by
        by_contra above
        refine short ?_
        have := (Nat.le_log2 positive.ne').2 (Nat.le_of_not_lt above)
        have := (Nat.log2_lt positive.ne').2 fits
        unfold Format.mantissaBits
        omega
      rw [unpack_short positive below, UnpackedFloat.finite.injEq]
      refine ⟨rfl, rfl, ?_⟩
      unfold leastExponent
      by_contra other
      have := leads (by omega)
      omega

end

end

theorem exponent_lt {format : Format} (wide : 1 < format.exponentBits)
    {bits : BitVec format.numBits} {s : Sign} {m : Nat} {e : Int} {positive : 0 < m}
    (h : unpack format bits = .finite s m e positive) :
    e + format.exponentBias + format.mantissaBitsWithoutImplicit + 1 < 2 ^ format.exponentBits := by
  have below := (unpackExponent bits).isLt
  unfold unpack at h
  simp only at h
  split at h
  · split at h <;> cases h
  · rename_i upper
    have : (unpackExponent bits).toNat ≠ 2 ^ format.exponentBits - 1 := by
      intro all
      refine upper (BitVec.eq_of_toNat_eq ?_)
      rw [all, BitVec.neg_one_eq_allOnes, BitVec.toNat_allOnes]
    have cast : ((2 ^ format.exponentBits : Nat) : Int) = 2 ^ format.exponentBits := by
      rw [Int.natCast_pow]
      rfl
    split at h
    · rename_i zero
      have four : 2 ^ 2 ≤ 2 ^ format.exponentBits := Nat.pow_le_pow_right two_pos wide
      rw [zero] at h
      split at h <;> cases h
      rw [BitVec.toNat_ofNat, Nat.zero_mod]
      omega
    · cases h
      omega

end RouteGeometry.Number
