import Mathlib.Tactic.Ring
import RouteGeometry.Coordinate.Exact

/-! # Signs of cross products of fixed-width integers

Neither the differences nor the cross products of integers of `w` bits need fit into the type, and
the exact cross product does not even fit into twice the width. The comparison of two products of
magnitudes is exact all the same, at every width. -/

namespace RouteGeometry.FixedInt

section
variable {w : Nat}

theorem toInt_inj {a b : FixedInt w} : a.toInt = b.toInt ↔ a = b := by
  obtain ⟨a⟩ := a
  obtain ⟨b⟩ := b
  exact BitVec.toInt_inj.trans (FixedInt.mk.injEq a b).symm.to_iff

/-! ## Gaps -/

def Gap.value (u : Gap w) : Int :=
  if u.isNegative then -(u.magnitude.toNat : Int) else u.magnitude.toNat

/-- Subtraction that wraps around gives the difference when read without a sign,
whether or not the difference is in the range of the type. -/
theorem toNat_bits_sub {a b : FixedInt w} (h : b.toInt ≤ a.toInt) :
    ((a.bits - b.bits).toNat : Int) = a.toInt - b.toInt := by
  have ha := a.bits.two_mul_toInt_lt
  have hb := b.bits.le_two_mul_toInt
  have hs : a.bits - b.bits = BitVec.ofInt w (a.toInt - b.toInt) := by
    apply BitVec.eq_of_toInt_eq
    rw [BitVec.toInt_sub, BitVec.toInt_ofInt]
    rfl
  have lo : 0 ≤ a.toInt - b.toInt := by omega
  have hi : a.toInt - b.toInt < (2 ^ w : Nat) := by
    unfold toInt
    push_cast at ha hb ⊢
    omega
  rw [hs, BitVec.toNat_ofInt, Int.emod_eq_of_lt lo hi, Int.toNat_of_nonneg lo]

theorem toNat_setWidth_two_mul (x : BitVec w) : (x.setWidth (2 * w)).toNat = x.toNat :=
  BitVec.toNat_setWidth_of_le (by omega)

theorem toNat_magnitude_gap (a b : FixedInt w) :
    ((gap a b).magnitude.toNat : Int) = (a.toInt - b.toInt).natAbs := by
  unfold gap
  split
  · rename_i h
    have h := BitVec.slt_iff_toInt_lt.1 h
    rw [toNat_setWidth_two_mul, toNat_bits_sub (Int.le_of_lt h)]
    unfold toInt
    omega
  · rename_i h
    have h : ¬ a.toInt < b.toInt := fun hlt => h (BitVec.slt_iff_toInt_lt.2 hlt)
    rw [toNat_setWidth_two_mul, toNat_bits_sub (by omega)]
    omega

theorem isNegative_gap (a b : FixedInt w) :
    (gap a b).isNegative = decide (a.toInt < b.toInt) := by
  unfold gap
  split
  · rename_i h
    exact (decide_eq_true (BitVec.slt_iff_toInt_lt.1 h)).symm
  · rename_i h
    exact (decide_eq_false fun hlt => h (BitVec.slt_iff_toInt_lt.2 hlt)).symm

theorem value_gap (a b : FixedInt w) : (gap a b).value = a.toInt - b.toInt := by
  rw [Gap.value, isNegative_gap, toNat_magnitude_gap]
  by_cases h : a.toInt < b.toInt
  · simp only [h, decide_true, if_true]
    omega
  · simp only [h, decide_false, Bool.false_eq_true, if_false]
    omega

theorem magnitude_gap_lt (a b : FixedInt w) : (gap a b).magnitude.toNat < 2 ^ w := by
  unfold gap
  split <;> exact toNat_setWidth_two_mul (w := w) _ ▸ BitVec.isLt _

theorem umulOverflow_gap (a b c d : FixedInt w) :
    (gap a b).magnitude.umulOverflow (gap c d).magnitude = false := by
  have h := Nat.mul_lt_mul'' (magnitude_gap_lt a b) (magnitude_gap_lt c d)
  rw [← Nat.pow_add, ← Nat.two_mul] at h
  exact decide_eq_false (Nat.not_le.2 h)

/-! ## Products of gaps -/

theorem Gap.productIsNegative_iff (u v : Gap w) :
    u.productIsNegative v = true ↔
      u.isNegative ≠ v.isNegative ∧ u.magnitude.toNat ≠ 0 ∧ v.magnitude.toNat ≠ 0 := by
  simp [productIsNegative, and_assoc, BitVec.toNat_eq]

/-- The magnitude of the product of two gaps. -/
def Gap.productMagnitude (u v : Gap w) : Nat := u.magnitude.toNat * v.magnitude.toNat

theorem Gap.value_mul_value_of_negative {u v : Gap w} (h : u.productIsNegative v = true) :
    u.value * v.value = -(u.productMagnitude v : Int) := by
  obtain ⟨signs, -, -⟩ := (productIsNegative_iff u v).1 h
  unfold value productMagnitude
  push_cast
  cases hs : u.isNegative <;> cases ht : v.isNegative <;>
    simp only [hs, ht, ne_eq, not_true_eq_false] at signs <;>
    simp only [if_true, if_false, Bool.false_eq_true] <;> ring

/-- A product that is zero counts as positive, whichever signs the gaps carry. -/
theorem Gap.value_mul_value_of_not_negative {u v : Gap w} (h : u.productIsNegative v = false) :
    u.value * v.value = u.productMagnitude v := by
  unfold value productMagnitude
  push_cast
  by_cases hz : u.magnitude.toNat = 0 ∨ v.magnitude.toNat = 0
  · rcases hz with hz | hz <;> simp [hz]
  · obtain ⟨hu, hv⟩ := not_or.1 hz
    have same : u.isNegative = v.isNegative := by
      by_contra signs
      exact Bool.false_ne_true (h.symm.trans ((productIsNegative_iff u v).2 ⟨signs, hu, hv⟩))
    cases hs : v.isNegative <;> simp only [same, hs, if_true, if_false, Bool.false_eq_true]
    ring

theorem Gap.productMagnitude_pos {u v : Gap w} (h : u.productIsNegative v = true) :
    0 < u.productMagnitude v := by
  obtain ⟨-, hu, hv⟩ := (productIsNegative_iff u v).1 h
  exact Nat.mul_pos (by omega) (by omega)

theorem toNat_mul_gap (a b c d : FixedInt w) :
    ((gap a b).magnitude * (gap c d).magnitude).toNat = (gap a b).productMagnitude (gap c d) :=
  BitVec.toNat_mul_of_not_umulOverflow (by rw [umulOverflow_gap]; exact Bool.false_ne_true)

theorem compare_neg_neg (p q : Int) : compare (-p) (-q) = compare q p := by
  rw [Int.compare_eq_ite_lt, Int.compare_eq_ite_lt]
  simp only [Int.neg_lt_neg_iff]

theorem compare_natCast (p q : Nat) : compare (p : Int) q = compare p q := by
  rw [Nat.compare_eq_ite_lt, Int.compare_eq_ite_lt]
  simp only [Int.ofNat_lt]

theorem crossSign_eq (a₁ a₂ b₁ b₂ : Point (FixedInt w) 2) :
    crossSign a₁ a₂ b₁ b₂ =
      compare ((a₂.x.toInt - a₁.x.toInt) * (b₂.y.toInt - b₁.y.toInt))
        ((a₂.y.toInt - a₁.y.toInt) * (b₂.x.toInt - b₁.x.toInt)) := by
  rw [← value_gap, ← value_gap, ← value_gap, ← value_gap]
  unfold crossSign
  dsimp only
  rw [toNat_mul_gap, toNat_mul_gap]
  -- A negative product is below every other one, and of two negative ones the
  -- greater magnitude is the smaller number.
  split
  · rename_i hl hr
    have pos := Gap.productMagnitude_pos hl
    rw [Gap.value_mul_value_of_negative hl, Gap.value_mul_value_of_not_negative hr]
    exact (Int.compare_eq_lt.2 (by omega)).symm
  · rename_i hl hr
    have pos := Gap.productMagnitude_pos hr
    rw [Gap.value_mul_value_of_not_negative hl, Gap.value_mul_value_of_negative hr]
    exact (Int.compare_eq_gt.2 (by omega)).symm
  · rename_i hl hr
    rw [Gap.value_mul_value_of_negative hl, Gap.value_mul_value_of_negative hr, compare_neg_neg,
      compare_natCast]
  · rename_i hl hr
    rw [Gap.value_mul_value_of_not_negative hl, Gap.value_mul_value_of_not_negative hr,
      compare_natCast]

theorem compare_sub_zero (p q : Int) : compare (p - q) 0 = compare p q := by
  have below : p - q < 0 ↔ p < q := by omega
  rw [Int.compare_eq_ite_lt, Int.compare_eq_ite_lt]
  simp only [below, Int.sub_pos]

/-- **The sign of a cross product is exact at every width.** It is the sign of the
mathematical integer, and neither product of magnitudes overflows twice the width. -/
theorem crossSign_exact (a₁ a₂ b₁ b₂ : Point (FixedInt w) 2) :
    crossSign a₁ a₂ b₁ b₂ =
        compare ((a₂.x.toInt - a₁.x.toInt) * (b₂.y.toInt - b₁.y.toInt) -
          (a₂.y.toInt - a₁.y.toInt) * (b₂.x.toInt - b₁.x.toInt)) 0 ∧
      (gap a₂.x a₁.x).magnitude.umulOverflow (gap b₂.y b₁.y).magnitude = false ∧
      (gap a₂.y a₁.y).magnitude.umulOverflow (gap b₂.x b₁.x).magnitude = false := by
  refine ⟨?_, umulOverflow_gap _ _ _ _, umulOverflow_gap _ _ _ _⟩
  rw [compare_sub_zero, crossSign_eq]

end

-- The cross product of the diagonals of the whole range of 8 bits fits neither into 8 nor
-- into 16 bits.
example :
    crossSign (.plane (.ofInt (-128)) (.ofInt (-128))) (.plane (.ofInt 127) (.ofInt 127))
      (.plane (.ofInt 127) (.ofInt (-128)))
      (.plane (.ofInt (-128)) (.ofInt 127) : Point (FixedInt 8) 2) = .gt := by
  decide

end RouteGeometry.FixedInt
