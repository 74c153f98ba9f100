import RouteGeometry.Proofs.Coordinate.CrossSign
import RouteGeometry.Proofs.Number.Arithmetic

/-! # The first stage of a turn in floating point

The first stage decides by the signs of two rounded products, or by their difference where it is
not less than a bound on its error. The differences of coordinates that go into the products are
rounded, too, so a product is off by three errors of rounding and the bound by two more. The later
stages are not looked into. -/

namespace RouteGeometry

/-! ## Errors of a determinant -/

namespace Number

def productError : Rat := compound (compound roundoff roundoff) roundoff

/-- The factor of the bound on the error of a rounded determinant. -/
def boundFactor : Rat := (3 + 16 * roundoff) * roundoff

section
variable {l r L R S B D : Rat}

/-- A rounded determinant that reaches its bound has the right sign: its error is less than
itself. -/
theorem order_sub_eq_of_bound_le (hl : Within productError l L) (hr : Within productError r R)
    (sum : Within roundoff (|L| + |R|) S) (bound : Within roundoff (boundFactor * S) B)
    (det : Within roundoff (L - R) D) (reached : B ≤ |D|) : order (l - r) 0 = order D 0 := by
  have sum_nonneg : 0 ≤ S := sum.nonneg roundoff_lt_one (by positivity)
  have bound_nonneg : 0 ≤ B :=
    bound.nonneg roundoff_lt_one (mul_nonneg (by norm_num [boundFactor, roundoff]) sum_nonneg)
  have sum_le : |L| + |R| ≤ (1 + roundoff) * S := by
    have := sum.abs_le_mul
    rwa [abs_of_nonneg sum_nonneg, abs_of_nonneg (by positivity)] at this
  have bound_le : boundFactor * S ≤ (1 + roundoff) * B := by
    have := (le_abs_self _).trans bound.abs_le_mul
    rwa [abs_of_nonneg bound_nonneg] at this
  have split : |D - (l - r)| ≤ |D - (L - R)| + |L - l| + |R - r| := by
    have h₁ := abs_sub_le D (L - R) (l - r)
    have h₂ := abs_sub (L - l) (R - r)
    rw [sub_sub_sub_comm] at h₁
    linarith
  -- Twice the bound's rounding and three times the products' still leave a part of the bound over.
  have : Within (1 - roundoff) (l - r) D := by
    unfold Within productError compound boundFactor roundoff at *
    norm_num at *
    linarith
  exact this.order_eq (by norm_num [roundoff])

theorem order_zero_congr {x v : Rat} (h : order x 0 = order v 0) :
    (x < 0 ↔ v < 0) ∧ (0 < x ↔ 0 < v) := by
  rw [← order_eq_lt_iff, ← order_eq_lt_iff, ← order_eq_gt_iff, ← order_eq_gt_iff, h]
  exact ⟨Iff.rfl, Iff.rfl⟩

/-- Where the signs of two products decide, that of the determinant is right. -/
theorem order_sub_eq_of_opposite (hl : order l 0 = order L 0) (hr : order r 0 = order R 0)
    (up : ¬ (0 < L ∧ 0 < R)) (down : ¬ (L < 0 ∧ R < 0)) : order (l - r) 0 = order (L - R) 0 := by
  obtain ⟨l_neg, l_pos⟩ := order_zero_congr hl
  obtain ⟨r_neg, r_pos⟩ := order_zero_congr hr
  rcases lt_trichotomy L 0 with negative | rfl | positive
  · have opposite : ¬ R < 0 := fun h => down ⟨negative, h⟩
    have := l_neg.2 negative
    have := mt r_neg.1 opposite
    rw [order_eq_lt_iff.2 (by linarith), order_eq_lt_iff.2 (by linarith)]
  · obtain rfl := order_eq_eq_iff.1 (hl.trans (order_eq_eq_iff.2 rfl))
    rw [zero_sub, zero_sub, ← neg_zero, order_neg, order_neg, hr]
  · have opposite : ¬ 0 < R := fun h => up ⟨positive, h⟩
    have := l_pos.2 positive
    have := mt r_pos.1 opposite
    rw [order_eq_gt_iff.2 (by linarith), order_eq_gt_iff.2 (by linarith)]

end

end Number

namespace Determinant

open Number
open Float.Model.UnpackedFloat (Sign)

/-! ## The first stage -/

section
variable (p q r : Point Float 2)

/-- The product of the way in `x` from `r` to `p` and the way in `y` from `r` to `q`. -/
def leftProduct : Float := (p.x - r.x) * (q.y - r.y)

/-- The product of the way in `y` from `r` to `p` and the way in `x` from `r` to `q`. -/
def rightProduct : Float := (p.y - r.y) * (q.x - r.x)

/-- Both products lie on the same side of zero, so their signs do not decide. -/
def Compared : Prop :=
  leftProduct p q r > 0 ∧ ¬ rightProduct p q r ≤ 0 ∨
    ¬ leftProduct p q r > 0 ∧ leftProduct p q r < 0 ∧ ¬ rightProduct p q r ≥ 0

instance : Decidable (Compared p q r) := inferInstanceAs (Decidable (_ ∨ _))

/-- The magnitudes of both products, added, where they lie on the same side of zero. -/
def magnitudes : Float :=
  if leftProduct p q r > 0 then leftProduct p q r + rightProduct p q r
  else -leftProduct p q r - rightProduct p q r

/-- The first stage leaves the sign to the later ones. -/
def Undecided : Prop :=
  Compared p q r ∧
    decides (leftProduct p q r - rightProduct p q r) (roundedBound * magnitudes p q r) = false

instance : Decidable (Undecided p q r) := inferInstanceAs (Decidable (_ ∧ _))

theorem turnSign_eq_ite :
    turnSign p q r =
      if Undecided p q r then refinedTurnSign p q r (magnitudes p q r)
      else signOf (leftProduct p q r - rightProduct p q r) := by
  change (if leftProduct p q r > 0 then
      if rightProduct p q r ≤ 0 then signOf (leftProduct p q r - rightProduct p q r)
      else settledSign p q r (leftProduct p q r - rightProduct p q r)
        (leftProduct p q r + rightProduct p q r)
    else if leftProduct p q r < 0 then
      if rightProduct p q r ≥ 0 then signOf (leftProduct p q r - rightProduct p q r)
      else settledSign p q r (leftProduct p q r - rightProduct p q r)
        (-leftProduct p q r - rightProduct p q r)
    else signOf (leftProduct p q r - rightProduct p q r)) = _
  unfold Undecided Compared magnitudes settledSign
  by_cases positive : leftProduct p q r > 0
  · by_cases opposite : rightProduct p q r ≤ 0
    · simp [positive, opposite]
    · cases h : decides (leftProduct p q r - rightProduct p q r)
        (roundedBound * (leftProduct p q r + rightProduct p q r)) <;> simp [positive, opposite, h]
  · by_cases negative : leftProduct p q r < 0
    · by_cases opposite : rightProduct p q r ≥ 0
      · simp [positive, negative, opposite]
      · cases h : decides (leftProduct p q r - rightProduct p q r)
          (roundedBound * (-leftProduct p q r - rightProduct p q r)) <;>
            simp [positive, negative, opposite, h]
    · simp [positive, negative]

end

/-! ## Where nothing is too large or too small -/

/-- A finite number that is not too small to have all of its digits. -/
def Normal (x : Float) : Prop := ∃ v ∈ Binary.toRat? x, 2 ^ (-1022 : Int) ≤ |v|

/-- The product of two numbers is finite, and zero only if one of them is. -/
def Kept (x y : Float) : Prop :=
  ∃ v ∈ Binary.toRat? (x * y), v = 0 → Binary.toRat? x = some 0 ∨ Binary.toRat? y = some 0

instance (x : Float) : Decidable (Normal x) :=
  inferInstanceAs (Decidable (∃ v ∈ Binary.toRat? x, 2 ^ (-1022 : Int) ≤ |v|))

instance (x y : Float) : Decidable (Kept x y) :=
  inferInstanceAs (Decidable (∃ v ∈ Binary.toRat? (x * y),
    v = 0 → Binary.toRat? x = some 0 ∨ Binary.toRat? y = some 0))

/-- What the first stage multiplies is neither too large nor too small: the products have their
signs, and all of their digits where these matter. -/
structure InRange (p q r : Point Float 2) : Prop where
  left : Kept (p.x - r.x) (q.y - r.y)
  right : Kept (p.y - r.y) (q.x - r.x)
  compared : Compared p q r → Normal (leftProduct p q r) ∧ Normal (rightProduct p q r) ∧
    Normal (roundedBound * magnitudes p q r)

theorem Normal.isFinite {x : Float} (h : Normal x) : x.isFinite = true := by
  obtain ⟨v, hv, -⟩ := h
  change Number.toRat? x.toModel.unpack = some v at hv
  change x.toModel.unpack.isFinite = true
  generalize x.toModel.unpack = u at hv ⊢
  cases u with
  | notANumber | infinity => cases hv
  | zero | finite => rfl

theorem InRange.isFinite_bound {p q r : Point Float 2} (h : InRange p q r)
    (compared : Compared p q r) : (roundedBound * magnitudes p q r).isFinite = true :=
  (h.compared compared).2.2.isFinite

section
variable {x y : Float} {a b v w : Rat}

/-- The sign of a number is that of the value it stands for, and of the value that was too large
for it. -/
theorem signOf_of_holds (h : Holds x v) : signOf x = order v 0 := by
  rcases h with hv | ⟨s, infinite, large⟩
  · rw [signOf_eq, Binary.order?_eq hv toRat?_zero]
    rfl
  · have side : 0 < ((s.apply 1 : Int) : Rat) * v := (pow_pos two_pos 1024).trans_le large
    have zero : (0 : Float).toModel.unpack = .zero .positive := unpack_zero
    rw [signOf_eq, Binary.order?, Binary.less_float, Binary.less_float, infinite, zero]
    cases s with
    | negative =>
      rw [order_eq_lt_iff.2 (by simpa [Sign.apply] using side)]
      rfl
    | positive =>
      have : Binary.equal x 0 = false := by
        change (x.toModel.unpack.compare (.zero .positive) == some .eq) = false
        rw [infinite]
        rfl
      rw [order_eq_gt_iff.2 (by simpa [Sign.apply] using side), this]
      rfl

/-- A kept product of two differences has the right sign, and no more than three errors of
rounding if it has all of its digits. -/
theorem product_spec {a₁ a₂ b₁ b₂ : Float} {p₁ p₂ q₁ q₂ : Rat} (h₁ : Binary.toRat? a₁ = some p₁)
    (h₂ : Binary.toRat? a₂ = some p₂) (h₃ : Binary.toRat? b₁ = some q₁)
    (h₄ : Binary.toRat? b₂ = some q₂) (kept : Kept (a₁ - a₂) (b₁ - b₂)) :
    ∃ v, Binary.toRat? ((a₁ - a₂) * (b₁ - b₂)) = some v ∧
      order ((p₁ - p₂) * (q₁ - q₂)) 0 = order v 0 ∧
      (2 ^ (-1022 : Int) ≤ |v| → Within productError ((p₁ - p₂) * (q₁ - q₂)) v) := by
  obtain ⟨v, hv, zero⟩ := kept
  obtain ⟨⟨d, hd⟩, e, he⟩ := exists_toRat?_of_mul hv
  obtain ⟨d', holds_d, near_d⟩ := holds_sub h₁ h₂
  obtain ⟨e', holds_e, near_e⟩ := holds_sub h₃ h₄
  obtain rfl := holds_d.value_eq hd
  obtain rfl := holds_e.value_eq he
  obtain ⟨v', holds_v, rounded⟩ := holds_mul hd he
  obtain rfl := holds_v.value_eq hv
  have factors := near_d.mul near_e roundoff_nonneg
  refine ⟨v, hv, ?_, ?_⟩
  · rw [factors.order_eq (by norm_num [compound, roundoff])]
    by_cases nonzero : v = 0
    · rcases zero nonzero with h | h
      · obtain rfl := Option.some.inj (hd.symm.trans h)
        rw [nonzero, zero_mul]
      · obtain rfl := Option.some.inj (he.symm.trans h)
        rw [nonzero, mul_zero]
    · exact rounded.order_eq nonzero
  · intro normal
    exact factors.trans (rounded.within_of_le normal) (by norm_num [compound, roundoff])

end

section
variable {p q r : Point Float 2} {L R : Rat} (hL : Binary.toRat? (leftProduct p q r) = some L)
  (hR : Binary.toRat? (rightProduct p q r) = some R)

include hL hR

theorem compared_iff : Compared p q r ↔ 0 < L ∧ 0 < R ∨ L < 0 ∧ R < 0 := by
  unfold Compared
  rw [gt_iff_lt, ge_iff_le, float_lt_iff toRat?_zero hL, float_lt_iff hL toRat?_zero,
    float_le_iff hR toRat?_zero, float_le_iff toRat?_zero hR, not_le, not_le]
  constructor
  · rintro (h | ⟨-, h⟩)
    · exact .inl h
    · exact .inr h
  · rintro (h | h)
    · exact .inl h
    · exact .inr ⟨not_lt.2 h.1.le, h⟩

theorem holds_magnitudes (compared : Compared p q r) :
    ∃ S, Holds (magnitudes p q r) S ∧ Within roundoff (|L| + |R|) S := by
  have side : leftProduct p q r > 0 ↔ 0 < L := float_lt_iff toRat?_zero hL
  unfold magnitudes
  rcases (compared_iff hL hR).1 compared with ⟨left, right⟩ | ⟨left, right⟩
  · rw [if_pos (side.2 left), abs_of_pos left, abs_of_pos right]
    exact holds_add hL hR
  · have negated : Binary.toRat? (-leftProduct p q r) = some (-L) := by
      refine (holds_of_toRat? hL).neg.toRat?_eq ?_
      rw [abs_neg]
      exact abs_lt_of_toRat? hL
    rw [if_neg (mt side.1 left.not_gt), abs_of_neg left, abs_of_neg right, ← sub_eq_add_neg]
    exact holds_sub negated hR

end

theorem toRat?_roundedBound : Binary.toRat? roundedBound = some boundFactor := by
  decide +kernel

theorem le_abs_of_decides {det bound : Float} {D B : Rat} (holds : Holds det D)
    (hB : Binary.toRat? bound = some B) (h : decides det bound = true) : B ≤ |D| := by
  unfold decides at h
  rw [Bool.or_eq_true, decide_eq_true_iff, decide_eq_true_iff] at h
  rcases h with above | below
  · exact (holds.le_of_le hB above).trans (le_abs_self D)
  · exact (holds.neg.le_of_le hB below).trans (neg_le_abs D)

/-- Where the first stage decides, and nothing is too large or too small for it, it tells the sign
of the exact determinant. -/
theorem signOf_eq_of_not_undecided {p q r : Point Float 2} {p' q' r' : Point Rat 2}
    (hp : p.toRat? = some p') (hq : q.toRat? = some q') (hr : r.toRat? = some r')
    (range : InRange p q r) (decided : ¬ Undecided p q r) :
    signOf (leftProduct p q r - rightProduct p q r) =
      order ((p'.x - r'.x) * (q'.y - r'.y) - (p'.y - r'.y) * (q'.x - r'.x)) 0 := by
  obtain ⟨px, py⟩ := Point.toRat?_eq_some_iff.1 hp
  obtain ⟨qx, qy⟩ := Point.toRat?_eq_some_iff.1 hq
  obtain ⟨rx, ry⟩ := Point.toRat?_eq_some_iff.1 hr
  obtain ⟨L, hL, left, left_within⟩ := product_spec px rx qy ry range.left
  obtain ⟨R, hR, right, right_within⟩ := product_spec py ry qx rx range.right
  obtain ⟨D, holds, det⟩ := holds_sub hL hR
  have same : signOf (leftProduct p q r - rightProduct p q r) = order D 0 := signOf_of_holds holds
  rw [same]
  -- Either the bound keeps the determinant away from its errors, or both signs decide.
  by_cases compared : Compared p q r
  · obtain ⟨⟨L', hL', left_normal⟩, ⟨R', hR', right_normal⟩, ⟨B, hB, bound_normal⟩⟩ :=
      range.compared compared
    obtain rfl := Option.some.inj (hL.symm.trans hL')
    obtain rfl := Option.some.inj (hR.symm.trans hR')
    obtain ⟨-, S, hS⟩ := exists_toRat?_of_mul hB
    obtain ⟨S', holds_S, sum⟩ := holds_magnitudes hL hR compared
    obtain rfl := holds_S.value_eq hS
    obtain ⟨B', holds_B, bound⟩ := holds_mul toRat?_roundedBound hS
    obtain rfl := holds_B.value_eq hB
    have reached : B ≤ |D| := by
      refine le_abs_of_decides holds hB ?_
      by_contra short
      exact decided ⟨compared, Bool.eq_false_iff.2 short⟩
    exact (order_sub_eq_of_bound_le (left_within left_normal) (right_within right_normal)
      sum (bound.within_of_le bound_normal) det reached).symm
  · rw [compared_iff hL hR, not_or] at compared
    rw [order_sub_eq_of_opposite left right compared.1 compared.2]
    exact (det.order_eq roundoff_lt_one).symm

end Determinant

end RouteGeometry
