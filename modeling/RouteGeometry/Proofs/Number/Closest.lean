import RouteGeometry.Proofs.Number.Arithmetic

/-! # The closest number of 64 bits

A result is rounded to the closest of all numbers with 53 digits, however large. So it does not
pass such a number, which says where the result lies without a look at its digits. -/

namespace RouteGeometry.Number

open Float.Model (Format UnpackedFloat)
open Float.Model.UnpackedFloat

/-! ## Numbers with 53 digits -/

/-- The number has 53 digits and ends where the least ones do, or before. -/
def IsBinary (y : Rat) : Prop := ∃ t, -1074 ≤ t ∧ Multiple t y ∧ |y| ≤ 2 ^ 53 * 2 ^ t

section
variable {y : Rat} {t : Int}

theorem isBinary_mul_zpow {i : Int} (fits : |i| ≤ 2 ^ 53) (least : -1074 ≤ t) :
    IsBinary (i * 2 ^ t) := by
  have positive : (0 : Rat) < 2 ^ t := by positivity
  refine ⟨t, least, ⟨i, rfl⟩, ?_⟩
  rw [abs_mul, abs_of_pos positive]
  exact mul_le_mul_of_nonneg_right (by exact_mod_cast fits) positive.le

theorem isBinary_intCast {i : Int} (fits : |i| ≤ 2 ^ 53) : IsBinary i := by
  have := isBinary_mul_zpow (t := 0) fits (by decide)
  rwa [zpow_zero, mul_one] at this

theorem isBinary_two_pow (n : Nat) : IsBinary (2 ^ n) := by
  have := isBinary_mul_zpow (i := 1) (t := n) (by decide) (by omega)
  rwa [Int.cast_one, one_mul, zpow_natCast] at this

theorem IsBinary.neg (h : IsBinary y) : IsBinary (-y) := by
  obtain ⟨t, least, multiple, size⟩ := h
  exact ⟨t, least, multiple.neg, by rwa [abs_neg]⟩

theorem isBinary_of_canonical {u : UnpackedFloat} (hu : Canonical .binary64 u)
    (hy : toRat? u = some y) : IsBinary y := by
  cases u with
  | notANumber | infinity => cases hy
  | zero s =>
    cases hy
    exact isBinary_intCast (i := 0) (by decide)
  | finite s m e h =>
    obtain rfl := Option.some.inj hy
    refine isBinary_mul_zpow ?_ hu.2.1
    have fits : m < 2 ^ 53 := hu.1
    rw [Int.abs_eq_natAbs]
    cases s <;> simp only [Sign.apply] <;> omega

/-- Numbers with a last digit that counts less are smaller. -/
theorem IsBinary.multiple_or_abs_le (h : IsBinary y) (t : Int) :
    Multiple t y ∨ |y| ≤ 2 ^ 52 * 2 ^ t ∧ -1074 < t := by
  obtain ⟨e, least, multiple, size⟩ := h
  rcases le_or_gt t e with le | lt
  · exact .inl (multiple.mono le)
  · right
    have half : (2 : Rat) ^ e * 2 ≤ 2 ^ t := by
      rw [← zpow_add_one₀ two_ne_zero]
      exact zpow_le_zpow_right₀ one_le_two lt
    constructor
    · linarith
    · omega

/-- Beyond a number with all of its digits the next one is a whole step away. -/
theorem IsBinary.next_le (h : IsBinary y) {n : Int} (full : 2 ^ 52 ≤ n) (above : n * 2 ^ t < y) :
    (n + 1) * 2 ^ t ≤ y := by
  have positive : (0 : Rat) < 2 ^ t := by positivity
  rcases h.multiple_or_abs_le t with ⟨j, rfl⟩ | ⟨small, -⟩
  · have : n < j := Int.cast_lt.1 (lt_of_mul_lt_mul_right above positive.le)
    exact mul_le_mul_of_nonneg_right (by exact_mod_cast this) positive.le
  · have full : (2 ^ 52 : Rat) ≤ n := by exact_mod_cast full
    have := mul_le_mul_of_nonneg_right full positive.le
    exact absurd above (not_lt.2 ((le_abs_self y).trans (small.trans this)))

end

/-! ## Closest numbers -/

/-- No number with 53 digits is closer to `x` than `v` is. -/
structure Closest (x v : Rat) : Prop where
  binary : IsBinary v
  best (y : Rat) (h : IsBinary y) : |v - x| ≤ |y - x|

section
variable {x y v : Rat} {t : Int}

/-- Of the multiples of its last digit a rounded number is the nearest one. -/
theorem CorrectAt.abs_le_of_multiple (h : CorrectAt x v t) (hy : Multiple t y) :
    |v - x| ≤ |y - x| := by
  by_cases same : y = v
  · rw [same]
  · have apart := (hy.sub h.multiple).le_abs (sub_ne_zero.2 same)
    have triangle := abs_sub_le y x v
    rw [abs_sub_comm x v] at triangle
    linarith [h.near]

theorem Correct.closest (h : Correct x v) (hv : IsBinary v) : Closest x v where
  binary := hv
  best y hy := by
    obtain ⟨t, correct⟩ := h
    rcases hy.multiple_or_abs_le t with multiple | ⟨small, normal⟩
    · exact correct.abs_le_of_multiple multiple
    · -- Numbers with more digits behind are on this side of the least one with all digits.
      have lead : Multiple t (2 ^ 52 * 2 ^ t) := ⟨2 ^ 52, by norm_num⟩
      have positive : (0 : Rat) < 2 ^ 52 * 2 ^ t := by positivity
      have full := correct.leads normal
      rcases le_or_gt 0 x with above | below
      · refine (correct.abs_le_of_multiple lead).trans ?_
        rw [abs_of_nonneg above] at full
        rw [abs_sub_comm, abs_of_nonneg (sub_nonneg.2 full), abs_sub_comm y]
        exact (sub_le_sub_left ((le_abs_self y).trans small) x).trans (le_abs_self _)
      · refine (correct.abs_le_of_multiple lead.neg).trans ?_
        rw [abs_of_neg below] at full
        rw [abs_of_nonneg (by linarith)]
        have := (neg_le_neg small).trans (neg_abs_le y)
        exact le_trans (by linarith) (le_abs_self (y - x))

theorem Closest.neg (h : Closest x v) : Closest (-x) (-v) where
  binary := h.binary.neg
  best y hy := by
    have mirrored (w : Rat) : |-w - -x| = |w - x| := by rw [neg_sub_neg, abs_sub_comm]
    have best := h.best (-y) hy.neg
    rwa [← mirrored v, ← mirrored (-y), neg_neg] at best

theorem Closest.le_of_le (h : Closest x v) (hy : IsBinary y) (le : x ≤ y) : v ≤ y := by
  by_contra above
  have best := h.best y hy
  rw [abs_of_nonneg (by linarith), abs_of_nonneg (by linarith)] at best
  linarith

theorem Closest.le_of_ge (h : Closest x v) (hy : IsBinary y) (le : y ≤ x) : y ≤ v :=
  neg_le_neg_iff.1 (h.neg.le_of_le hy.neg (neg_le_neg le))

theorem Closest.abs_le_of_le (h : Closest x v) (hy : IsBinary y) (le : |x| ≤ y) : |v| ≤ y :=
  have ⟨lower, upper⟩ := abs_le.1 le
  abs_le.2 ⟨h.le_of_ge hy.neg lower, h.le_of_le hy upper⟩

theorem Closest.le_abs (h : Closest x v) (hy : IsBinary y) (le : y ≤ |x|) : y ≤ |v| := by
  rcases le_abs'.1 le with negative | positive
  · exact le_abs'.2 (.inl (h.le_of_le hy.neg negative))
  · exact le_abs'.2 (.inr (h.le_of_ge hy positive))

theorem Closest.nonneg (h : Closest x v) (hx : 0 ≤ x) : 0 ≤ v :=
  h.le_of_ge (isBinary_intCast (i := 0) (by decide)) hx

theorem Closest.eq_of_isBinary (h : Closest x v) (hx : IsBinary x) : v = x :=
  le_antisymm (h.le_of_le hx le_rfl) (h.le_of_ge hx le_rfl)

/-- What lies below the middle of two neighbours is rounded to the lower one at most. -/
theorem Closest.le_of_lt_middle (h : Closest x v) {n : Int} (full : 2 ^ 52 ≤ n)
    (hn : IsBinary (n * 2 ^ t)) (below : x < n * 2 ^ t + 2 ^ t / 2) : v ≤ n * 2 ^ t := by
  rcases le_or_gt x (n * 2 ^ t) with le | lt
  · exact h.le_of_le hn le
  · by_contra above
    have next := h.binary.next_le full (not_le.1 above)
    have best := h.best _ hn
    rw [add_mul, one_mul] at next
    rw [abs_of_nonneg (by linarith), abs_of_neg (by linarith)] at best
    linarith

end

/-! ## Numbers of 64 bits -/

def greatest : Rat := (2 ^ 53 - 1) * 2 ^ 971

theorem greatest_eq : greatest = ((2 ^ 53 - 1 : Int) : Rat) * 2 ^ (971 : Int) := by
  have power : (2 : Rat) ^ (971 : Int) = 2 ^ 971 := zpow_natCast 2 971
  have digits : ((2 ^ 53 - 1 : Int) : Rat) = 2 ^ 53 - 1 := by norm_num
  rw [greatest, power, digits]

theorem isBinary_greatest : IsBinary greatest :=
  greatest_eq ▸ isBinary_mul_zpow (by decide) (by decide)

/-- The next number would be the first one that is too large. -/
theorem greatest_add : greatest + 2 ^ 971 = 2 ^ 1024 := by
  have carried : (2 : Rat) ^ 1024 = 2 ^ 53 * 2 ^ 971 := by rw [← pow_add]
  rw [greatest, carried, sub_mul, one_mul, sub_add_cancel]

theorem greatest_lt : greatest < 2 ^ 1024 :=
  greatest_add ▸ lt_add_of_pos_right _ (by positivity)

section
variable {x y : Float} {a b v : Rat}

theorem isBinary_of_toRat? (ha : toRat? x.toModel.unpack = some a) : IsBinary a :=
  isBinary_of_canonical (canonical_float x) ha

theorem IsBinary.le_greatest (h : IsBinary a) (lt : a < 2 ^ 1024) : a ≤ greatest := by
  by_contra above
  have next := h.next_le (by decide) (greatest_eq ▸ not_le.1 above)
  rw [add_mul, one_mul, ← greatest_eq] at next
  exact (greatest_add.symm.le.trans next).not_gt lt

theorem abs_le_greatest (ha : toRat? x.toModel.unpack = some a) : |a| ≤ greatest := by
  obtain ⟨lower, upper⟩ := abs_lt.1 (abs_lt_of_toRat? ha)
  have binary := isBinary_of_toRat? ha
  rw [abs_le']
  exact ⟨binary.le_greatest upper, binary.neg.le_greatest (neg_lt.1 lower)⟩

/-- A result that is not beyond the greatest number is finite. -/
theorem Holds.toRat?_of_le (h : Holds x v) (le : |v| ≤ greatest) :
    toRat? x.toModel.unpack = some v :=
  h.toRat?_eq (le.trans_lt greatest_lt)

/-- What a calculation keeps of a number, written as bits. -/
theorem holds_closest {u : UnpackedFloat} (h : Yields u (Correct a)) :
    ∃ v, Holds (.ofModel (.pack u)) v ∧ Closest a v := by
  obtain ⟨v, hv, canonical, correct⟩ := h
  exact ⟨v, holds_pack canonical hv, correct.closest (isBinary_of_canonical canonical hv)⟩

theorem holds_add_closest (ha : toRat? x.toModel.unpack = some a)
    (hb : toRat? y.toModel.unpack = some b) : ∃ v, Holds (x + y) v ∧ Closest (a + b) v :=
  holds_closest (add_correct (canonical_float x) (canonical_float y) ha hb)

theorem holds_sub_closest (ha : toRat? x.toModel.unpack = some a)
    (hb : toRat? y.toModel.unpack = some b) : ∃ v, Holds (x - y) v ∧ Closest (a - b) v :=
  holds_closest (sub_correct (canonical_float x) (canonical_float y) ha hb)

theorem holds_mul_closest (ha : toRat? x.toModel.unpack = some a)
    (hb : toRat? y.toModel.unpack = some b) : ∃ v, Holds (x * y) v ∧ Closest (a * b) v :=
  holds_closest (mul_correct (canonical_float x) (canonical_float y) ha hb)

/-- What exceeds the greatest number by less than half a step is rounded to it. -/
theorem Closest.abs_le_greatest (h : Closest a v) (small : |a| < greatest + 2 ^ 970) :
    |v| ≤ greatest := by
  have half : (2 : Rat) ^ 970 = 2 ^ (971 : Int) / 2 := by
    have double : (2 : Rat) ^ (971 : Int) = 2 ^ 970 * 2 :=
      (zpow_natCast 2 971).trans (pow_succ 2 970)
    rw [double, mul_div_cancel_right₀ _ two_ne_zero]
  have below {x w : Rat} (h : Closest x w) (lt : x < greatest + 2 ^ 970) : w ≤ greatest := by
    rw [half, greatest_eq] at lt
    rw [greatest_eq]
    exact h.le_of_lt_middle (by decide) (greatest_eq ▸ isBinary_greatest) lt
  obtain ⟨lower, upper⟩ := abs_lt.1 small
  exact abs_le'.2 ⟨below h upper, below h.neg (neg_lt.1 lower)⟩

theorem add_small (ha : toRat? x.toModel.unpack = some a) (hb : toRat? y.toModel.unpack = some b)
    (small : |a| < 2 ^ 970) : ∃ v, toRat? (x + y).toModel.unpack = some v ∧ Closest (a + b) v := by
  obtain ⟨v, holds, closest⟩ := holds_add_closest ha hb
  have sum := add_lt_add_of_le_of_lt (Number.abs_le_greatest hb) small
  rw [add_comm |b|] at sum
  exact ⟨v, holds.toRat?_of_le (closest.abs_le_greatest ((abs_add_le a b).trans_lt sum)), closest⟩

theorem sub_small (ha : toRat? x.toModel.unpack = some a) (hb : toRat? y.toModel.unpack = some b)
    (small : |b| < 2 ^ 970) : ∃ v, toRat? (x - y).toModel.unpack = some v ∧ Closest (a - b) v := by
  obtain ⟨v, holds, closest⟩ := holds_sub_closest ha hb
  have sum := add_lt_add_of_le_of_lt (Number.abs_le_greatest ha) small
  exact ⟨v, holds.toRat?_of_le (closest.abs_le_greatest ((abs_sub a b).trans_lt sum)), closest⟩

end

end RouteGeometry.Number
