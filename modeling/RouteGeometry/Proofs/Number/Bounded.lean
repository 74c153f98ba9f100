import RouteGeometry.Point.Arithmetic
import RouteGeometry.Proofs.Number.Quotient

/-! # Sizes along a calculation in 64 bits

How large results can become, as exponents. A sum of many terms is added up one by one, and when it
is so large that another term makes no difference, it stays where it is. -/

namespace RouteGeometry.Number

open Float.Model (Format UnpackedFloat)
open Float.Model.UnpackedFloat

/-- The number is finite and not beyond `2 ^ n` on either side of zero. -/
def Bounded (n : Nat) (x : Float) : Prop := ∃ v, toRat? x.toModel.unpack = some v ∧ |v| ≤ 2 ^ n

section
variable {x y : Float} {m n : Nat} {a b v : Rat}

theorem Holds.bounded (h : Holds x v) (closest : Closest a v) (le : |a| ≤ 2 ^ n)
    (small : n < 1024) : Bounded n x := by
  have bound := closest.abs_le_of_le (isBinary_two_pow n) le
  exact ⟨v, h.toRat?_eq (bound.trans_lt (pow_lt_pow_right₀ one_lt_two small)), bound⟩

theorem Bounded.sub (hx : Bounded n x) (hy : Bounded n y) (small : n + 1 < 1024) :
    Bounded (n + 1) (x - y) := by
  obtain ⟨a, ha, le⟩ := hx
  obtain ⟨b, hb, le'⟩ := hy
  obtain ⟨v, holds, closest⟩ := holds_sub_closest ha hb
  refine holds.bounded closest ((abs_sub a b).trans ?_) small
  rw [pow_succ]
  linarith

theorem Bounded.mul (hx : Bounded m x) (hy : Bounded n y) (small : m + n < 1024) :
    Bounded (m + n) (x * y) := by
  obtain ⟨a, ha, le⟩ := hx
  obtain ⟨b, hb, le'⟩ := hy
  obtain ⟨v, holds, closest⟩ := holds_mul_closest ha hb
  refine holds.bounded closest ?_ small
  rw [abs_mul, pow_add]
  exact mul_le_mul le le' (abs_nonneg b) (by positivity)

theorem Bounded.square_nonneg (hx : Bounded n x) : 0 ≤ x * x := by
  obtain ⟨a, ha, -⟩ := hx
  obtain ⟨v, holds, closest⟩ := holds_mul_closest ha ha
  exact holds.nonneg (closest.nonneg (mul_self_nonneg a))

theorem Bounded.sqrt (hx : Bounded (2 * n) x) (nonneg : 0 ≤ x) (small : n + 1 < 1024) :
    Bounded (n + 1) x.sqrt := by
  obtain ⟨a, ha, le⟩ := hx
  have bound : a ≤ 4 ^ n := by
    rw [pow_mul] at le
    norm_num at le
    exact (le_abs_self a).trans le
  obtain ⟨v, hv, above, below⟩ :=
    toRat?_sqrt ha ((float_le_iff toRat?_zero ha).1 nonneg) bound small
  exact ⟨v, hv, by rwa [abs_of_nonneg above]⟩

end

/-! ## Sums -/

section
variable {x y : Float} {n : Nat} {a b v : Rat} {terms : List Float}

theorem exists_toRat?_of_add (h : toRat? (x + y).toModel.unpack = some v) :
    (∃ a, toRat? x.toModel.unpack = some a) ∧ ∃ b, toRat? y.toModel.unpack = some b := by
  have sum : toRat? (x.toModel.unpack.add .binary64 y.toModel.unpack) ≠ none := by
    intro none
    have := (toRat?_pack_eq_none none).symm.trans h
    cases this
  generalize x.toModel.unpack = u at sum ⊢
  generalize y.toModel.unpack = w at sum ⊢
  cases u with
  | notANumber => exact absurd rfl sum
  | infinity s =>
    cases w with
    | infinity s' => cases s <;> cases s' <;> exact absurd rfl sum
    | notANumber | zero | finite => exact absurd rfl sum
  | zero | finite =>
    cases w with
    | notANumber | infinity => exact absurd rfl sum
    | zero | finite => exact ⟨⟨_, rfl⟩, _, rfl⟩

theorem exists_toRat?_of_foldl (h : toRat? (terms.foldl (· + ·) x).toModel.unpack = some v) :
    (∃ a, toRat? x.toModel.unpack = some a) ∧
      ∀ t ∈ terms, ∃ b, toRat? t.toModel.unpack = some b := by
  induction terms generalizing x with
  | nil => exact ⟨⟨v, h⟩, fun t ht => absurd ht List.not_mem_nil⟩
  | cons t rest ih =>
    obtain ⟨⟨s, hs⟩, others⟩ := ih h
    obtain ⟨first, second⟩ := exists_toRat?_of_add hs
    exact ⟨first, List.forall_mem_cons.2 ⟨second, others⟩⟩

theorem exists_toRat?_of_sum (h : toRat? (sumFloat terms).toModel.unpack = some v) {t : Float}
    (ht : t ∈ terms) : ∃ b, toRat? t.toModel.unpack = some b :=
  (exists_toRat?_of_foldl h).2 t ht

theorem foldl_nonneg (h : toRat? (terms.foldl (· + ·) x).toModel.unpack = some v) (hx : 0 ≤ x)
    (nonneg : ∀ t ∈ terms, 0 ≤ t) : 0 ≤ terms.foldl (· + ·) x := by
  induction terms generalizing x with
  | nil => exact hx
  | cons t rest ih =>
    obtain ⟨ht, others⟩ := List.forall_mem_cons.1 nonneg
    rw [List.foldl_cons] at h ⊢
    obtain ⟨⟨s, hs⟩, -⟩ := exists_toRat?_of_foldl h
    obtain ⟨⟨a, ha⟩, b, hb⟩ := exists_toRat?_of_add hs
    obtain ⟨w, holds, closest⟩ := holds_add_closest ha hb
    have above := Rat.add_nonneg ((float_le_iff toRat?_zero ha).1 hx)
      ((float_le_iff toRat?_zero hb).1 ht)
    exact ih h (holds.nonneg (closest.nonneg above)) others

theorem negative_zero_nonneg : (0 : Float) ≤ -0.0 := by decide +kernel

theorem sum_nonneg (h : toRat? (sumFloat terms).toModel.unpack = some v)
    (nonneg : ∀ t ∈ terms, 0 ≤ t) : 0 ≤ sumFloat terms :=
  foldl_nonneg h negative_zero_nonneg nonneg

/-- A term makes no difference to a sum that is so much larger. -/
theorem Closest.le_of_saturated (h : Closest (a + b) v) (ha : a ≤ 2 ^ (n + 54)) (hb : b ≤ 2 ^ n) :
    v ≤ 2 ^ (n + 54) := by
  have limit : (2 : Rat) ^ (n + 54) = ((2 ^ 52 : Int) : Rat) * 2 ^ ((n + 2 : Nat) : Int) := by
    rw [zpow_natCast]
    push_cast
    ring
  have less : b < 2 ^ ((n + 2 : Nat) : Int) / 2 := by
    have positive : (0 : Rat) < 2 ^ n := by positivity
    rw [zpow_natCast, pow_add]
    linarith
  have binary := isBinary_two_pow (n + 54)
  rw [limit] at ha binary ⊢
  exact h.le_of_lt_middle le_rfl binary (add_lt_add_of_le_of_lt ha less)

theorem foldl_bounded (hx : toRat? x.toModel.unpack = some a) (above : 0 ≤ a)
    (below : a ≤ 2 ^ (n + 54)) (nonneg : ∀ t ∈ terms, 0 ≤ t) (bounded : ∀ t ∈ terms, Bounded n t)
    (small : n + 54 < 1024) :
    ∃ v, toRat? (terms.foldl (· + ·) x).toModel.unpack = some v ∧ 0 ≤ v ∧ v ≤ 2 ^ (n + 54) := by
  induction terms generalizing x a with
  | nil => exact ⟨a, hx, above, below⟩
  | cons t rest ih =>
    obtain ⟨ht, others⟩ := List.forall_mem_cons.1 nonneg
    obtain ⟨⟨b, hb, le⟩, others'⟩ := List.forall_mem_cons.1 bounded
    have hb_nonneg := (float_le_iff toRat?_zero hb).1 ht
    obtain ⟨w, holds, closest⟩ := holds_add_closest hx hb
    have lower := closest.nonneg (Rat.add_nonneg above hb_nonneg)
    have upper := closest.le_of_saturated below ((le_abs_self b).trans le)
    have value := holds.toRat?_eq (by
      rw [abs_of_nonneg lower]
      exact upper.trans_lt (pow_lt_pow_right₀ one_lt_two small))
    exact ih value lower upper others others'

theorem sum_bounded (nonneg : ∀ t ∈ terms, 0 ≤ t) (bounded : ∀ t ∈ terms, Bounded n t)
    (small : n + 54 < 1024) : Bounded (n + 54) (sumFloat terms) := by
  have zero : toRat? (-0.0 : Float).toModel.unpack = some 0 := by decide +kernel
  obtain ⟨v, value, above, below⟩ :=
    foldl_bounded zero le_rfl (by positivity) nonneg bounded small
  exact ⟨v, value, by rwa [abs_of_nonneg above]⟩

end

end RouteGeometry.Number
