import RouteGeometry.Proofs.Coordinate.Faithful

/-! # The sign of a cross product, whatever the type of coordinates

Integers split differences into a sign and a magnitude, rationals are compared as they are, and
floating-point numbers are lifted into rationals or, where one of them is NaN or infinite,
calculated with as they are. Where there are exact values, all of them tell the same sign. -/

namespace RouteGeometry

/-! ## Signs in floating point -/

namespace Determinant

open Float.Model (UnpackedFloat)

theorem unpack_zero : (0 : Float).toModel.unpack = .zero .positive := rfl

/-- No number lies on both sides of zero. -/
theorem not_less_zero_of_zero_less {x : Float} (h : Binary.less 0 x = true) :
    Binary.less x 0 = false := by
  rw [Binary.less_float, unpack_zero] at h ⊢
  generalize x.toModel.unpack = u at h ⊢
  cases u with
  | notANumber | zero => rfl
  | infinity s | finite s =>
    cases s with
    | positive => rfl
    | negative => contradiction

theorem not_equal_zero_of_zero_less {x : Float} (h : Binary.less 0 x = true) :
    Binary.equal x 0 = false := by
  rw [Binary.less_float, unpack_zero] at h
  change (x.toModel.unpack.compare (.zero .positive) == some .eq) = false
  generalize x.toModel.unpack = u at h ⊢
  cases u with
  | notANumber => rfl
  | zero => contradiction
  | infinity s | finite s => cases s <;> rfl

/-- The sign of a number is its order next to zero, and zero where there is none. -/
theorem signOf_eq (x : Float) : signOf x = (Binary.order? x 0).getD .eq := by
  have positive : x > 0 ↔ Binary.less 0 x = true := decide_eq_true_iff.symm
  have negative : x < 0 ↔ Binary.less x 0 = true := decide_eq_true_iff.symm
  unfold signOf Binary.order?
  simp only [positive, negative]
  by_cases above : Binary.less 0 x = true
  · rw [if_pos above, not_less_zero_of_zero_less above, not_equal_zero_of_zero_less above,
      if_pos above]
    rfl
  · rw [if_neg above, if_neg above]
    split
    · rfl
    · split <;> rfl

theorem signOf_of_isNaN {x : Float} (h : x.isNaN = true) : signOf x = .eq := by
  have alone := Number.unpack_of_isNaN h
  have less (y : Float) : Binary.less x y = false := by
    rw [Binary.less_float, alone]
    rfl
  have greater : Binary.less 0 x = false := by
    rw [Binary.less_float, unpack_zero, alone]
    rfl
  have equal : Binary.equal x 0 = false := by
    change (x.toModel.unpack.compare (.zero .positive) == some .eq) = false
    rw [alone]
    rfl
  rw [signOf_eq, Binary.order?, less, equal, greater]
  rfl

end Determinant

/-! ## Exact values -/

namespace Number

/-- A difference lies on the side of zero on which its terms lie of each other. -/
theorem compare_sub_zero (x y : Rat) : compare (x - y) 0 = order x y := by
  rw [order_eq_compare]
  rcases lt_trichotomy x y with h | rfl | h
  · rw [compare_lt_iff_lt.2 (sub_neg.2 h), compare_lt_iff_lt.2 h]
  · rw [sub_self, compare_eq_iff_eq.2 rfl, compare_eq_iff_eq.2 rfl]
  · rw [compare_gt_iff_gt.2 (sub_pos.2 h), compare_gt_iff_gt.2 h]

end Number

namespace Coordinate

section
variable {α : Type} [Coordinate α] [Faithful α] {a₁ a₂ b₁ b₂ : Point α 2}
  {a₁' a₂' b₁' b₂' : Point Rat 2} (ha₁ : a₁.toRat? = some a₁') (ha₂ : a₂.toRat? = some a₂')
  (hb₁ : b₁.toRat? = some b₁') (hb₂ : b₂.toRat? = some b₂')

include ha₁ ha₂ hb₁ hb₂

theorem crossSign_eq_compare :
    crossSign a₁ a₂ b₁ b₂ =
      compare ((a₂'.x - a₁'.x) * (b₂'.y - b₁'.y) - (a₂'.y - a₁'.y) * (b₂'.x - b₁'.x)) 0 := by
  rw [Faithful.crossSign_eq ha₁ ha₂ hb₁ hb₂, Number.compare_sub_zero]
  change Number.order ((a₂' - a₁').x * (b₂' - b₁').y) ((a₂' - a₁').y * (b₂' - b₁').x) = _
  simp only [Displacement.x_sub, Displacement.y_sub]

end

end Coordinate

/-! ## Coordinates without exact values -/

theorem Point.map_map {α β γ : Type} (f : α → β) (g : β → γ) (p : Point α 2) :
    (p.map f).map g = p.map fun x => g (f x) := by
  apply plane_ext
  · rw [x_map, x_map, x_map]
  · rw [y_map, y_map, y_map]

namespace Binary

section
variable {F G : Type} [Binary F]

/-- Without all exact values the sign is that of the rounded cross product. -/
theorem crossSign_eq_rounded {a₁ a₂ b₁ b₂ : Point F 2}
    (h : a₁.mapPlane? toRat? = none ∨ a₂.mapPlane? toRat? = none ∨ b₁.mapPlane? toRat? = none ∨
      b₂.mapPlane? toRat? = none) :
    crossSign a₁ a₂ b₁ b₂ =
      roundedCrossSign (a₁.map toFloat) (a₂.map toFloat) (b₁.map toFloat) (b₂.map toFloat) := by
  unfold crossSign
  split
  · rename_i h₁ h₂ h₃ h₄
    simp [h₁, h₂, h₃, h₄] at h
  · rfl

theorem crossSign_map_eq_rounded (value : G → F) {a₁ a₂ b₁ b₂ : Point G 2}
    (h : (a₁.mapPlane? fun x => toRat? (value x)) = none ∨
      (a₂.mapPlane? fun x => toRat? (value x)) = none ∨
      (b₁.mapPlane? fun x => toRat? (value x)) = none ∨
      (b₂.mapPlane? fun x => toRat? (value x)) = none) :
    crossSign (a₁.map value) (a₂.map value) (b₁.map value) (b₂.map value) =
      roundedCrossSign (a₁.map fun x => toFloat (value x)) (a₂.map fun x => toFloat (value x))
        (b₁.map fun x => toFloat (value x)) (b₂.map fun x => toFloat (value x)) := by
  simp only [← Point.mapPlane?_map] at h
  rw [crossSign_eq_rounded h, Point.map_map, Point.map_map, Point.map_map, Point.map_map]

end

end Binary

namespace CoordinateKind

section
variable {k : CoordinateKind} {a₁ a₂ b₁ b₂ : Point k.Carrier 2}

theorem exists_toRat?_of_isExact (h : k.isExact = true) (p : Point k.Carrier 2) :
    ∃ p', p.toRat? = some p' :=
  have := exact_of_isExact h
  p.exists_toRat?

/-- Only floating-point numbers lack exact values, and then the sign is that of the rounded
cross product. -/
theorem crossSign_eq_rounded
    (h : a₁.toRat? = none ∨ a₂.toRat? = none ∨ b₁.toRat? = none ∨ b₂.toRat? = none) :
    Coordinate.crossSign a₁ a₂ b₁ b₂ =
      Binary.roundedCrossSign a₁.toFloat a₂.toFloat b₁.toFloat b₂.toFloat := by
  by_cases exact : k.isExact = true
  · have value (p : Point k.Carrier 2) : p.toRat? ≠ none := by
      obtain ⟨p', hp⟩ := exists_toRat?_of_isExact exact p
      simp [hp]
    simp [value] at h
  · cases k with
    | int8 | int16 | int32 | int64 | integer | rational => exact absurd rfl exact
    | float32 | float64 => exact Binary.crossSign_eq_rounded h
    | ordered32 | ordered64 => exact Binary.crossSign_map_eq_rounded Ordered.value h
    | notNan32 | notNan64 => exact Binary.crossSign_map_eq_rounded NotNan.value h

end

/-- **The sign of a cross product depends on the exact values alone.** Whatever the type of
coordinates, where all of them have exact values it is the sign of the exact cross product, so
any two types that hold the same values tell the same sign. Where a coordinate has none, it is
the sign of the cross product calculated in 64 bits, and zero if that is NaN. -/
theorem crossSign_of_values {k : CoordinateKind} (a₁ a₂ b₁ b₂ : Point k.Carrier 2) :
    (∀ a₁' a₂' b₁' b₂' : Point Rat 2, a₁.toRat? = some a₁' → a₂.toRat? = some a₂' →
      b₁.toRat? = some b₁' → b₂.toRat? = some b₂' →
        Coordinate.crossSign a₁ a₂ b₁ b₂ =
            compare ((a₂'.x - a₁'.x) * (b₂'.y - b₁'.y) - (a₂'.y - a₁'.y) * (b₂'.x - b₁'.x)) 0 ∧
          ∀ (j : CoordinateKind) (c₁ c₂ d₁ d₂ : Point j.Carrier 2), c₁.toRat? = some a₁' →
            c₂.toRat? = some a₂' → d₁.toRat? = some b₁' → d₂.toRat? = some b₂' →
              Coordinate.crossSign c₁ c₂ d₁ d₂ = Coordinate.crossSign a₁ a₂ b₁ b₂) ∧
      (a₁.toRat? = none ∨ a₂.toRat? = none ∨ b₁.toRat? = none ∨ b₂.toRat? = none →
        let cross := (a₂.toFloat.x - a₁.toFloat.x) * (b₂.toFloat.y - b₁.toFloat.y) -
          (a₂.toFloat.y - a₁.toFloat.y) * (b₂.toFloat.x - b₁.toFloat.x)
        Coordinate.crossSign a₁ a₂ b₁ b₂ = (Binary.order? cross 0).getD .eq ∧
          (cross.isNaN = true → Coordinate.crossSign a₁ a₂ b₁ b₂ = .eq)) := by
  constructor
  · intro a₁' a₂' b₁' b₂' ha₁ ha₂ hb₁ hb₂
    have sign := Coordinate.crossSign_eq_compare ha₁ ha₂ hb₁ hb₂
    refine ⟨sign, ?_⟩
    intro j c₁ c₂ d₁ d₂ hc₁ hc₂ hd₁ hd₂
    rw [sign, Coordinate.crossSign_eq_compare hc₁ hc₂ hd₁ hd₂]
  · intro h cross
    have sign : Coordinate.crossSign a₁ a₂ b₁ b₂ = Determinant.signOf cross := by
      rw [crossSign_eq_rounded h, Binary.roundedCrossSign, Displacement.area, Displacement.x_sub,
        Displacement.x_sub, Displacement.y_sub, Displacement.y_sub]
    constructor
    · rw [sign, Determinant.signOf_eq]
    · intro nan
      rw [sign, Determinant.signOf_of_isNaN nan]

/-- A cross product that vanishes in 64 bits keeps its sign, as in rationals, and one of
infinities that is NaN counts as zero. -/
theorem crossSign_of_values_float64_rational :
    let o : Point Float 2 := .plane 0 0
    let a : Point Float 2 := .plane (Float.ofBits 0x3FF0000000000001) 1
    let b : Point Float 2 := .plane 1 (Float.ofBits 0x3FEFFFFFFFFFFFFF)
    let far : Point Float 2 := .plane (1 / 0) (1 / 0)
    let o' : Point Rat 2 := .plane 0 0
    let a' : Point Rat 2 := .plane (4503599627370497 / 4503599627370496) 1
    let b' : Point Rat 2 := .plane 1 (9007199254740991 / 9007199254740992)
    (o.toRat? = some o' ∧ a.toRat? = some a' ∧ b.toRat? = some b') ∧
      Binary.roundedCrossSign o a o b = .eq ∧ Coordinate.crossSign o a o b = .gt ∧
      Coordinate.crossSign o' a' o' b' = .gt ∧
      far.toRat? = none ∧ Coordinate.crossSign o far o far = .eq := by
  intro o a b far o' a' b'
  have ho : o.toRat? = some o' := by decide +kernel
  have ha : a.toRat? = some a' := by decide +kernel
  have hb : b.toRat? = some b' := by decide +kernel
  have rounded : Binary.roundedCrossSign o a o b = .eq := by decide +kernel
  have positive : compare ((a'.x - o'.x) * (b'.y - o'.y) - (a'.y - o'.y) * (b'.x - o'.x)) 0 =
      .gt := by decide +kernel
  obtain ⟨sign, others⟩ :=
    (crossSign_of_values (k := .float64) o a o b).1 o' a' o' b' ho ha ho hb
  have same := others .rational o' a' o' b' (Point.toRat?_rat o') (Point.toRat?_rat a')
    (Point.toRat?_rat o') (Point.toRat?_rat b')
  have none : far.toRat? = none := by decide +kernel
  have zero := ((crossSign_of_values (k := .float64) o far o far).2 (.inr (.inl none))).2
    (by decide +kernel)
  exact ⟨⟨ho, ha, hb⟩, rounded, sign.trans positive, same.trans (sign.trans positive), none, zero⟩

end CoordinateKind

end RouteGeometry
