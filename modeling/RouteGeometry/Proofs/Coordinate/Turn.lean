import RouteGeometry.Proofs.Coordinate.FirstStage
import RouteGeometry.Proofs.Number.Moderate

/-! # The turn in floating point next to the exact cross product

The sign of a turn is calculated in 64 bits and that of a cross product in rationals. What the
first stage decides is the same if its products are neither too large nor too small for 64 bits,
which those of numbers of 32 bits never are; nothing guards it against such products in numbers of
64 bits. The later stages have products of their own that can be too small, with the first stage in
range and undecided (`turnSign_ne_crossSign_undecided`), so what they tell is a hypothesis here. -/

namespace RouteGeometry

/-! ## The first stage in 32 bits -/

namespace Determinant

open Number

section
variable {x₁ x₂ y₁ y₂ : Float32} {a₁ a₂ b₁ b₂ : Rat} (h₁ : Binary.toRat? x₁ = some a₁)
  (h₂ : Binary.toRat? x₂ = some a₂) (h₃ : Binary.toRat? y₁ = some b₁)
  (h₄ : Binary.toRat? y₂ = some b₂)

include h₁ h₂ h₃ h₄

/-- A product of differences of 32 bits is zero because one of them is, or it is neither large nor
small. -/
theorem product_moderate :
    ∃ v, Binary.toRat? ((widen x₁ - widen x₂) * (widen y₁ - widen y₂)) = some v ∧
      (v = 0 ∧ (Binary.toRat? (widen x₁ - widen x₂) = some 0 ∨
        Binary.toRat? (widen y₁ - widen y₂) = some 0) ∨ Moderate 301 v) := by
  obtain ⟨d, hd, size_d⟩ := sub_moderate h₁ h₂
  obtain ⟨e, he, size_e⟩ := sub_moderate h₃ h₄
  by_cases factor : d = 0 ∨ e = 0
  · obtain ⟨v, holds, rounded⟩ := holds_mul hd he
    rw [mul_eq_zero.2 factor] at rounded
    have zero := rounded.eq_zero
    refine ⟨v, holds.toRat?_eq ?_, .inl ⟨zero, ?_⟩⟩
    · rw [zero, abs_zero]
      positivity
    · rcases factor with rfl | rfl
      · exact .inl hd
      · exact .inr he
  · rw [not_or] at factor
    obtain ⟨v, hv, size⟩ := mul_moderate hd he (size_d.resolve_left factor.1)
      (size_e.resolve_left factor.2) (by decide)
    exact ⟨v, hv, .inr size⟩

theorem kept_widen : Kept (widen x₁ - widen x₂) (widen y₁ - widen y₂) := by
  obtain ⟨v, hv, ⟨-, zero⟩ | size⟩ := product_moderate h₁ h₂ h₃ h₄
  · exact ⟨v, hv, fun _ => zero⟩
  · exact ⟨v, hv, fun zero => absurd zero size.ne_zero⟩

end

theorem moderate_boundFactor : Moderate 52 boundFactor := by
  have positive : 0 < boundFactor := by norm_num [boundFactor, roundoff]
  rw [Moderate, abs_of_pos positive]
  norm_num [boundFactor, roundoff]

/-- Numbers of 32 bits are never too large or too small for a calculation in 64 bits. -/
theorem inRange_widen {p q r : Point Float32 2} {p' q' r' : Point Rat 2}
    (hp : p.toRat? = some p') (hq : q.toRat? = some q') (hr : r.toRat? = some r') :
    InRange (p.map widen) (q.map widen) (r.map widen) := by
  obtain ⟨px, py⟩ := Point.toRat?_eq_some_iff.1 hp
  obtain ⟨qx, qy⟩ := Point.toRat?_eq_some_iff.1 hq
  obtain ⟨rx, ry⟩ := Point.toRat?_eq_some_iff.1 hr
  refine ⟨?_, ?_, fun compared => ?_⟩
  · simp only [Point.x_map, Point.y_map]
    exact kept_widen px rx qy ry
  · simp only [Point.x_map, Point.y_map]
    exact kept_widen py ry qx rx
  · obtain ⟨L, hL, left⟩ := product_moderate px rx qy ry
    obtain ⟨R, hR, right⟩ := product_moderate py ry qx rx
    have hL : Binary.toRat? (leftProduct (p.map widen) (q.map widen) (r.map widen)) = some L := by
      simpa only [leftProduct, Point.x_map, Point.y_map] using hL
    have hR : Binary.toRat? (rightProduct (p.map widen) (q.map widen) (r.map widen)) = some R := by
      simpa only [rightProduct, Point.x_map, Point.y_map] using hR
    have nonzero : L ≠ 0 ∧ R ≠ 0 := by
      rcases (compared_iff hL hR).1 compared with ⟨hl, hr⟩ | ⟨hl, hr⟩
      · exact ⟨hl.ne', hr.ne'⟩
      · exact ⟨hl.ne, hr.ne⟩
    have size_L : Moderate 301 L := left.resolve_left fun h => nonzero.1 h.1
    have size_R : Moderate 301 R := right.resolve_left fun h => nonzero.2 h.1
    obtain ⟨S, holds, near⟩ := holds_magnitudes hL hR compared
    obtain ⟨hS, size_S⟩ := holds.moderate (size_L.add_abs size_R) near (by decide)
    obtain ⟨B, hB, size_B⟩ := mul_moderate toRat?_roundedBound hS moderate_boundFactor size_S
      (by decide)
    exact ⟨⟨L, hL, size_L.normal (by decide)⟩, ⟨R, hR, size_R.normal (by decide)⟩, B, hB,
      size_B.normal (by decide)⟩

theorem inRange_map_widen {G : Type} (value : G → Float32) {p q r : Point G 2}
    {p' q' r' : Point Rat 2} (hp : (p.mapPlane? fun a => Binary.toRat? (value a)) = some p')
    (hq : (q.mapPlane? fun a => Binary.toRat? (value a)) = some q')
    (hr : (r.mapPlane? fun a => Binary.toRat? (value a)) = some r') :
    InRange (p.map fun a => widen (value a)) (q.map fun a => widen (value a))
      (r.map fun a => widen (value a)) := by
  rw [← Point.mapPlane?_map] at hp hq hr
  rw [← Point.map_map value widen p, ← Point.map_map value widen q, ← Point.map_map value widen r]
  exact inRange_widen hp hq hr

end Determinant

/-! ## All types of floating-point numbers -/

theorem Binary.turnSign_map {F G : Type} [Binary F] (value : G → F) (p q r : Point G 2) :
    turnSign (p.map value) (q.map value) (r.map value) =
      Determinant.turnSign (p.map fun a => toFloat (value a)) (q.map fun a => toFloat (value a))
        (r.map fun a => toFloat (value a)) := by
  rw [turnSign, Point.map_map, Point.map_map, Point.map_map]

namespace CoordinateKind

def isFloat64 : CoordinateKind → Bool
  | float64 | ordered64 | notNan64 => true
  | _ => false

section
variable {k : CoordinateKind} (inexact : k.isExact = false)

include inexact

/-- The sign of a turn is calculated in 64 bits, whatever the type of floating-point numbers. -/
theorem turnSign_eq_toFloat (p q r : Point k.Carrier 2) :
    Coordinate.turnSign p q r = Determinant.turnSign p.toFloat q.toFloat r.toFloat := by
  cases k with
  | int8 | int16 | int32 | int64 | integer | rational => cases inexact
  | float32 | float64 => rfl
  | ordered32 | ordered64 => exact Binary.turnSign_map Ordered.value p q r
  | notNan32 | notNan64 => exact Binary.turnSign_map NotNan.value p q r

theorem toRat?_toFloat (a : k.Carrier) :
    Coordinate.toRat? (Coordinate.toFloat a) = Coordinate.toRat? a := by
  cases k with
  | int8 | int16 | int32 | int64 | integer | rational => cases inexact
  | float32 => exact Number.toRat?_widen a
  | ordered32 | notNan32 => exact Number.toRat?_widen a.value
  | float64 | ordered64 | notNan64 => rfl

theorem point_toRat?_toFloat {p : Point k.Carrier 2} {p' : Point Rat 2} (hp : p.toRat? = some p') :
    p.toFloat.toRat? = some p' := by
  rw [Point.toRat?_eq_some_iff] at hp ⊢
  rw [Point.toFloat, Point.x_map, Point.y_map, toRat?_toFloat inexact, toRat?_toFloat inexact]
  exact hp

/-- Only numbers of 64 bits can be too large or too small. -/
theorem inRange_of_not_float64 (narrow : k.isFloat64 = false) {p q r : Point k.Carrier 2}
    {p' q' r' : Point Rat 2} (hp : p.toRat? = some p') (hq : q.toRat? = some q')
    (hr : r.toRat? = some r') : Determinant.InRange p.toFloat q.toFloat r.toFloat := by
  cases k with
  | int8 | int16 | int32 | int64 | integer | rational => cases inexact
  | float64 | ordered64 | notNan64 => cases narrow
  | float32 => exact Determinant.inRange_widen hp hq hr
  | ordered32 => exact Determinant.inRange_map_widen Ordered.value hp hq hr
  | notNan32 => exact Determinant.inRange_map_widen NotNan.value hp hq hr

/-- **The sign of a turn in floating point is the exact one** where the first stage decides it with
products that are neither too large nor too small for 64 bits, which no product of numbers of 32
bits is, and where it leaves the sign to the later stages and these are right. -/
theorem turnSign_eq_crossSign {p q r : Point k.Carrier 2} {p' q' r' : Point Rat 2}
    (hp : p.toRat? = some p') (hq : q.toRat? = some q') (hr : r.toRat? = some r')
    (range : k.isFloat64 = true → Determinant.InRange p.toFloat q.toFloat r.toFloat)
    (refined : Determinant.Undecided p.toFloat q.toFloat r.toFloat →
      let sum := Determinant.magnitudes p.toFloat q.toFloat r.toFloat
      (Determinant.roundedBound * sum).isFinite = true →
        Determinant.refinedTurnSign p.toFloat q.toFloat r.toFloat sum =
          Coordinate.crossSign p.toFloat q.toFloat p.toFloat r.toFloat) :
    Coordinate.turnSign p q r = Coordinate.crossSign p q p r ∧
      Coordinate.turnSign p q r =
        compare ((q'.x - p'.x) * (r'.y - p'.y) - (q'.y - p'.y) * (r'.x - p'.x)) 0 := by
  have inRange : Determinant.InRange p.toFloat q.toFloat r.toFloat := by
    cases wide : k.isFloat64 with
    | false => exact inRange_of_not_float64 inexact wide hp hq hr
    | true => exact range wide
  have hp' := point_toRat?_toFloat inexact hp
  have hq' := point_toRat?_toFloat inexact hq
  have hr' := point_toRat?_toFloat inexact hr
  have sign : Coordinate.turnSign p q r =
      compare ((q'.x - p'.x) * (r'.y - p'.y) - (q'.y - p'.y) * (r'.x - p'.x)) 0 := by
    rw [turnSign_eq_toFloat inexact, Determinant.turnSign_eq_ite]
    by_cases undecided : Determinant.Undecided p.toFloat q.toFloat r.toFloat
    · rw [if_pos undecided, refined undecided (inRange.isFinite_bound undecided.1)]
      exact Coordinate.crossSign_eq_compare hp' hq' hp' hr'
    · rw [if_neg undecided, Determinant.signOf_eq_of_not_undecided hp' hq' hr' inRange undecided,
        Number.order_eq_compare]
      congr 1
      ring
  exact ⟨sign.trans (Coordinate.crossSign_eq_compare hp hq hp hr).symm, sign⟩

end

/-- Three points so close to a line that the first stage does not decide. -/
theorem turnSign_eq_crossSign_near_line :
    let p : Point Float 2 := .plane 0.5 (Float.ofBits 0x3FE0000000000001)
    let q : Point Float 2 := .plane 12 12
    let r : Point Float 2 := .plane 24 24
    Determinant.Undecided p q r ∧ Coordinate.crossSign p q p r = .gt ∧
      Coordinate.turnSign p q r = Coordinate.crossSign p q p r := by
  intro p q r
  have hp : p.toRat? = some (.plane (1 / 2) (4503599627370497 / 9007199254740992)) := by
    decide +kernel
  have hq : q.toRat? = some (.plane 12 12) := by decide +kernel
  have hr : r.toRat? = some (.plane 24 24) := by decide +kernel
  have range : Determinant.InRange p.toFloat q.toFloat r.toFloat :=
    ⟨by decide +kernel, by decide +kernel, by decide +kernel⟩
  have same := turnSign_eq_crossSign (k := .float64) rfl hp hq hr (fun _ => range)
    fun _ _ => by decide +kernel
  exact ⟨by decide +kernel, by decide +kernel, same.1⟩

/-- The later stages are not always right, even if nothing in the first one is out of range: what
the differences lack is so small here that its products become zero. -/
theorem turnSign_ne_crossSign_undecided :
    let p : Point Float 2 := .plane 0.5 0.5
    let q : Point Float 2 := .plane 0.25 0.25
    let r : Point Float 2 := .plane 0 (Float.ofBits 0x8000000000000001)
    Determinant.InRange p q r ∧ Determinant.Undecided p q r ∧
      Coordinate.turnSign p q r = .eq ∧ Coordinate.crossSign p q p r = .gt := by
  intro p q r
  refine ⟨⟨?_, ?_, ?_⟩, ?_, ?_, ?_⟩ <;> decide +kernel

/-- Products too small for 64 bits become zero, and those too large become infinities, which have
no difference: points that turn are then told to lie on a line. -/
theorem turnSign_ne_crossSign_out_of_range :
    let small := Float.ofBits 0x1A70000000000000
    let large := Float.ofBits 0x6970000000000000
    let o : Point Float 2 := .plane 0 0
    let p : Point Float 2 := .plane small 0
    let q : Point Float 2 := .plane 0 small
    let s : Point Float 2 := .plane large large
    let t : Point Float 2 := .plane large (large + large)
    (o.toRat?.isSome ∧ p.toRat?.isSome ∧ q.toRat?.isSome ∧ s.toRat?.isSome ∧ t.toRat?.isSome) ∧
      (Coordinate.turnSign p q o = .eq ∧ Coordinate.crossSign p q p o = .gt) ∧
      (Coordinate.turnSign s t o = .eq ∧ Coordinate.crossSign s t s o = .gt) := by
  intro small large o p q s t
  refine ⟨⟨?_, ?_, ?_, ?_, ?_⟩, ⟨?_, ?_⟩, ?_, ?_⟩ <;> decide +kernel

end CoordinateKind

end RouteGeometry
