import RouteGeometry.Proofs.Bend
import RouteGeometry.Proofs.Number.Interval

/-! # The range of interior angles

An interior angle lies between zero and a straight angle, NaN and infinite coordinates or not, as
long as the arctangent does for points that are not below the axis. -/

namespace RouteGeometry

/-- Of a point that is not below the axis, or whose height is NaN, the arctangent is an angle
between zero and a straight angle, or NaN. -/
def UpperArctangent (arctan₂ : Float → Float → Float) : Prop :=
  ∀ y x, 0 ≤ y ∨ y.isNaN = true →
    (arctan₂ y x).isNaN = true ∨ 0 ≤ arctan₂ y x ∧ arctan₂ y x ≤ pi

theorem atMost_nonneg {limit x : Float} (h : 0 ≤ limit) (hx : x.isNaN = true ∨ 0 ≤ x) :
    0 ≤ atMost limit x := by
  unfold atMost
  split
  · rename_i le
    refine hx.resolve_left ?_
    rw [(Number.not_nan_of_le le).1]
    exact Bool.false_ne_true
  · exact h

/-- The rest up to a straight angle. -/
theorem pi_sub_nonneg_or_nan {θ : Float} (h : θ.isNaN = true ∨ 0 ≤ θ ∧ θ ≤ pi) :
    (pi - θ).isNaN = true ∨ 0 ≤ pi - θ := by
  rcases h with nan | ⟨above, below⟩
  · exact .inl (Number.isNaN_sub_of_isNaN pi nan)
  · obtain ⟨v, value, -, le⟩ := Number.exists_toRat?_of_between Number.toRat?_zero rfl above below
    exact .inr (Number.sub_nonneg_of_le rfl value le)

section
variable {α : Type} [Coordinate α] {arctan₂ : Float → Float → Float} (h : UpperArctangent arctan₂)

include h

theorem turnAngle_range (a p b : Point α 2) :
    0 ≤ turnAngle arctan₂ a p b ∧ turnAngle arctan₂ a p b ≤ pi := by
  have nonneg : 0 ≤ belowStraight := by decide
  have below : belowStraight ≤ pi := by decide
  have limit : belowStraight ≤ belowStraight := by decide
  constructor
  · apply atMost_nonneg nonneg
    apply pi_sub_nonneg_or_nan
    exact h _ _ (Number.abs_nonneg_or_nan _)
  · exact Number.float_le_trans (atMost_le limit _) below

theorem interiorAngle_range (a p b : Point α 2) :
    0 ≤ interiorAngle arctan₂ a p b ∧ interiorAngle arctan₂ a p b ≤ pi := by
  unfold interiorAngle
  split
  · exact ⟨by decide, pi_le_pi⟩
  · split
    · split
      · exact ⟨by decide, pi_le_pi⟩
      · exact ⟨by decide, by decide⟩
    · exact turnAngle_range h a p b

end

/-- **An interior angle is a proper angle, and straight exactly where the path goes straight on.**
It is never NaN and lies between zero and a straight angle, whatever the coordinates. Where they
have exact values, it is straight on the segment between both neighbours, zero at other points of
their line, and less than straight at points that are not on one line with them. -/
theorem interiorAngle_proper {k : CoordinateKind} {arctan₂ : Float → Float → Float}
    (h : UpperArctangent arctan₂) (a p b : Point k.Carrier 2) :
    let θ := interiorAngle arctan₂ a p b
    (θ.isNaN = false ∧ 0 ≤ θ ∧ θ ≤ pi) ∧
      ∀ a' p' b' : Point Rat 2, a.toRat? = some a' → p.toRat? = some p' → b.toRat? = some b' →
        (θ = pi ↔ (⟨a', b'⟩ : Segment Rat).Covers p') ∧
          (Colinear a' p' b' → ¬ (⟨a', b'⟩ : Segment Rat).Covers p' → θ = 0) ∧
          (¬ Colinear a' p' b' → θ < pi) := by
  intro θ
  obtain ⟨above, below⟩ := interiorAngle_range h a p b
  refine ⟨⟨(Number.not_nan_of_le above).2, above, below⟩, ?_⟩
  intro a' p' b' ha hp hb
  have straight := pi_le_interiorAngle_iff ha hp hb arctan₂
  refine ⟨⟨?_, ?_⟩, ?_, ?_⟩
  · intro same
    exact straight.1 (same ▸ pi_le_pi)
  · exact interiorAngle_of_covers ha hp hb arctan₂
  · intro colinear off
    exact interiorAngle_of_flat ha hp hb arctan₂ (colinear_iff.1 colinear) off
  · intro turns
    refine Number.float_lt_of_not_le below (mt straight.1 ?_)
    intro on
    exact turns (colinear_iff.2 (Segment.straightOn_of_covers on).flat)

/-- A path with a right-angled turn, and one from a point that is no number. -/
theorem interiorAngle_proper_right_angle :
    let arctan₂ : Float → Float → Float := fun y x =>
      if y == 0 then if x < 0 then pi else 0 else Angle.right.radians
    let a : Point (FixedInt 8) 2 := .plane (.ofInt (-128)) (.ofInt 127)
    let p : Point (FixedInt 8) 2 := .plane (.ofInt 127) (.ofInt 127)
    let b : Point (FixedInt 8) 2 := .plane (.ofInt 127) (.ofInt (-128))
    let nan : Float := 0 / 0
    let path : Float := interiorAngle arctan₂ (.plane nan 0) (.plane 1 0) (.plane 1 (1 / 0))
    UpperArctangent arctan₂ ∧ interiorAngle arctan₂ a p b = Angle.right.radians ∧
      interiorAngle arctan₂ a p b < pi ∧ path.isNaN = false ∧ 0 ≤ path ∧ path ≤ pi := by
  intro arctan₂ a p b nan path
  have upper : UpperArctangent arctan₂ := by
    intro y x _
    right
    dsimp only [arctan₂]
    split
    · split <;> decide
    · decide
  have turns : ¬ Colinear (.plane (-128) 127) (.plane 127 127) (.plane 127 (-128)) := by
    rw [colinear_iff]
    decide +kernel
  have value := (interiorAngle_proper (k := .int8) upper a p b).2 _ _ _ rfl rfl rfl
  have range := (interiorAngle_proper (k := .float64) upper (.plane nan 0) (.plane 1 0)
    (.plane 1 (1 / 0))).1
  exact ⟨upper, by decide +kernel, value.2.2 turns, range⟩

end RouteGeometry
