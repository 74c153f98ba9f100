import RouteGeometry.Proofs.Locus

/-! # Strictly between two points

Whether a point is inside a segment depends only on the directions in which the ends lie, and not on
how far away they are. -/

namespace RouteGeometry

namespace Segment

/-- The segment covers the point, which is neither of its ends. -/
def Inside (s : Segment Rat) (x : Point Rat 2) : Prop :=
  s.Covers x ∧ x ≠ s.start ∧ x ≠ s.finish

instance (s : Segment Rat) (x : Point Rat 2) : Decidable (s.Inside x) :=
  decidable_of_iff (StraightOn s.start x s.finish ∧ x ≠ s.start ∧ x ≠ s.finish)
    (and_congr_left' covers_iff.symm)

theorem inside_comm {p q x : Point Rat 2} :
    (⟨p, q⟩ : Segment Rat).Inside x ↔ (⟨q, p⟩ : Segment Rat).Inside x :=
  and_congr covers_comm and_comm

theorem Inside.exists_fraction {s : Segment Rat} {x : Point Rat 2} (h : s.Inside x) :
    ∃ t, 0 < t ∧ t < 1 ∧ x = s.start.along s.finish t := by
  obtain ⟨⟨t, h0, h1, rfl⟩, notStart, notFinish⟩ := h
  refine ⟨t, lt_of_le_of_ne h0 ?_, lt_of_le_of_ne h1 ?_, rfl⟩
  · rintro rfl
    exact notStart (Point.along_zero _ _)
  · rintro rfl
    exact notFinish (Point.along_one _ _)

/-- A point strictly between two others is neither of them, and the way from one of them to
it goes on to the other one, stretched by some factor. -/
theorem inside_iff {p q x : Point Rat 2} :
    (⟨p, q⟩ : Segment Rat).Inside x ↔
      x ≠ p ∧ ∃ r, 0 < r ∧ x.x - p.x = r * (q.x - x.x) ∧ x.y - p.y = r * (q.y - x.y) := by
  constructor
  · intro h
    have notStart := h.2.1
    obtain ⟨t, h0, h1, rfl⟩ := h.exists_fraction
    have h1 := sub_pos.2 h1
    refine ⟨notStart, t / (1 - t), div_pos h0 h1, ?_, ?_⟩
    · rw [Point.x_along, div_mul_eq_mul_div, eq_div_iff h1.ne']
      ring
    · rw [Point.y_along, div_mul_eq_mul_div, eq_div_iff h1.ne']
      ring
  · rintro ⟨notStart, r, hr, hx, hy⟩
    have h1 : 0 < 1 + r := by linarith
    refine ⟨⟨r / (1 + r), div_nonneg hr.le h1.le, ?_, ?_⟩, notStart, ?_⟩
    · rw [div_le_one h1]
      linarith
    · rw [Point.plane_ext_iff, Point.x_along, Point.y_along, ← mul_div_assoc, ← mul_div_assoc,
        ← sub_eq_iff_eq_add', ← sub_eq_iff_eq_add', eq_div_iff h1.ne', eq_div_iff h1.ne']
      constructor
      · linear_combination hx
      · linear_combination hy
    · rintro rfl
      apply notStart
      rw [sub_self, mul_zero, sub_eq_zero] at hx hy
      exact Point.plane_ext hx hy

theorem not_inside_self (p x : Point Rat 2) : ¬ (⟨p, p⟩ : Segment Rat).Inside x := by
  rintro ⟨⟨t, -, -, rfl⟩, moved, -⟩
  apply moved
  simp [Point.plane_ext_iff]

section
variable {p a x b : Point Rat 2} (h : (⟨a, b⟩ : Segment Rat).Inside x)

include h

/-- Whether `a` is strictly between `p` and a point after it depends on the direction in which
that point lies, which is the same for all points on the way from `a` to `b`. -/
theorem inside_finish_iff : (⟨p, x⟩ : Segment Rat).Inside a ↔ (⟨p, b⟩ : Segment Rat).Inside a := by
  obtain ⟨t, h0, -, rfl⟩ := h.exists_fraction
  rw [inside_iff, inside_iff, Point.x_along, Point.y_along]
  apply and_congr_right'
  constructor
  · rintro ⟨r, hr, hx, hy⟩
    refine ⟨r * t, mul_pos hr h0, ?_, ?_⟩
    · linear_combination hx
    · linear_combination hy
  · rintro ⟨r, hr, hx, hy⟩
    refine ⟨r / t, div_pos hr h0, ?_, ?_⟩
    · rw [hx, add_sub_cancel_left, mul_comm _ t, ← mul_assoc, div_mul_cancel₀ r h0.ne']
    · rw [hy, add_sub_cancel_left, mul_comm _ t, ← mul_assoc, div_mul_cancel₀ r h0.ne']

/-- The same for the points before `b`. -/
theorem inside_start_iff : (⟨x, p⟩ : Segment Rat).Inside b ↔ (⟨a, p⟩ : Segment Rat).Inside b := by
  rw [inside_comm, inside_finish_iff (inside_comm.1 h), inside_comm]

end

end Segment

end RouteGeometry
