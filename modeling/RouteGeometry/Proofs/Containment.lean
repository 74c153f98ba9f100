import RouteGeometry.Proofs.Line.Meeting

/-! # What lines and segments contain

The tests use the sign of a turn and compare coordinates. With exact coordinates their answers are
membership in the point sets. -/

namespace RouteGeometry

/-! ## Coordinates between others -/

section
variable {α : Type} [Coordinate α] [Coordinate.Faithful α] {a b c : α} {x y z : Rat}
  (ha : Coordinate.toRat? a = some x) (hb : Coordinate.toRat? b = some y)

include ha hb

theorem Coordinate.less_iff : less a b = true ↔ x < y := by
  simp [less, Faithful.order?_eq ha hb, Number.order_eq_lt_iff]

theorem Coordinate.lessOrEqual_iff : lessOrEqual a b = true ↔ x ≤ y := by
  simp [lessOrEqual, Faithful.order?_eq ha hb, Number.order_eq_lt_iff, Number.order_eq_eq_iff,
    le_iff_lt_or_eq]

/-- Whichever of the bounds is the smaller one, the steps to `c` and on to the other bound go the
same way. -/
theorem isBetween_iff (hc : Coordinate.toRat? c = some z) :
    isBetween c a b = true ↔ 0 ≤ (z - x) * (y - z) := by
  unfold isBetween
  rw [mul_nonneg_iff, sub_nonneg, sub_nonneg, sub_nonpos, sub_nonpos]
  by_cases h : x < y
  · rw [if_pos ((Coordinate.less_iff ha hb).2 h)]
    simp only [Bool.and_eq_true, Coordinate.lessOrEqual_iff ha hc, Coordinate.lessOrEqual_iff hc hb]
    constructor
    · exact Or.inl
    · rintro (inside | ⟨below, above⟩)
      · exact inside
      · exact absurd (above.trans below) h.not_ge
  · rw [if_neg (mt (Coordinate.less_iff ha hb).1 h)]
    simp only [Bool.and_eq_true, Coordinate.lessOrEqual_iff hb hc, Coordinate.lessOrEqual_iff hc ha]
    constructor
    · exact fun inside => .inr inside.symm
    · rintro (⟨first, second⟩ | inside)
      · exact ⟨(not_lt.1 h).trans first, second.trans (not_lt.1 h)⟩
      · exact inside.symm

end

/-! ## The point sets -/

theorem Segment.line_covers_of_covers {s : Segment Rat} {x : Point Rat 2} (h : s.Covers x) :
    s.line.Covers x := by
  obtain ⟨t, -, -, hx⟩ := h
  exact ⟨t, hx⟩

section
variable {α : Type} [Coordinate α] [Coordinate.Exact α] {p : Point α 2} {p' : Point Rat 2}
  (hp : p.toRat? = some p')

include hp

/-- The orientation alone accepts every point when the segment is degenerate. Then the ranges of
the coordinates leave one point over. -/
theorem Segment.contains_iff {s : Segment α} {s' : Segment Rat}
    (hs : s.line.toRat? = some s'.line) : s.contains p = true ↔ s'.Covers p' := by
  obtain ⟨start, finish⟩ := Line.toRat?_eq_some_iff.1 hs
  obtain ⟨startX, startY⟩ := Point.toRat?_eq_some_iff.1 start
  obtain ⟨finishX, finishY⟩ := Point.toRat?_eq_some_iff.1 finish
  obtain ⟨px, py⟩ := Point.toRat?_eq_some_iff.1 hp
  have colinear := Orientation.isColinear_ofPoints_iff start finish hp
  have betweenX := isBetween_iff startX finishX px
  have betweenY := isBetween_iff startY finishY py
  rw [Displacement.area_eq_zero_iff] at colinear
  unfold contains
  rw [covers_iff, Bool.and_eq_true, Bool.and_eq_true]
  constructor
  · rintro ⟨⟨flat, forwardX⟩, forwardY⟩
    exact ⟨colinear.1 flat, betweenX.1 forwardX, betweenY.1 forwardY⟩
  · rintro ⟨flat, forwardX, forwardY⟩
    exact ⟨⟨colinear.2 flat, betweenX.2 forwardX⟩, betweenY.2 forwardY⟩

theorem Line.contains_iff {l : Line α} {l' : Line Rat} (hl : l.toRat? = some l') :
    l.contains p = true ↔ l'.Covers p' := by
  obtain ⟨first, second⟩ := toRat?_eq_some_iff.1 hl
  unfold contains
  split
  · rename_i degenerate
    rw [covers_iff_of_eq ((isDegenerate_iff hl).1 degenerate), Point.equal_iff first hp]
    exact eq_comm
  · rename_i directed
    rw [covers_iff_of_ne (mt (isDegenerate_iff hl).2 directed)]
    exact Orientation.isColinear_ofPoints_iff first second hp

end

namespace Segment

/-- **Containment is exact membership.** With coordinates of an exact type a segment contains the
points at the fractions from zero to one of the way between its ends, and the line through the
ends those at any fraction. So both ends are contained, no point is lost or won by reversing the
segment, and what the segment contains its line contains too. -/
theorem contains_iff_covers {k : CoordinateKind} (hk : k.isExact = true) (s : Segment k.Carrier)
    (p : Point k.Carrier 2) :
    ∃ (s' : Segment Rat) (p' : Point Rat 2), s.start.toRat? = some s'.start ∧
      s.finish.toRat? = some s'.finish ∧ p.toRat? = some p' ∧
        (s.contains p = true ↔
          ∃ t : Rat, 0 ≤ t ∧ t ≤ 1 ∧ p' = s'.start + (s'.finish - s'.start) * t) ∧
        (s.line.contains p = true ↔ ∃ t : Rat, p' = s'.start + (s'.finish - s'.start) * t) ∧
        (s.contains s.start = true ∧ s.contains s.finish = true) ∧
        s.reversed.contains p = s.contains p ∧
        (s.contains p = true → s.line.contains p = true) := by
  have := CoordinateKind.exact_of_isExact hk
  obtain ⟨start', hs⟩ := s.start.exists_toRat?
  obtain ⟨finish', hf⟩ := s.finish.exists_toRat?
  obtain ⟨p', hp⟩ := p.exists_toRat?
  let s' : Segment Rat := ⟨start', finish'⟩
  have value : s.line.toRat? = some s'.line := Line.toRat?_eq_some_iff.2 ⟨hs, hf⟩
  have back : s.reversed.line.toRat? = some (s'.reversed).line :=
    Line.toRat?_eq_some_iff.2 ⟨hf, hs⟩
  have segment := contains_iff hp value
  have line := Line.contains_iff hp value
  refine ⟨s', p', hs, hf, hp, segment, line, ⟨?_, ?_⟩, ?_, ?_⟩
  · exact (contains_iff hs value).2 s'.covers_start
  · exact (contains_iff hf value).2 s'.covers_finish
  · apply Bool.eq_iff_iff.2
    rw [contains_iff hp back, segment]
    exact covers_comm
  · intro inside
    exact line.2 (line_covers_of_covers (segment.1 inside))

/-- The line goes on behind the end of a segment through nearly the whole range. -/
theorem contains_iff_covers_behind_end :
    let s : Segment (FixedInt 8) :=
      ⟨.plane (.ofInt (-128)) (.ofInt (-128)), .plane (.ofInt 126) (.ofInt 126)⟩
    let p : Point (FixedInt 8) 2 := .plane (.ofInt 127) (.ofInt 127)
    CoordinateKind.int8.isExact = true ∧ ∃ (s' : Segment Rat) (p' : Point Rat 2),
      s.start.toRat? = some s'.start ∧ s.finish.toRat? = some s'.finish ∧ p.toRat? = some p' ∧
        (¬ ∃ t : Rat, 0 ≤ t ∧ t ≤ 1 ∧ p' = s'.start + (s'.finish - s'.start) * t) ∧
        ∃ t : Rat, p' = s'.start + (s'.finish - s'.start) * t := by
  intro s p
  obtain ⟨s', p', hs, hf, hp, segment, line, -, -, -⟩ :=
    contains_iff_covers (k := .int8) rfl s p
  have outside : ¬ s.contains p = true := by decide
  have onLine : s.line.contains p = true := by decide
  exact ⟨rfl, s', p', hs, hf, hp, fun inside => outside (segment.2 inside), line.1 onLine⟩

end Segment

end RouteGeometry
