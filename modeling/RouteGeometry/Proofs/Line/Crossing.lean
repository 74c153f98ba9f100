import RouteGeometry.Proofs.Line.Meeting

/-! # Where two lines cross

The exact crossing point is calculated with the first line's points and the second line's direction,
and yet it is the one point on both lines. So it does not matter which line comes first or which of
its points represent a line. -/

namespace RouteGeometry.Line

/-! ## Exact lines -/

def reversed {α : Type} (l : Line α) : Line α := ⟨l.p₂, l.p₁⟩

section
variable {a b c : Line Rat} {x : Point Rat 2}

theorem meetingPoint?_eq_some_iff :
    a.meetingPoint? b = some x ↔ a.way.area b.way ≠ 0 ∧ a.Covers x ∧ b.Covers x := by
  constructor
  · intro h
    refine ⟨?_, covers_of_meetingPoint? h⟩
    intro flat
    rw [meetingPoint?_eq_none_iff.2 flat] at h
    cases h
  · rintro ⟨crossed, common⟩
    obtain ⟨y, hy⟩ := exists_meetingPoint? crossed
    rw [hy, eq_of_covers crossed (covers_of_meetingPoint? hy) common]

/-- Both lines have the same points and are parallel to the same lines. -/
structure SameLine (a b : Line Rat) : Prop where
  covers_iff (x : Point Rat 2) : a.Covers x ↔ b.Covers x
  parallel_iff (c : Line Rat) : a.way.area c.way = 0 ↔ b.way.area c.way = 0

theorem sameLine_reversed (a : Line Rat) : a.reversed.SameLine a where
  covers_iff x := by
    constructor <;> rintro ⟨t, rfl⟩ <;> exact ⟨1 - t, Point.along_comm _ _ t⟩
  parallel_iff c := by
    have turned : a.reversed.way.area c.way = -a.way.area c.way := by
      simp only [way, reversed, Displacement.area_sub]
      ring
    rw [turned, neg_eq_zero]

/-- A line is given by any two of its points that are distinct. -/
theorem sameLine_of_covers (distinct : c.p₁ ≠ c.p₂) (h₁ : a.Covers c.p₁) (h₂ : a.Covers c.p₂) :
    c.SameLine a where
  covers_iff _ := covers_iff_of_covers distinct h₁ h₂
  parallel_iff _ := area_way_iff_of_covers distinct h₁ h₂

theorem meetingPoint?_comm (a b : Line Rat) : b.meetingPoint? a = a.meetingPoint? b := by
  ext x
  simp only [meetingPoint?_eq_some_iff, ne_eq, area_way_comm, and_comm]

theorem SameLine.meetingPoint?_eq (h : c.SameLine a) (b : Line Rat) :
    c.meetingPoint? b = a.meetingPoint? b := by
  ext x
  simp only [meetingPoint?_eq_some_iff, ne_eq, h.parallel_iff, h.covers_iff]

end

/-! ## Coordinates of any type -/

section
variable {α : Type} [Coordinate α] {a b c : Line α} {a' b' c' : Line Rat}

/-- The way there depends on the exact values only, and the result is rounded once. -/
theorem exactCrossing?_eq (ha : a.toRat? = some a') (hb : b.toRat? = some b') :
    exactCrossing? a b = (a'.meetingPoint? b').map fun p => p.map Number.toFloat := by
  rw [exactCrossing?, ha, hb]

theorem exactCrossing?_eq_none_iff (ha : a.toRat? = some a') (hb : b.toRat? = some b') :
    exactCrossing? a b = none ↔ a'.way.area b'.way = 0 := by
  rw [exactCrossing?_eq ha hb, Option.map_eq_none_iff, meetingPoint?_eq_none_iff]

theorem exactCrossing?_comm (ha : a.toRat? = some a') (hb : b.toRat? = some b') :
    exactCrossing? b a = exactCrossing? a b := by
  rw [exactCrossing?_eq ha hb, exactCrossing?_eq hb ha, meetingPoint?_comm]

theorem SameLine.exactCrossing?_eq (same : c'.SameLine a') (hc : c.toRat? = some c')
    (ha : a.toRat? = some a') (hb : b.toRat? = some b') :
    exactCrossing? c b = exactCrossing? a b := by
  rw [Line.exactCrossing?_eq hc hb, Line.exactCrossing?_eq ha hb, same.meetingPoint?_eq]

theorem toRat?_reversed (ha : a.toRat? = some a') : a.reversed.toRat? = some a'.reversed :=
  toRat?_eq_some_iff.2 (toRat?_eq_some_iff.1 ha).symm

end

/-- **The exact crossing point is the common point of both lines, rounded.** There is none exactly
when the directions are parallel. It is the same for the other order of the lines, for a line
walked the other way, and for any two distinct points of a line in place of its own. -/
theorem exactCrossing?_solves {k : CoordinateKind} {a b : Line k.Carrier} {a' b' : Line Rat}
    (ha : a.toRat? = some a') (hb : b.toRat? = some b') :
    (exactCrossing? a b = none ↔ (a'.p₂ - a'.p₁).area (b'.p₂ - b'.p₁) = 0) ∧
      ((a'.p₂ - a'.p₁).area (b'.p₂ - b'.p₁) ≠ 0 →
        ∃ x, exactCrossing? a b = some (x.map Number.toFloat) ∧ a'.Covers x ∧ b'.Covers x ∧
          ∀ y, a'.Covers y → b'.Covers y → y = x) ∧
      exactCrossing? b a = exactCrossing? a b ∧
      (exactCrossing? a.reversed b = exactCrossing? a b ∧
        exactCrossing? a b.reversed = exactCrossing? a b) ∧
      ∀ (c : Line k.Carrier) (c' : Line Rat), c.toRat? = some c' → c'.p₁ ≠ c'.p₂ →
        (a'.Covers c'.p₁ → a'.Covers c'.p₂ → exactCrossing? c b = exactCrossing? a b) ∧
          (b'.Covers c'.p₁ → b'.Covers c'.p₂ → exactCrossing? a c = exactCrossing? a b) := by
  refine ⟨exactCrossing?_eq_none_iff ha hb, ?_, exactCrossing?_comm ha hb, ⟨?_, ?_⟩, ?_⟩
  · intro crossed
    obtain ⟨x, hx⟩ := exists_meetingPoint? crossed
    obtain ⟨onA, onB⟩ := covers_of_meetingPoint? hx
    refine ⟨x, ?_, onA, onB, ?_⟩
    · rw [exactCrossing?_eq ha hb, hx, Option.map_some]
    · intro y hyA hyB
      exact eq_of_covers crossed ⟨hyA, hyB⟩ ⟨onA, onB⟩
  · exact (sameLine_reversed a').exactCrossing?_eq (toRat?_reversed ha) ha hb
  · have back := toRat?_reversed hb
    rw [exactCrossing?_comm back ha, exactCrossing?_comm hb ha]
    exact (sameLine_reversed b').exactCrossing?_eq back hb ha
  · intro c c' hc distinct
    constructor
    · intro first second
      exact (sameLine_of_covers distinct first second).exactCrossing?_eq hc ha hb
    · intro first second
      rw [exactCrossing?_comm hc ha, exactCrossing?_comm hb ha]
      exact (sameLine_of_covers distinct first second).exactCrossing?_eq hc hb ha

/-- The diagonals of a square cross off the grid, whichever points the first one is given by. -/
theorem exactCrossing?_solves_diagonals :
    let a : Line Int := ⟨.plane 0 0, .plane 1 1⟩
    let b : Line Int := ⟨.plane 0 1, .plane 1 0⟩
    let c : Line Int := ⟨.plane 7 7, .plane (-5) (-5)⟩
    let a' : Line Rat := ⟨.plane 0 0, .plane 1 1⟩
    let b' : Line Rat := ⟨.plane 0 1, .plane 1 0⟩
    a.toRat? = some a' ∧ b.toRat? = some b' ∧
      exactCrossing? a b = some ((Point.plane (1 / 2) (1 / 2)).map Number.toFloat) ∧
      exactCrossing? b a = exactCrossing? a b ∧ exactCrossing? c b = exactCrossing? a b := by
  intro a b c a' b'
  have ha : a.toRat? = some a' := rfl
  have hb : b.toRat? = some b' := rfl
  have onA : a'.Covers (.plane (1 / 2) (1 / 2)) := ⟨1 / 2, by decide +kernel⟩
  have onB : b'.Covers (.plane (1 / 2) (1 / 2)) := ⟨1 / 2, by decide +kernel⟩
  have first : a'.Covers (.plane 7 7) := ⟨7, by decide +kernel⟩
  have second : a'.Covers (.plane (-5) (-5)) := ⟨-5, by decide +kernel⟩
  obtain ⟨-, solved, symmetric, -, others⟩ := exactCrossing?_solves (k := .integer) ha hb
  obtain ⟨x, hx, -, -, only⟩ := solved (by decide +kernel)
  have distinct : Point.plane (7 : Rat) 7 ≠ .plane (-5) (-5) := by decide +kernel
  refine ⟨ha, hb, ?_, symmetric, (others c ⟨_, _⟩ rfl distinct).1 first second⟩
  rw [hx, only _ onA onB]

/-! ## The point that is reported -/

section
variable {α : Type} [Coordinate α]

def roundedDenominator (a b : Line α) : Float :=
  (a.p₂.toFloat - a.p₁.toFloat).area (b.p₂.toFloat - b.p₁.toFloat)

def roundedCrossing (a b : Line α) : Point Float 2 :=
  let d₂ := b.p₂.toFloat - b.p₁.toFloat
  let t := (b.p₁.toFloat - a.p₁.toFloat).area d₂ / roundedDenominator a b
  a.p₁.toFloat + (a.p₂.toFloat - a.p₁.toFloat) * t

/-- The calculation in 64 bits has come to a point. -/
structure RoundedSucceeds (a b : Line α) : Prop where
  denominator : (roundedDenominator a b != 0) = true
  finite_x : (roundedCrossing a b).x.isFinite = true
  finite_y : (roundedCrossing a b).y.isFinite = true

theorem crossing_eq_of_succeeds {a b : Line α} (h : RoundedSucceeds a b) :
    crossing a b = roundedCrossing a b := by
  have accepted : (roundedDenominator a b != 0 && (roundedCrossing a b).x.isFinite &&
      (roundedCrossing a b).y.isFinite) = true := by
    rw [h.denominator, h.finite_x, h.finite_y]
    rfl
  exact if_pos accepted

theorem crossing_eq_of_not_succeeds {a b : Line α} (h : ¬ RoundedSucceeds a b) :
    crossing a b = (exactCrossing? a b).getD (roundedCrossing a b) := by
  have refused : ¬ (roundedDenominator a b != 0 && (roundedCrossing a b).x.isFinite &&
      (roundedCrossing a b).y.isFinite) = true := by
    intro accepted
    rw [Bool.and_eq_true, Bool.and_eq_true] at accepted
    exact h ⟨accepted.1.1, accepted.1.2, accepted.2⟩
  exact if_neg refused

/-- Where there is an exact crossing point, no third one is reported. -/
theorem crossing_cases {a b : Line α} (h : exactCrossing? a b ≠ none) :
    (RoundedSucceeds a b ∧ crossing a b = roundedCrossing a b) ∨
      exactCrossing? a b = some (crossing a b) := by
  by_cases succeeds : RoundedSucceeds a b
  · exact .inl ⟨succeeds, crossing_eq_of_succeeds succeeds⟩
  · obtain ⟨p, hp⟩ := Option.ne_none_iff_exists'.1 h
    right
    rw [crossing_eq_of_not_succeeds succeeds, hp, Option.getD_some]

theorem exactCrossing?_not_nan {a b : Line α} {p : Point Float 2}
    (h : exactCrossing? a b = some p) : p.x.isNaN = false ∧ p.y.isNaN = false := by
  unfold exactCrossing? at h
  split at h
  · obtain ⟨q, -, rfl⟩ := Option.map_eq_some_iff.1 h
    rw [Point.x_map, Point.y_map]
    exact ⟨Number.isNaN_toFloat q.x, Number.isNaN_toFloat q.y⟩
  · cases h

theorem eq_crossing_of_meeting {a b : Line α} {p : Point Float 2}
    (h : a.meeting b = .crossing p) :
    Coordinate.crossSign a.p₁ a.p₂ b.p₁ b.p₂ ≠ .eq ∧ p = crossing a b := by
  unfold meeting at h
  split at h
  · rename_i crossed
    exact ⟨bne_iff_ne.1 crossed, (Meeting.crossing.inj h).symm⟩
  · split at h <;> cases h

end

/-- **A reported crossing is never NaN.** The sign of the cross product tells the lines parallel
exactly when there is no exact crossing point. So the point that is reported for other lines is
either that of a calculation in 64 bits with a denominator other than zero and finite coordinates,
or the exact one. -/
theorem meeting_crossing_not_nan {k : CoordinateKind} {a b : Line k.Carrier} {a' b' : Line Rat}
    (ha : a.toRat? = some a') (hb : b.toRat? = some b') :
    (Coordinate.crossSign a.p₁ a.p₂ b.p₁ b.p₂ = .eq ↔
        (a'.p₂ - a'.p₁).area (b'.p₂ - b'.p₁) = 0) ∧
      (exactCrossing? a b = none ↔ (a'.p₂ - a'.p₁).area (b'.p₂ - b'.p₁) = 0) ∧
      ∀ p, a.meeting b = .crossing p →
        (p.x.isNaN = false ∧ p.y.isNaN = false) ∧
          (RoundedSucceeds a b ∧ p = roundedCrossing a b ∨ exactCrossing? a b = some p) := by
  have sign := crossSign_eq_eq_iff ha hb
  have solvable := exactCrossing?_eq_none_iff ha hb
  refine ⟨sign, solvable, ?_⟩
  intro p reported
  obtain ⟨crossed, rfl⟩ := eq_crossing_of_meeting reported
  have cases := crossing_cases (mt solvable.1 (mt sign.2 crossed))
  refine ⟨?_, cases⟩
  rcases cases with ⟨succeeds, rounded⟩ | exact
  · rw [rounded]
    exact ⟨Number.not_nan_of_isFinite succeeds.finite_x,
      Number.not_nan_of_isFinite succeeds.finite_y⟩
  · exact exactCrossing?_not_nan exact

/-- In 64 bits the denominator is lost, and the exact solution is reported. -/
theorem meeting_crossing_not_nan_nearly_parallel :
    let a : Line Float := ⟨.plane 0 0, .plane (Float.ofBits 0x3FF0000000000001) 1⟩
    let b : Line Float := ⟨.plane 0 1, .plane 1 (Float.ofBits 0x3FFFFFFFFFFFFFFF)⟩
    a.toRat?.isSome ∧ b.toRat?.isSome ∧ roundedDenominator a b == 0 ∧
      ∃ p, a.meeting b = .crossing p ∧ p.x.isNaN = false ∧ p.y.isNaN = false ∧
        exactCrossing? a b = some p := by
  intro a b
  have ha : a.toRat? =
      some ⟨.plane 0 0, .plane (4503599627370497 / 4503599627370496) 1⟩ :=
    toRat?_eq_some_iff.2 ⟨by decide +kernel, by decide +kernel⟩
  have hb : b.toRat? =
      some ⟨.plane 0 1, .plane 1 (9007199254740991 / 4503599627370496)⟩ :=
    toRat?_eq_some_iff.2 ⟨by decide +kernel, by decide +kernel⟩
  have lost : roundedDenominator a b == 0 := by decide +kernel
  have reported : a.meeting b = .crossing (crossing a b) := by
    unfold meeting
    exact if_pos (by decide +kernel)
  obtain ⟨number, way⟩ := (meeting_crossing_not_nan (k := .float64) ha hb).2.2 _ reported
  refine ⟨?_, ?_, lost, crossing a b, reported, number.1, number.2, ?_⟩
  · rw [ha]
    rfl
  · rw [hb]
    rfl
  · refine way.resolve_left ?_
    rintro ⟨succeeds, -⟩
    have := succeeds.denominator
    rw [bne, lost] at this
    cases this

end RouteGeometry.Line
