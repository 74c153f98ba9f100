import RouteGeometry.Polyline.Position
import RouteGeometry.Proofs.Polyline.Length

/-! # Positions stay on the polyline

The way that remains is a fraction of a rounded sum, and it is shortened by rounded differences. All
the same it does not fall below zero, since it is shortened by a segment only when it is longer than
that, or when the segment has no length. So the loop ends on a segment with a length, and not beyond
its end, or it passes all segments and the last point is the answer. -/

namespace RouteGeometry.Polyline

/-- Fractions end up between zero and one, unless they are NaN. -/
theorem clampedFraction_range (x : Float) :
    (0 ≤ clampedFraction x ∧ clampedFraction x ≤ 1) ∨ (clampedFraction x).isNaN = true := by
  cases nan : x.isNaN with
  | true =>
    right
    have below : ¬x < 0 := fun h => by
      rw [Number.lt_iff_compare, Number.unpack_of_isNaN nan] at h
      cases h
    have above : ¬x > 1 := fun h => by
      rw [gt_iff_lt, Number.lt_iff_compare, Number.unpack_of_isNaN nan] at h
      cases h
    rw [clampedFraction, if_neg below, if_neg above, nan]
  | false =>
    left
    unfold clampedFraction
    by_cases below : x < 0
    · rw [if_pos below]
      exact ⟨by decide, by decide⟩
    · rw [if_neg below]
      by_cases above : x > 1
      · rw [if_pos above]
        exact ⟨by decide, by decide⟩
      · rw [if_neg above]
        exact ⟨Number.float_le_of_not_lt nan rfl below, Number.float_le_of_not_lt rfl nan above⟩

section
variable {α : Type} [Coordinate α]

/-! ## The loop passed the segments -/

def endsOn (remaining : Float) (s : Segment α) : Bool := s.length > 0 && remaining ≤ s.length

theorem walk_cons (remaining : Float) (s : Segment α) (rest : List (Segment α)) :
    walk remaining (s :: rest) =
      if endsOn remaining s then some (onSegment s (remaining / s.length))
      else walk (remaining - s.length) rest := rfl

/-- The states of the loop: how much of the way remains, and which segments are ahead. -/
inductive Visits (way : Float) (segments : List (Segment α)) : Float → List (Segment α) → Prop
  | start : Visits way segments way segments
  | pass {remaining : Float} {s : Segment α} {rest : List (Segment α)}
      (visited : Visits way segments remaining (s :: rest)) (passed : endsOn remaining s = false) :
      Visits way segments (remaining - s.length) rest

variable {way remaining : Float} {segments ahead rest : List (Segment α)} {s : Segment α}

theorem Visits.suffix (h : Visits way segments remaining ahead) : ahead <:+ segments := by
  induction h with
  | start => exact List.suffix_refl _
  | pass _ _ ih => exact (List.suffix_cons _ _).trans ih

/-- The rest of the loop finds the answer of the whole one. -/
theorem Visits.walk_eq (h : Visits way segments remaining ahead) :
    walk remaining ahead = walk way segments := by
  induction h with
  | start => rfl
  | pass _ passed ih =>
    rw [walk_cons, passed] at ih
    exact ih

/-- An answer comes from the state in which the way ends on a segment. -/
theorem Visits.exists_of_walk (h : Visits way segments remaining ahead) {p : Point Float 2}
    (found : walk remaining ahead = some p) :
    ∃ remaining s rest, Visits way segments remaining (s :: rest) ∧ endsOn remaining s = true ∧
      p = onSegment s (remaining / s.length) := by
  induction ahead generalizing remaining with
  | nil => cases found
  | cons s rest ih =>
    rw [walk_cons] at found
    cases on : endsOn remaining s with
    | true =>
      rw [on] at found
      exact ⟨remaining, s, rest, h, on, (Option.some.inj found).symm⟩
    | false =>
      rw [on] at found
      exact ih (.pass h on) found

/-! ## What remains of the way -/

/-- Passing a segment leaves no negative way. -/
theorem remaining_step {b : Rat} (hb : Number.toRat? s.length.toModel.unpack = some b)
    (passed : endsOn remaining s = false) (h : 0 ≤ remaining ∨ remaining.isNaN = true) :
    0 ≤ remaining - s.length ∨ (remaining - s.length).isNaN = true := by
  rcases h with nonneg | nan
  · left
    refine Number.float_sub_nonneg hb ?_
    by_cases positive : s.length > 0
    · -- The segment is too short for the rest of the way.
      have beyond : ¬remaining ≤ s.length := fun le => by
        rw [endsOn, decide_eq_true positive, decide_eq_true le] at passed
        cases passed
      refine Number.float_le_of_not_lt (Number.not_nan_of_le nonneg).2
        (Number.not_nan_of_le (Segment.length_nonneg hb)).2 fun less => beyond ?_
      exact Number.float_le_of_lt less
    · -- The segment has no length.
      have none := Number.float_le_of_not_lt rfl
        (Number.not_nan_of_le (Segment.length_nonneg hb)).2 positive
      exact Number.float_le_trans none nonneg
  · exact .inr (Number.isNaN_sub_of_isNaN_left _ nan)

theorem Visits.nonneg_or_nan (h : Visits way segments remaining ahead)
    (finite : ∀ s ∈ segments, ∃ b, Number.toRat? s.length.toModel.unpack = some b)
    (nonneg : 0 ≤ way ∨ way.isNaN = true) : 0 ≤ remaining ∨ remaining.isNaN = true := by
  induction h with
  | start => exact nonneg
  | pass visited passed ih =>
    obtain ⟨b, hb⟩ := finite _ (visited.suffix.subset List.mem_cons_self)
    exact remaining_step hb passed ih

/-- Where the way ends, what remains of it is a fraction of a segment that has a length. -/
theorem fraction_of_endsOn {b : Rat} (hb : Number.toRat? s.length.toModel.unpack = some b)
    (on : endsOn remaining s = true) (h : 0 ≤ remaining ∨ remaining.isNaN = true) :
    0 < s.length ∧ 0 ≤ remaining / s.length ∧ remaining / s.length ≤ 1 := by
  rw [endsOn, Bool.and_eq_true, decide_eq_true_iff, decide_eq_true_iff] at on
  obtain ⟨positive, le⟩ := on
  have nonneg : 0 ≤ remaining := by
    refine h.resolve_right fun nan => ?_
    rw [(Number.not_nan_of_le le).1] at nan
    cases nan
  exact ⟨positive, Number.div_between hb nonneg le ((Number.float_lt_iff Number.toRat?_zero hb).1
    positive)⟩

/-- The way along a polyline of finite length is not below zero, unless the fraction is NaN. -/
theorem way_nonneg_or_nan {l : Polyline α} (finite : l.length.isFinite = true) (fraction : Float) :
    0 ≤ clampedFraction fraction * l.length ∨
      (clampedFraction fraction * l.length).isNaN = true := by
  rcases clampedFraction_range fraction with ⟨above, below⟩ | nan
  · left
    obtain ⟨f, hf, nonneg, -⟩ := Number.exists_toRat?_of_between Number.toRat?_zero
      (show Number.toRat? (1 : Float).toModel.unpack = some 1 by decide +kernel) above below
    obtain ⟨b, hb⟩ := Number.isFinite_iff.1 finite
    have length_nonneg := (Number.float_le_iff Number.toRat?_zero hb).1 (length_nonneg finite)
    obtain ⟨v, holds, closest⟩ := Number.holds_mul_closest hf hb
    exact holds.nonneg (closest.nonneg (Rat.mul_nonneg nonneg length_nonneg))
  · exact .inr (Number.isNaN_mul_of_isNaN _ nan)

end

/-! ## Positions -/

/-- **Positions stay on the polyline.** Every fraction, be it negative, above one, infinite or NaN,
has a position on a polyline with a point whose length is finite, as it is for integers of a fixed
width. It is the last point or a fraction, between zero and one, of a segment that has a length. In
every state on the way there the rest of the loop finds the answer of the whole, what remains is not
below zero, unless it is NaN, and it is divided by nothing but the positive length of the segment on
which the way ends. -/
theorem position_stays {k : CoordinateKind} (l : Polyline k.Carrier) (fraction : Float)
    (nonempty : l.points ≠ []) (finite : k.isFixedWidth = true ∨ l.length.isFinite = true) :
    (∃ last p, l.last? = some last ∧ l.position fraction = some p ∧
      (p = last.toFloat ∨ ∃ s ∈ l.segments, ∃ t : Float, 0 < s.length ∧ 0 ≤ t ∧ t ≤ 1 ∧
        p = s.start.toFloat + (s.finish.toFloat - s.start.toFloat) * t)) ∧
      ∀ remaining ahead,
        Visits (clampedFraction fraction * l.length) l.segments remaining ahead →
          walk remaining ahead = walk (clampedFraction fraction * l.length) l.segments ∧
            (0 ≤ remaining ∨ remaining.isNaN = true) ∧
              ∀ s rest, ahead = s :: rest → endsOn remaining s = true → 0 < s.length := by
  have finite : l.length.isFinite = true := finite.elim (fun h => k.isFinite_length h l) id
  have lengths := fun s (hs : s ∈ l.segments) => finite_of_mem_segments finite hs
  have nonneg {remaining : Float} {ahead : List (Segment k.Carrier)}
      (visited : Visits (clampedFraction fraction * l.length) l.segments remaining ahead) :=
    visited.nonneg_or_nan lengths (way_nonneg_or_nan finite fraction)
  have ends {remaining : Float} {s : Segment k.Carrier} {rest : List (Segment k.Carrier)}
      (visited : Visits (clampedFraction fraction * l.length) l.segments remaining (s :: rest))
      (on : endsOn remaining s = true) :
      s ∈ l.segments ∧ 0 < s.length ∧ 0 ≤ remaining / s.length ∧ remaining / s.length ≤ 1 := by
    have hs := visited.suffix.subset List.mem_cons_self
    obtain ⟨b, hb⟩ := lengths s hs
    exact ⟨hs, fraction_of_endsOn hb on (nonneg visited)⟩
  constructor
  · have some_last : l.last? = some (l.points.getLast nonempty) :=
      List.getLast?_eq_some_getLast nonempty
    refine ⟨_, _, some_last, by rw [position, some_last], ?_⟩
    cases found : walk (clampedFraction fraction * l.length) l.segments with
    | none => exact .inl rfl
    | some p =>
      obtain ⟨remaining, s, rest, visited, on, rfl⟩ := Visits.start.exists_of_walk found
      obtain ⟨hs, positive, between⟩ := ends visited on
      exact .inr ⟨s, hs, remaining / s.length, positive, between.1, between.2, rfl⟩
  · intro remaining ahead visited
    refine ⟨visited.walk_eq, nonneg visited, ?_⟩
    rintro s rest rfl on
    exact (ends visited on).2.1

/-- A polyline whose last segment has no length has a position at one half and at NaN. -/
theorem position_stays_int8 :
    let l : Polyline (FixedInt 8) := ⟨[.plane (.ofInt 0) (.ofInt 0), .plane (.ofInt 3) (.ofInt 4),
      .plane (.ofInt 3) (.ofInt 4)]⟩
    let onChain (p : Point Float 2) : Prop :=
      p = (Point.plane (.ofInt 3) (.ofInt 4) : Point (FixedInt 8) 2).toFloat ∨
        ∃ s ∈ l.segments, ∃ t : Float, 0 < s.length ∧ 0 ≤ t ∧ t ≤ 1 ∧
          p = s.start.toFloat + (s.finish.toFloat - s.start.toFloat) * t
    l.points ≠ [] ∧ CoordinateKind.int8.isFixedWidth = true ∧
      (∃ p, l.position (1 / 2) = some p ∧ onChain p) ∧
        ∃ p, l.position (0 / 0) = some p ∧ onChain p := by
  intro l onChain
  have nonempty : l.points ≠ [] := List.cons_ne_nil _ _
  have answer (fraction : Float) : ∃ p, l.position fraction = some p ∧ onChain p := by
    obtain ⟨⟨last, p, hlast, found, on⟩, -⟩ :=
      position_stays (k := .int8) l fraction nonempty (.inl rfl)
    obtain rfl := Option.some.inj hlast
    exact ⟨p, found, on⟩
  exact ⟨nonempty, rfl, answer (1 / 2), answer (0 / 0)⟩

end RouteGeometry.Polyline
