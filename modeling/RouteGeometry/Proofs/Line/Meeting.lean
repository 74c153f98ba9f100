import RouteGeometry.Line.Meeting
import RouteGeometry.Proofs.Coordinate.Faithful
import RouteGeometry.Proofs.Locus

/-! # How exact lines meet

The kind of a meeting is what the point sets of two lines say about each other. -/

namespace RouteGeometry

namespace Line

section
variable {a b c : Line Rat} {x y : Point Rat 2}

def Meets (a b : Line Rat) : Prop := ∃ x, a.Covers x ∧ b.Covers x

theorem Meets.symm (h : a.Meets b) : b.Meets a := by
  obtain ⟨x, ha, hb⟩ := h
  exact ⟨x, hb, ha⟩

/-! ## Lines that are not parallel -/

theorem ne_of_area_ne_zero (h : a.way.area b.way ≠ 0) : a.p₁ ≠ a.p₂ ∧ b.p₁ ≠ b.p₂ := by
  rw [way, way, Displacement.area_sub] at h
  constructor
  · intro degenerate
    apply h
    rw [degenerate]
    ring
  · intro degenerate
    apply h
    rw [degenerate]
    ring

theorem covers_of_meetingPoint? (h : a.meetingPoint? b = some x) : a.Covers x ∧ b.Covers x := by
  unfold meetingPoint? at h
  dsimp only at h
  split at h
  · cases h
  · rename_i crossed
    have same := Option.some.inj h
    refine ⟨⟨_, same.symm⟩, (covers_iff_of_ne (ne_of_area_ne_zero crossed).2).2 ?_⟩
    rw [← same]
    have solved := div_mul_cancel₀ ((b.p₁ - a.p₁).area (b.p₂ - b.p₁)) crossed
    rw [Displacement.area_sub, Displacement.area_sub] at solved
    rw [way, Displacement.area_sub, Point.x_add, Point.y_add, Displacement.x_mul,
      Displacement.y_mul, Displacement.x_sub, Displacement.y_sub, Displacement.area_sub,
      Displacement.area_sub]
    linear_combination -solved

theorem meetingPoint?_eq_none_iff : a.meetingPoint? b = none ↔ a.way.area b.way = 0 := by
  simp [meetingPoint?, way]

theorem exists_meetingPoint? (h : a.way.area b.way ≠ 0) : ∃ x, a.meetingPoint? b = some x :=
  Option.ne_none_iff_exists'.1 (mt meetingPoint?_eq_none_iff.1 h)

theorem meets_of_area_ne_zero (h : a.way.area b.way ≠ 0) : a.Meets b := by
  obtain ⟨x, hx⟩ := exists_meetingPoint? h
  exact ⟨x, covers_of_meetingPoint? hx⟩

theorem eq_of_covers (h : a.way.area b.way ≠ 0) (hx : a.Covers x ∧ b.Covers x)
    (hy : a.Covers y ∧ b.Covers y) : x = y := by
  have onA := area_eq_zero_of_covers hx.1
  have onB := area_eq_zero_of_covers hx.2
  have onA' := area_eq_zero_of_covers hy.1
  have onB' := area_eq_zero_of_covers hy.2
  unfold way at h onA onB onA' onB'
  rw [Displacement.area_sub] at h onA onB onA' onB'
  rw [Point.plane_ext_iff]
  constructor
  · apply mul_left_cancel₀ h
    linear_combination (a.p₂.x - a.p₁.x) * (onB' - onB) - (b.p₂.x - b.p₁.x) * (onA' - onA)
  · apply mul_left_cancel₀ h
    linear_combination (a.p₂.y - a.p₁.y) * (onB' - onB) - (b.p₂.y - b.p₁.y) * (onA' - onA)

/-! ## Parallel lines -/

theorem covers_of_parallel (flat : a.way.area b.way = 0) (meet : a.Meets b) (hb : b.p₁ ≠ b.p₂)
    (hy : a.Covers y) : b.Covers y := by
  obtain ⟨x, ⟨s, hx⟩, hbx⟩ := meet
  obtain ⟨t, hy⟩ := hy
  have onB := area_eq_zero_of_covers hbx
  rw [covers_iff_of_ne hb]
  unfold way at flat onB ⊢
  rw [Displacement.area_sub] at flat onB ⊢
  rw [hx, Point.x_along, Point.y_along] at onB
  rw [hy, Point.x_along, Point.y_along]
  linear_combination onB + (s - t) * flat

theorem meets_iff_of_eq (ha : a.p₁ = a.p₂) : a.Meets b ↔ b.Covers a.p₁ := by
  constructor
  · rintro ⟨x, hax, hbx⟩
    rwa [(covers_iff_of_eq ha).1 hax] at hbx
  · intro h
    exact ⟨a.p₁, a.covers_p₁, h⟩

theorem area_way_comm : b.way.area a.way = 0 ↔ a.way.area b.way = 0 := by
  have turned : b.way.area a.way = -a.way.area b.way := by
    unfold way
    rw [Displacement.area_sub, Displacement.area_sub]
    ring
  rw [turned, neg_eq_zero]

theorem meets_iff_of_ne (flat : a.way.area b.way = 0) (ha : a.p₁ ≠ a.p₂) :
    a.Meets b ↔ a.Covers b.p₁ := by
  constructor
  · intro meet
    exact covers_of_parallel (area_way_comm.2 flat) meet.symm ha b.covers_p₁
  · intro h
    exact ⟨b.p₁, h, b.covers_p₁⟩

/-! ## The three kinds -/

def MeetAs (a b : Line Rat) : Meeting.Kind → Prop
  | .crossing => a.way.area b.way ≠ 0
  | .overlapping => a.way.area b.way = 0 ∧ a.Meets b
  | .parallel => a.way.area b.way = 0 ∧ ¬ a.Meets b

theorem MeetAs.unique {k k' : Meeting.Kind} (h : a.MeetAs b k) (h' : a.MeetAs b k') : k = k' := by
  cases k with
  | crossing =>
    cases k' with
    | crossing => rfl
    | overlapping | parallel => exact absurd h'.1 h
  | overlapping =>
    cases k' with
    | crossing => exact absurd h.1 h'
    | overlapping => rfl
    | parallel => exact absurd h.2 h'.2
  | parallel =>
    cases k' with
    | crossing => exact absurd h.1 h'
    | overlapping => exact absurd h'.2 h.2
    | parallel => rfl

/-- Only the point sets and the directions matter. -/
theorem MeetAs.congr {a' b' : Line Rat} {k : Meeting.Kind} (h : a.MeetAs b k)
    (ways : a'.way.area b'.way = 0 ↔ a.way.area b.way = 0) (meets : a'.Meets b' ↔ a.Meets b) :
    a'.MeetAs b' k := by
  cases k with
  | crossing => exact fun flat => h (ways.1 flat)
  | overlapping => exact ⟨ways.2 h.1, meets.2 h.2⟩
  | parallel => exact ⟨ways.2 h.1, fun meet => h.2 (meets.1 meet)⟩

theorem MeetAs.symm {k : Meeting.Kind} (h : a.MeetAs b k) : b.MeetAs a k :=
  h.congr area_way_comm ⟨Meets.symm, Meets.symm⟩

theorem meetAs_parallel_iff : a.MeetAs b .parallel ↔ ¬ a.Meets b := by
  constructor
  · intro h
    exact h.2
  · intro apart
    refine ⟨?_, apart⟩
    by_contra crossed
    exact apart (meets_of_area_ne_zero crossed)

theorem meetAs_crossing_iff :
    a.MeetAs b .crossing ↔ a.p₁ ≠ a.p₂ ∧ b.p₁ ≠ b.p₂ ∧ ∃! x, a.Covers x ∧ b.Covers x := by
  constructor
  · intro crossed
    obtain ⟨ha, hb⟩ := ne_of_area_ne_zero crossed
    obtain ⟨x, hx⟩ := meets_of_area_ne_zero crossed
    exact ⟨ha, hb, x, hx, fun y hy => eq_of_covers crossed hy hx⟩
  · -- On parallel lines with a direction both points of one are common points.
    rintro ⟨ha, hb, x, hx, only⟩ flat
    have on {y : Point Rat 2} (hy : a.Covers y) : y = x :=
      only y ⟨hy, covers_of_parallel flat ⟨x, hx⟩ hb hy⟩
    exact ha ((on a.covers_p₁).trans (on a.covers_p₂).symm)

theorem MeetAs.covers_or_covers (h : a.MeetAs b .overlapping) :
    (∀ x, a.Covers x → b.Covers x) ∨ ∀ x, b.Covers x → a.Covers x := by
  obtain ⟨flat, meet⟩ := h
  by_cases hb : b.p₁ = b.p₂
  · right
    intro x hx
    rw [(covers_iff_of_eq hb).1 hx]
    exact (meets_iff_of_eq hb).1 meet.symm
  · left
    intro x hx
    exact covers_of_parallel flat meet hb hx

/-! ## Other points of the same line -/

section
variable (hc : c.p₁ ≠ c.p₂) (h₁ : a.Covers c.p₁) (h₂ : a.Covers c.p₂)

include hc h₁ h₂

theorem exists_way_eq : ∃ k : Rat, k ≠ 0 ∧ c.way = a.way * k := by
  obtain ⟨s, hs⟩ := h₁
  obtain ⟨t, ht⟩ := h₂
  refine ⟨t - s, ?_, ?_⟩
  · intro same
    apply hc
    rw [hs, ht, sub_eq_zero.1 same]
  · unfold way
    apply Displacement.plane_ext
    · rw [hs, ht]
      simp only [Displacement.x_sub, Displacement.x_mul, Point.x_along]
      ring
    · rw [hs, ht]
      simp only [Displacement.y_sub, Displacement.y_mul, Point.y_along]
      ring

/-- Two lines have the same direction when one goes through two points of the other. -/
theorem area_way_iff_of_covers : c.way.area b.way = 0 ↔ a.way.area b.way = 0 := by
  obtain ⟨k, hk, same⟩ := exists_way_eq hc h₁ h₂
  have scaled : c.way.area b.way = k * a.way.area b.way := by
    rw [same, Displacement.area, Displacement.area, Displacement.x_mul, Displacement.y_mul]
    ring
  rw [scaled, mul_eq_zero, or_iff_right hk]

/-- Two distinct points represent their line as well as any others. -/
theorem covers_iff_of_covers : c.Covers x ↔ a.Covers x := by
  constructor
  · rintro ⟨t, rfl⟩
    obtain ⟨u, hu⟩ := h₁
    obtain ⟨v, hv⟩ := h₂
    rw [hu, hv, Point.along_along]
    exact ⟨_, rfl⟩
  · have flat : a.way.area c.way = 0 :=
      area_way_comm.1 ((area_way_iff_of_covers hc h₁ h₂).2 (by unfold Displacement.area; ring))
    exact covers_of_parallel flat ⟨c.p₁, h₁, c.covers_p₁⟩ hc

theorem MeetAs.of_covers {k : Meeting.Kind} (h : a.MeetAs b k) : c.MeetAs b k :=
  h.congr (area_way_iff_of_covers hc h₁ h₂)
    (exists_congr fun _ => and_congr_left fun _ => covers_iff_of_covers hc h₁ h₂)

end

end

/-! ## The kind that is found -/

section
variable {α : Type} [Coordinate α]

theorem toRat?_eq_some_iff {l : Line α} {m : Line Rat} :
    l.toRat? = some m ↔ l.p₁.toRat? = some m.p₁ ∧ l.p₂.toRat? = some m.p₂ := by
  unfold toRat?
  constructor
  · intro h
    split at h
    · rename_i p q hp hq
      obtain rfl := Option.some.inj h
      exact ⟨hp, hq⟩
    · cases h
  · rintro ⟨hp, hq⟩
    rw [hp, hq]

theorem crossSign_eq_eq_iff [Coordinate.Faithful α] {a b : Line α} {a' b' : Line Rat}
    (ha : a.toRat? = some a') (hb : b.toRat? = some b') :
    Coordinate.crossSign a.p₁ a.p₂ b.p₁ b.p₂ = .eq ↔ a'.way.area b'.way = 0 := by
  obtain ⟨ha₁, ha₂⟩ := toRat?_eq_some_iff.1 ha
  obtain ⟨hb₁, hb₂⟩ := toRat?_eq_some_iff.1 hb
  rw [Coordinate.Faithful.crossSign_eq ha₁ ha₂ hb₁ hb₂]
  exact Coordinate.crossSign_rat_eq_eq_iff _ _ _ _

variable [Coordinate.Exact α]

theorem exists_toRat? (l : Line α) : ∃ l', l.toRat? = some l' := by
  obtain ⟨p, hp⟩ := l.p₁.exists_toRat?
  obtain ⟨q, hq⟩ := l.p₂.exists_toRat?
  exact ⟨⟨p, q⟩, toRat?_eq_some_iff.2 ⟨hp, hq⟩⟩

variable {a b : Line α} {a' b' : Line Rat} (ha : a.toRat? = some a') (hb : b.toRat? = some b')

include ha in
theorem isDegenerate_iff : a.isDegenerate = true ↔ a'.p₁ = a'.p₂ :=
  Point.equal_iff (toRat?_eq_some_iff.1 ha).1 (toRat?_eq_some_iff.1 ha).2

include ha hb

/-- Each case puts the question to a line on which it can be answered. -/
theorem overlaps_iff (flat : a'.way.area b'.way = 0) : a.overlaps b = true ↔ a'.Meets b' := by
  have degenerateA := isDegenerate_iff ha
  have degenerateB := isDegenerate_iff hb
  obtain ⟨ha₁, ha₂⟩ := toRat?_eq_some_iff.1 ha
  obtain ⟨hb₁, hb₂⟩ := toRat?_eq_some_iff.1 hb
  unfold overlaps
  split
  · rename_i hA hB
    rw [meets_iff_of_eq (degenerateA.1 hA), covers_iff_of_eq (degenerateB.1 hB)]
    exact Point.equal_iff ha₁ hb₁
  · rename_i hA hB
    have hB : b'.p₁ ≠ b'.p₂ := fun e => Bool.false_ne_true (hB.symm.trans (degenerateB.2 e))
    rw [meets_iff_of_eq (degenerateA.1 hA), covers_iff_of_ne hB]
    exact Orientation.isColinear_ofPoints_iff hb₁ hb₂ ha₁
  · rename_i hA
    have hA : a'.p₁ ≠ a'.p₂ := fun e => Bool.false_ne_true (hA.symm.trans (degenerateA.2 e))
    rw [meets_iff_of_ne flat hA, covers_iff_of_ne hA]
    exact Orientation.isColinear_ofPoints_iff ha₁ ha₂ hb₁

theorem meetAs_kind : a'.MeetAs b' (a.meeting b).kind := by
  have sign := crossSign_eq_eq_iff ha hb
  unfold meeting
  split
  · rename_i crossed
    exact fun flat => bne_iff_ne.1 crossed (sign.2 flat)
  · rename_i parallel
    have flat : a'.way.area b'.way = 0 := by
      apply sign.1
      by_contra crossed
      exact parallel (bne_iff_ne.2 crossed)
    split
    · rename_i overlap
      exact ⟨flat, (overlaps_iff ha hb flat).1 overlap⟩
    · rename_i apart
      exact ⟨flat, fun meet => apart ((overlaps_iff ha hb flat).2 meet)⟩

theorem kind_meeting_eq_iff {k : Meeting.Kind} : (a.meeting b).kind = k ↔ a'.MeetAs b' k := by
  constructor
  · rintro rfl
    exact meetAs_kind ha hb
  · intro h
    exact (meetAs_kind ha hb).unique h

end

/-- **The kind of a meeting says how the point sets meet.** It is the same for the
other order of the lines, and for any two distinct points that represent a line. -/
theorem kind_meeting_classifies {k : CoordinateKind} (hk : k.isExact = true)
    (a b : Line k.Carrier) :
    ∃ a' b' : Line Rat, a.toRat? = some a' ∧ b.toRat? = some b' ∧
      ((a.meeting b).kind = .parallel ↔ ¬ ∃ x, a'.Covers x ∧ b'.Covers x) ∧
      ((a.meeting b).kind = .overlapping ↔
        (∃ x, a'.Covers x ∧ b'.Covers x) ∧ (a'.p₂ - a'.p₁).area (b'.p₂ - b'.p₁) = 0) ∧
      ((a.meeting b).kind = .overlapping →
        (∀ x, a'.Covers x → b'.Covers x) ∨ ∀ x, b'.Covers x → a'.Covers x) ∧
      ((a.meeting b).kind = .crossing ↔
        a'.p₁ ≠ a'.p₂ ∧ b'.p₁ ≠ b'.p₂ ∧ ∃! x, a'.Covers x ∧ b'.Covers x) ∧
      (b.meeting a).kind = (a.meeting b).kind ∧
      ∀ (c : Line k.Carrier) (c' : Line Rat), c.toRat? = some c' → c'.p₁ ≠ c'.p₂ →
        a'.Covers c'.p₁ → a'.Covers c'.p₂ →
          (c.meeting b).kind = (a.meeting b).kind ∧ (b.meeting c).kind = (b.meeting a).kind := by
  have := CoordinateKind.exact_of_isExact hk
  obtain ⟨a', ha⟩ := a.exists_toRat?
  obtain ⟨b', hb⟩ := b.exists_toRat?
  refine ⟨a', b', ha, hb, ?_, ?_, ?_, ?_, ?_, ?_⟩
  · rw [kind_meeting_eq_iff ha hb]
    exact meetAs_parallel_iff
  · rw [kind_meeting_eq_iff ha hb]
    exact and_comm
  · rw [kind_meeting_eq_iff ha hb]
    exact MeetAs.covers_or_covers
  · rw [kind_meeting_eq_iff ha hb]
    exact meetAs_crossing_iff
  · rw [kind_meeting_eq_iff hb ha]
    exact (meetAs_kind ha hb).symm
  · intro c c' hc distinct h₁ h₂
    have same := (meetAs_kind ha hb).of_covers distinct h₁ h₂
    constructor
    · rw [kind_meeting_eq_iff hc hb]
      exact same
    · have other := (meetAs_kind hb ha).symm.of_covers distinct h₁ h₂
      rw [kind_meeting_eq_iff hb hc]
      exact other.symm

/-- The diagonals of the whole range cross, although no difference fits the type. -/
theorem kind_meeting_classifies_int8 :
    CoordinateKind.int8.isExact = true ∧ ∃ a' b' : Line Rat,
      (⟨.plane (.ofInt (-128)) (.ofInt (-128)), .plane (.ofInt 127) (.ofInt 127)⟩ :
        Line (FixedInt 8)).toRat? = some a' ∧
      (⟨.plane (.ofInt (-128)) (.ofInt 127), .plane (.ofInt 127) (.ofInt (-128))⟩ :
        Line (FixedInt 8)).toRat? = some b' ∧ ∃! x, a'.Covers x ∧ b'.Covers x := by
  obtain ⟨a', b', ha, hb, -, -, -, crossing, -, -⟩ := kind_meeting_classifies (k := .int8) rfl
    ⟨.plane (.ofInt (-128)) (.ofInt (-128)), .plane (.ofInt 127) (.ofInt 127)⟩
    ⟨.plane (.ofInt (-128)) (.ofInt 127), .plane (.ofInt 127) (.ofInt (-128))⟩
  exact ⟨rfl, a', b', ha, hb, (crossing.1 (by decide)).2.2⟩

end Line

end RouteGeometry
