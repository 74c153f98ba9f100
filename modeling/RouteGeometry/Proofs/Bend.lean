import RouteGeometry.Bend
import RouteGeometry.Proofs.Coordinate.Faithful
import RouteGeometry.Proofs.Locus

/-! # Where a path goes straight on

The interior angle reaches a straight angle exactly at the points of the segment between both
neighbours, whatever the arctangent. -/

namespace RouteGeometry

theorem pi_le_pi : pi ≤ pi := by decide

theorem not_pi_le_zero : ¬ pi ≤ 0 := by decide

theorem atMost_le {limit : Float} (h : limit ≤ limit) (x : Float) : atMost limit x ≤ limit := by
  unfold atMost
  split
  · assumption
  · exact h

/-- No number below the limit is a straight angle, NaN included. -/
theorem not_pi_le_atMost (x : Float) : ¬ pi ≤ atMost belowStraight x := by
  intro h
  have below : ¬ pi ≤ belowStraight := by decide
  have limit : belowStraight ≤ belowStraight := by decide
  exact below (Number.float_le_trans h (atMost_le limit x))

/-! ## Steps along an axis -/

theorem mul_nonneg_of_order_eq {a p b : Rat} (h : Number.order p a = Number.order b p) :
    0 ≤ (p - a) * (b - p) := by
  cases before : Number.order p a with
  | lt =>
    have hp := Number.order_eq_lt_iff.1 before
    have hb := Number.order_eq_lt_iff.1 (h.symm.trans before)
    exact mul_nonneg_of_nonpos_of_nonpos (sub_neg.2 hp).le (sub_neg.2 hb).le
  | eq =>
    have hp := Number.order_eq_eq_iff.1 before
    rw [hp, sub_self, zero_mul]
  | gt =>
    have hp := Number.order_eq_gt_iff.1 before
    have hb := Number.order_eq_gt_iff.1 (h.symm.trans before)
    exact mul_nonneg (sub_pos.2 hp).le (sub_pos.2 hb).le

/-- Inside a segment both steps go the way of the whole. -/
theorem order_eq_order_of_between {t : Rat} (h0 : 0 < t) (h1 : t < 1) (a b : Rat) :
    Number.order (a + (b - a) * t) a = Number.order b (a + (b - a) * t) := by
  have h1 := sub_pos.2 h1
  rcases lt_trichotomy a b with h | rfl | h
  · have first := mul_pos (sub_pos.2 h) h0
    have second := mul_pos (sub_pos.2 h) h1
    rw [Number.order_eq_gt_iff.2 (by linarith), Number.order_eq_gt_iff.2 (by linarith)]
  · rw [sub_self, zero_mul, add_zero]
  · have first := mul_pos (sub_pos.2 h) h0
    have second := mul_pos (sub_pos.2 h) h1
    rw [Number.order_eq_lt_iff.2 (by linarith), Number.order_eq_lt_iff.2 (by linarith)]

/-! ## The interior angle -/

section
variable {α : Type} [Coordinate α] [Coordinate.Faithful α] {a p b : Point α 2}
  {a' p' b' : Point Rat 2} (ha : a.toRat? = some a') (hp : p.toRat? = some p')
  (hb : b.toRat? = some b')

include ha hp hb

theorem sameWay_iff : sameWay a p b = true ↔
    Number.order p'.x a'.x = Number.order b'.x p'.x ∧
      Number.order p'.y a'.y = Number.order b'.y p'.y := by
  obtain ⟨hax, hay⟩ := Point.toRat?_eq_some_iff.1 ha
  obtain ⟨hpx, hpy⟩ := Point.toRat?_eq_some_iff.1 hp
  obtain ⟨hbx, hby⟩ := Point.toRat?_eq_some_iff.1 hb
  unfold sameWay
  rw [Coordinate.Faithful.order?_eq hpx hax, Coordinate.Faithful.order?_eq hbx hpx,
    Coordinate.Faithful.order?_eq hpy hay, Coordinate.Faithful.order?_eq hby hpy,
    Bool.and_eq_true, beq_iff_eq, beq_iff_eq, Option.some_inj, Option.some_inj]

theorem covers_of_sameWay (flat : (p' - a').area (b' - p') = 0) (h : sameWay a p b = true) :
    (⟨a', b'⟩ : Segment Rat).Covers p' := by
  obtain ⟨hx, hy⟩ := (sameWay_iff ha hp hb).1 h
  apply Segment.covers_of_straightOn
  exact ⟨flat, mul_nonneg_of_order_eq hx, mul_nonneg_of_order_eq hy⟩

theorem sameWay_of_covers (h : (⟨a', b'⟩ : Segment Rat).Covers p') (hap : a' ≠ p')
    (hpb : p' ≠ b') : sameWay a p b = true := by
  obtain ⟨t, h0, h1, rfl⟩ := h
  have h0 : 0 < t := by
    refine lt_of_le_of_ne h0 ?_
    rintro rfl
    exact hap (Point.along_zero a' b').symm
  have h1 : t < 1 := by
    refine lt_of_le_of_ne h1 ?_
    rintro rfl
    exact hpb (Point.along_one a' b')
  rw [sameWay_iff ha hp hb, Point.x_along, Point.y_along]
  exact ⟨order_eq_order_of_between h0 h1 _ _, order_eq_order_of_between h0 h1 _ _⟩

theorem still_iff : (a.equal p || p.equal b) = true ↔ a' = p' ∨ p' = b' := by
  rw [Bool.or_eq_true, Point.equal_iff ha hp, Point.equal_iff hp hb]

theorem crossSign_beq_eq_iff :
    (Coordinate.crossSign a p p b == .eq) = true ↔ (p' - a').area (b' - p') = 0 := by
  rw [beq_iff_eq, Coordinate.Faithful.crossSign_eq ha hp hp hb]
  exact Coordinate.crossSign_rat_eq_eq_iff _ _ _ _

theorem interiorAngle_of_covers (arctan₂ : Float → Float → Float)
    (h : (⟨a', b'⟩ : Segment Rat).Covers p') : interiorAngle arctan₂ a p b = pi := by
  unfold interiorAngle
  split
  · rfl
  · rename_i moves
    rw [still_iff ha hp hb, not_or] at moves
    rw [if_pos ((crossSign_beq_eq_iff ha hp hb).2 (Segment.straightOn_of_covers h).flat),
      if_pos (sameWay_of_covers ha hp hb h moves.1 moves.2)]

theorem not_still_of_not_covers (h : ¬ (⟨a', b'⟩ : Segment Rat).Covers p') :
    ¬ (a.equal p || p.equal b) = true := by
  rw [still_iff ha hp hb]
  rintro (rfl | rfl)
  · exact h (Segment.covers_start ⟨a', b'⟩)
  · exact h (Segment.covers_finish ⟨a', p'⟩)

theorem interiorAngle_of_flat (arctan₂ : Float → Float → Float)
    (flat : (p' - a').area (b' - p') = 0) (h : ¬ (⟨a', b'⟩ : Segment Rat).Covers p') :
    interiorAngle arctan₂ a p b = 0 := by
  have back : ¬ sameWay a p b = true := fun same => h (covers_of_sameWay ha hp hb flat same)
  rw [interiorAngle, if_neg (not_still_of_not_covers ha hp hb h),
    if_pos ((crossSign_beq_eq_iff ha hp hb).2 flat), if_neg back]

theorem interiorAngle_of_turn (arctan₂ : Float → Float → Float)
    (turn : (p' - a').area (b' - p') ≠ 0) :
    interiorAngle arctan₂ a p b = turnAngle arctan₂ a p b := by
  have off : ¬ (⟨a', b'⟩ : Segment Rat).Covers p' :=
    fun h => turn (Segment.straightOn_of_covers h).flat
  rw [interiorAngle, if_neg (not_still_of_not_covers ha hp hb off),
    if_neg (mt (crossSign_beq_eq_iff ha hp hb).1 turn)]

theorem pi_le_interiorAngle_iff (arctan₂ : Float → Float → Float) :
    pi ≤ interiorAngle arctan₂ a p b ↔ (⟨a', b'⟩ : Segment Rat).Covers p' := by
  constructor
  · intro h
    by_contra off
    by_cases flat : (p' - a').area (b' - p') = 0
    · rw [interiorAngle_of_flat ha hp hb arctan₂ flat off] at h
      exact not_pi_le_zero h
    · rw [interiorAngle_of_turn ha hp hb arctan₂ flat] at h
      exact not_pi_le_atMost _ h
  · intro h
    rw [interiorAngle_of_covers ha hp hb arctan₂ h]
    exact pi_le_pi

end

end RouteGeometry
