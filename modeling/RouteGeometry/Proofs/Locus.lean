import Mathlib.Algebra.Order.Field.Rat
import Mathlib.Tactic.LinearCombination
import Mathlib.Tactic.Linarith
import Mathlib.Tactic.Positivity
import Mathlib.Tactic.Ring
import RouteGeometry.Polyline.Position

/-! # Points on lines and segments

Membership in the exact point sets, said by cross products and signs instead of fractions. -/

namespace RouteGeometry

/-! ## Ways between points -/

section
variable {p q : Point Rat 2} {t : Rat}

@[simp] theorem Point.x_along : (p.along q t).x = p.x + (q.x - p.x) * t := by
  simp [along]

@[simp] theorem Point.y_along : (p.along q t).y = p.y + (q.y - p.y) * t := by
  simp [along]

theorem Point.along_zero (p q : Point Rat 2) : p.along q 0 = p :=
  plane_ext_iff.2 (by simp)

theorem Point.along_one (p q : Point Rat 2) : p.along q 1 = q :=
  plane_ext_iff.2 (by simp)

/-- A fraction of the way is the rest of the way back. -/
theorem Point.along_comm (p q : Point Rat 2) (t : Rat) : p.along q t = q.along p (1 - t) := by
  rw [plane_ext_iff, x_along, y_along, x_along, y_along]
  constructor <;> ring

/-- A fraction of a part is a fraction of the whole. -/
theorem Point.along_along (p q : Point Rat 2) (a b t : Rat) :
    (p.along q a).along (p.along q b) t = p.along q (a + (b - a) * t) := by
  rw [plane_ext_iff]
  simp only [x_along, y_along]
  constructor <;> ring

/-- The area that the ways `q - p` and `s - r` span. -/
theorem Displacement.area_sub (p q r s : Point Rat 2) :
    (q - p).area (s - r) = (q.x - p.x) * (s.y - r.y) - (q.y - p.y) * (s.x - r.x) := by
  simp [area]

/-- Three points are on one line whether `r` is looked at on the way from `p` to `q` or as a stop
on that way. -/
theorem Displacement.area_eq_zero_iff (p q r : Point Rat 2) :
    (q - p).area (r - p) = 0 ↔ (r - p).area (q - r) = 0 := by
  have turned : (r - p).area (q - r) = -(q - p).area (r - p) := by
    rw [area_sub, area_sub]
    ring
  rw [turned, neg_eq_zero]

def Point.squaredDistance (p q : Point Rat 2) : Rat :=
  (q.x - p.x) * (q.x - p.x) + (q.y - p.y) * (q.y - p.y)

theorem Point.squaredDistance_pos (h : p ≠ q) : 0 < p.squaredDistance q := by
  refine lt_of_le_of_ne (add_nonneg (mul_self_nonneg _) (mul_self_nonneg _)) fun hz => h ?_
  obtain ⟨hx, hy⟩ := mul_self_add_mul_self_eq_zero.1 hz.symm
  exact plane_ext (sub_eq_zero.1 hx).symm (sub_eq_zero.1 hy).symm

/-- How far `x` has come on the way from `p` to `q`, as a fraction. -/
def Point.fraction (p q x : Point Rat 2) : Rat :=
  ((q.x - p.x) * (x.x - p.x) + (q.y - p.y) * (x.y - p.y)) / p.squaredDistance q

/-- What lies in the direction of `q` from `p` lies at its fraction of the way. -/
theorem Point.eq_along_fraction {x : Point Rat 2} (h : p ≠ q) (flat : (q - p).area (x - p) = 0) :
    x = p.along q (p.fraction q x) := by
  have hd := (squaredDistance_pos h).ne'
  rw [Displacement.area_sub] at flat
  rw [plane_ext_iff, x_along, y_along, fraction, ← mul_div_assoc, ← mul_div_assoc,
    ← sub_eq_iff_eq_add', ← sub_eq_iff_eq_add', eq_div_iff hd, eq_div_iff hd, squaredDistance]
  constructor
  · linear_combination (q.y - p.y) * -flat
  · linear_combination (q.x - p.x) * flat

end

/-! ## Lines -/

namespace Line

def way (l : Line Rat) : Displacement Rat 2 := l.p₂ - l.p₁

variable {l : Line Rat} {x : Point Rat 2}

theorem covers_p₁ (l : Line Rat) : l.Covers l.p₁ :=
  ⟨0, (Point.along_zero _ _).symm⟩

theorem covers_p₂ (l : Line Rat) : l.Covers l.p₂ :=
  ⟨1, (Point.along_one _ _).symm⟩

theorem area_eq_zero_of_covers (h : l.Covers x) : l.way.area (x - l.p₁) = 0 := by
  obtain ⟨t, rfl⟩ := h
  rw [way, Displacement.area_sub, Point.x_along, Point.y_along]
  ring

/-- A degenerate line is its one point. -/
theorem covers_iff_of_eq (h : l.p₁ = l.p₂) : l.Covers x ↔ x = l.p₁ := by
  constructor
  · rintro ⟨t, rfl⟩
    simp [Point.plane_ext_iff, h]
  · rintro rfl
    exact l.covers_p₁

theorem covers_iff_of_ne (h : l.p₁ ≠ l.p₂) : l.Covers x ↔ l.way.area (x - l.p₁) = 0 :=
  ⟨area_eq_zero_of_covers, fun flat => ⟨_, Point.eq_along_fraction h flat⟩⟩

end Line

/-- Some line goes through all three points. -/
def Colinear (p q r : Point Rat 2) : Prop := ∃ l : Line Rat, l.Covers p ∧ l.Covers q ∧ l.Covers r

theorem colinear_iff {p q r : Point Rat 2} : Colinear p q r ↔ (q - p).area (r - q) = 0 := by
  constructor
  · rintro ⟨l, ⟨s, rfl⟩, ⟨t, rfl⟩, ⟨u, rfl⟩⟩
    simp only [Displacement.area_sub, Point.x_along, Point.y_along]
    ring
  · intro flat
    by_cases ends : p = r
    · subst ends
      exact ⟨⟨p, q⟩, Line.covers_p₁ _, Line.covers_p₂ _, Line.covers_p₁ _⟩
    · have between := (Displacement.area_eq_zero_iff p r q).2 flat
      exact ⟨⟨p, r⟩, Line.covers_p₁ _, (Line.covers_iff_of_ne ends).2 between, Line.covers_p₂ _⟩

/-! ## Segments -/

/-- The steps from `p` to `x` and from `x` to `q` go straight on: nothing turns, and
neither axis is walked backwards. -/
structure StraightOn (p x q : Point Rat 2) : Prop where
  flat : (x - p).area (q - x) = 0
  forward_x : 0 ≤ (x.x - p.x) * (q.x - x.x)
  forward_y : 0 ≤ (x.y - p.y) * (q.y - x.y)

instance (p x q : Point Rat 2) : Decidable (StraightOn p x q) :=
  decidable_of_iff ((x - p).area (q - x) = 0 ∧ 0 ≤ (x.x - p.x) * (q.x - x.x) ∧
      0 ≤ (x.y - p.y) * (q.y - x.y))
    ⟨fun h => ⟨h.1, h.2.1, h.2.2⟩, fun h => ⟨h.flat, h.forward_x, h.forward_y⟩⟩

namespace Segment

variable {s : Segment Rat} {x : Point Rat 2}

theorem covers_start (s : Segment Rat) : s.Covers s.start :=
  ⟨0, by decide, by decide, (Point.along_zero _ _).symm⟩

theorem covers_finish (s : Segment Rat) : s.Covers s.finish :=
  ⟨1, by decide, by decide, (Point.along_one _ _).symm⟩

theorem covers_comm {p q x : Point Rat 2} :
    (⟨p, q⟩ : Segment Rat).Covers x ↔ (⟨q, p⟩ : Segment Rat).Covers x := by
  suffices turn : ∀ p q : Point Rat 2,
      (⟨p, q⟩ : Segment Rat).Covers x → (⟨q, p⟩ : Segment Rat).Covers x from ⟨turn p q, turn q p⟩
  rintro p q ⟨t, h0, h1, rfl⟩
  exact ⟨1 - t, sub_nonneg.2 h1, sub_le_self 1 h0, Point.along_comm p q t⟩

theorem straightOn_of_covers (h : s.Covers x) : StraightOn s.start x s.finish := by
  obtain ⟨t, h0, h1, rfl⟩ := h
  have both : 0 ≤ t * (1 - t) := mul_nonneg h0 (sub_nonneg.2 h1)
  have forward (a b : Rat) : 0 ≤ (a + (b - a) * t - a) * (b - (a + (b - a) * t)) := by
    have := mul_nonneg both (mul_self_nonneg (b - a))
    linarith
  refine ⟨?_, ?_, ?_⟩
  · rw [Displacement.area_sub, Point.x_along, Point.y_along]
    ring
  · rw [Point.x_along]
    exact forward _ _
  · rw [Point.y_along]
    exact forward _ _

/-- To go there and back without walking backwards is not to move at all. -/
theorem eq_of_mul_back_nonneg {a c : Rat} (h : 0 ≤ (c - a) * (a - c)) : c = a := by
  have square := mul_self_nonneg (c - a)
  apply sub_eq_zero.1
  apply mul_self_eq_zero.1
  linarith

theorem covers_of_straightOn (h : StraightOn s.start x s.finish) : s.Covers x := by
  obtain ⟨flat, hx, hy⟩ := h
  rw [Displacement.area_sub] at flat
  by_cases hs : s.start = s.finish
  · rw [← hs] at hx hy
    have same : x = s.start :=
      Point.plane_ext (eq_of_mul_back_nonneg hx) (eq_of_mul_back_nonneg hy)
    rw [same]
    exact s.covers_start
  · have hd := Point.squaredDistance_pos hs
    refine ⟨s.start.fraction s.finish x, ?_, ?_, Point.eq_along_fraction hs ?_⟩
    · refine div_nonneg ?_ hd.le
      linarith [mul_self_nonneg (x.x - s.start.x), mul_self_nonneg (x.y - s.start.y)]
    · rw [Point.fraction, div_le_one hd, Point.squaredDistance]
      linarith [mul_self_nonneg (s.finish.x - x.x), mul_self_nonneg (s.finish.y - x.y)]
    · rw [Displacement.area_sub]
      linear_combination -flat

/-- A segment covers the points at which the way from its start to its finish goes
straight on. -/
theorem covers_iff : s.Covers x ↔ StraightOn s.start x s.finish :=
  ⟨straightOn_of_covers, covers_of_straightOn⟩

theorem covers_of_between {p q : Point Rat 2} (hp : s.Covers p) (hq : s.Covers q)
    (h : (⟨p, q⟩ : Segment Rat).Covers x) : s.Covers x := by
  obtain ⟨a, a0, a1, rfl⟩ := hp
  obtain ⟨b, b0, b1, rfl⟩ := hq
  obtain ⟨t, t0, t1, rfl⟩ := h
  have t1 : 0 ≤ 1 - t := sub_nonneg.2 t1
  refine ⟨a + (b - a) * t, ?_, ?_, Point.along_along _ _ a b t⟩
  · linarith [mul_nonneg a0 t1, mul_nonneg b0 t0]
  · linarith [mul_nonneg (sub_nonneg.2 a1) t1, mul_nonneg (sub_nonneg.2 b1) t0]

theorem covers_part (p q : Point Rat 2) {a t b : Rat} (hat : a ≤ t) (htb : t ≤ b) :
    (⟨p.along q a, p.along q b⟩ : Segment Rat).Covers (p.along q t) := by
  have far : 0 ≤ b - a := by linarith
  have scaled : (b - a) * ((t - a) / (b - a)) = t - a :=
    mul_div_cancel_of_imp' fun none => by linarith
  refine ⟨(t - a) / (b - a), div_nonneg (sub_nonneg.2 hat) far, ?_, ?_⟩
  · apply div_le_one_of_le₀ _ far
    linarith
  · rw [Point.along_along, scaled, add_sub_cancel]

/-- A segment covers what both parts cover into which one of its points cuts it. -/
theorem covers_split {m : Point Rat 2} (h : s.Covers m) :
    s.Covers x ↔
      (⟨s.start, m⟩ : Segment Rat).Covers x ∨ (⟨m, s.finish⟩ : Segment Rat).Covers x := by
  constructor
  · intro hx
    obtain ⟨a, a0, a1, rfl⟩ := h
    obtain ⟨t, t0, t1, rfl⟩ := hx
    rcases le_total t a with first | second
    · left
      have part := covers_part s.start s.finish t0 first
      rwa [Point.along_zero] at part
    · right
      have part := covers_part s.start s.finish second t1
      rwa [Point.along_one] at part
  · rintro (hx | hx)
    · exact covers_of_between s.covers_start h hx
    · exact covers_of_between h s.covers_finish hx

end Segment

/-- A way without a step back is as long as its two parts. -/
theorem abs_add_of_mul_nonneg {a b : Rat} (h : 0 ≤ a * b) : (a + b).abs = a.abs + b.abs := by
  rcases mul_nonneg_iff.1 h with ⟨ha, hb⟩ | ⟨ha, hb⟩
  · rw [Rat.abs_of_nonneg ha, Rat.abs_of_nonneg hb, Rat.abs_of_nonneg (add_nonneg ha hb)]
  · rw [Rat.abs_of_nonpos ha, Rat.abs_of_nonpos hb, Rat.abs_of_nonpos (add_nonpos ha hb), neg_add]

theorem StraightOn.abs_x {p x q : Point Rat 2} (h : StraightOn p x q) :
    (q.x - p.x).abs = (x.x - p.x).abs + (q.x - x.x).abs := by
  rw [← abs_add_of_mul_nonneg h.forward_x, sub_add_sub_cancel']

theorem StraightOn.abs_y {p x q : Point Rat 2} (h : StraightOn p x q) :
    (q.y - p.y).abs = (x.y - p.y).abs + (q.y - x.y).abs := by
  rw [← abs_add_of_mul_nonneg h.forward_y, sub_add_sub_cancel']

end RouteGeometry
