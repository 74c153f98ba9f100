import RouteGeometry.Polyline
import RouteGeometry.Proofs.Coordinate.Conversion

/-! # Lengths

A length is the root of a sum of squares, so it is not below zero, but it can be infinite or NaN.
Coordinates of up to 64 bits are so far from the ends of the range of the calculation that a
polyline of them has a finite length however many points it has. -/

namespace RouteGeometry

/-! ## Segments -/

theorem Displacement.norm_nonneg_or_nan {α : Type} [Coordinate α] {n : Nat}
    (d : Displacement α n) : 0 ≤ d.norm ∨ d.norm.isNaN = true :=
  Number.sqrt_nonneg_or_nan _

theorem Segment.length_nonneg {α : Type} [Coordinate α] {s : Segment α} {v : Rat}
    (hv : Number.toRat? s.length.toModel.unpack = some v) : 0 ≤ s.length := by
  refine (Displacement.norm_nonneg_or_nan _).resolve_right ?_
  change ¬s.length.isNaN = true
  rw [Number.not_nan_of_isFinite (Number.isFinite_iff.2 ⟨v, hv⟩)]
  exact Bool.false_ne_true

theorem Displacement.norm_plane (d : Displacement Float 2) :
    d.norm = (sumFloat [d.x * d.x, d.y * d.y]).sqrt := by
  obtain ⟨⟨⟨coords⟩, size⟩⟩ := d
  match coords, size with
  | [_, _], _ => rfl

theorem Displacement.bounded_norm {d : Displacement Float 2} {n : Nat}
    (hx : Number.Bounded n d.x) (hy : Number.Bounded n d.y) (small : n + n + 54 < 1024) :
    Number.Bounded (n + 28) d.norm := by
  have squares : ∀ t ∈ [d.x * d.x, d.y * d.y], 0 ≤ t ∧ Number.Bounded (n + n) t := by
    simp only [List.forall_mem_cons, List.not_mem_nil, false_implies, implies_true, and_true]
    exact ⟨⟨hx.square_nonneg, hx.mul hx (by omega)⟩, hy.square_nonneg, hy.mul hy (by omega)⟩
  have sum := Number.sum_bounded (fun t ht => (squares t ht).1) (fun t ht => (squares t ht).2) small
  obtain ⟨v, hv, -⟩ := id sum
  have nonneg := Number.sum_nonneg hv fun t ht => (squares t ht).1
  have even : n + n + 54 = 2 * (n + 27) := by omega
  rw [norm_plane]
  exact (even ▸ sum).sqrt nonneg (by omega)

/-! ## Integers of a fixed width -/

namespace FixedInt

section
variable {w : Nat}

theorem bounded_length (narrow : w ≤ 64) (s : Segment (FixedInt w)) :
    Number.Bounded 92 s.length := by
  have way (p q : FixedInt w) :
      Number.Bounded 64 (Coordinate.toFloat q - Coordinate.toFloat p) :=
    (bounded_toFloat narrow q).sub (bounded_toFloat narrow p) (by decide)
  refine Displacement.bounded_norm ?_ ?_ (by decide)
  · rw [Displacement.x_sub, Point.toFloat, Point.toFloat, Point.x_map, Point.x_map]
    exact way _ _
  · rw [Displacement.y_sub, Point.toFloat, Point.toFloat, Point.y_map, Point.y_map]
    exact way _ _

end

end FixedInt

/-! ## Polylines -/

namespace Polyline

section
variable {α : Type} [Coordinate α] {l : Polyline α} {s : Segment α}

/-- A polyline has a finite length only if all segments have. -/
theorem finite_of_mem_segments (finite : l.length.isFinite = true) (hs : s ∈ l.segments) :
    ∃ b, Number.toRat? s.length.toModel.unpack = some b := by
  obtain ⟨v, hv⟩ := Number.isFinite_iff.1 finite
  exact Number.exists_toRat?_of_sum hv (List.mem_map_of_mem hs)

theorem length_nonneg (finite : l.length.isFinite = true) : 0 ≤ l.length := by
  obtain ⟨v, hv⟩ := Number.isFinite_iff.1 finite
  refine Number.sum_nonneg hv fun t ht => ?_
  obtain ⟨s, hs, rfl⟩ := List.mem_map.1 ht
  obtain ⟨b, hb⟩ := finite_of_mem_segments finite hs
  exact Segment.length_nonneg hb

theorem isFinite_length {w : Nat} (narrow : w ≤ 64) (l : Polyline (FixedInt w)) :
    l.length.isFinite = true := by
  have bounded : ∀ t ∈ l.segments.map Segment.length, Number.Bounded 92 t := by
    intro t ht
    obtain ⟨s, -, rfl⟩ := List.mem_map.1 ht
    exact FixedInt.bounded_length narrow s
  have nonneg : ∀ t ∈ l.segments.map Segment.length, 0 ≤ t := by
    intro t ht
    obtain ⟨v, hv, -⟩ := bounded t ht
    obtain ⟨s, -, rfl⟩ := List.mem_map.1 ht
    exact Segment.length_nonneg hv
  obtain ⟨v, hv, -⟩ := Number.sum_bounded nonneg bounded (by decide)
  exact Number.isFinite_iff.2 ⟨v, hv⟩

end

end Polyline

/-! ## All types of fixed-width integers -/

namespace CoordinateKind

def isFixedWidth : CoordinateKind → Bool
  | int8 | int16 | int32 | int64 => true
  | integer | rational | float32 | float64 | ordered32 | ordered64 | notNan32 | notNan64 => false

theorem isFinite_length {k : CoordinateKind} (fixed : k.isFixedWidth = true)
    (l : Polyline k.Carrier) : l.length.isFinite = true :=
  match k, fixed, l with
  | int8, _, l => Polyline.isFinite_length (by decide) l
  | int16, _, l => Polyline.isFinite_length (by decide) l
  | int32, _, l => Polyline.isFinite_length (by decide) l
  | int64, _, l => Polyline.isFinite_length (by decide) l

end CoordinateKind

end RouteGeometry
