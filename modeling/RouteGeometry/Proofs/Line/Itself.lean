import RouteGeometry.Line.Meeting
import RouteGeometry.Proofs.Coordinate.Turn
import RouteGeometry.Proofs.Number.Signless

/-! # A line and itself

Every line overlaps itself, whatever its coordinates. Exact values say so, and where there are none,
infinities and NaN come to nothing: the two products of a cross product are the same number, and a
way to where one already is has no sign. -/

namespace RouteGeometry

/-! ## Signs of numbers without a sign -/

namespace Determinant

open Number (Signless)

theorem signOf_of_signless {x : Float} (h : Signless x.toModel.unpack) : signOf x = .eq := by
  cases hx : x.toModel.unpack with
  | notANumber => exact signOf_of_isNaN (congrArg Float.Model.UnpackedFloat.isNaN hx)
  | infinity | finite =>
    rw [hx] at h
    cases h
  | zero s => exact signOf_of_holds (.inl (congrArg Number.toRat? hx))

theorem not_pos_of_signless {x : Float} (h : Signless x.toModel.unpack) : ¬ x > 0 := by
  intro above
  have sign := signOf_of_signless h
  rw [signOf, if_pos above] at sign
  cases sign

theorem not_neg_of_signless {x : Float} (h : Signless x.toModel.unpack) : ¬ x < 0 := by
  intro below
  have sign := signOf_of_signless h
  rw [signOf, if_neg (not_pos_of_signless h), if_pos below] at sign
  cases sign

/-- The way from a point to itself makes both products zero or NaN, and the first stage settles
it. -/
theorem turnSign_back (p q : Point Float 2) : turnSign p q p = .eq := by
  have left := Number.signless_mul (Number.signless_sub_self p.x) (q.y - p.y)
  have right := Number.signless_mul (Number.signless_sub_self p.y) (q.x - p.x)
  unfold turnSign
  dsimp only
  rw [if_neg (not_pos_of_signless left), if_neg (not_neg_of_signless left)]
  exact signOf_of_signless (Number.signless_sub left right)

end Determinant

/-- Both products are the same number. -/
theorem Binary.roundedCrossSign_self (p q : Point Float 2) : roundedCrossSign p q p q = .eq := by
  rw [roundedCrossSign, Displacement.area, Number.float_mul_comm]
  exact Determinant.signOf_of_signless (Number.signless_sub_self _)

namespace CoordinateKind

variable {k : CoordinateKind}

theorem crossSign_self (p q : Point k.Carrier 2) : Coordinate.crossSign p q p q = .eq := by
  cases hp : p.toRat? with
  | none =>
    rw [crossSign_eq_rounded (.inl hp)]
    exact Binary.roundedCrossSign_self _ _
  | some p' =>
    cases hq : q.toRat? with
    | none =>
      rw [crossSign_eq_rounded (.inr (.inl hq))]
      exact Binary.roundedCrossSign_self _ _
    | some q' =>
      rw [Coordinate.crossSign_eq_compare hp hq hp hq, compare_eq_iff_eq]
      ring

theorem turnSign_back (p q : Point k.Carrier 2) : Coordinate.turnSign p q p = .eq := by
  cases exact : k.isExact with
  | false =>
    rw [turnSign_eq_toFloat exact]
    exact Determinant.turnSign_back _ _
  | true =>
    have := exact_of_isExact exact
    obtain ⟨p', hp⟩ := p.exists_toRat?
    obtain ⟨q', hq⟩ := q.exists_toRat?
    rw [Coordinate.Exact.turnSign_eq, Coordinate.crossSign_eq_compare hp hq hp hp,
      compare_eq_iff_eq]
    ring

end CoordinateKind

/-! ## Equality -/

/-- Only NaN is not comparable, so what is comparable with anything equals itself. -/
theorem Number.compare_self_of_compare {format : Float.Model.Format}
    {u w : Float.Model.UnpackedFloat} (hu : Canonical format u) {o : Ordering}
    (h : u.compare w = some o) : u.compare u = some .eq := by
  obtain ⟨⟨x, hx⟩, -⟩ := place?_of_compare h
  rw [compare_eq_compare hu hu hx hx, compare_eq_iff_eq.2 rfl]

namespace Binary

section
open Float.Model (Format UnpackedFloat)
variable {F : Type} [Binary F] {format : Format} (unpack : F → UnpackedFloat)
  (canonical : ∀ x, Number.Canonical format (unpack x))
  (equals : ∀ x y, equal x y = ((unpack x).compare (unpack y) == some .eq))

include canonical equals

theorem equal_self_of_unpack {x y : F} (h : equal x y = true) : equal x x = true := by
  rw [equals, beq_iff_eq] at h ⊢
  exact Number.compare_self_of_compare (canonical x) h

end

theorem equal_self_float {x y : Float} : equal x y = true → equal x x = true :=
  equal_self_of_unpack (fun x => x.toModel.unpack) Number.canonical_float fun _ _ => rfl

theorem equal_self_float32 {x y : Float32} : equal x y = true → equal x x = true :=
  equal_self_of_unpack (fun x => x.toModel.unpack) Number.canonical_float32 fun _ _ => rfl

end Binary

/-- NaN equals itself in the total order, so only numbers are left to their own type. -/
theorem Ordered.equal_self {F : Type} [Binary F] {a b : Ordered F}
    (number : Binary.equal a.value b.value = true → Binary.equal a.value a.value = true)
    (h : a.equal b = true) : a.equal a = true := by
  unfold equal at h ⊢
  split at h
  · rename_i nan
    rwa [if_pos nan]
  · rename_i nan
    rw [if_neg nan]
    exact number h

namespace CoordinateKind

section
variable {k : CoordinateKind}

theorem equal_self_of_isExact (h : k.isExact = true) (a : k.Carrier) :
    Coordinate.equal a a = true := by
  have := exact_of_isExact h
  obtain ⟨x, hx⟩ := Coordinate.Exact.hasValue a
  rw [Coordinate.Faithful.equal_eq hx hx, Number.order_eq_eq_iff.2 rfl]
  rfl

/-- A coordinate that differs from itself differs from every other one. -/
theorem equal_self_of_equal {a b : k.Carrier} (h : Coordinate.equal a b = true) :
    Coordinate.equal a a = true := by
  cases k with
  | int8 | int16 | int32 | int64 | integer | rational => exact equal_self_of_isExact rfl a
  | float32 => exact Binary.equal_self_float32 h
  | float64 => exact Binary.equal_self_float h
  | ordered32 => exact Ordered.equal_self Binary.equal_self_float32 h
  | ordered64 => exact Ordered.equal_self Binary.equal_self_float h
  | notNan32 => exact Binary.equal_self_float32 (y := b.value) h
  | notNan64 => exact Binary.equal_self_float (y := b.value) h

theorem pointEqual_self_of_equal {p q : Point k.Carrier 2} (h : p.equal q = true) :
    p.equal p = true := by
  rw [Point.equal_plane, Bool.and_eq_true] at h ⊢
  exact ⟨equal_self_of_equal h.1, equal_self_of_equal h.2⟩

end

end CoordinateKind

/-! ## Lines -/

namespace Line

section
variable {k : CoordinateKind}

theorem overlaps_self (l : Line k.Carrier) : l.overlaps l = true := by
  unfold overlaps
  split
  · rename_i degenerate _
    exact CoordinateKind.pointEqual_self_of_equal degenerate
  · rename_i degenerate other
    exact absurd (degenerate.symm.trans other) (by decide)
  · rw [Orientation.ofPoints, CoordinateKind.turnSign_back]
    rfl

/-- **Every line overlaps itself**, degenerate or not, and whatever its coordinates: of all twelve
types, infinite or NaN. So no crossing point is calculated. -/
theorem meeting_self (l : Line k.Carrier) : l.meeting l = .overlapping := by
  rw [meeting, CoordinateKind.crossSign_self, overlaps_self]
  rfl

end

end Line

end RouteGeometry
