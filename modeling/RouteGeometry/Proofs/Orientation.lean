import RouteGeometry.Proofs.Coordinate.CrossSign
import RouteGeometry.Proofs.Locus

/-! # Turns in another order

Every order of the same three points takes other differences and multiplies other pairs of them.
The exact types tell the sign of the area that the points span, which only changes its sign. -/

namespace RouteGeometry

/-! ## The area that three points span -/

section
variable (p q r : Point Rat 2)

theorem Displacement.area_rotate : (r - q).area (p - q) = (q - p).area (r - p) := by
  rw [area_sub, area_sub]
  ring

theorem Displacement.area_exchange : (p - q).area (r - q) = -(q - p).area (r - p) := by
  rw [area_sub, area_sub]
  ring

end

/-- A number and its negative are on opposite sides of zero. -/
theorem Number.compare_neg_zero (x : Rat) : compare (-x) 0 = (compare x 0).swap := by
  rw [← order_eq_compare, ← order_eq_compare, ← order_neg, neg_zero]

/-! ## Signs of turns -/

namespace Coordinate

section
variable {α : Type} [Coordinate α] [Exact α]

/-- The sign of a turn is that of the exact area that its points span. -/
theorem turnSign_eq_compare {p q r : Point α 2} {p' q' r' : Point Rat 2}
    (hp : p.toRat? = some p') (hq : q.toRat? = some q') (hr : r.toRat? = some r') :
    turnSign p q r = compare ((q' - p').area (r' - p')) 0 := by
  rw [Exact.turnSign_eq, crossSign_eq_compare hp hq hp hr, Displacement.area_sub]

theorem turnSign_rotate (p q r : Point α 2) : turnSign q r p = turnSign p q r := by
  obtain ⟨p', hp⟩ := p.exists_toRat?
  obtain ⟨q', hq⟩ := q.exists_toRat?
  obtain ⟨r', hr⟩ := r.exists_toRat?
  rw [turnSign_eq_compare hq hr hp, turnSign_eq_compare hp hq hr, Displacement.area_rotate]

theorem turnSign_exchange (p q r : Point α 2) : turnSign q p r = (turnSign p q r).swap := by
  obtain ⟨p', hp⟩ := p.exists_toRat?
  obtain ⟨q', hq⟩ := q.exists_toRat?
  obtain ⟨r', hr⟩ := r.exists_toRat?
  rw [turnSign_eq_compare hq hp hr, turnSign_eq_compare hp hq hr, Displacement.area_exchange,
    Number.compare_neg_zero]

end

end Coordinate

/-! ## Orientations -/

namespace Orientation

section
variable {α : Type} [Coordinate α] [Coordinate.Exact α]

theorem ofPoints_rotate (p q r : Point α 2) : ofPoints q r p = ofPoints p q r :=
  congrArg ofSign (Coordinate.turnSign_rotate p q r)

theorem ofPoints_exchange (p q r : Point α 2) : ofPoints q p r = (ofPoints p q r).reverse := by
  rw [ofPoints, Coordinate.turnSign_exchange, ofSign_swap]
  rfl

end

/-- **Turns alternate.** In an exact type of coordinates three points turn the same way from
whichever of them one starts, and the opposite way when two of them change places. The points
may lie anywhere in the range of the type. -/
theorem ofPoints_alternates {k : CoordinateKind} (exact : k.isExact = true)
    (p q r : Point k.Carrier 2) :
    (ofPoints p q r = ofPoints q r p ∧ ofPoints p q r = ofPoints r p q) ∧
      ofPoints r q p = (ofPoints p q r).reverse ∧ ofPoints q p r = (ofPoints p q r).reverse ∧
        ofPoints p r q = (ofPoints p q r).reverse := by
  have := CoordinateKind.exact_of_isExact exact
  have second : ofPoints q r p = ofPoints p q r := ofPoints_rotate p q r
  have third : ofPoints r p q = ofPoints p q r := (ofPoints_rotate q r p).trans second
  refine ⟨⟨second.symm, third.symm⟩, ?_, ofPoints_exchange p q r, ?_⟩
  · rw [ofPoints_exchange q r p, second]
  · rw [ofPoints_exchange r p q, third]

/-- At the ends of the range no difference fits into the type, and none of the six orders goes
astray. -/
theorem ofPoints_alternates_int8 :
    let p : Point (FixedInt 8) 2 := .plane (.ofInt (-128)) (.ofInt (-128))
    let q : Point (FixedInt 8) 2 := .plane (.ofInt 127) (.ofInt 126)
    let r : Point (FixedInt 8) 2 := .plane (.ofInt 127) (.ofInt 127)
    CoordinateKind.int8.isExact = true ∧ ofPoints p q r = counterClockWise ∧
      (ofPoints p q r = ofPoints q r p ∧ ofPoints p q r = ofPoints r p q) ∧
        ofPoints r q p = (ofPoints p q r).reverse ∧ ofPoints q p r = (ofPoints p q r).reverse ∧
          ofPoints p r q = (ofPoints p q r).reverse := by
  intro p q r
  exact ⟨rfl, by decide, ofPoints_alternates (k := .int8) rfl p q r⟩

end Orientation

end RouteGeometry
