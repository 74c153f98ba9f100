import RouteGeometry.Proofs.Polyline.Refinement
import RouteGeometry.Proofs.Polyline.Shortcut

/-! # Normalizing keeps the route

By default normalization takes out points at which the polyline goes straight on. The route that the
polyline and its anchors draw stays the same, and so does what is travelled along it in each
direction: nothing that doubles back is lost. -/

namespace RouteGeometry

namespace Polyline

/-- The same points are covered, and each axis is travelled as far. -/
structure SameRoute (l m : Polyline Rat) : Prop where
  covers_iff : ∀ x, l.Covers x ↔ m.Covers x
  travelX_eq : l.travelX = m.travelX
  travelY_eq : l.travelY = m.travelY

theorem SameRoute.refl (l : Polyline Rat) : l.SameRoute l := ⟨fun _ => Iff.rfl, rfl, rfl⟩

theorem SameRoute.trans {l m n : Polyline Rat} (h : l.SameRoute m) (h' : m.SameRoute n) :
    l.SameRoute n where
  covers_iff x := (h.covers_iff x).trans (h'.covers_iff x)
  travelX_eq := h.travelX_eq.trans h'.travelX_eq
  travelY_eq := h.travelY_eq.trans h'.travelY_eq

/-! ## Routes point by point -/

section
variable (p q : Point Rat 2) (rest : List (Point Rat 2))

theorem covers_cons_cons {x : Point Rat 2} :
    (⟨p :: q :: rest⟩ : Polyline Rat).Covers x ↔
      (⟨p, q⟩ : Segment Rat).Covers x ∨ (⟨q :: rest⟩ : Polyline Rat).Covers x :=
  List.exists_mem_cons_iff _ _ _

theorem travelX_cons_cons :
    (⟨p :: q :: rest⟩ : Polyline Rat).travelX =
      (q.x - p.x).abs + (⟨q :: rest⟩ : Polyline Rat).travelX := rfl

theorem travelY_cons_cons :
    (⟨p :: q :: rest⟩ : Polyline Rat).travelY =
      (q.y - p.y).abs + (⟨q :: rest⟩ : Polyline Rat).travelY := rfl

end

section
variable {p : Point Rat 2} {l m : List (Point Rat 2)}

theorem SameRoute.cons (h : SameRoute ⟨p :: l⟩ ⟨p :: m⟩) (q : Point Rat 2) :
    SameRoute ⟨q :: p :: l⟩ ⟨q :: p :: m⟩ where
  covers_iff x := by rw [covers_cons_cons, covers_cons_cons, h.covers_iff]
  travelX_eq := by rw [travelX_cons_cons, travelX_cons_cons, h.travelX_eq]
  travelY_eq := by rw [travelY_cons_cons, travelY_cons_cons, h.travelY_eq]

/-- What lies in front of a common point takes no part. -/
theorem SameRoute.append (h : SameRoute ⟨p :: l⟩ ⟨p :: m⟩) (before : List (Point Rat 2)) :
    SameRoute ⟨before ++ p :: l⟩ ⟨before ++ p :: m⟩ := by
  induction before with
  | nil => exact h
  | cons q before ih =>
    -- A segment starts at `q` and ends at whatever comes first on both sides.
    cases before with
    | nil => exact ih.cons q
    | cons r before => exact ih.cons q

theorem sameRoute_of_covers {a x b : Point Rat 2} (h : (⟨a, b⟩ : Segment Rat).Covers x)
    (after : List (Point Rat 2)) : SameRoute ⟨a :: b :: after⟩ ⟨a :: x :: b :: after⟩ where
  covers_iff y := by
    rw [covers_cons_cons, covers_cons_cons, covers_cons_cons, Segment.covers_split h, or_assoc]
  travelX_eq := by
    rw [travelX_cons_cons, travelX_cons_cons, travelX_cons_cons,
      (Segment.straightOn_of_covers h).abs_x, add_assoc]
  travelY_eq := by
    rw [travelY_cons_cons, travelY_cons_cons, travelY_cons_cons,
      (Segment.straightOn_of_covers h).abs_y, add_assoc]

end

/-! ## Routes of any type of coordinates -/

theorem Shortcut.sameRoute {l m : Polyline Rat} (h : l.Shortcut m) : m.SameRoute l := by
  cases h with
  | between before after between => exact (sameRoute_of_covers between after).append before

theorem drops_sameRoute {α : Type} [Coordinate α] [Coordinate.Faithful α]
    {arctan₂ : Float → Float → Float} {l m : List (Point α 2)} {l' : Polyline Rat}
    (h : Relation.ReflTransGen (Thinning.Drop (interiorAngle arctan₂) pi) l m)
    (hl : (⟨l⟩ : Polyline α).toRat? = some l') :
    ∃ m', (⟨m⟩ : Polyline α).toRat? = some m' ∧ m'.SameRoute l' := by
  obtain ⟨m', hm, run⟩ := drops_shortcuts h hl
  refine ⟨m', hm, ?_⟩
  clear hm
  induction run with
  | refl => exact .refl l'
  | tail _ shortcut ih => exact shortcut.sameRoute.trans ih

/-- **Default normalization keeps the route.** Whatever the arctangent, the same points
of the plane are covered as before, and both axes are travelled as far. -/
theorem normalizeUsing_keeps_route {k : CoordinateKind} (arctan₂ : Float → Float → Float)
    {l : Polyline k.Carrier} (h : 2 ≤ l.size) {n : Normalization k.Carrier}
    (straight : n.minAngle = .straight) {before : Polyline Rat}
    (exact : (⟨l.nodes n⟩ : Polyline k.Carrier).toRat? = some before) :
    ∃ after : Polyline Rat,
      (⟨(l.normalizeUsing arctan₂ n).polyline.nodes n⟩ : Polyline k.Carrier).toRat? = some after ∧
        (∀ x, after.Covers x ↔ before.Covers x) ∧
        after.travelX = before.travelX ∧ after.travelY = before.travelY := by
  have run := Thinning.thin_drops (interiorAngle arctan₂) n.minAngle.radians (l.nodes n)
  rw [straight] at run
  obtain ⟨after, value, same⟩ := drops_sameRoute run exact
  refine ⟨after, ?_, same.covers_iff, same.travelX_eq, same.travelY_eq⟩
  rw [normalizeUsing, nodes_normalizeBy (interiorAngle arctan₂) h n, straight]
  exact value

/-- A way back too short for numbers of 64 bits to tell stays part of the route. -/
theorem normalizeUsing_keeps_route_spike :
    let spike : Polyline Int :=
      ⟨[.plane 0 0, .plane 1 0, .plane 1152921504606846976 0, .plane 1152921504606846975 0]⟩
    2 ≤ spike.size ∧ ∃ after : Polyline Rat,
      (⟨(spike.normalizeUsing Float.atan2 {}).polyline.nodes {}⟩ : Polyline Int).toRat? =
          some after ∧
        after.travelX = 1152921504606846977 ∧ after.travelY = 0 := by
  intro spike
  have long : 2 ≤ spike.size := by decide
  have value : (⟨spike.nodes {}⟩ : Polyline Int).toRat? = some
      ⟨[.plane 0 0, .plane 1 0, .plane 1152921504606846976 0, .plane 1152921504606846975 0]⟩ := by
    rfl
  obtain ⟨after, exact, -, travelX, travelY⟩ :=
    normalizeUsing_keeps_route (k := .integer) Float.atan2 long rfl value
  refine ⟨long, after, exact, travelX.trans ?_, travelY.trans ?_⟩
  · decide +kernel
  · decide +kernel

end Polyline

end RouteGeometry
