import RouteGeometry.Proofs.Bend
import RouteGeometry.Proofs.Thinning.Fixpoint

/-! # Leaving out points between their neighbours

By default normalization takes out the points at which the interior angle is a straight angle. Said
of the exact values, it leaves out points between their neighbours as long as there are any. -/

namespace RouteGeometry.Polyline

/-! ## Exact values of any type of coordinates -/

theorem mapM_eq_some_iff {β γ : Type} {f : β → Option γ} {l : List β} {m : List γ} :
    l.mapM f = some m ↔ l.map f = m.map some := by
  induction l generalizing m with
  | nil => cases m <;> simp
  | cons x l ih =>
    cases m with
    | nil => simp [Option.bind_eq_some_iff]
    | cons y m => simp [Option.bind_eq_some_iff, ih]

theorem toRat?_eq_some_iff {α : Type} [Coordinate α] {l : Polyline α} {m : Polyline Rat} :
    l.toRat? = some m ↔ l.points.map Point.toRat? = m.points.map some := by
  unfold toRat?
  rw [← mapM_eq_some_iff, Option.map_eq_some_iff]
  constructor
  · rintro ⟨points, h, rfl⟩
    exact h
  · intro h
    exact ⟨m.points, h, rfl⟩

/-! ## Shortcuts -/

/-- One point is left out that lies between its neighbours. -/
inductive Shortcut : Polyline Rat → Polyline Rat → Prop
  | between (before after : List (Point Rat 2)) {a x b : Point Rat 2}
      (h : (⟨a, b⟩ : Segment Rat).Covers x) :
      Shortcut ⟨before ++ a :: x :: b :: after⟩ ⟨before ++ a :: b :: after⟩

/-- No point lies between its neighbours. -/
def Taut (l : Polyline Rat) : Prop := ∀ m, ¬ l.Shortcut m

theorem Taut.not_covers {a x b : Point Rat 2} {rest : List (Point Rat 2)}
    (h : Taut ⟨a :: x :: b :: rest⟩) : ¬ (⟨a, b⟩ : Segment Rat).Covers x :=
  fun between => h _ (.between [] rest between)

theorem Shortcut.cons {l m : Polyline Rat} (h : l.Shortcut m) (p : Point Rat 2) :
    Shortcut ⟨p :: l.points⟩ ⟨p :: m.points⟩ := by
  cases h with
  | between before after between => exact .between (p :: before) after between

theorem Taut.tail {p : Point Rat 2} {rest : List (Point Rat 2)} (h : Taut ⟨p :: rest⟩) :
    Taut ⟨rest⟩ :=
  fun _ shortcut => h _ (shortcut.cons p)

theorem Shortcut.two_le_size {l m : Polyline Rat} (h : l.Shortcut m) : 2 ≤ m.size := by
  cases h with
  | between before after =>
    simp only [size, List.length_append, List.length_cons]
    omega

/-! ## Thinning takes shortcuts -/

section
variable {α : Type} [Coordinate α] [Coordinate.Faithful α] {arctan₂ : Float → Float → Float}

theorem drop_shortcut {l m : List (Point α 2)} {l' : Polyline Rat}
    (h : Thinning.Drop (interiorAngle arctan₂) pi l m)
    (hl : (⟨l⟩ : Polyline α).toRat? = some l') :
    ∃ m', (⟨m⟩ : Polyline α).toRat? = some m' ∧ l'.Shortcut m' := by
  cases h with
  | between before after straight =>
    rw [toRat?_eq_some_iff, List.map_append] at hl
    obtain ⟨before', rest', points, hbefore, hrest⟩ := List.map_eq_append_iff.1 hl.symm
    obtain ⟨a', rest', rfl, ha, hrest⟩ := List.map_eq_cons_iff.1 hrest
    obtain ⟨x', rest', rfl, hx, hrest⟩ := List.map_eq_cons_iff.1 hrest
    obtain ⟨b', after', rfl, hb, hafter⟩ := List.map_eq_cons_iff.1 hrest
    have covers := (pi_le_interiorAngle_iff ha.symm hx.symm hb.symm arctan₂).1 straight
    refine ⟨⟨before' ++ a' :: b' :: after'⟩, ?_, ?_⟩
    · rw [toRat?_eq_some_iff]
      simp only [List.map_append, List.map_cons, hbefore, ha, hb, hafter]
    · obtain rfl : l' = ⟨before' ++ a' :: x' :: b' :: after'⟩ := congrArg Polyline.mk points
      exact .between before' after' covers

theorem drops_shortcuts {l m : List (Point α 2)} {l' : Polyline Rat}
    (h : Relation.ReflTransGen (Thinning.Drop (interiorAngle arctan₂) pi) l m)
    (hl : (⟨l⟩ : Polyline α).toRat? = some l') :
    ∃ m', (⟨m⟩ : Polyline α).toRat? = some m' ∧ Relation.ReflTransGen Shortcut l' m' := by
  induction h with
  | refl => exact ⟨l', hl, .refl⟩
  | tail _ step ih =>
    obtain ⟨m', hm, run⟩ := ih
    obtain ⟨n', hn, shortcut⟩ := drop_shortcut step hm
    exact ⟨n', hn, run.tail shortcut⟩

/-- Where a shortcut is possible thinning can drop something. -/
theorem taut_of_settled {l : List (Point α 2)} {l' : Polyline Rat}
    (h : Thinning.Settled (interiorAngle arctan₂) pi l)
    (hl : (⟨l⟩ : Polyline α).toRat? = some l') : l'.Taut := by
  intro m' shortcut
  cases shortcut with
  | between before' after' covers =>
    rw [toRat?_eq_some_iff, List.map_append] at hl
    obtain ⟨before, rest, rfl, -, hrest⟩ := List.map_eq_append_iff.1 hl
    obtain ⟨a, rest, rfl, ha, hrest⟩ := List.map_eq_cons_iff.1 hrest
    obtain ⟨x, rest, rfl, hx, hrest⟩ := List.map_eq_cons_iff.1 hrest
    obtain ⟨b, after, rfl, hb, -⟩ := List.map_eq_cons_iff.1 hrest
    exact h.not_le ((pi_le_interiorAngle_iff ha hx hb arctan₂).2 covers)

end

end RouteGeometry.Polyline
