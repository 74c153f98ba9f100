import RouteGeometry.Proofs.Polyline.Anchors
import RouteGeometry.Proofs.Thinning.Fixpoint

/-! # Normalizing once is enough

What normalizing leaves behind has no bend any more that it would take out, and normalizing it
again, with the same anchors and any threshold that is not smaller, takes out nothing. -/

namespace RouteGeometry.Polyline

section
variable {α : Type} (angle : Point α 2 → Point α 2 → Point α 2 → Float)

/-- The points that are left, with the anchors around them, are settled. -/
theorem normalizeBy_settled {l : Polyline α} (h : 2 ≤ l.size) (n : Normalization α) :
    Thinning.Settled angle n.minAngle.radians ((l.normalizeBy angle n).polyline.nodes n) := by
  rw [nodes_normalizeBy angle h]
  exact Thinning.thin_settled angle _ _

theorem normalizeBy_of_settled {l : Polyline α} {n : Normalization α}
    (h : Thinning.Settled angle n.minAngle.radians (l.nodes n)) :
    (l.normalizeBy angle n).polyline = l ∧ (l.normalizeBy angle n).removals = [] := by
  by_cases long : 2 ≤ l.size
  · obtain ⟨same, nothing⟩ := h.thin_eq
    constructor
    · apply nodes_inj (n := n)
      rw [nodes_normalizeBy angle long, same]
    · have removals := removals_normalizeBy angle long n
      rw [nothing, List.map_eq_nil_iff] at removals
      exact removals
  · rw [normalizeBy_of_size_lt_two angle (by omega)]
    exact ⟨rfl, rfl⟩

/-- Normalizing once more with a threshold that is not smaller changes nothing. -/
theorem normalizeBy_normalizeBy (l : Polyline α) (n : Normalization α) {minAngle : Angle}
    (h : n.minAngle.radians ≤ minAngle.radians) :
    let result := (l.normalizeBy angle n).polyline
    let again := result.normalizeBy angle { n with minAngle }
    again.polyline = result ∧ again.removals = [] := by
  intro result
  by_cases long : 2 ≤ l.size
  · exact normalizeBy_of_settled angle ((normalizeBy_settled angle long n).mono h)
  · have same : result = l := by
      simp only [result, normalizeBy_of_size_lt_two angle (Nat.lt_of_not_le long)]
    rw [same, normalizeBy_of_size_lt_two angle (Nat.lt_of_not_le long)]
    exact ⟨rfl, rfl⟩

end

/-- **Normalizing reaches a fixpoint.** Every point that is left and has two neighbours,
anchors included, has an interior angle that is not at least the threshold, NaN and infinite
coordinates or not. Normalizing again with the same anchors and a threshold that is not
smaller leaves a polyline of any size as it is and takes out nothing. -/
theorem normalizeUsing_fixpoint {α : Type} [Coordinate α] (arctan₂ : Float → Float → Float)
    (l : Polyline α) (n : Normalization α) :
    let result := (l.normalizeUsing arctan₂ n).polyline
    (2 ≤ l.size → ∀ before left p right after,
        result.nodes n = before ++ left :: p :: right :: after →
          ¬ n.minAngle.radians ≤ interiorAngle arctan₂ left p right) ∧
      ∀ minAngle : Angle, n.minAngle.radians ≤ minAngle.radians →
        let again := result.normalizeUsing arctan₂ { n with minAngle }
        again.polyline = result ∧ again.removals = [] := by
  intro result
  constructor
  · intro long before left p right after nodes
    have settled := normalizeBy_settled (interiorAngle arctan₂) long n
    change Thinning.Settled _ _ (result.nodes n) at settled
    rw [nodes] at settled
    exact settled.not_le
  · intro minAngle greater
    exact normalizeBy_normalizeBy (interiorAngle arctan₂) l n greater

/-- Coordinates that are no numbers make no difference. -/
theorem normalizeUsing_fixpoint_nan :
    let nan : Float := 0 / 0
    let l : Polyline Float := ⟨[.plane 0 0, .plane nan 1, .plane 2 0, .plane 3 0]⟩
    let n : Normalization Float := { source? := some (.plane nan nan), minAngle := .right }
    let result := (l.normalizeUsing Float.atan2 n).polyline
    let again := result.normalizeUsing Float.atan2 { n with minAngle := .straight }
    (2 ≤ l.size ∧ ∀ before left p right after,
        result.nodes n = before ++ left :: p :: right :: after →
          ¬ Angle.right.radians ≤ interiorAngle Float.atan2 left p right) ∧
      Angle.right.radians ≤ Angle.straight.radians ∧
      again.polyline = result ∧ again.removals = [] := by
  intro nan l n result again
  have long : 2 ≤ l.size := by decide
  have greater : Angle.right.radians ≤ Angle.straight.radians := by decide
  obtain ⟨settled, stays⟩ := normalizeUsing_fixpoint Float.atan2 l n
  exact ⟨⟨long, settled long⟩, greater, stays .straight greater⟩

end RouteGeometry.Polyline
