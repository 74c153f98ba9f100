import RouteGeometry.Proofs.Coordinate.Faithful
import RouteGeometry.Proofs.Polyline.Anchors
import RouteGeometry.Proofs.Thinning.Repeats

/-! # Uniting repeated points before normalizing

A point that repeats the one before it has a straight angle, so normalizing takes it out at every
threshold. It may be another one of the equal points that stays, and another number of sweeps may be
needed, but what is left are the same points. -/

namespace RouteGeometry

namespace CoordinateKind

/-- Of the exact types equal coordinates are the same. -/
theorem equal_iff_of_isExact {k : CoordinateKind} (h : k.isExact = true) {a b : k.Carrier} :
    Coordinate.equal a b = true ↔ a = b := by
  cases k with
  | int8 | int16 | int32 | int64 | integer | rational => exact beq_iff_eq
  | float32 | float64 | ordered32 | ordered64 | notNan32 | notNan64 => contradiction

theorem pointEqual_iff_of_isExact {k : CoordinateKind} (h : k.isExact = true)
    {p q : Point k.Carrier 2} : p.equal q = true ↔ p = q := by
  rw [Point.equal_plane, Bool.and_eq_true, equal_iff_of_isExact h, equal_iff_of_isExact h,
    Point.plane_ext_iff]

end CoordinateKind

namespace Polyline

section
variable {α : Type} [Coordinate α] (same : ∀ p q : Point α 2, p.equal q = true → p = q)

include same

/-- Between any nodes uniting leaves out repetitions one at a time. -/
theorem withoutRepeats_repeats (before points after : List (Point α 2)) (kept : Point α 2) :
    Relation.ReflTransGen Thinning.Repeat (before ++ kept :: (points ++ after))
      (before ++ kept :: (withoutRepeats kept points ++ after)) := by
  induction points generalizing before kept with
  | nil => exact .refl
  | cons p points ih =>
    rw [withoutRepeats]
    split
    · rename_i again
      obtain rfl := same p kept again
      exact .head (.between before (points ++ after) p) (ih before p)
    · have shifted := ih (before ++ [kept]) p
      rw [List.append_assoc, List.append_assoc] at shifted
      exact shifted

theorem unify_repeats (l : Polyline α) (n : Normalization α) :
    Relation.ReflTransGen Thinning.Repeat (l.nodes n) (l.unify.nodes n) := by
  obtain ⟨points⟩ := l
  cases points with
  | nil => exact .refl
  | cons p points =>
    have run := withoutRepeats_repeats same n.source?.toList points n.target?.toList p
    simpa [nodes, unify] using run

theorem size_unify_le (l : Polyline α) : l.unify.size ≤ l.size := by
  have lengths := Thinning.length_le_of_repeats (unify_repeats same l {})
  rwa [nodes_unanchored, nodes_unanchored] at lengths

variable (self : ∀ p : Point α 2, p.equal p = true)

include self

/-- With angles that are straight next to a repetition, uniting makes no difference. -/
theorem normalizeUsing_unify_of_equal (arctan₂ : Float → Float → Float) {l : Polyline α}
    (h : 2 ≤ l.unify.size) (n : Normalization α) :
    (l.unify.normalizeUsing arctan₂ n).polyline = (l.normalizeUsing arctan₂ n).polyline := by
  have back (a x : Point α 2) : n.minAngle.radians ≤ interiorAngle arctan₂ a x x := by
    rw [interiorAngle, self x, Bool.or_true, if_pos rfl]
    exact n.minAngle.le_pi
  have ahead (x b : Point α 2) : n.minAngle.radians ≤ interiorAngle arctan₂ x x b := by
    rw [interiorAngle, self x, Bool.true_or, if_pos rfl]
    exact n.minAngle.le_pi
  have long : 2 ≤ l.size := h.trans (size_unify_le same l)
  apply nodes_inj (n := n)
  rw [normalizeUsing, normalizeUsing, nodes_normalizeBy _ h, nodes_normalizeBy _ long]
  exact (Thinning.thin_eq_of_repeats back ahead (unify_repeats same l n)
    (two_le_size_nodes h n)).symm

end

/-- **Normalizing absorbs the uniting of repeated points.** With coordinates of an exact type,
any anchors and any threshold, a polyline is left with the same points whether its repeated
points are united before or not, as long as there are two to start with. -/
theorem normalizeUsing_unify {k : CoordinateKind} (exact : k.isExact = true)
    (arctan₂ : Float → Float → Float) {l : Polyline k.Carrier} (h : 2 ≤ l.unify.size)
    (n : Normalization k.Carrier) :
    (l.unify.normalizeUsing arctan₂ n).polyline = (l.normalizeUsing arctan₂ n).polyline := by
  apply normalizeUsing_unify_of_equal _ _ arctan₂ h n
  · intro p q equal
    exact (CoordinateKind.pointEqual_iff_of_isExact exact).1 equal
  · intro p
    exact (CoordinateKind.pointEqual_iff_of_isExact exact).2 rfl

/-- Points repeated at both ends, in the middle and next to an anchor. -/
theorem normalizeUsing_unify_repeated_ends :
    let l : Polyline (FixedInt 8) := ⟨[.plane ⟨0⟩ ⟨0⟩, .plane ⟨0⟩ ⟨0⟩, .plane ⟨127⟩ ⟨0⟩,
      .plane ⟨127⟩ ⟨0⟩, .plane ⟨127⟩ ⟨0⟩, .plane ⟨127⟩ ⟨128⟩, .plane ⟨127⟩ ⟨128⟩]⟩
    let n : Normalization (FixedInt 8) :=
      { source? := some (.plane ⟨0⟩ ⟨0⟩), minAngle := .right }
    CoordinateKind.int8.isExact = true ∧ 2 ≤ l.unify.size ∧
      l.unify.points = [.plane ⟨0⟩ ⟨0⟩, .plane ⟨127⟩ ⟨0⟩, .plane ⟨127⟩ ⟨128⟩] ∧
      (l.unify.normalizeUsing Float.atan2 n).polyline =
        (l.normalizeUsing Float.atan2 n).polyline := by
  intro l n
  have long : 2 ≤ l.unify.size := by decide
  have united : l.unify.points = [.plane ⟨0⟩ ⟨0⟩, .plane ⟨127⟩ ⟨0⟩, .plane ⟨127⟩ ⟨128⟩] := by decide
  exact ⟨rfl, long, united, normalizeUsing_unify (k := .int8) rfl Float.atan2 long n⟩

end Polyline

end RouteGeometry
