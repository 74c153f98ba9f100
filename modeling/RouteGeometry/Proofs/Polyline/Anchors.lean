import RouteGeometry.Proofs.Polyline.Places

/-! # Anchors are end points that stay out of the polyline

A chain protects anchors by a rule of its own, and ends of the polyline because they have no
neighbour on one side. Both come to the same. -/

namespace RouteGeometry

namespace Normalization

section
variable {α β γ : Type}

/-- A list of nodes without its first one if there is a source, and without its last one
if there is a target. -/
def withoutAnchors (n : Normalization α) (nodes : List β) : List β :=
  let entered := if n.source?.isSome then nodes.tail else nodes
  if n.target?.isSome then entered.dropLast else entered

theorem withoutAnchors_map (n : Normalization α) (f : β → γ) (nodes : List β) :
    n.withoutAnchors (nodes.map f) = (n.withoutAnchors nodes).map f := by
  unfold withoutAnchors
  split <;> split <;> simp

end

end Normalization

namespace Polyline

section
variable {α : Type}

/-- What the anchors enclose are the points. -/
theorem withoutAnchors_nodes (l : Polyline α) (n : Normalization α) :
    n.withoutAnchors (l.nodes n) = l.points := by
  unfold Normalization.withoutAnchors nodes
  cases n.source? <;> cases n.target? <;> simp

theorem nodes_inj {l m : Polyline α} {n : Normalization α} (h : l.nodes n = m.nodes n) :
    l = m := by
  have points := congrArg n.withoutAnchors h
  rw [withoutAnchors_nodes, withoutAnchors_nodes] at points
  exact congrArg Polyline.mk points

theorem nodes_unanchored (l : Polyline α) (minAngle : Angle) : l.nodes { minAngle } = l.points := by
  simp [nodes]

theorem two_le_size_nodes {l : Polyline α} (h : 2 ≤ l.size) (n : Normalization α) :
    2 ≤ (⟨l.nodes n⟩ : Polyline α).size := by
  have sizes := length_nodes l n
  rw [size] at h ⊢
  dsimp only
  omega

end

section
variable {α : Type} (angle : Point α 2 → Point α 2 → Point α 2 → Float) {l : Polyline α}
  (h : 2 ≤ l.size) (n : Normalization α)

include h

/-- With the anchors as ends, everything between them stays the same. -/
theorem points_normalizeBy_nodes :
    ((⟨l.nodes n⟩ : Polyline α).normalizeBy angle { minAngle := n.minAngle }).polyline.points =
      (l.normalizeBy angle n).polyline.nodes n := by
  rw [← nodes_unanchored _ n.minAngle, nodes_normalizeBy angle (two_le_size_nodes h n),
    nodes_unanchored, nodes_normalizeBy angle h]

/-- With the anchors as ends, the same points are taken out, counted from the source. -/
theorem removals_normalizeBy_nodes :
    ((⟨l.nodes n⟩ : Polyline α).normalizeBy angle { minAngle := n.minAngle }).removals =
      (l.normalizeBy angle n).removals.map fun r =>
        { r with index := r.index + n.source?.toList.length } := by
  rw [removals_normalizeBy_of_places angle (two_le_size_nodes h n), nodes_unanchored,
    removals_normalizeBy_of_places angle h, List.map_map]
  apply List.map_congr_left
  intro r hr
  -- A source anchor is the first node, which is never taken out.
  have behind : n.source?.toList.length ≤ r.1.2 := by
    have one : n.source?.toList.length ≤ 1 := Option.length_toList_le
    have place := Thinning.mem_tail_of_mem_thin hr
    rw [List.tail_zipIdx] at place
    have := List.le_snd_of_mem_zipIdx place
    omega
  simp only [Function.comp_apply, Option.toList_none, List.length_nil, Nat.sub_zero,
    Nat.sub_add_cancel behind]

theorem summary?_normalizeBy_nodes :
    ∃ passes, (l.normalizeBy angle n).summary? =
        some ⟨l.size, (l.normalizeBy angle n).polyline.size, passes⟩ ∧
      let whole := (⟨l.nodes n⟩ : Polyline α).normalizeBy angle { minAngle := n.minAngle }
      whole.summary? = some ⟨(l.nodes n).length, whole.polyline.size, passes⟩ := by
  refine ⟨_, summary?_normalizeBy angle h n, ?_⟩
  intro whole
  have own := summary?_normalizeBy angle (two_le_size_nodes h n) { minAngle := n.minAngle }
  rw [nodes_unanchored] at own
  exact own

end

/-- **Anchors are end points that stay out of the polyline.** Normalizing between anchors
leaves the points that are left between the ends when the anchors are made ends of the
polyline. It takes out the same points in the same order for the same angles, at places
that are counted without the source, and makes as many sweeps. -/
theorem normalizeUsing_eq_between_ends {α : Type} [Coordinate α]
    (arctan₂ : Float → Float → Float) {l : Polyline α} (h : 2 ≤ l.size) (n : Normalization α) :
    let result := l.normalizeUsing arctan₂ n
    let whole := (⟨l.nodes n⟩ : Polyline α).normalizeUsing arctan₂ { minAngle := n.minAngle }
    result.polyline.points = n.withoutAnchors whole.polyline.points ∧
      whole.polyline.points = result.polyline.nodes n ∧
      whole.removals = result.removals.map (fun r =>
        { r with index := r.index + n.source?.toList.length }) ∧
      ∃ passes, result.summary? = some ⟨l.size, result.polyline.size, passes⟩ ∧
        whole.summary? = some ⟨(l.nodes n).length, whole.polyline.size, passes⟩ := by
  intro result whole
  have points : whole.polyline.points = result.polyline.nodes n :=
    points_normalizeBy_nodes (interiorAngle arctan₂) h n
  refine ⟨?_, points, removals_normalizeBy_nodes (interiorAngle arctan₂) h n,
    summary?_normalizeBy_nodes (interiorAngle arctan₂) h n⟩
  rw [points, withoutAnchors_nodes]

/-- Both points may go when anchors go on to either side of them. -/
theorem normalizeUsing_eq_between_ends_two_points :
    let l : Polyline Int := ⟨[.plane 1 1, .plane 2 2]⟩
    let n : Normalization Int := { source? := some (.plane 0 0), target? := some (.plane 3 3) }
    let result := l.normalizeUsing Float.atan2 n
    let whole := (⟨[.plane 0 0, .plane 1 1, .plane 2 2, .plane 3 3]⟩ : Polyline Int).normalizeUsing
      Float.atan2 {}
    2 ≤ l.size ∧
      whole.polyline.points = [.plane 0 0] ++ result.polyline.points ++ [.plane 3 3] ∧
      whole.removals = result.removals.map (fun r => { r with index := r.index + 1 }) ∧
      ∃ passes, result.summary? = some ⟨2, result.polyline.size, passes⟩ ∧
        whole.summary? = some ⟨4, whole.polyline.size, passes⟩ := by
  intro l n result whole
  have long : 2 ≤ l.size := by decide
  obtain ⟨-, points, removals, sweeps⟩ := normalizeUsing_eq_between_ends Float.atan2 long n
  exact ⟨long, points, removals, sweeps⟩

end Polyline

end RouteGeometry
