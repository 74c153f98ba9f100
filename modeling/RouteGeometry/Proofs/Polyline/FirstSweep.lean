import RouteGeometry.Proofs.Polyline.Refinement
import RouteGeometry.Proofs.Polyline.Shortcut
import RouteGeometry.Proofs.Thinning.Sweeps

/-! # By default the first sweep does everything

A bend that was passed because the polyline turns there gets another neighbour when the points
behind it are taken out. By default these lie on the way ahead, so the polyline still turns at the
bend, and a second sweep only finds that out. -/

namespace RouteGeometry

/-- What lies between two points lies before every stop on the rest of the way. -/
theorem Segment.covers_part_before {a x y z : Point Rat 2} (hx : (⟨a, z⟩ : Segment Rat).Covers x)
    (hy : (⟨x, z⟩ : Segment Rat).Covers y) : (⟨a, y⟩ : Segment Rat).Covers x := by
  obtain ⟨s, s0, s1, rfl⟩ := hx
  obtain ⟨t, t0, t1, rfl⟩ := hy
  have further : s ≤ s + (1 - s) * t := le_add_of_nonneg_right (mul_nonneg (sub_nonneg.2 s1) t0)
  have stop : (a.along z s).along z t = a.along z (s + (1 - s) * t) := by
    have := Point.along_along a z s 1 t
    rwa [Point.along_one] at this
  have part := covers_part a z s0 further
  rwa [Point.along_zero, ← stop] at part

/-- Taking out a point at which the path goes straight on makes the point before it no easier to
take out. -/
theorem stable_interiorAngle {α : Type} [Coordinate α] [Coordinate.Faithful α]
    (arctan₂ : Float → Float → Float) :
    Thinning.Stable (interiorAngle arctan₂) pi fun p : Point α 2 => ∃ p', p.toRat? = some p' := by
  rintro a x y z ⟨a', ha⟩ ⟨x', hx⟩ ⟨y', hy⟩ ⟨z', hz⟩ straight later
  rw [pi_le_interiorAngle_iff hx hy hz] at straight
  rw [pi_le_interiorAngle_iff ha hx hz] at later
  rw [pi_le_interiorAngle_iff ha hx hy]
  exact Segment.covers_part_before later straight

theorem Thinning.Stable.angleOf {ι κ : Type} {f : ι → κ} {angle : κ → κ → κ → Float}
    {threshold : Float} {P : κ → Prop} (h : Stable angle threshold P) :
    Stable (Thinning.angleOf f angle) threshold fun i => P (f i) :=
  fun a x y z => h (f a) (f x) (f y) (f z)

namespace Chain

section
variable {n : Nat} {c : Chain n} {live : List (Fin n)} {a i b : Fin n}

theorem Lists.settled_not_le {angle : Fin n → Fin n → Fin n → Float} {threshold : Float}
    (h : c.Lists live) (settled : Thinning.Settled angle threshold live)
    (stays : c.isRemoved i = false) (hp : c.prev? i = some a) (hn : c.next? i = some b) :
    ¬ threshold ≤ angle a i b := by
  obtain ⟨before, after, rfl⟩ := h.exists_between ((h.mem_iff i).2 stays) hp hn
  exact settled.not_le

end

end Chain

namespace Polyline

theorem exists_toRat?_of_mem {α : Type} [Coordinate α] {l : Polyline α} {values : Polyline Rat}
    (h : l.toRat? = some values) {p : Point α 2} (hp : p ∈ l.points) :
    ∃ p', p.toRat? = some p' := by
  have value : p.toRat? ∈ values.points.map some :=
    toRat?_eq_some_iff.1 h ▸ List.mem_map_of_mem hp
  obtain ⟨p', -, same⟩ := List.mem_map.1 value
  exact ⟨p', same.symm⟩

/-- There are as many sweeps as the chain of the nodes takes. -/
theorem summary?_normalizeBy_thinnedChain {α : Type}
    (angle : Point α 2 → Point α 2 → Point α 2 → Float) {l : Polyline α} (h : 2 ≤ l.size)
    (n : Normalization α) :
    (l.normalizeBy angle n).summary? =
      some ⟨l.size, (l.normalizeBy angle n).polyline.size, (l.thinnedChain angle n).2.length⟩ := by
  rw [normalizeBy_of_two_le angle h]
  rfl

section
variable {α : Type} [Coordinate α] (arctan₂ : Float → Float → Float) (l : Polyline α)
  (n : Normalization α)

/-- The chain of the nodes after one sweep with a straight angle as threshold. -/
abbrev sweptChain : Chain (l.nodes n).length :=
  ((Chain.full (l.nodes n).length n.source?.isSome n.target?.isSome).sweep
    (Thinning.angleOf (l.nodes n).get (interiorAngle arctan₂)) pi).1

variable {l n} [Coordinate.Faithful α] {values : Polyline Rat}
  (exact : (⟨l.nodes n⟩ : Polyline α).toRat? = some values)

include exact

theorem settled_sweep_nodes :
    let angle := Thinning.angleOf (l.nodes n).get (interiorAngle arctan₂)
    Thinning.Settled angle pi (Thinning.sweep angle pi (List.finRange (l.nodes n).length)).1 :=
  (stable_interiorAngle arctan₂).angleOf.settled_sweep fun i _ =>
    exists_toRat?_of_mem exact (List.get_mem _ i)

/-- After one sweep no place that is left has a straight angle. -/
theorem not_pi_le_of_sweptChain {i a b : Fin (l.nodes n).length}
    (stays : (l.sweptChain arctan₂ n).isRemoved i = false)
    (hp : (l.sweptChain arctan₂ n).prev? i = some a)
    (hn : (l.sweptChain arctan₂ n).next? i = some b) :
    ¬ pi ≤ interiorAngle arctan₂ ((l.nodes n).get a) ((l.nodes n).get i) ((l.nodes n).get b) := by
  have full := Chain.lists_full (l.nodes n).length n.source?.isSome n.target?.isSome
  have lists := (Chain.sweep_lists (Thinning.angleOf (l.nodes n).get (interiorAngle arctan₂)) pi
    full).1
  have settled := settled_sweep_nodes arctan₂ exact
  have passed := lists.settled_not_le settled stays hp hn
  unfold Thinning.angleOf at passed
  exact passed

/-- There is at most one sweep after the first one, and it takes out nothing. -/
theorem sweeps_thinnedChain (straight : n.minAngle = .straight) :
    (l.thinnedChain (interiorAngle arctan₂) n).2.length ≤ 2 ∧
      ∀ later ∈ (l.thinnedChain (interiorAngle arctan₂) n).2.tail, later = [] := by
  have few := Thinning.sweeps_of_settled_sweep (settled_sweep_nodes arctan₂ exact)
  rw [thinnedChain, straight, (Chain.thin_lists _ _ (Chain.lists_full _ _ _)).2]
  exact few

end

/-- **By default the first sweep takes out all there is to take out.** Default normalization of
exact points takes at most two sweeps, and those after the first one take out nothing: no point
that is left after the first sweep has a straight angle between the neighbours it has then. -/
theorem normalizeUsing_first_sweep {k : CoordinateKind} (arctan₂ : Float → Float → Float)
    {l : Polyline k.Carrier} (h : 2 ≤ l.size) {n : Normalization k.Carrier}
    (straight : n.minAngle = .straight) {values : Polyline Rat}
    (exact : (⟨l.nodes n⟩ : Polyline k.Carrier).toRat? = some values) :
    let result := l.normalizeUsing arctan₂ n
    let sweeps := (l.thinnedChain (interiorAngle arctan₂) n).2
    let swept := l.sweptChain arctan₂ n
    result.summary? = some ⟨l.size, result.polyline.size, sweeps.length⟩ ∧ sweeps.length ≤ 2 ∧
      (∀ later ∈ sweeps.tail, later = []) ∧
      ∀ i a b, swept.isRemoved i = false → swept.prev? i = some a → swept.next? i = some b →
        ¬ pi ≤ interiorAngle arctan₂ ((l.nodes n).get a) ((l.nodes n).get i)
          ((l.nodes n).get b) := by
  intro result sweeps swept
  have few := sweeps_thinnedChain arctan₂ exact straight
  refine ⟨summary?_normalizeBy_thinnedChain (interiorAngle arctan₂) h n, few.1, few.2, ?_⟩
  intro i a b stays hp hn
  exact not_pi_le_of_sweptChain arctan₂ exact stays hp hn

/-- Repeated points at the source and at the end, and a way back on the way. -/
theorem normalizeUsing_first_sweep_back :
    let l : Polyline Float := ⟨[.plane 0 0, .plane 0 0, .plane 1 0, .plane 2 0, .plane 0.5 0,
      .plane 0.5 1, .plane 0.5 1]⟩
    let n : Normalization Float := { source? := some (.plane 0 0) }
    let values : Polyline Rat := ⟨[.plane 0 0, .plane 0 0, .plane 0 0, .plane 1 0, .plane 2 0,
      .plane (1 / 2) 0, .plane (1 / 2) 1, .plane (1 / 2) 1]⟩
    let result := l.normalizeUsing Float.atan2 n
    let sweeps := (l.thinnedChain (interiorAngle Float.atan2) n).2
    2 ≤ l.size ∧ n.minAngle = .straight ∧ (⟨l.nodes n⟩ : Polyline Float).toRat? = some values ∧
      result.summary? = some ⟨7, result.polyline.size, sweeps.length⟩ ∧ sweeps.length ≤ 2 ∧
      ∀ later ∈ sweeps.tail, later = [] := by
  intro l n values result sweeps
  have long : 2 ≤ l.size := by decide
  have exact : (⟨l.nodes n⟩ : Polyline Float).toRat? = some values :=
    toRat?_eq_some_iff.2 (by decide +kernel)
  obtain ⟨summary, few, nothing, -⟩ :=
    normalizeUsing_first_sweep (k := .float64) Float.atan2 long rfl exact
  exact ⟨long, rfl, exact, summary, few, nothing⟩

end Polyline

end RouteGeometry
