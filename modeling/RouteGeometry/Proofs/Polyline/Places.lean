import RouteGeometry.Proofs.Polyline.Refinement
import RouteGeometry.Proofs.Thinning.Account

/-! # Normalizing place by place

Points of a polyline may look the same, so what stays and what goes is said of their places. -/

namespace RouteGeometry

/-- The places of a polyline of `size` points at which nothing was taken out. -/
def Normalized.kept {α : Type} (r : Normalized α) (size : Nat) : List Nat :=
  (List.range size).filter fun i => r.removals.all fun removal => removal.index != i

/-- The places at which points were taken out, in order, with the angles. -/
def Normalized.places {α : Type} (r : Normalized α) : List (Nat × Float) :=
  r.removals.map fun removal => (removal.index, removal.angle)

/-- What stays is settled by the places at which points were taken out. -/
theorem Normalized.kept_eq_of_places {α β : Type} {r : Normalized α} {s : Normalized β}
    (h : r.places = s.places) (size : Nat) : r.kept size = s.kept size := by
  have same (i : Nat) : (r.removals.all fun removal => removal.index != i) =
      s.removals.all fun removal => removal.index != i := by
    have := congrArg (fun places => places.all fun place => place.1 != i) h
    simpa only [places, List.all_map, Function.comp_def] using this
  simp only [kept, same]

/-- Flagged elements are the ones at the places whose flags are set. -/
theorem map_some_flagged {β : Type} (items : List β) (keep : Nat → Bool) :
    (flagged items ((List.range items.length).map keep)).map some =
      ((List.range items.length).filter keep).map fun i => items[i]? := by
  have places : (List.range items.length).map (fun i => items[i]?) = items.map some := by
    apply List.ext_getElem
    · simp
    · intro i h h'
      simp_all
  rw [map_flagged, ← flagged_map, places]

namespace Chain

section
variable {n : Nat} (angle : Fin n → Fin n → Fin n → Float) (threshold : Float)
  (hasSource hasTarget : Bool)

theorem isRemoved_thin_full_iff (i : Fin n) :
    ((full n hasSource hasTarget).thin angle threshold).1.isRemoved i = true ↔
      ∃ r ∈ ((full n hasSource hasTarget).thin angle threshold).2.flatten, r.1 = i := by
  obtain ⟨lists, removals⟩ := thin_lists angle threshold (lists_full n hasSource hasTarget)
  have perm := Thinning.thin_perm angle threshold (List.finRange n)
  rw [← removals] at perm
  have apart := (List.nodup_append.1 (perm.nodup_iff.2 (List.nodup_finRange n))).2.2
  rw [← Bool.not_eq_false, ← lists.mem_iff, ← List.mem_map]
  constructor
  · intro out
    exact (List.mem_append.1 (perm.mem_iff.2 (List.mem_finRange i))).resolve_left out
  · intro reported live
    exact apart i live i reported rfl

/-- The flag of a point is that of its place behind the source anchor. -/
theorem getElem_survivors (c : Chain n) {i : Nat} (hi : i < c.survivors.length)
    (hn : i + c.hasSource.toNat < n) :
    c.survivors[i] = !c.isRemoved ⟨i + c.hasSource.toNat, hn⟩ := by
  simp [survivors_eq, present_eq_map, Nat.add_comm]

theorem pos_of_mem_thin_full {r : Fin n × Float}
    (h : r ∈ ((full n hasSource hasTarget).thin angle threshold).2.flatten) : 0 < r.1.val := by
  obtain ⟨-, removals⟩ := thin_lists angle threshold (lists_full n hasSource hasTarget)
  rw [removals] at h
  obtain ⟨i, hi, same⟩ := List.getElem_of_mem (Thinning.mem_tail_of_mem_thin h)
  simp [← same]

end

end Chain

namespace Polyline

section
variable {α : Type} (angle : Point α 2 → Point α 2 → Point α 2 → Float)

theorem normalizeBy_of_size_lt_two {l : Polyline α} (h : l.size < 2) (n : Normalization α) :
    l.normalizeBy angle n = { polyline := l, removals := [], summary? := none } := by
  rw [normalizeBy, if_pos h]

/-! ## Where points are taken out -/

/-- The nodes with their places in the row. -/
theorem zipIdx_nodes (l : Polyline α) (n : Normalization α) :
    (List.finRange (l.nodes n).length).map (fun i => ((l.nodes n).get i, i.val)) =
      (l.nodes n).zipIdx := by
  apply List.ext_getElem
  · simp
  · intro i h h'
    simp

/-- The removals are those of the nodes, thinned together with their places. -/
theorem removals_normalizeBy_of_places {l : Polyline α} (h : 2 ≤ l.size) (n : Normalization α) :
    (l.normalizeBy angle n).removals =
      (Thinning.thin (Thinning.angleOf Prod.fst angle) n.minAngle.radians
        (l.nodes n).zipIdx).2.flatten.map fun r =>
          ⟨r.1.2 - n.source?.toList.length, r.1.1, r.2⟩ := by
  obtain ⟨-, removals⟩ := Chain.thin_lists (Thinning.angleOf (l.nodes n).get angle)
    n.minAngle.radians (Chain.lists_full (l.nodes n).length n.source?.isSome n.target?.isSome)
  rw [← zipIdx_nodes, Thinning.thin_map, normalizeBy_of_two_le angle h, removals,
    Option.length_toList, ← List.map_flatten, List.map_map]
  rfl

/-! ## What stays -/

theorem length_survivors (l : Polyline α) (n : Normalization α) :
    (l.thinnedChain angle n).1.survivors.length = l.size := by
  obtain ⟨source, target⟩ := anchors_thinnedChain angle l n
  have sizes := length_nodes l n
  rw [Chain.survivors_eq, List.length_drop, List.length_take, Chain.length_present, source, target,
    size]
  omega

/-- A point survives when its place is not among the removals. -/
theorem survivors_eq_map {l : Polyline α} (h : 2 ≤ l.size) (n : Normalization α) :
    (l.thinnedChain angle n).1.survivors = (List.range l.size).map fun i =>
      (l.normalizeBy angle n).removals.all fun removal => removal.index != i := by
  obtain ⟨source, -⟩ := anchors_thinnedChain angle l n
  have sizes := length_nodes l n
  have one : n.source?.toList.length ≤ 1 := Option.length_toList_le
  apply List.ext_getElem
  · simp [length_survivors]
  · intro i hi hi'
    rw [length_survivors, size] at hi
    have hn : i + (l.thinnedChain angle n).1.hasSource.toNat < (l.nodes n).length := by omega
    rw [Chain.getElem_survivors _ _ hn, List.getElem_map, List.getElem_range, Bool.eq_iff_iff,
      Bool.not_eq_true', ← Bool.not_eq_true, Chain.isRemoved_thin_full_iff,
      normalizeBy_of_two_le angle h, ← Option.length_toList, List.all_map, List.all_eq_true]
    constructor
    · intro stays r hr
      have pos := Chain.pos_of_mem_thin_full _ _ _ _ hr
      have other : r.1.val ≠ i + (l.thinnedChain angle n).1.hasSource.toNat :=
        fun same => stays ⟨r, hr, Fin.ext same⟩
      simp only [Function.comp_apply, bne_iff_ne]
      omega
    · rintro others ⟨r, hr, same⟩
      have other := others r hr
      simp only [Function.comp_apply, bne_iff_ne, same] at other
      omega

/-- The points at all places that are not among the removals stay, in their order. -/
theorem points_normalizeBy (l : Polyline α) (n : Normalization α) :
    (l.normalizeBy angle n).polyline.points.map some =
      ((l.normalizeBy angle n).kept l.size).map fun i => l.points[i]? := by
  by_cases h : 2 ≤ l.size
  · have flags := survivors_eq_map angle h n
    rw [Normalized.kept, size, ← map_some_flagged, ← size, ← flags, normalizeBy_of_two_le angle h]
  · rw [normalizeBy_of_size_lt_two angle (by omega), Normalized.kept, size, ← map_some_flagged]
    simp [flagged_replicate_true]

theorem size_normalizeBy (l : Polyline α) (n : Normalization α) :
    (l.normalizeBy angle n).polyline.size = ((l.normalizeBy angle n).kept l.size).length := by
  have lengths := congrArg List.length (points_normalizeBy angle l n)
  rwa [List.length_map, List.length_map] at lengths

end

end Polyline

end RouteGeometry
