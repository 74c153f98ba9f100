import Mathlib.Data.List.Nodup
import RouteGeometry.Proofs.Polyline.Places

/-! # Every point is kept or taken out

Normalization carries flags over from the nodes to the points, and reports what it takes out by
place. Both accounts fit together. -/

namespace RouteGeometry

/-! ## Places in a thinned list -/

namespace Thinning

section
variable {ι : Type} {angle : ι → ι → ι → Float} {threshold : Float} {l : List ι}

/-- In a list without repetitions nothing at an end is dropped. -/
theorem not_end_of_mem_thin (nodup : l.Nodup) {r : ι × Float}
    (h : r ∈ (thin angle threshold l).2.flatten) : l.head? ≠ some r.1 ∧ l.getLast? ≠ some r.1 := by
  have apart := (List.nodup_append.1 ((thin_perm angle threshold l).nodup_iff.2 nodup)).2.2
  have dropped : r.1 ∈ (thin angle threshold l).2.flatten.map Prod.fst := List.mem_map_of_mem h
  constructor
  · intro first
    rw [← head?_thin angle threshold] at first
    exact apart _ (List.mem_of_head? first) _ dropped rfl
  · intro last
    rw [← getLast?_thin angle threshold] at last
    exact apart _ (List.mem_of_getLast? last) _ dropped rfl

variable (angle threshold l) in
/-- What is dropped from a list whose elements are numbered. -/
abbrev numbered : List ((ι × Nat) × Float) :=
  (thin (angleOf Prod.fst angle) threshold l.zipIdx).2.flatten

theorem nodup_places (l : List ι) : (l.zipIdx.map Prod.snd).Nodup := by
  rw [List.zipIdx_map_snd]
  exact List.nodup_range'

variable (angle threshold l) in
theorem nodup_numbered : ((numbered angle threshold l).map fun r => r.1.2).Nodup := by
  have perm := (thin_perm (angleOf Prod.fst angle) threshold l.zipIdx).map Prod.snd
  have nodup := perm.nodup_iff.2 (nodup_places l)
  rw [List.map_append, List.map_map] at nodup
  exact (List.nodup_append.1 nodup).2.1

theorem getElem?_of_mem_numbered {r : (ι × Nat) × Float} (h : r ∈ numbered angle threshold l) :
    l[r.1.2]? = some r.1.1 := by
  have perm := thin_perm (angleOf Prod.fst angle) threshold l.zipIdx
  have place := perm.subset (List.mem_append_right _ (List.mem_map_of_mem h))
  exact List.mem_zipIdx_iff_getElem?.1 place

theorem isInner_of_mem_numbered {r : (ι × Nat) × Float} (h : r ∈ numbered angle threshold l) :
    0 < r.1.2 ∧ r.1.2 + 1 < l.length := by
  have present := getElem?_of_mem_numbered h
  obtain ⟨bound, -⟩ := List.getElem?_eq_some_iff.1 present
  obtain ⟨first, last⟩ := not_end_of_mem_thin (nodup_places l).of_map h
  rw [List.head?_zipIdx, List.head?_eq_getElem?] at first
  rw [List.getLast?_zipIdx, List.getLast?_eq_getElem?] at last
  constructor
  · apply Nat.pos_of_ne_zero
    intro zero
    rw [zero] at present
    rw [present, ← zero] at first
    exact first rfl
  · have other : r.1.2 ≠ l.length - 1 := by
      intro same
      rw [same] at present
      rw [present, Nat.zero_add, ← same] at last
      exact last rfl
    omega

end

end Thinning

/-! ## Places of a polyline -/

/-- Flagged elements stand in the order in which they stood. -/
theorem flagged_sublist {β : Type} (items : List β) (flags : List Bool) :
    (flagged items flags).Sublist items := by
  fun_induction flagged items flags with
  | case1 => exact .refl _
  | case2 => exact .refl _
  | case3 x items flags ih => exact ih.cons_cons x
  | case4 x items flags ih => exact ih.cons x

namespace Normalized

section
variable {α : Type} {r : Normalized α} {size : Nat}

theorem mem_kept_iff {i : Nat} :
    i ∈ r.kept size ↔ i < size ∧ ∀ removal ∈ r.removals, removal.index ≠ i := by
  simp [kept]

theorem kept_pairwise_lt : (r.kept size).Pairwise (· < ·) :=
  List.pairwise_lt_range.filter _

/-- Where every reported place exists and is reported once, every place is kept or reported. -/
theorem kept_append_perm (once : (r.removals.map Removal.index).Nodup)
    (bound : ∀ removal ∈ r.removals, removal.index < size) :
    (r.kept size ++ r.removals.map Removal.index).Perm (List.range size) := by
  have apart : (r.kept size ++ r.removals.map Removal.index).Nodup := by
    refine List.nodup_append.2 ⟨kept_pairwise_lt.imp Nat.ne_of_lt, once, ?_⟩
    intro i stays j goes
    obtain ⟨removal, hr, rfl⟩ := List.mem_map.1 goes
    exact ((mem_kept_iff.1 stays).2 removal hr).symm
  apply (List.perm_ext_iff_of_nodup apart List.nodup_range).2
  intro i
  rw [List.mem_append, mem_kept_iff, List.mem_map, List.mem_range]
  constructor
  · rintro (⟨inside, -⟩ | ⟨removal, hr, rfl⟩)
    · exact inside
    · exact bound removal hr
  · intro inside
    by_cases goes : ∃ removal ∈ r.removals, removal.index = i
    · exact .inr goes
    · refine .inl ⟨inside, fun removal hr same => goes ⟨removal, hr, same⟩⟩

end

end Normalized

namespace Polyline

section
variable {α : Type} {angle : Point α 2 → Point α 2 → Point α 2 → Float} {l : Polyline α}
  {n : Normalization α}

theorem getElem?_nodes {i : Nat} (source : n.source?.toList.length ≤ i)
    (target : i < n.source?.toList.length + l.points.length) :
    (l.nodes n)[i]? = l.points[i - n.source?.toList.length]? := by
  rw [nodes, List.getElem?_append_left (by rwa [List.length_append]),
    List.getElem?_append_right source]

/-- A removal names the place of its point, which is not the first one without a source nor
the last one without a target. -/
theorem place_of_mem_removals {r : Removal α} (hr : r ∈ (l.normalizeBy angle n).removals) :
    l.points[r.index]? = some r.point ∧ (n.source? = none → 0 < r.index) ∧
      (n.target? = none → r.index + 1 < l.size) := by
  by_cases h : 2 ≤ l.size
  · rw [removals_normalizeBy_of_places angle h] at hr
    obtain ⟨dropped, hd, rfl⟩ := List.mem_map.1 hr
    have present := Thinning.getElem?_of_mem_numbered hd
    obtain ⟨first, last⟩ := Thinning.isInner_of_mem_numbered hd
    have one : n.source?.toList.length ≤ 1 := Option.length_toList_le
    have one' : n.target?.toList.length ≤ 1 := Option.length_toList_le
    have long : l.points.length = l.size := rfl
    rw [length_nodes] at last
    rw [getElem?_nodes (by omega) (by omega)] at present
    refine ⟨present, fun none => ?_, fun none => ?_⟩
    · rw [none]
      exact first
    · rw [none, Option.toList_none, List.length_nil] at last
      dsimp only
      omega
  · rw [normalizeBy_of_size_lt_two angle (by omega)] at hr
    contradiction

theorem nodup_index_removals : ((l.normalizeBy angle n).removals.map Removal.index).Nodup := by
  by_cases h : 2 ≤ l.size
  · rw [removals_normalizeBy_of_places angle h, List.map_map]
    have counted : ∀ r ∈ Thinning.numbered angle n.minAngle.radians (l.nodes n),
        n.source?.toList.length ≤ r.1.2 := by
      intro r hr
      have one : n.source?.toList.length ≤ 1 := Option.length_toList_le
      have := (Thinning.isInner_of_mem_numbered hr).1
      omega
    have nodup := Thinning.nodup_numbered angle n.minAngle.radians (l.nodes n)
    apply List.pairwise_map.2
    apply ((List.pairwise_map.1 nodup).imp_of_mem)
    intro r s hr hs apart same
    have := counted r hr
    have := counted s hs
    dsimp only [Function.comp_apply] at same
    omega
  · rw [normalizeBy_of_size_lt_two angle (by omega)]
    exact List.nodup_nil

/-! ## What stays -/

theorem first_mem_kept (h : 0 < l.size) (source : n.source? = none) :
    0 ∈ (l.normalizeBy angle n).kept l.size := by
  refine Normalized.mem_kept_iff.2 ⟨h, fun r hr => ?_⟩
  exact Nat.ne_of_gt ((place_of_mem_removals hr).2.1 source)

theorem last_mem_kept (h : 0 < l.size) (target : n.target? = none) :
    l.size - 1 ∈ (l.normalizeBy angle n).kept l.size := by
  refine Normalized.mem_kept_iff.2 ⟨by omega, fun r hr => ?_⟩
  have := (place_of_mem_removals hr).2.2 target
  omega

theorem points_normalizeBy_sublist :
    (l.normalizeBy angle n).polyline.points.Sublist l.points := by
  by_cases h : 2 ≤ l.size
  · rw [normalizeBy_of_two_le angle h]
    exact flagged_sublist _ _
  · rw [normalizeBy_of_size_lt_two angle (by omega)]

theorem two_le_size_normalizeBy (h : 2 ≤ l.size) (source : n.source? = none)
    (target : n.target? = none) : 2 ≤ (l.normalizeBy angle n).polyline.size := by
  have ends : [0, l.size - 1].Nodup := by
    simp only [List.nodup_cons, List.mem_singleton, List.not_mem_nil, not_false_eq_true,
      List.nodup_nil, and_true]
    omega
  have both : [0, l.size - 1] ⊆ (l.normalizeBy angle n).kept l.size := by
    rw [List.cons_subset, List.cons_subset]
    exact ⟨first_mem_kept (by omega) source, last_mem_kept (by omega) target, List.nil_subset _⟩
  rw [size_normalizeBy]
  exact (List.subperm_of_subset ends both).length_le

theorem one_le_size_normalizeBy (h : 0 < l.size) (free : n.source? = none ∨ n.target? = none) :
    1 ≤ (l.normalizeBy angle n).polyline.size := by
  rw [size_normalizeBy]
  rcases free with source | target
  · exact List.length_pos_of_mem (first_mem_kept h source)
  · exact List.length_pos_of_mem (last_mem_kept h target)

variable (angle l n) in
/-- The kept and the reported places are all places, once each. -/
theorem kept_append_perm :
    ((l.normalizeBy angle n).kept l.size ++ (l.normalizeBy angle n).removals.map Removal.index).Perm
      (List.range l.size) := by
  apply Normalized.kept_append_perm nodup_index_removals
  intro r hr
  exact (List.getElem?_eq_some_iff.1 (place_of_mem_removals hr).1).1

theorem size_add_length_removals :
    (l.normalizeBy angle n).polyline.size + (l.normalizeBy angle n).removals.length = l.size := by
  have lengths := (kept_append_perm angle l n).length_eq
  rwa [List.length_append, List.length_map, List.length_range, ← size_normalizeBy] at lengths

theorem sizes_of_summary? {s : NormalizationSummary}
    (h : (l.normalizeBy angle n).summary? = some s) :
    s.before = l.size ∧ s.after = (l.normalizeBy angle n).polyline.size := by
  by_cases long : 2 ≤ l.size
  · rw [summary?_normalizeBy angle long] at h
    cases h
    exact ⟨rfl, rfl⟩
  · rw [normalizeBy_of_size_lt_two angle (by omega)] at h
    contradiction

end

/-- **Normalizing loses, invents and reorders nothing.** Every place of the polyline is either
kept or reported, once. The result consists of the points at the kept places, in their order,
so no anchor is among them, and the report has as many entries as the polyline gets smaller.
The first point stays without a source and the last one without a target; less than two points
stay in any case. -/
theorem normalizeUsing_accounts {α : Type} [Coordinate α] (arctan₂ : Float → Float → Float)
    (l : Polyline α) (n : Normalization α) :
    let result := l.normalizeUsing arctan₂ n
    let kept := result.kept l.size
    (kept ++ result.removals.map Removal.index).Perm (List.range l.size) ∧
      kept.Pairwise (· < ·) ∧
      result.polyline.points.map some = kept.map (fun i => l.points[i]?) ∧
      result.polyline.points.Sublist l.points ∧
      (∀ r ∈ result.removals, l.points[r.index]? = some r.point) ∧
      result.polyline.size + result.removals.length = l.size ∧
      (∀ s, result.summary? = some s → s.before = l.size ∧ s.after = result.polyline.size ∧
        s.before - s.after = result.removals.length) ∧
      (0 < l.size → n.source? = none → 0 ∈ kept) ∧
      (0 < l.size → n.target? = none → l.size - 1 ∈ kept) ∧
      (2 ≤ l.size → n.source? = none → n.target? = none → 2 ≤ result.polyline.size) ∧
      (2 ≤ l.size → n.source? = none ∨ n.target? = none → 1 ≤ result.polyline.size) ∧
      (l.size < 2 → result.polyline = l ∧ result.removals = []) := by
  intro result kept
  have sizes : result.polyline.size + result.removals.length = l.size := size_add_length_removals
  refine ⟨kept_append_perm _ l n, Normalized.kept_pairwise_lt, points_normalizeBy _ l n,
    points_normalizeBy_sublist, fun r hr => (place_of_mem_removals hr).1, sizes, ?_, first_mem_kept,
    last_mem_kept, two_le_size_normalizeBy, fun h => one_le_size_normalizeBy (by omega), ?_⟩
  · intro s hs
    obtain ⟨before, after⟩ := sizes_of_summary? hs
    change s.after = result.polyline.size at after
    refine ⟨before, after, ?_⟩
    omega
  · intro short
    have alone : result = { polyline := l, removals := [], summary? := none } :=
      normalizeBy_of_size_lt_two (interiorAngle arctan₂) short n
    rw [alone]
    exact ⟨rfl, rfl⟩

/-- A source at the first point takes that point out, and the next one after it; the last point
stays. Without a source both ends stay, and so does a single point between anchors. -/
theorem normalizeUsing_accounts_one_anchor :
    let l : Polyline Int := ⟨[.plane 0 0, .plane 1 1, .plane 2 2]⟩
    let n : Normalization Int := { source? := some (.plane 0 0) }
    let result := l.normalizeUsing Float.atan2 n
    let free := l.normalizeUsing Float.atan2 {}
    let single : Polyline Int := ⟨[.plane 1 1]⟩
    2 ≤ l.size ∧ n.target? = none ∧ (result.kept 3 ++ [0, 1]).Perm (List.range 3) ∧
      result.polyline.points.map some = (result.kept 3).map (fun i => l.points[i]?) ∧
      (∃ r ∈ result.removals, r.index = 1 ∧ l.points[1]? = some r.point) ∧
      (∃ s, result.summary? = some s ∧ s.before = 3 ∧ s.before - s.after = 2) ∧
      2 ∈ result.kept 3 ∧ 1 ≤ result.polyline.size ∧
      0 ∈ free.kept 3 ∧ 2 ≤ free.polyline.size ∧
      single.size < 2 ∧ (single.normalizeUsing Float.atan2 n).polyline = single := by
  intro l n result free single
  have long : 2 ≤ l.size := by decide
  have taken : result.removals.map Removal.index = [0, 1] := by decide +kernel
  obtain ⟨perm, -, points, -, places, -, summary, -, last, -, one, -⟩ :=
    normalizeUsing_accounts Float.atan2 l n
  change (result.kept 3 ++ result.removals.map Removal.index).Perm _ at perm
  rw [taken] at perm
  have reported : 1 ∈ result.removals.map Removal.index := by
    rw [taken]
    decide
  obtain ⟨r, hr, index⟩ := List.mem_map.1 reported
  have place : l.points[1]? = some r.point := index ▸ places r hr
  have count : result.removals.length = 2 := by
    rw [← List.length_map Removal.index, taken]
    rfl
  obtain ⟨s, hs⟩ : ∃ s, result.summary? = some s := ⟨_, summary?_normalizeBy _ long n⟩
  obtain ⟨before, -, difference⟩ := summary s hs
  obtain ⟨-, -, -, -, -, -, -, first, -, two, -, -⟩ := normalizeUsing_accounts Float.atan2 l {}
  obtain ⟨-, -, -, -, -, -, -, -, -, -, -, alone⟩ := normalizeUsing_accounts Float.atan2 single n
  have short : single.size < 2 := by decide
  exact ⟨long, rfl, perm, points, ⟨r, hr, index, place⟩,
    ⟨s, hs, before, difference.trans count⟩, last (by decide) rfl, one long (.inr rfl),
    first (by decide) rfl, two long rfl rfl, short, (alone short).1⟩

end Polyline

end RouteGeometry
