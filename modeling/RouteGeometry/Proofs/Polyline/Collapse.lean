import RouteGeometry.Proofs.Bend.Range
import RouteGeometry.Proofs.Polyline.Account
import RouteGeometry.Proofs.Polyline.Anchors
import RouteGeometry.Proofs.Thinning.Sweeps

/-! # Without a threshold nothing is left between the ends

No interior angle is below zero, and none is NaN. With zero as the threshold a sweep takes out every
point it comes to, each measured from the first node, and there is nothing left for another one. -/

namespace RouteGeometry

/-! ## Dropping everything -/

namespace Thinning

section
variable {ι : Type} {angle : ι → ι → ι → Float} {threshold : Float}
  (every : ∀ a x b, threshold ≤ angle a x b)

include every

theorem sweepAfter_of_forall_le (left : ι) (l : List ι) :
    (sweepAfter angle threshold left l).1 = l.getLast?.toList ∧
      (sweepAfter angle threshold left l).2.map Prod.fst = l.dropLast := by
  fun_induction sweepAfter angle threshold left l with
  | case1 => exact ⟨rfl, rfl⟩
  | case2 => exact ⟨rfl, rfl⟩
  | case3 left x y rest found ht swept ih =>
    obtain ⟨kept, dropped⟩ := ih
    refine ⟨?_, ?_⟩
    · rw [List.getLast?_cons_cons]
      exact kept
    · rw [List.dropLast_cons_cons]
      exact congrArg (x :: ·) dropped
  | case4 left x y rest found ht => exact absurd (every left x y) ht

/-- Only the first and the last element are left, the others are dropped in order, and one sweep
does it if there are any. -/
theorem thin_of_forall_le (l : List ι) :
    (thin angle threshold l).1 = l.head?.toList ++ l.tail.getLast?.toList ∧
      (thin angle threshold l).2.flatten.map Prod.fst = l.tail.dropLast ∧
      (thin angle threshold l).2.length = if 3 ≤ l.length then 1 else 0 := by
  match l with
  | [] => simp [thin_of_length_lt_three]
  | [x] => simp [thin_of_length_lt_three]
  | [x, y] => simp [thin_of_length_lt_three]
  | x :: y :: z :: rest =>
    have long : 3 ≤ (x :: y :: z :: rest).length := by simp
    obtain ⟨kept, dropped⟩ := sweepAfter_of_forall_le every x (y :: z :: rest)
    have busy : (sweep angle threshold (x :: y :: z :: rest)).2 ≠ [] := by
      intro quiet
      have none := congrArg (List.map Prod.fst) quiet
      exact List.cons_ne_nil _ _ (dropped.symm.trans none)
    have two : (sweep angle threshold (x :: y :: z :: rest)).1.length < 3 := by
      change (x :: (sweepAfter angle threshold x (y :: z :: rest)).1).length < 3
      rw [kept, List.length_cons]
      have one : (y :: z :: rest).getLast?.toList.length ≤ 1 := Option.length_toList_le
      omega
    rw [thin, if_pos long]
    dsimp only
    rw [dif_neg busy, thin_of_length_lt_three _ _ two, if_pos long]
    refine ⟨?_, ?_, rfl⟩
    · exact congrArg (x :: ·) kept
    · rw [List.flatten_singleton]
      exact dropped

end

end Thinning

/-! ## Interior angles and zero -/

/-- Zero and negative zero are equal, so neither exceeds the other. -/
theorem Number.le_of_beq {x y : Float} (h : (x == y) = true) : x ≤ y := by
  change (x.toModel.unpack.compare y.toModel.unpack == some .eq) = true at h
  rw [beq_iff_eq] at h
  rw [le_iff_compare, h]
  rfl

/-- Every interior angle reaches zero. -/
theorem minAngle_le_interiorAngle {α : Type} [Coordinate α] {arctan₂ : Float → Float → Float}
    (h : UpperArctangent arctan₂) {minAngle : Angle} (zero : minAngle.equal .zero = true)
    (a p b : Point α 2) : minAngle.radians ≤ interiorAngle arctan₂ a p b :=
  Number.float_le_trans (Number.le_of_beq zero) (interiorAngle_range h a p b).1

namespace Polyline

section
variable {α : Type} {l : Polyline α} (h : 2 ≤ l.size) (n : Normalization α)

include h

/-- Of the ends of the nodes those that are no anchors are ends of the polyline. -/
theorem withoutAnchors_ends :
    n.withoutAnchors ((l.nodes n).head?.toList ++ (l.nodes n).tail.getLast?.toList) =
      (if n.source?.isSome then [] else l.first?.toList) ++
        if n.target?.isSome then [] else l.last?.toList := by
  obtain ⟨points⟩ := l
  match points, h with
  | p :: q :: rest, _ =>
    unfold Normalization.withoutAnchors nodes first? last?
    cases n.source? <;> cases n.target? <;> simp [List.getLast?_cons, List.getLast?_append]

end

/-- All but the first and the last of a numbered list, by number. -/
theorem inner_numbers {ι : Type} (l : List ι) :
    l.zipIdx.tail.dropLast.map Prod.snd = List.range' 1 (l.length - 2) := by
  rw [List.map_dropLast, List.map_tail, List.zipIdx_map_snd, List.tail_range']
  apply List.ext_getElem
  · rw [List.length_dropLast, List.length_range', List.length_range']
    omega
  · intro i _ _
    rw [List.getElem_dropLast, List.getElem_range', List.getElem_range']

/-- The same numbers, counted from the first point. -/
theorem inner_places {α : Type} (l : Polyline α) (n : Normalization α) :
    ((l.nodes n).zipIdx.tail.dropLast.map Prod.snd).map (· - n.source?.toList.length) =
      List.range' (if n.source?.isSome then 0 else 1) ((l.nodes n).length - 2) := by
  rw [inner_numbers, List.map_sub_range' Option.length_toList_le]
  cases n.source? <;> rfl

section
variable {α : Type} {angle : Point α 2 → Point α 2 → Point α 2 → Float} {n : Normalization α}
  (every : ∀ a p b, n.minAngle.radians ≤ angle a p b) {l : Polyline α} (h : 2 ≤ l.size)

include every h

theorem points_normalizeBy_of_forall_le :
    (l.normalizeBy angle n).polyline.points =
      (if n.source?.isSome then [] else l.first?.toList) ++
        if n.target?.isSome then [] else l.last?.toList := by
  rw [← withoutAnchors_ends h, ← withoutAnchors_nodes (l.normalizeBy angle n).polyline n,
    nodes_normalizeBy angle h, (Thinning.thin_of_forall_le every _).1]

theorem index_removals_of_forall_le :
    (l.normalizeBy angle n).removals.map Removal.index =
      List.range' (if n.source?.isSome then 0 else 1) ((l.nodes n).length - 2) := by
  have everyPlace : ∀ a p b : Point α 2 × Nat,
      n.minAngle.radians ≤ Thinning.angleOf Prod.fst angle a p b := fun a p b => every _ _ _
  rw [← inner_places, ← (Thinning.thin_of_forall_le everyPlace _).2.1,
    removals_normalizeBy_of_places angle h, List.map_map, List.map_map, List.map_map]
  rfl

theorem summary?_of_forall_le :
    (l.normalizeBy angle n).summary? = some ⟨l.size, (l.normalizeBy angle n).polyline.size,
      if 3 ≤ (l.nodes n).length then 1 else 0⟩ := by
  rw [summary?_normalizeBy angle h, (Thinning.thin_of_forall_le every _).2.2]

end

/-- **Without a threshold one sweep takes out everything between the ends.** Where the smallest
angle to take out is zero, of either sign, only those ends of the polyline are left that have no
anchor beyond them, NaN and infinite coordinates or not. All other points are reported, in the order
in which they stood, and there is one sweep if there is anything between the ends at all. -/
theorem normalizeUsing_collapses {k : CoordinateKind} {arctan₂ : Float → Float → Float}
    (h : UpperArctangent arctan₂) {l : Polyline k.Carrier} (long : 2 ≤ l.size)
    {n : Normalization k.Carrier} (zero : n.minAngle.equal .zero = true) :
    let result := l.normalizeUsing arctan₂ n
    result.polyline.points =
        (if n.source?.isSome then [] else l.first?.toList) ++
          (if n.target?.isSome then [] else l.last?.toList) ∧
      result.removals.map Removal.index =
        List.range' (if n.source?.isSome then 0 else 1) ((l.nodes n).length - 2) ∧
      (∀ r ∈ result.removals, l.points[r.index]? = some r.point) ∧
      result.summary? = some ⟨l.size, result.polyline.size,
        if 3 ≤ (l.nodes n).length then 1 else 0⟩ := by
  intro result
  have every := minAngle_le_interiorAngle (α := k.Carrier) h zero
  refine ⟨points_normalizeBy_of_forall_le every long, index_removals_of_forall_le every long,
    fun r hr => (place_of_mem_removals hr).1, summary?_of_forall_le every long⟩

/-- Negative zero as the threshold and a point that is no number: without anchors both ends are
left, and with a source the last one is. -/
theorem normalizeUsing_collapses_nan :
    let nan : Float := 0 / 0
    let arctan₂ : Float → Float → Float := fun y x =>
      if y.isNaN || x.isNaN then nan
      else if y == 0 then if x < 0 then pi else 0
      else Angle.right.radians
    let l : Polyline Float := ⟨[.plane 0 0, .plane nan (1 / 0), .plane 1 0, .plane 1 1]⟩
    let free : Normalization Float := { minAngle := ⟨-0.0, by decide, by decide⟩ }
    let entered : Normalization Float := { free with source? := some (.plane 0 1) }
    let left := l.normalizeUsing arctan₂ free
    let left' := l.normalizeUsing arctan₂ entered
    UpperArctangent arctan₂ ∧ 2 ≤ l.size ∧ free.minAngle.equal .zero = true ∧
      left.polyline.points = [.plane 0 0, .plane 1 1] ∧ left.removals.map Removal.index = [1, 2] ∧
      left.summary?.map NormalizationSummary.passes = some 1 ∧
      left'.polyline.points = [.plane 1 1] ∧ left'.removals.map Removal.index = [0, 1, 2] ∧
      left'.summary?.map NormalizationSummary.passes = some 1 := by
  intro nan arctan₂ l free entered left left'
  have upper : UpperArctangent arctan₂ := by
    intro y x _
    dsimp only [arctan₂]
    split
    · left
      decide
    · right
      split
      · split <;> decide
      · decide
  have long : 2 ≤ l.size := by decide
  have zero : free.minAngle.equal .zero = true := by decide
  obtain ⟨points, index, -, summary⟩ :=
    normalizeUsing_collapses (k := .float64) upper long zero
  obtain ⟨points', index', -, summary'⟩ :=
    normalizeUsing_collapses (k := .float64) (n := entered) upper long zero
  exact ⟨upper, long, zero, points, index, congrArg _ summary, points', index',
    congrArg _ summary'⟩

end Polyline

end RouteGeometry
