import Mathlib.Data.List.Sort
import RouteGeometry.Polyline.Normalization
import RouteGeometry.Proofs.Chain.Refinement
import RouteGeometry.Proofs.Thinning

/-! # Normalizing is thinning the points between the anchors

Normalization works on a chain of numbered places with flags for what has been taken out. What comes
of it is said without any of that: the points with the anchors around them are thinned as a plain
list. -/

namespace RouteGeometry

/-! ## Flags of a list -/

section
variable {β γ : Type}

theorem flagged_append {xs ys : List β} {fs gs : List Bool} (h : xs.length = fs.length) :
    flagged (xs ++ ys) (fs ++ gs) = flagged xs fs ++ flagged ys gs := by
  induction xs generalizing fs with
  | nil =>
    obtain rfl := List.length_eq_zero_iff.1 h.symm
    rfl
  | cons x xs ih =>
    cases fs with
    | nil => cases h
    | cons f fs =>
      have rest := ih (Nat.succ.inj h)
      cases f with
      | true => exact congrArg (x :: ·) rest
      | false => exact rest

theorem flagged_replicate_true (xs : List β) : flagged xs (List.replicate xs.length true) = xs := by
  induction xs with
  | nil => rfl
  | cons x xs ih => exact congrArg (x :: ·) ih

theorem flagged_map (f : γ → β) (keep : γ → Bool) (l : List γ) :
    flagged (l.map f) (l.map keep) = (l.filter keep).map f := by
  induction l with
  | nil => rfl
  | cons x l ih => cases hx : keep x <;> simp [flagged, hx, ih]

theorem map_flagged (f : γ → β) (items : List γ) (flags : List Bool) :
    (flagged items flags).map f = flagged (items.map f) flags := by
  fun_induction flagged items flags with
  | case1 => rfl
  | case2 => rfl
  | case3 x items flags ih => exact congrArg (f x :: ·) ih
  | case4 x items flags ih => exact ih

end

/-! ## Flags of a chain -/

namespace Chain

section
variable {n : Nat}

/-- Which of all places are left, anchors included. -/
def present (c : Chain n) : List Bool := c.removed.toList.map (!·)

theorem present_eq_map (c : Chain n) :
    c.present = (List.finRange n).map fun i => !c.isRemoved i := by
  apply List.ext_getElem
  · simp [present]
  · intro i h h'
    simp [present, isRemoved]

@[simp] theorem length_present (c : Chain n) : c.present.length = n := by
  simp [present]

theorem Lists.eq_filter {c : Chain n} {live : List (Fin n)} (h : c.Lists live) :
    live = (List.finRange n).filter fun i => !c.isRemoved i := by
  refine h.sorted.eq_of_mem_iff ((List.pairwise_lt_finRange n).filter _) fun i => ?_
  simp [h.mem_iff i]

/-- Flagging what the places stand for gives what the listed places stand for. -/
theorem Lists.flagged_present {c : Chain n} {live : List (Fin n)} (h : c.Lists live)
    {β : Type} (f : Fin n → β) :
    flagged ((List.finRange n).map f) c.present = live.map f := by
  rw [present_eq_map, flagged_map, ← h.eq_filter]

theorem Lists.present_end {c : Chain n} {live : List (Fin n)} (h : c.Lists live) {i : Nat}
    (hi : i < c.present.length) (ends : i = 0 ∨ i + 1 = n) : c.present[i] = true := by
  have hin : i < n := by simpa using hi
  have := (h.mem_iff ⟨i, hin⟩).1 (h.ends_mem ⟨i, hin⟩ ends)
  simp [present_eq_map, this]

theorem Lists.take_present {c : Chain n} {live : List (Fin n)} (h : c.Lists live)
    (hn : c.hasSource.toNat ≤ n) :
    c.present.take c.hasSource.toNat = List.replicate c.hasSource.toNat true := by
  have one := Bool.toNat_le c.hasSource
  apply List.eq_replicate_iff.2
  constructor
  · rw [List.length_take, length_present, Nat.min_eq_left hn]
  · intro flag hflag
    obtain ⟨i, hi, rfl⟩ := List.getElem_of_mem hflag
    rw [List.length_take] at hi
    rw [List.getElem_take]
    exact h.present_end (by omega) (.inl (by omega))

theorem Lists.drop_present {c : Chain n} {live : List (Fin n)} (h : c.Lists live)
    (hn : c.hasTarget.toNat ≤ n) :
    c.present.drop (n - c.hasTarget.toNat) = List.replicate c.hasTarget.toNat true := by
  have one := Bool.toNat_le c.hasTarget
  apply List.eq_replicate_iff.2
  constructor
  · rw [List.length_drop, length_present]
    omega
  · intro flag hflag
    obtain ⟨i, hi, rfl⟩ := List.getElem_of_mem hflag
    rw [List.length_drop, length_present] at hi
    rw [List.getElem_drop]
    exact h.present_end (by rw [length_present]; omega) (.inr (by omega))

theorem survivors_eq (c : Chain n) :
    c.survivors = (c.present.take (n - c.hasTarget.toNat)).drop c.hasSource.toNat := by
  have source : (if c.hasSource then 1 else 0) = c.hasSource.toNat := by cases c.hasSource <;> rfl
  have target : (if c.hasTarget then 1 else 0) = c.hasTarget.toNat := by cases c.hasTarget <;> rfl
  rw [survivors, present, ← List.map_take, ← List.map_drop, source, target]

/-- The flags of the anchors are set, and the other ones are the survivors. -/
theorem Lists.present_eq_survivors {c : Chain n} {live : List (Fin n)} (h : c.Lists live)
    (hn : c.hasSource.toNat + c.hasTarget.toNat ≤ n) :
    c.present = List.replicate c.hasSource.toNat true ++ c.survivors ++
      List.replicate c.hasTarget.toNat true := by
  have front : c.present.take c.hasSource.toNat =
      (c.present.take (n - c.hasTarget.toNat)).take c.hasSource.toNat := by
    rw [List.take_take, Nat.min_eq_left (by omega)]
  rw [survivors_eq, ← h.take_present (by omega), ← h.drop_present (by omega), front,
    List.take_append_drop, List.take_append_drop]

end

end Chain

/-! ## Normalizing -/

namespace Polyline

section
variable {α : Type} (angle : Point α 2 → Point α 2 → Point α 2 → Float)

/-- A chain of the nodes, thinned by the angles at the nodes. -/
abbrev thinnedChain (l : Polyline α) (n : Normalization α) :
    Chain (l.nodes n).length × List (Chain.Removals (l.nodes n).length) :=
  (Chain.full (l.nodes n).length n.source?.isSome n.target?.isSome).thin
    (Thinning.angleOf (l.nodes n).get angle) n.minAngle.radians

theorem normalizeBy_of_two_le {l : Polyline α} (h : 2 ≤ l.size) (n : Normalization α) :
    l.normalizeBy angle n =
      { polyline := ⟨flagged l.points (l.thinnedChain angle n).1.survivors⟩
        removals := (l.thinnedChain angle n).2.flatten.map fun r =>
          ⟨r.1.val - if n.source?.isSome then 1 else 0, (l.nodes n).get r.1, r.2⟩
        summary? := some ⟨l.size, (flagged l.points (l.thinnedChain angle n).1.survivors).length,
          (l.thinnedChain angle n).2.length⟩ } := by
  rw [normalizeBy, if_neg (by omega)]
  rfl

theorem map_nodes (l : Polyline α) (n : Normalization α) :
    (List.finRange (l.nodes n).length).map (l.nodes n).get = l.nodes n :=
  List.map_getElem_finRange _

/-- Flagging the nodes, anchors always included, is flagging the points. -/
theorem flagged_nodes (l : Polyline α) (n : Normalization α) {flags : List Bool}
    (h : l.points.length = flags.length) :
    flagged (l.nodes n) (List.replicate n.source?.toList.length true ++ flags ++
      List.replicate n.target?.toList.length true) =
        (Polyline.mk (flagged l.points flags)).nodes n := by
  rw [nodes, flagged_append (by simp [h]), flagged_append (by simp), flagged_replicate_true,
    flagged_replicate_true]
  rfl

/-- Thinning the chain of the nodes by number, and thinning the nodes. -/
theorem thin_nodes (l : Polyline α) (n : Normalization α) :
    ∃ live, (l.thinnedChain angle n).1.Lists live ∧
      Thinning.thin angle n.minAngle.radians (l.nodes n) =
        (live.map (l.nodes n).get,
          (l.thinnedChain angle n).2.map (Thinning.renamed (l.nodes n).get)) := by
  have full := Chain.lists_full (l.nodes n).length n.source?.isSome n.target?.isSome
  obtain ⟨lists, removals⟩ := Chain.thin_lists
    (Thinning.angleOf (l.nodes n).get angle)
    n.minAngle.radians full
  refine ⟨_, lists, ?_⟩
  rw [removals, ← Thinning.thin_map, map_nodes]

theorem length_nodes (l : Polyline α) (n : Normalization α) : (l.nodes n).length =
    n.source?.toList.length + l.points.length + n.target?.toList.length := by
  rw [nodes, List.length_append, List.length_append]

theorem anchors_thinnedChain (l : Polyline α) (n : Normalization α) :
    (l.thinnedChain angle n).1.hasSource.toNat = n.source?.toList.length ∧
      (l.thinnedChain angle n).1.hasTarget.toNat = n.target?.toList.length := by
  obtain ⟨source, target⟩ := Chain.anchors_thin (Thinning.angleOf (l.nodes n).get angle)
    n.minAngle.radians (Chain.full (l.nodes n).length n.source?.isSome n.target?.isSome)
  rw [source, target]
  constructor
  · cases n.source? <;> rfl
  · cases n.target? <;> rfl

/-- The points that are left, with the anchors around them, are the thinned nodes. -/
theorem nodes_normalizeBy {l : Polyline α} (h : 2 ≤ l.size) (n : Normalization α) :
    (l.normalizeBy angle n).polyline.nodes n =
      (Thinning.thin angle n.minAngle.radians (l.nodes n)).1 := by
  obtain ⟨live, lists, thinned⟩ := thin_nodes angle l n
  obtain ⟨source, target⟩ := anchors_thinnedChain angle l n
  have sizes := length_nodes l n
  have present := lists.present_eq_survivors (by omega)
  have lengths := congrArg List.length present
  rw [source, target] at present lengths
  simp only [List.length_append, List.length_replicate, Chain.length_present] at lengths
  have kept := lists.flagged_present (l.nodes n).get
  rw [map_nodes, present, flagged_nodes l n (by omega)] at kept
  rw [normalizeBy_of_two_le angle h, thinned, ← kept]

/-- The removals, in order, are those of the thinned nodes. -/
theorem removals_normalizeBy {l : Polyline α} (h : 2 ≤ l.size) (n : Normalization α) :
    (l.normalizeBy angle n).removals.map (fun r => (r.point, r.angle)) =
      (Thinning.thin angle n.minAngle.radians (l.nodes n)).2.flatten := by
  obtain ⟨live, lists, thinned⟩ := thin_nodes angle l n
  rw [normalizeBy_of_two_le angle h, thinned, ← List.map_flatten, List.map_map]
  rfl

theorem summary?_normalizeBy {l : Polyline α} (h : 2 ≤ l.size) (n : Normalization α) :
    (l.normalizeBy angle n).summary? =
      some ⟨l.size, (l.normalizeBy angle n).polyline.size,
        (Thinning.thin angle n.minAngle.radians (l.nodes n)).2.length⟩ := by
  obtain ⟨live, lists, thinned⟩ := thin_nodes angle l n
  rw [normalizeBy_of_two_le angle h, thinned, List.length_map]
  rfl

/-- **Normalizing refines thinning.** Whatever angles are found at the bends, the
points that are left are the thinned nodes without the anchors, the removals are
reported in the same order with the same angles, and there are as many sweeps. -/
theorem normalizeBy_refines_thin {l : Polyline α} (h : 2 ≤ l.size) (n : Normalization α) :
    let plain := Thinning.thin angle n.minAngle.radians (l.nodes n)
    let result := l.normalizeBy angle n
    n.source?.toList ++ result.polyline.points ++ n.target?.toList = plain.1 ∧
      result.removals.map (fun r => (r.point, r.angle)) = plain.2.flatten ∧
      result.summary? = some ⟨l.size, result.polyline.size, plain.2.length⟩ :=
  ⟨nodes_normalizeBy angle h n, removals_normalizeBy angle h n, summary?_normalizeBy angle h n⟩

end

/-- Between two anchors nothing has to stay. -/
theorem normalizeBy_refines_thin_anchored :
    let l : Polyline Int := ⟨[.plane 1 1, .plane 2 2]⟩
    let n : Normalization Int := { source? := some (.plane 0 0), target? := some (.plane 3 3) }
    let result := l.normalizeBy (fun _ _ _ => pi) n
    2 ≤ l.size ∧ n.source?.toList ++ result.polyline.points ++ n.target?.toList =
        [.plane 0 0, .plane 3 3] ∧
      result.removals.map (fun r => (r.point, r.angle)) = [(.plane 1 1, pi), (.plane 2 2, pi)] ∧
      result.summary? = some ⟨2, result.polyline.size, 1⟩ := by
  intro l n result
  have long : 2 ≤ l.size := by decide
  have plain : Thinning.thin (fun _ _ _ => pi) n.minAngle.radians (l.nodes n) =
      ([.plane 0 0, .plane 3 3], [[(.plane 1 1, pi), (.plane 2 2, pi)]]) := by
    have : n.minAngle.radians ≤ pi := by decide
    rw [Thinning.thin]
    simp [Thinning.sweep, Thinning.sweepAfter, this, l, n, nodes, Thinning.thin]
  have refines := normalizeBy_refines_thin (fun _ _ _ => pi) long n
  rw [plain] at refines
  exact ⟨long, refines⟩
end Polyline

end RouteGeometry
