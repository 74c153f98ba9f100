import RouteGeometry.Chain.Thinning
import RouteGeometry.Proofs.Chain.Linked
import RouteGeometry.Thinning

/-! # Thinning a chain thins the list it shows

The same places stay, and the same ones are reported in the same order with the same angles.
Anchors need no rule of their own: a place with neighbours on both sides is never an anchor. -/

namespace RouteGeometry.Chain

section
variable {n : Nat} (angle : Fin n → Fin n → Fin n → Float) (threshold : Float)

theorem visit_last {c : Chain n} {i : Fin n} (hn : c.next? i = none) :
    c.visit angle threshold i = (c, []) := by
  unfold visit
  rw [hn]
  split
  · contradiction
  · rfl

theorem visit_first {c : Chain n} {i : Fin n} (hp : c.prev? i = none) :
    c.visit angle threshold i = (c, []) := by
  unfold visit
  rw [hp]

/-- The angle alone decides about a place between two others. -/
theorem visit_between {c : Chain n} {a i b : Fin n} (hp : c.prev? i = some a)
    (hn : c.next? i = some b) :
    c.visit angle threshold i =
      if threshold ≤ angle a i b then (c.unlink i, [(i, angle a i b)]) else (c, []) := by
  unfold visit
  rw [hp, hn]
  simp only [isAnchor_eq_false_of_between hp hn, Bool.false_eq_true, if_false]

theorem sweepFrom_of_next?_eq_none {c : Chain n} {i : Fin n} (hn : c.next? i = none) :
    c.sweepFrom angle threshold i = c.visit angle threshold i := by
  rw [sweepFrom]
  split
  · rfl
  · rename_i h
    rw [hn] at h
    contradiction

theorem sweepFrom_of_next?_eq_some {c : Chain n} {i j : Fin n} (hn : c.next? i = some j) :
    c.sweepFrom angle threshold i =
      let visited := c.visit angle threshold i
      let rest := visited.1.sweepFrom angle threshold j
      (rest.1, visited.2 ++ rest.2) := by
  rw [sweepFrom]
  split
  · rename_i h
    rw [hn] at h
    contradiction
  · rename_i k h
    obtain rfl : j = k := Option.some.inj (hn.symm.trans h)
    rfl

/-- The rest of a sweep, from a place with a left neighbour on. The induction is on
the places still to be visited; the list in front of them stays as it is. -/
theorem sweepFrom_lists {c : Chain n} {before rest : List (Fin n)} {left i : Fin n}
    (h : c.Lists (before ++ left :: i :: rest)) :
    (c.sweepFrom angle threshold i).1.Lists
        (before ++ left :: (Thinning.sweepAfter angle threshold left (i :: rest)).1) ∧
      (c.sweepFrom angle threshold i).2 =
        (Thinning.sweepAfter angle threshold left (i :: rest)).2 := by
  induction rest generalizing c before left i with
  | nil =>
    have hn : c.next? i = none := h.linked.neighbours.2
    rw [sweepFrom_of_next?_eq_none _ _ hn, visit_last _ _ hn]
    exact ⟨h, rfl⟩
  | cons j rest ih =>
    obtain ⟨hp, hn⟩ := h.linked.neighbours
    rw [List.head?_cons] at hn
    rw [sweepFrom_of_next?_eq_some _ _ hn, visit_between _ _ hp hn, Thinning.sweepAfter]
    by_cases ht : threshold ≤ angle left i j
    · simp only [ht, if_true]
      obtain ⟨hl, hr⟩ := ih h.unlink
      exact ⟨hl, congrArg ((i, angle left i j) :: ·) hr⟩
    · simp only [ht, if_false]
      have shifted : before ++ left :: i :: j :: rest = (before ++ [left]) ++ i :: j :: rest := by
        simp
      rw [shifted] at h
      obtain ⟨hl, hr⟩ := ih h
      rw [List.append_assoc] at hl
      exact ⟨hl, hr⟩

theorem sweep_lists {c : Chain n} {live : List (Fin n)} (h : c.Lists live) :
    (c.sweep angle threshold).1.Lists (Thinning.sweep angle threshold live).1 ∧
      (c.sweep angle threshold).2 = (Thinning.sweep angle threshold live).2 := by
  cases live with
  | nil =>
    have empty : ¬ 0 < n := fun hn => List.not_mem_nil (h.ends_mem ⟨0, hn⟩ (.inl rfl))
    rw [sweep, dif_neg empty]
    exact ⟨h, rfl⟩
  | cons i rest =>
    have hi : (⟨0, i.pos⟩ : Fin n) = i := Fin.ext h.head_val_eq_zero.symm
    obtain ⟨hp, hn, -⟩ := h.linked
    rw [sweep, dif_pos i.pos, hi, Thinning.sweep]
    cases rest with
    | nil =>
      rw [sweepFrom_of_next?_eq_none _ _ hn, visit_last _ _ hn]
      exact ⟨h, rfl⟩
    | cons j rest =>
      rw [List.head?_cons] at hn
      have h : c.Lists ([] ++ i :: j :: rest) := h
      rw [sweepFrom_of_next?_eq_some _ _ hn, visit_first _ _ hp]
      exact sweepFrom_lists angle threshold h

/-- Thinning a chain thins its list, with as many sweeps and the same removals. -/
theorem thin_lists {c : Chain n} {live : List (Fin n)} (h : c.Lists live) :
    (c.thin angle threshold).1.Lists (Thinning.thin angle threshold live).1 ∧
      (c.thin angle threshold).2 = (Thinning.thin angle threshold live).2 := by
  fun_induction Thinning.thin angle threshold live generalizing c with
  | case1 live long swept =>
    rename_i quiet
    obtain ⟨hl, hr⟩ := sweep_lists angle threshold h
    rw [thin, dif_pos (h.alive_eq ▸ long), dif_pos (hr.trans quiet)]
    exact ⟨hl, rfl⟩
  | case2 live long swept busy rest =>
    rename_i ih
    obtain ⟨hl, hr⟩ := sweep_lists angle threshold h
    obtain ⟨hl', hr'⟩ := ih hl
    rw [thin, dif_pos (h.alive_eq ▸ long), dif_neg (fun hs => busy (hr.symm.trans hs))]
    exact ⟨hl', congr (congrArg List.cons hr) hr'⟩
  | case3 live short =>
    rw [thin, dif_neg (h.alive_eq ▸ short)]
    exact ⟨h, rfl⟩

/-! ## What removals preserve -/

section
variable {P : Chain n → Prop}
  (step : ∀ {c : Chain n} {a i b : Fin n},
    c.prev? i = some a → c.next? i = some b → P c → P (c.unlink i))

include step

theorem visit_induction {c : Chain n} (i : Fin n) (h : P c) :
    P (c.visit angle threshold i).1 := by
  cases hp : c.prev? i with
  | none => rwa [visit_first _ _ hp]
  | some a =>
    cases hn : c.next? i with
    | none => rwa [visit_last _ _ hn]
    | some b =>
      rw [visit_between _ _ hp hn]
      split
      · exact step hp hn h
      · exact h

theorem sweepFrom_induction {c : Chain n} (i : Fin n) (h : P c) :
    P (c.sweepFrom angle threshold i).1 := by
  fun_induction sweepFrom angle threshold c i with
  | case1 c i visited => exact visit_induction angle threshold step i h
  | case2 c i visited next _ rest ih => exact ih (visit_induction angle threshold step i h)

theorem thin_induction {c : Chain n} (h : P c) : P (c.thin angle threshold).1 := by
  have swept {c : Chain n} (h : P c) : P (c.sweep angle threshold).1 := by
    unfold sweep
    split
    · exact sweepFrom_induction angle threshold step _ h
    · exact h
  fun_induction thin angle threshold c with
  | case1 c => exact swept h
  | case2 c long passed busy rest ih => exact ih (swept h)
  | case3 => exact h

end

theorem anchors_thin (c : Chain n) :
    (c.thin angle threshold).1.hasSource = c.hasSource ∧
      (c.thin angle threshold).1.hasTarget = c.hasTarget :=
  thin_induction angle threshold
    (P := fun d => d.hasSource = c.hasSource ∧ d.hasTarget = c.hasTarget)
    (fun _ _ h => h) ⟨rfl, rfl⟩

end

end RouteGeometry.Chain
