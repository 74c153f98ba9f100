import RouteGeometry.Proofs.Chain.WellLinked

/-! # The chains that thinning goes through

Thinning reports the places it takes out in order, so the report tells every chain on the way: each
is the first one without the places reported so far. -/

namespace RouteGeometry.Chain

section
variable {n : Nat}

/-- The chain without these places, taken out one after the other. -/
def without (c : Chain n) (places : List (Fin n)) : Chain n := places.foldl unlink c

def Removals.places (removals : Removals n) : List (Fin n) := removals.map Prod.fst

@[simp] theorem places_append (before after : Removals n) :
    Removals.places (before ++ after) = before.places ++ after.places :=
  List.map_append

/-- The chain `c` is left of `start` after the reported removals, and `at?` is visited next. -/
structure ComesFrom (start c : Chain n) (at? : Option (Fin n)) (removals : Removals n) : Prop where
  without_eq : start.without removals.places = c
  /-- Every chain on the way lists its places. -/
  lists_take : ∀ k, ∃ live, (start.without (removals.places.take k)).Lists live
  nodup : removals.places.Nodup
  gone : ∀ i ∈ removals.places, c.isRemoved i = true
  stays : ∀ i, at? = some i → c.isRemoved i = false

theorem without_concat (c : Chain n) (places : List (Fin n)) (i : Fin n) :
    c.without (places ++ [i]) = (c.without places).unlink i :=
  List.foldl_concat unlink c i places

theorem anchors_without (c : Chain n) (places : List (Fin n)) :
    (c.without places).hasSource = c.hasSource ∧ (c.without places).hasTarget = c.hasTarget := by
  induction places generalizing c with
  | nil => exact ⟨rfl, rfl⟩
  | cons i places ih => exact ih (c.unlink i)

theorem isRemoved_unlink_of_ne {c : Chain n} {i j : Fin n} (h : i ≠ j) :
    (c.unlink i).isRemoved j = c.isRemoved j := by
  simp [isRemoved_unlink, h]

theorem Lists.isRemoved_next {c : Chain n} {live : List (Fin n)} {i j : Fin n} (h : c.Lists live)
    (hi : c.isRemoved i = false) (hn : c.next? i = some j) : c.isRemoved j = false :=
  ((h.next?_iff_isLeast ((h.mem_iff i).2 hi)).1 hn).1.1

/-- Where places are left there are places. -/
theorem Lists.pos_of_alive_pos {c : Chain n} {live : List (Fin n)} (h : c.Lists live)
    (left : 0 < c.alive) : 0 < n := by
  rw [h.alive_eq] at left
  exact live[0].pos

namespace ComesFrom

section
variable {start c : Chain n} {at? : Option (Fin n)} {removals : Removals n}

theorem refl {live : List (Fin n)} (h : start.Lists live) : ComesFrom start start none [] where
  without_eq := rfl
  lists_take k := ⟨live, by simpa [Removals.places, without] using h⟩
  nodup := List.nodup_nil
  gone i hi := absurd hi List.not_mem_nil
  stays i hi := by cases hi

theorem lists (h : ComesFrom start c at? removals) : ∃ live, c.Lists live := by
  have all := h.lists_take removals.places.length
  rwa [List.take_length, h.without_eq] at all

/-- Any place that is still there may be visited next. -/
theorem move {next? : Option (Fin n)} (h : ComesFrom start c at? removals)
    (stays : ∀ i, next? = some i → c.isRemoved i = false) : ComesFrom start c next? removals :=
  { h with stays }

theorem move_first (h : ComesFrom start c at? removals) :
    ComesFrom start c (first? n) removals := by
  obtain ⟨live, lists⟩ := h.lists
  apply h.move
  intro i hi
  rw [lists.first?_eq] at hi
  exact (lists.mem_iff i).1 (List.mem_of_mem_head? hi)

theorem move_next {i : Fin n} (h : ComesFrom start c (some i) removals) :
    ComesFrom start c (c.next? i) removals := by
  obtain ⟨live, lists⟩ := h.lists
  exact h.move fun j hn => lists.isRemoved_next (h.stays i rfl) hn

theorem fresh {i : Fin n} (h : ComesFrom start c (some i) removals) : i ∉ removals.places := by
  intro reported
  have gone := h.gone i reported
  rw [h.stays i rfl] at gone
  cases gone

/-- Taking out the visited place from between its neighbours. -/
theorem unlink {a i b : Fin n} (h : ComesFrom start c (some i) removals) (hp : c.prev? i = some a)
    (hn : c.next? i = some b) (found : Float) :
    ComesFrom start (c.unlink i) (some b) (removals ++ [(i, found)]) := by
  obtain ⟨live, lists⟩ := h.lists
  have left := h.stays i rfl
  have longer : Removals.places (removals ++ [(i, found)]) = removals.places ++ [i] :=
    places_append _ _
  have result : start.without (removals.places ++ [i]) = c.unlink i := by
    rw [without_concat, h.without_eq]
  constructor
  · rw [longer, result]
  · intro k
    rw [longer]
    -- All chains but the last one are those that there were before.
    by_cases before : k ≤ removals.places.length
    · rw [List.take_append_of_le_length before]
      exact h.lists_take k
    · obtain ⟨front, behind, rfl⟩ := lists.exists_between ((lists.mem_iff i).2 left) hp hn
      rw [List.take_of_length_le (by simp; omega), result]
      exact ⟨_, lists.unlink⟩
  · rw [longer, ← List.concat_eq_append]
    exact h.nodup.concat h.fresh
  · intro j hj
    rw [longer, List.mem_append, List.mem_singleton] at hj
    rw [isRemoved_unlink, Bool.or_eq_true, decide_eq_true_iff]
    exact hj.symm.imp Eq.symm (h.gone j)
  · intro j hj
    cases hj
    rw [isRemoved_unlink_of_ne (Fin.ne_of_lt (c.next_gt i b hn))]
    exact lists.isRemoved_next left hn

section
variable (angle : Fin n → Fin n → Fin n → Float) (threshold : Float)

/-- One visit leaves the chain without what it reports, and the next place is still there. -/
theorem visit {i : Fin n} (h : ComesFrom start c (some i) removals) :
    ComesFrom start (c.visit angle threshold i).1 (c.next? i)
      (removals ++ (c.visit angle threshold i).2) := by
  cases hp : c.prev? i with
  | none =>
    rw [visit_first _ _ hp, List.append_nil]
    exact h.move_next
  | some a =>
    cases hn : c.next? i with
    | none =>
      rw [visit_last _ _ hn, List.append_nil]
      exact hn ▸ h.move_next
    | some b =>
      rw [visit_between _ _ hp hn]
      split
      · exact h.unlink hp hn _
      · rw [List.append_nil]
        exact hn ▸ h.move_next

end

end

end ComesFrom

section
variable {angle : Fin n → Fin n → Fin n → Float} {threshold : Float}

theorem Walk.comesFrom {start c d : Chain n} {at? : Option (Fin n)} {removals later : Removals n}
    (walk : Walk angle threshold c at? d later) (h : ComesFrom start c at? removals) :
    ComesFrom start d none (removals ++ later) := by
  induction walk generalizing removals with
  | arrived =>
    rw [List.append_nil]
    exact h
  | pass stays _ ih =>
    have visited := h.visit angle threshold
    rw [stays, List.append_nil] at visited
    exact ih visited
  | takeOut goes _ _ ih =>
    have visited := h.visit angle threshold
    rw [goes] at visited
    rw [List.append_cons]
    exact ih visited

theorem Run.comesFrom {start c d : Chain n} {removals : Removals n} {later : List (Removals n)}
    (run : Run angle threshold c d later) (h : ComesFrom start c none removals) :
    ComesFrom start d none (removals ++ later.flatten) := by
  induction run generalizing removals with
  | short =>
    rw [List.flatten_nil, List.append_nil]
    exact h
  | quiet _ walk => exact walk.comesFrom h.move_first
  | again _ walk _ _ ih =>
    rw [List.flatten_cons, ← List.append_assoc]
    exact ih (walk.comesFrom h.move_first)

/-- What thinning leaves comes about by what it reports. -/
theorem Lists.comesFrom_thin {c : Chain n} {live : List (Fin n)} (h : c.Lists live) :
    ComesFrom c (c.thin angle threshold).1 none (c.thin angle threshold).2.flatten :=
  h.run_thin.comesFrom (.refl h)

end

end

end RouteGeometry.Chain
