import RouteGeometry.Proofs.Chain.Refinement
import RouteGeometry.Proofs.Thinning.Sweeps

/-! # Thinning a chain ends

The runs of the two loops, said without a measure that decreases: a walk goes from place to place
along the links that it finds, and walks are repeated. Counting down the places that are left is
part of it, so a run that takes out a place when none is left is stuck. -/

namespace RouteGeometry.Chain

section
variable {n : Nat}

variable (n) in
/-- The place at which every sweep starts. -/
def first? : Option (Fin n) := if h : 0 < n then some ⟨0, h⟩ else none

section
variable (angle : Fin n → Fin n → Fin n → Float) (threshold : Float)

/-- A finite walk along the links from a place on, with what it takes out. -/
inductive Walk : Chain n → Option (Fin n) → Chain n → Removals n → Prop
  | arrived (c : Chain n) : Walk c none c []
  | pass {c d : Chain n} {i : Fin n} {removals : Removals n}
      (stays : c.visit angle threshold i = (c, [])) (rest : Walk c (c.next? i) d removals) :
      Walk c (some i) d removals
  | takeOut {c d : Chain n} {i : Fin n} {found : Float} {removals : Removals n}
      (goes : c.visit angle threshold i = (c.unlink i, [(i, found)])) (counted : 0 < c.alive)
      (rest : Walk (c.unlink i) (c.next? i) d removals) : Walk c (some i) d ((i, found) :: removals)

/-- A finite run of thinning, with what each of its sweeps takes out. -/
inductive Run : Chain n → Chain n → List (Removals n) → Prop
  | short {c : Chain n} (few : c.alive < 3) : Run c c []
  | quiet {c d : Chain n} (many : 3 ≤ c.alive) (walk : Walk angle threshold c (first? n) d []) :
      Run c d [[]]
  | again {c d e : Chain n} {removals : Removals n} {later : List (Removals n)}
      (many : 3 ≤ c.alive) (walk : Walk angle threshold c (first? n) d removals)
      (busy : removals ≠ []) (rest : Run d e later) : Run c e (removals :: later)

end

section
variable {angle : Fin n → Fin n → Fin n → Float} {threshold : Float}

/-! ## At most one run -/

theorem sweepFrom_eq (c : Chain n) (i : Fin n) :
    c.sweepFrom angle threshold i =
      let visited := c.visit angle threshold i
      let rest := (c.next? i).elim (visited.1, []) (visited.1.sweepFrom angle threshold)
      (rest.1, visited.2 ++ rest.2) := by
  cases hn : c.next? i with
  | none =>
    rw [sweepFrom_of_next?_eq_none _ _ hn]
    simp
  | some j => rw [sweepFrom_of_next?_eq_some _ _ hn]; rfl

/-- A walk does what a sweep from its first place on does. -/
theorem Walk.eq_sweepFrom {c d : Chain n} {at? : Option (Fin n)} {removals : Removals n}
    (h : Walk angle threshold c at? d removals) :
    at?.elim (c, []) (c.sweepFrom angle threshold) = (d, removals) := by
  induction h with
  | arrived => rfl
  | pass stays _ ih =>
    simp only [Option.elim_some, sweepFrom_eq, stays, ih, List.nil_append]
  | takeOut goes _ _ ih =>
    simp only [Option.elim_some, sweepFrom_eq, goes, ih, List.singleton_append]

theorem sweep_eq (c : Chain n) :
    c.sweep angle threshold = (first? n).elim (c, []) (c.sweepFrom angle threshold) := by
  unfold sweep first?
  split <;> rfl

theorem Run.eq_thin {c d : Chain n} {removals : List (Removals n)}
    (h : Run angle threshold c d removals) : c.thin angle threshold = (d, removals) := by
  induction h with
  | short few => rw [thin, dif_neg (Nat.not_le_of_lt few)]
  | quiet many walk =>
    have swept := walk.eq_sweepFrom
    rw [← sweep_eq] at swept
    rw [thin]
    simp only [many, swept, dite_true]
  | again many walk busy _ ih =>
    have swept := walk.eq_sweepFrom
    rw [← sweep_eq] at swept
    rw [thin]
    simp only [many, swept, busy, ih, dite_true, dite_false]

/-! ## The run of a chain that lists its places -/

theorem Lists.alive_pos {c : Chain n} {live : List (Fin n)} (h : c.Lists live) {i : Fin n}
    (hi : i ∈ live) : 0 < c.alive :=
  h.alive_eq ▸ List.length_pos_of_mem hi

/-- Along the list a walk comes to an end, and each place it takes out was counted. -/
theorem Lists.walk_sweepFrom {c : Chain n} {before rest : List (Fin n)} {left i : Fin n}
    (h : c.Lists (before ++ left :: i :: rest)) :
    Walk angle threshold c (some i) (c.sweepFrom angle threshold i).1
      (c.sweepFrom angle threshold i).2 := by
  induction rest generalizing c before left i with
  | nil =>
    have hn : c.next? i = none := h.linked.neighbours.2
    have stays := visit_last angle threshold hn
    rw [sweepFrom_of_next?_eq_none _ _ hn, stays]
    exact .pass stays (hn ▸ .arrived c)
  | cons j rest ih =>
    obtain ⟨hp, hn⟩ := h.linked.neighbours
    rw [List.head?_cons] at hn
    have visited := visit_between angle threshold hp hn
    rw [sweepFrom_of_next?_eq_some _ _ hn]
    split at visited
    · have later := ih h.unlink
      rw [← hn] at later
      simp only [visited]
      exact .takeOut visited (h.alive_pos (i := i) (by simp)) later
    · have shifted : before ++ left :: i :: j :: rest = (before ++ [left]) ++ i :: j :: rest := by
        simp
      rw [shifted] at h
      have later := ih h
      rw [← hn] at later
      simp only [visited]
      exact .pass visited later

theorem Lists.first?_eq {c : Chain n} {live : List (Fin n)} (h : c.Lists live) :
    first? n = live.head? := by
  cases live with
  | nil =>
    have empty : ¬ 0 < n := fun hn => List.not_mem_nil (h.ends_mem ⟨0, hn⟩ (.inl rfl))
    exact dif_neg empty
  | cons i rest =>
    rw [first?, dif_pos i.pos]
    exact congrArg some (Fin.ext h.head_val_eq_zero.symm)

theorem Lists.walk_sweep {c : Chain n} {live : List (Fin n)} (h : c.Lists live) :
    Walk angle threshold c (first? n) (c.sweep angle threshold).1 (c.sweep angle threshold).2 := by
  rw [sweep_eq, h.first?_eq]
  cases live with
  | nil => exact .arrived c
  | cons i rest =>
    obtain ⟨hp, hn, -⟩ := h.linked
    have stays := visit_first angle threshold hp
    rw [List.head?_cons, Option.elim_some]
    cases rest with
    | nil =>
      rw [sweepFrom_of_next?_eq_none _ _ hn, stays]
      exact .pass stays (hn ▸ .arrived c)
    | cons j rest =>
      rw [List.head?_cons] at hn
      have h : c.Lists ([] ++ i :: j :: rest) := h
      have later : Walk angle threshold c (some j) _ _ := h.walk_sweepFrom
      rw [← hn] at later
      rw [sweepFrom_of_next?_eq_some _ _ hn, stays]
      exact .pass stays later

/-- From a chain that lists its places thinning comes to an end. -/
theorem Lists.run_thin {c : Chain n} {live : List (Fin n)} (h : c.Lists live) :
    Run angle threshold c (c.thin angle threshold).1 (c.thin angle threshold).2 := by
  fun_induction thin angle threshold c generalizing live with
  | case1 c many swept =>
    rename_i quiet
    have walk : Walk angle threshold c (first? n) swept.1 swept.2 := h.walk_sweep
    rw [quiet] at walk
    exact .quiet many walk
  | case2 c many swept busy rest =>
    rename_i ih
    exact .again many h.walk_sweep busy (ih (sweep_lists angle threshold h).1)
  | case3 c few => exact .short (Nat.lt_of_not_le few)

end

/-! ## How long a run is -/

/-- Where every place waits for the one behind it, there are as many sweeps as there can be. -/
theorem exists_length_thin_full (n : Nat) (hasSource hasTarget : Bool) :
    ∃ worst, ((full n hasSource hasTarget).thin worst pi).2.length = n - 2 := by
  cases n with
  | zero =>
    refine ⟨fun _ _ _ => pi, ?_⟩
    rw [(thin_lists _ _ (lists_full 0 hasSource hasTarget)).2, List.finRange_zero,
      Thinning.thin_of_length_lt_three _ _ (by simp)]
    rfl
  | succ m =>
    have others : Fin.last m ∉ (List.finRange m).map Fin.castSucc := by
      simp [Fin.castSucc_ne_last]
    refine ⟨Thinning.lastStraight (Fin.last m), ?_⟩
    rw [(thin_lists _ _ (lists_full (m + 1) hasSource hasTarget)).2, List.finRange_succ_last,
      Thinning.length_thin_last _ others]
    simp

section
variable {c : Chain n} {live : List (Fin n)} (h : c.Lists live)
  (angle : Fin n → Fin n → Fin n → Float) (threshold : Float)

include h

/-- There is exactly one run from a chain that lists its places. -/
theorem Lists.run_iff {d : Chain n} {removals : List (Removals n)} :
    Run angle threshold c d removals ↔ c.thin angle threshold = (d, removals) := by
  constructor
  · exact Run.eq_thin
  · intro same
    have run : Run angle threshold c (c.thin angle threshold).1 (c.thin angle threshold).2 :=
      h.run_thin
    rwa [same] at run

theorem Lists.alive_thin_add :
    (c.thin angle threshold).1.alive + (c.thin angle threshold).2.flatten.length = live.length := by
  obtain ⟨lists, removals⟩ := thin_lists angle threshold h
  rw [lists.alive_eq, removals]
  exact Thinning.length_thin_add_length_dropped angle threshold live

theorem Lists.min_le_alive_thin : min live.length 2 ≤ (c.thin angle threshold).1.alive := by
  obtain ⟨lists, -⟩ := thin_lists angle threshold h
  rw [lists.alive_eq]
  by_cases two : 2 ≤ live.length
  · exact (Nat.min_le_right _ 2).trans (Thinning.two_le_length_thin angle threshold two)
  · -- One place or none has no sweep that could take it out.
    rw [Thinning.thin_of_length_lt_three angle threshold (by omega)]
    exact Nat.min_le_left _ 2

end

/-- **Thinning ends after few sweeps.** From the chain of all places there is exactly one run, it
is finite, and no place is counted down that was not counted. There is no sweep for less than three
places, and otherwise at least one and at most as many as places less two, a number that some
angles reach. Only the last sweep may take out nothing, so there is at most one more than places
taken out. The others are left, and two always are. -/
theorem thin_ends (hasSource hasTarget : Bool) (angle : Fin n → Fin n → Fin n → Float)
    (threshold : Float) :
    (∀ d removals, Run angle threshold (full n hasSource hasTarget) d removals ↔
      (full n hasSource hasTarget).thin angle threshold = (d, removals)) ∧
      let ended := (full n hasSource hasTarget).thin angle threshold
      let sweeps := ended.2.length
      let removed := ended.2.flatten.length
      (if n < 3 then sweeps = 0 else 1 ≤ sweeps ∧ sweeps ≤ n - 2) ∧
        [] ∉ ended.2.dropLast ∧ sweeps ≤ removed + 1 ∧
        ended.1.alive + removed = n ∧ min n 2 ≤ ended.1.alive ∧
        ∃ worst, ((full n hasSource hasTarget).thin worst pi).2.length = n - 2 := by
  have full := lists_full n hasSource hasTarget
  refine ⟨fun _ _ => full.run_iff angle threshold, ?_⟩
  intro ended sweeps removed
  have places : (List.finRange n).length = n := List.length_finRange
  have removals : ended.2 = (Thinning.thin angle threshold (List.finRange n)).2 :=
    (thin_lists angle threshold full).2
  have count : ended.1.alive + removed = n := (full.alive_thin_add angle threshold).trans places
  have stay : min (List.finRange n).length 2 ≤ ended.1.alive :=
    full.min_le_alive_thin angle threshold
  rw [places] at stay
  have most := Thinning.length_thin_le angle threshold (List.finRange n)
  rw [← removals, places] at most
  have more := Thinning.length_thin_le_dropped angle threshold (List.finRange n)
  rw [← removals] at more
  have busy := Thinning.nil_notMem_dropLast_thin angle threshold (List.finRange n)
  rw [← removals] at busy
  refine ⟨?_, busy, more, count, stay, exists_length_thin_full n hasSource hasTarget⟩
  split
  · rename_i few
    change sweeps ≤ n - 2 at most
    omega
  · rename_i many
    have one := Thinning.length_thin_pos angle threshold (places.symm ▸ Nat.le_of_not_lt many)
    rw [← removals] at one
    exact ⟨one, most⟩

end

end RouteGeometry.Chain
