import RouteGeometry.Proofs.Bend
import RouteGeometry.Proofs.Thinning.Account
import RouteGeometry.Proofs.Thinning.Fixpoint

/-! # How many sweeps thinning takes

Every sweep but the last one drops something, and two elements stay in any case. So there are at
most two sweeps less than elements, and a list where each element waits for the one behind it takes
that many. -/

namespace RouteGeometry.Thinning

section
variable {ι : Type} {angle : ι → ι → ι → Float} {threshold : Float}

/-! ## The number of elements -/

theorem Drop.length_eq {l m : List ι} (h : Drop angle threshold l m) :
    l.length = m.length + 1 := by
  cases h with
  | between before after ht => simp only [List.length_append, List.length_cons, Nat.add_assoc]

theorem two_le_length_of_drops {l m : List ι}
    (run : Relation.ReflTransGen (Drop angle threshold) l m) (h : 2 ≤ l.length) :
    2 ≤ m.length := by
  induction run with
  | refl => exact h
  | tail _ drop _ =>
    have long := drop.three_le_length
    have shorter := drop.length_eq
    omega

variable (angle threshold)

theorem two_le_length_thin {l : List ι} (h : 2 ≤ l.length) :
    2 ≤ (thin angle threshold l).1.length :=
  two_le_length_of_drops (thin_drops angle threshold l) h

/-- What is dropped makes the list as much shorter. -/
theorem length_thin_add_length_dropped (l : List ι) :
    (thin angle threshold l).1.length + (thin angle threshold l).2.flatten.length = l.length := by
  have lengths := (thin_perm angle threshold l).length_eq
  rwa [List.length_append, List.length_map] at lengths

/-! ## The number of sweeps -/

theorem thin_of_length_lt_three {l : List ι} (h : l.length < 3) :
    thin angle threshold l = (l, []) := by
  rw [thin, if_neg (Nat.not_le_of_lt h)]

theorem length_thin_pos {l : List ι} (h : 3 ≤ l.length) :
    1 ≤ (thin angle threshold l).2.length := by
  rw [thin, if_pos h]
  dsimp only
  split <;> simp

/-- A sweep that goes on to another one has made the list shorter. -/
theorem length_sweep_lt {l : List ι} (busy : (sweep angle threshold l).2 ≠ []) :
    (sweep angle threshold l).1.length < l.length := by
  have lengths := length_sweep angle threshold l
  have dropped := List.length_pos_iff.2 busy
  omega

theorem length_thin_le (l : List ι) : (thin angle threshold l).2.length ≤ l.length - 2 := by
  fun_induction thin angle threshold l with
  | case1 l long =>
    simp only [List.length_cons, List.length_nil]
    omega
  | case2 l long swept busy rest ih =>
    have shorter : swept.1.length < l.length := length_sweep_lt angle threshold busy
    have later : rest.2.length ≤ swept.1.length - 2 := ih
    simp only [List.length_cons]
    omega
  | case3 => exact Nat.zero_le _

theorem length_thin_le_dropped (l : List ι) :
    (thin angle threshold l).2.length ≤ (thin angle threshold l).2.flatten.length + 1 := by
  fun_induction thin angle threshold l with
  | case1 => exact Nat.le_refl _
  | case2 l long swept busy rest ih =>
    have dropped : 0 < swept.2.length := List.length_pos_iff.2 busy
    have later : rest.2.length ≤ rest.2.flatten.length + 1 := ih
    simp only [List.length_cons, List.flatten_cons, List.length_append]
    omega
  | case3 => exact Nat.zero_le _

theorem nil_notMem_dropLast_thin (l : List ι) : [] ∉ (thin angle threshold l).2.dropLast := by
  fun_induction thin angle threshold l with
  | case1 => exact List.not_mem_nil
  | case2 l long swept busy rest ih =>
    have later : [] ∉ rest.2.dropLast := ih
    change [] ∉ (swept.2 :: rest.2).dropLast
    cases hr : rest.2 with
    | nil => exact List.not_mem_nil
    | cons next others =>
      rw [hr] at later
      simp only [List.dropLast_cons_cons, List.mem_cons, not_or]
      exact ⟨Ne.symm busy, later⟩
  | case3 => exact List.not_mem_nil

end

/-! ## The greatest number of sweeps -/

section
variable {ι : Type} [DecidableEq ι] {z : ι}

/-- An angle that is straight next to the last element alone. -/
def lastStraight (z : ι) (_ _ right : ι) : Float := if right = z then pi else 0

theorem sweepAfter_last (left x : ι) (front : List ι) (h : z ∉ front ++ [x]) :
    sweepAfter (lastStraight z) pi left (front ++ [x, z]) = (front ++ [z], [(x, pi)]) := by
  induction front generalizing left with
  | nil =>
    have straight : lastStraight z left x z = pi := if_pos rfl
    rw [List.nil_append, sweepAfter, straight, if_pos pi_le_pi]
    rfl
  | cons y front ih =>
    -- The element behind `y` is not the last one.
    have kept {next : ι} {rest : List ι} (hn : front ++ [x, z] = next :: rest)
        (other : next ≠ z) : sweepAfter (lastStraight z) pi left (y :: (front ++ [x, z])) =
          (y :: (front ++ [z]), [(x, pi)]) := by
      have flat : lastStraight z left y next = 0 := if_neg other
      have later := ih y (fun hz => h (List.mem_cons_of_mem y hz))
      rw [hn] at later ⊢
      rw [sweepAfter, flat, if_neg not_pi_le_zero, later]
    cases front with
    | nil => exact kept rfl (fun same => h (by simp [same]))
    | cons w front => exact kept rfl (fun same => h (by simp [same]))

/-- Each element waits for the one behind it to be dropped, so every sweep drops only one. -/
theorem length_thin_last (l : List ι) (h : z ∉ l) :
    (thin (lastStraight z) pi (l ++ [z])).2.length = l.length - 1 := by
  induction l using List.reverseRecOn with
  | nil => rw [thin_of_length_lt_three _ _ (by simp)]; rfl
  | append_singleton front x ih =>
    cases front with
    | nil => rw [thin_of_length_lt_three _ _ (by simp)]; rfl
    | cons w front =>
      have rest : z ∉ front ++ [x] := fun hz => h (List.mem_cons_of_mem w hz)
      have swept : sweep (lastStraight z) pi (w :: front ++ [x] ++ [z]) =
          (w :: front ++ [z], [(x, pi)]) := by
        rw [List.append_assoc]
        exact congrArg (fun s => (w :: s.1, s.2)) (sweepAfter_last w x front rest)
      have earlier := ih (fun hz => h (List.mem_append_left [x] hz))
      rw [thin, if_pos (by simp), swept]
      dsimp only
      rw [dif_neg (List.cons_ne_nil _ _), List.length_cons, earlier]
      simp

end

/-! ## One sweep -/

section
variable {ι : Type} {angle : ι → ι → ι → Float} {threshold : Float} {P : ι → Prop}

variable (angle threshold P) in
/-- Dropping an element makes the one before it no easier to drop. -/
def Stable : Prop :=
  ∀ a x y z, P a → P x → P y → P z → threshold ≤ angle x y z → threshold ≤ angle a x z →
    threshold ≤ angle a x y

/-- An element that stays next to the first one of a list stays next to the first one that a sweep
leaves of it. -/
theorem Stable.exists_sweepAfter (stable : Stable angle threshold P) {a left next : ι}
    {rest : List ι} (ha : P a) (hl : P left) (hr : ∀ x ∈ next :: rest, P x)
    (stays : ¬ threshold ≤ angle a left next) :
    ∃ next' rest', (sweepAfter angle threshold left (next :: rest)).1 = next' :: rest' ∧
      ¬ threshold ≤ angle a left next' := by
  induction rest generalizing next with
  | nil => exact ⟨next, [], rfl, stays⟩
  | cons y rest ih =>
    by_cases ht : threshold ≤ angle left next y
    · have hy : ∀ x ∈ y :: rest, P x := fun x hx => hr x (List.mem_cons_of_mem next hx)
      obtain ⟨next', rest', swept, stays'⟩ := ih hy fun later =>
        stays (stable a left next y ha hl (hr next List.mem_cons_self) (hy y List.mem_cons_self) ht
          later)
      refine ⟨next', rest', ?_, stays'⟩
      rw [sweepAfter, if_pos ht]
      exact swept
    · refine ⟨next, (sweepAfter angle threshold next (y :: rest)).1, ?_, stays⟩
      rw [sweepAfter, if_neg ht]

theorem Stable.settled_sweepAfter (stable : Stable angle threshold P) {left : ι} {l : List ι}
    (hl : P left) (hr : ∀ x ∈ l, P x) :
    Settled angle threshold (left :: (sweepAfter angle threshold left l).1) := by
  fun_induction sweepAfter angle threshold left l with
  | case1 => exact settled_of_length_lt_three (by simp)
  | case2 => exact settled_of_length_lt_three (by simp)
  | case3 left x y rest found ht swept ih =>
    exact ih hl fun z hz => hr z (List.mem_cons_of_mem x hz)
  | case4 left x y rest found ht swept ih =>
    have hx : P x := hr x List.mem_cons_self
    have others : ∀ z ∈ y :: rest, P z := fun z hz => hr z (List.mem_cons_of_mem x hz)
    obtain ⟨next, rest', kept, stays⟩ := stable.exists_sweepAfter hl hx others ht
    have settled : Settled angle threshold (x :: swept.1) := ih hx others
    change swept.1 = next :: rest' at kept
    rw [kept] at settled ⊢
    exact settled_cons_iff.2 ⟨stays, settled⟩

theorem Stable.settled_sweep (stable : Stable angle threshold P) {l : List ι}
    (h : ∀ x ∈ l, P x) : Settled angle threshold (sweep angle threshold l).1 := by
  cases l with
  | nil => exact settled_of_length_lt_three (by simp [sweep])
  | cons x rest =>
    exact stable.settled_sweepAfter (h x List.mem_cons_self)
      fun y hy => h y (List.mem_cons_of_mem x hy)

/-- A settled list takes one sweep, or none if it is short. -/
theorem Settled.sweeps_eq {l : List ι} (h : Settled angle threshold l) :
    (thin angle threshold l).2 = if 3 ≤ l.length then [[]] else [] := by
  rw [thin, h.sweep_eq]
  split <;> rfl

/-- After a first sweep that leaves a settled list there is at most one more, and it drops
nothing. -/
theorem sweeps_of_settled_sweep {l : List ι}
    (h : Settled angle threshold (sweep angle threshold l).1) :
    (thin angle threshold l).2.length ≤ 2 ∧
      ∀ later ∈ (thin angle threshold l).2.tail, later = [] := by
  rw [thin]
  split
  · dsimp only
    split
    · simp
    · rw [h.sweeps_eq]
      split <;> simp
  · simp

end

end RouteGeometry.Thinning
