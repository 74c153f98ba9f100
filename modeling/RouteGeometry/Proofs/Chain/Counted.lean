import RouteGeometry.Coordinate
import RouteGeometry.Proofs.Chain.Termination

/-! # Thinning with a check on every count

Thinning counts down the places that are left and, for a target, the number of all places. Here
each of these steps may fault, and so may the calculation of an angle. Nothing else of it can
overflow, as no count grows beyond the number of places. -/

namespace RouteGeometry.Chain

/-- The number before `k`, if there is one. -/
def countDown (k : Nat) : Checked Nat :=
  if 0 < k then .ok (k - 1) else .error (.overflow .subtraction)

theorem countDown_of_pos {k : Nat} (positive : 0 < k) : countDown k = .ok (k - 1) :=
  if_pos positive

theorem eq_add_one_of_countDown {k l : Nat} (h : countDown k = .ok l) : k = l + 1 := by
  unfold countDown at h
  split at h
  · cases h
    omega
  · cases h

section
variable {n : Nat}

def checkedUnlink (c : Chain n) (i : Fin n) : Checked (Chain n) := do
  let alive ← countDown c.alive
  return { c.unlink i with alive }

def checkedSurvivors (c : Chain n) : Checked (List Bool) := do
  let last ← if c.hasTarget then countDown n else .ok n
  return ((c.removed.toList.take last).drop (if c.hasSource then 1 else 0)).map (!·)

theorem checkedUnlink_of_pos {c : Chain n} (positive : 0 < c.alive) (i : Fin n) :
    c.checkedUnlink i = .ok (c.unlink i) := by
  rw [checkedUnlink, countDown_of_pos positive]
  rfl

theorem checkedSurvivors_of_pos (c : Chain n) (positive : 0 < n) :
    c.checkedSurvivors = .ok c.survivors := by
  unfold checkedSurvivors survivors
  cases c.hasTarget with
  | true => simp only [if_true, countDown_of_pos positive]; rfl
  | false => rfl

section
variable (angle : Fin n → Fin n → Fin n → Checked Float) (threshold : Float)

def checkedVisit (c : Chain n) (i : Fin n) : Checked (Chain n × Removals n) :=
  match c.prev? i, c.next? i with
  | some prev, some next =>
    if c.isAnchor i then .ok (c, [])
    else do
      let found ← angle prev i next
      if threshold ≤ found then
        let rest ← c.checkedUnlink i
        return (rest, [(i, found)])
      else return (c, [])
  | _, _ => .ok (c, [])

def checkedSweepFrom (c : Chain n) (i : Fin n) : Checked (Chain n × Removals n) := do
  let visited ← c.checkedVisit angle threshold i
  match _h : c.next? i with
  | none => return visited
  | some next =>
    let rest ← checkedSweepFrom visited.1 next
    return (rest.1, visited.2 ++ rest.2)
termination_by n - i.val
decreasing_by
  have := c.next_gt i next _h
  omega

def checkedSweep (c : Chain n) : Checked (Chain n × Removals n) :=
  (first? n).elim (.ok (c, [])) (c.checkedSweepFrom angle threshold)

/-! ## What is counted -/

section
variable {angle threshold}

theorem bind_eq_ok {α β : Type} {x : Checked α} {f : α → Checked β} {b : β}
    (h : x.bind f = .ok b) : ∃ a, x = .ok a ∧ f a = .ok b := by
  cases x with
  | error fault => cases h
  | ok a => exact ⟨a, rfl, h⟩

theorem alive_checkedVisit {c : Chain n} {i : Fin n} {r : Chain n × Removals n}
    (h : c.checkedVisit angle threshold i = .ok r) : r.1.alive + r.2.length = c.alive := by
  unfold checkedVisit at h
  split at h
  · split at h
    · cases h
      rfl
    · obtain ⟨found, -, h⟩ := bind_eq_ok h
      split at h
      · obtain ⟨rest, taken, h⟩ := bind_eq_ok h
        obtain ⟨alive, counted, taken⟩ := bind_eq_ok taken
        cases h
        cases taken
        exact (eq_add_one_of_countDown counted).symm
      · cases h
        rfl
  · cases h
    rfl

theorem alive_checkedSweepFrom {c : Chain n} {i : Fin n} {r : Chain n × Removals n}
    (h : c.checkedSweepFrom angle threshold i = .ok r) : r.1.alive + r.2.length = c.alive := by
  induction hk : n - i.val using Nat.strong_induction_on generalizing c i r with
  | _ k ih =>
    rw [checkedSweepFrom] at h
    obtain ⟨visited, hv, h⟩ := bind_eq_ok h
    have counted := alive_checkedVisit hv
    split at h
    · cases h
      exact counted
    · rename_i next hn
      obtain ⟨rest, hr, h⟩ := bind_eq_ok h
      cases h
      have := c.next_gt i next hn
      have later := ih _ (by omega) hr rfl
      change rest.1.alive + (visited.2 ++ rest.2).length = c.alive
      rw [List.length_append]
      omega

theorem alive_checkedSweep {c : Chain n} {r : Chain n × Removals n}
    (h : c.checkedSweep angle threshold = .ok r) : r.1.alive + r.2.length = c.alive := by
  unfold checkedSweep at h
  cases hf : first? n with
  | none =>
    rw [hf] at h
    cases h
    rfl
  | some i =>
    rw [hf] at h
    exact alive_checkedSweepFrom h

end

def checkedThin (c : Chain n) : Checked (Chain n × List (Removals n)) :=
  if 3 ≤ c.alive then
    match _h : c.checkedSweep angle threshold with
    | .error fault => .error fault
    | .ok swept =>
      if _hs : swept.2 = [] then .ok (swept.1, [[]])
      else do
        let rest ← checkedThin swept.1
        return (rest.1, swept.2 :: rest.2)
  else .ok (c, [])
termination_by c.alive
decreasing_by
  have counted := alive_checkedSweep _h
  have some : 0 < swept.2.length := List.length_pos_iff.2 _hs
  omega

end

/-! ## Runs have no fault -/

section
variable {angle : Fin n → Fin n → Fin n → Float} {threshold : Float}

variable (angle threshold) in
theorem checkedVisit_eq {c : Chain n} {i : Fin n}
    (counted : (c.visit angle threshold i).2 = [] ∨ 0 < c.alive) :
    c.checkedVisit (fun a i b => .ok (angle a i b)) threshold i =
      .ok (c.visit angle threshold i) := by
  unfold checkedVisit
  cases hp : c.prev? i with
  | none => rw [visit_first _ _ hp]
  | some a =>
    cases hn : c.next? i with
    | none => rw [visit_last _ _ hn]
    | some b =>
      rw [visit_between _ _ hp hn] at counted ⊢
      simp only [isAnchor_eq_false_of_between hp hn, Bool.false_eq_true, if_false]
      change (if threshold ≤ angle a i b then _ else _) = _
      by_cases goes : threshold ≤ angle a i b
      · rw [if_pos goes] at counted ⊢
        rw [if_pos goes, checkedUnlink_of_pos (counted.resolve_left (List.cons_ne_nil _ _))]
        rfl
      · rw [if_neg goes, if_neg goes]
        rfl

theorem checkedSweepFrom_of_visit {angle : Fin n → Fin n → Fin n → Checked Float} {c : Chain n}
    {i : Fin n} {visited : Chain n × Removals n}
    (h : c.checkedVisit angle threshold i = .ok visited) :
    c.checkedSweepFrom angle threshold i =
      ((c.next? i).elim (.ok (visited.1, [])) (visited.1.checkedSweepFrom angle threshold)).map
        fun rest => (rest.1, visited.2 ++ rest.2) := by
  rw [checkedSweepFrom, h]
  change (match _h : c.next? i with | none => _ | some next => _) = _
  split
  · rename_i hn
    rw [hn]
    change Except.ok visited = .ok (visited.1, visited.2 ++ [])
    rw [List.append_nil]
  · rename_i next hn
    rw [hn, Option.elim_some]
    cases visited.1.checkedSweepFrom angle threshold next <;> rfl

/-- A walk is a checked sweep without a fault. -/
theorem Walk.checkedSweepFrom_eq {c d : Chain n} {at? : Option (Fin n)} {removals : Removals n}
    (h : Walk angle threshold c at? d removals) :
    at?.elim (.ok (c, [])) (c.checkedSweepFrom (fun a i b => .ok (angle a i b)) threshold) =
      .ok (d, removals) := by
  induction h with
  | arrived => rfl
  | @pass c d i removals stays _ ih =>
    have visited := checkedVisit_eq angle threshold (.inl (congrArg Prod.snd stays))
    rw [stays] at visited
    rw [Option.elim_some, checkedSweepFrom_of_visit visited, ih]
    rfl
  | @takeOut c d i found removals goes counted _ ih =>
    have visited := checkedVisit_eq angle threshold (i := i) (.inr counted)
    rw [goes] at visited
    rw [Option.elim_some, checkedSweepFrom_of_visit visited, ih]
    rfl

theorem Run.checkedThin_eq {c d : Chain n} {removals : List (Removals n)}
    (h : Run angle threshold c d removals) :
    c.checkedThin (fun a i b => .ok (angle a i b)) threshold = .ok (d, removals) := by
  induction h with
  | short few => rw [checkedThin, if_neg (Nat.not_le_of_lt few)]
  | quiet many walk =>
    rw [checkedThin, if_pos many]
    split
    · rename_i swept
      rw [checkedSweep, walk.checkedSweepFrom_eq] at swept
      cases swept
    · rename_i swept
      rw [checkedSweep, walk.checkedSweepFrom_eq] at swept
      cases swept
      rfl
  | again many walk busy _ ih =>
    rw [checkedThin, if_pos many]
    split
    · rename_i swept
      rw [checkedSweep, walk.checkedSweepFrom_eq] at swept
      cases swept
    · rename_i swept
      rw [checkedSweep, walk.checkedSweepFrom_eq] at swept
      cases swept
      rw [dif_neg busy, ih]
      rfl

/-- Thinning all places has no fault, unless an angle has. -/
theorem checkedThin_full (hasSource hasTarget : Bool) :
    (full n hasSource hasTarget).checkedThin (fun a i b => .ok (angle a i b)) threshold =
      .ok ((full n hasSource hasTarget).thin angle threshold) :=
  (lists_full n hasSource hasTarget).run_thin.checkedThin_eq

end

end

end RouteGeometry.Chain
