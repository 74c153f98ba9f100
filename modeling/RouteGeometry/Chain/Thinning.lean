import RouteGeometry.Chain

/-! # Thinning a chain

Places are taken out by their angle, which depends on both neighbours that a place has at that
moment. Sweeps go from the first to the last place and are repeated; each reports what it took out,
with the angles found then. -/

namespace RouteGeometry.Chain

section
variable {n : Nat}

abbrev Removals (n : Nat) := List (Fin n × Float)

variable (angle : Fin n → Fin n → Fin n → Float) (threshold : Float)

/-- Take `i` out of the chain if its angle is at least the threshold. -/
def visit (c : Chain n) (i : Fin n) : Chain n × Removals n :=
  match c.prev? i, c.next? i with
  | some prev, some next =>
    if c.isAnchor i then (c, [])
    else
      let found := angle prev i next
      if threshold ≤ found then (c.unlink i, [(i, found)]) else (c, [])
  | _, _ => (c, [])

/-- Visit `i` and the places after it. The way on is settled before the visit. -/
def sweepFrom (c : Chain n) (i : Fin n) : Chain n × Removals n :=
  let visited := c.visit angle threshold i
  match _h : c.next? i with
  | none => visited
  | some next =>
    let rest := sweepFrom visited.1 next
    (rest.1, visited.2 ++ rest.2)
termination_by n - i.val
decreasing_by
  have := c.next_gt i next _h
  omega

def sweep (c : Chain n) : Chain n × Removals n :=
  if h : 0 < n then c.sweepFrom angle threshold ⟨0, h⟩ else (c, [])

theorem alive_visit (c : Chain n) (i : Fin n) :
    (c.visit angle threshold i).1.alive = c.alive - (c.visit angle threshold i).2.length := by
  unfold visit
  split
  · split
    · simp
    · dsimp only
      split <;> simp [unlink]
  · simp

theorem alive_sweepFrom (c : Chain n) (i : Fin n) :
    (c.sweepFrom angle threshold i).1.alive =
      c.alive - (c.sweepFrom angle threshold i).2.length := by
  fun_induction sweepFrom angle threshold c i with
  | case1 c i visited _ => exact alive_visit angle threshold c i
  | case2 c i visited next _ rest ih =>
    have hv : visited.1.alive = c.alive - visited.2.length := alive_visit angle threshold c i
    have hr : rest.1.alive = visited.1.alive - rest.2.length := ih
    change rest.1.alive = c.alive - (visited.2 ++ rest.2).length
    rw [List.length_append]
    omega

theorem alive_sweep (c : Chain n) :
    (c.sweep angle threshold).1.alive = c.alive - (c.sweep angle threshold).2.length := by
  unfold sweep
  split
  · exact alive_sweepFrom angle threshold c _
  · simp

/-- Sweep until nothing is taken out or fewer than three places are left. The
second component has one entry for each sweep. -/
def thin (c : Chain n) : Chain n × List (Removals n) :=
  if _h : 3 ≤ c.alive then
    let swept := c.sweep angle threshold
    if _hs : swept.2 = [] then (swept.1, [[]])
    else
      let rest := thin swept.1
      (rest.1, swept.2 :: rest.2)
  else (c, [])
termination_by c.alive
decreasing_by
  have left := alive_sweep angle threshold c
  have some : 0 < (c.sweep angle threshold).2.length := List.length_pos_iff.2 _hs
  omega

end

end RouteGeometry.Chain
