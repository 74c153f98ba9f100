/-! # Thinning a list

What thinning means, said of a plain list. A sweep drops at once every element that has both
neighbours and whose angle between the neighbours left at that moment is at least a threshold, and
sweeps are repeated until one drops nothing. -/

namespace RouteGeometry.Thinning

section
variable {ι : Type} (angle : ι → ι → ι → Float) (threshold : Float)

/-- Sweep the list that follows the element `left`. The kept elements, and the
dropped ones with their angles. -/
def sweepAfter (left : ι) : List ι → List ι × List (ι × Float)
  | [] => ([], [])
  | [x] => ([x], [])
  | x :: y :: rest =>
    let found := angle left x y
    if threshold ≤ found then
      let swept := sweepAfter left (y :: rest)
      (swept.1, (x, found) :: swept.2)
    else
      let swept := sweepAfter x (y :: rest)
      (x :: swept.1, swept.2)

/-- Sweep a whole list, whose first element has no left neighbour. -/
def sweep : List ι → List ι × List (ι × Float)
  | [] => ([], [])
  | x :: rest =>
    let swept := sweepAfter angle threshold x rest
    (x :: swept.1, swept.2)

theorem length_sweepAfter (left : ι) (l : List ι) :
    (sweepAfter angle threshold left l).1.length +
      (sweepAfter angle threshold left l).2.length = l.length := by
  fun_induction sweepAfter angle threshold left l with
  | case1 => rfl
  | case2 => rfl
  | case3 left x y rest found h swept ih =>
    have : swept.1.length + swept.2.length = (y :: rest).length := ih
    simp only [List.length_cons] at this ⊢
    omega
  | case4 left x y rest found h swept ih =>
    have : swept.1.length + swept.2.length = (y :: rest).length := ih
    simp only [List.length_cons] at this ⊢
    omega

theorem length_sweep (l : List ι) :
    (sweep angle threshold l).1.length + (sweep angle threshold l).2.length = l.length := by
  cases l with
  | nil => rfl
  | cons x rest =>
    have := length_sweepAfter angle threshold x rest
    simp only [sweep, List.length_cons]
    omega

/-- Sweep until nothing is dropped or fewer than three elements are left. The
second component has one entry for each sweep. -/
def thin (l : List ι) : List ι × List (List (ι × Float)) :=
  if 3 ≤ l.length then
    let swept := sweep angle threshold l
    if _hs : swept.2 = [] then (swept.1, [[]])
    else
      let rest := thin swept.1
      (rest.1, swept.2 :: rest.2)
  else (l, [])
termination_by l.length
decreasing_by
  have := length_sweep angle threshold l
  have : 0 < (sweep angle threshold l).2.length := List.length_pos_iff.2 _hs
  omega

end

end RouteGeometry.Thinning
