import RouteGeometry.Proofs.Thinning.Fixpoint

/-! # Repeated elements

Where an element is repeated at once, a sweep drops the first of the two for having no way to go to
the second one, if the angle there is large enough in any case. So the first sweep comes out the
same as if it had not been there, whatever the sweeps after it do. -/

namespace RouteGeometry.Thinning

/-- One element is left out that the same element follows. -/
inductive Repeat {ι : Type} : List ι → List ι → Prop
  | between (before after : List ι) (x : ι) :
      Repeat (before ++ x :: x :: after) (before ++ x :: after)

theorem Repeat.length_eq {ι : Type} {l m : List ι} (h : Repeat l m) : l.length = m.length + 1 := by
  cases h with
  | between before after x => simp only [List.length_append, List.length_cons, Nat.add_assoc]

theorem length_le_of_repeats {ι : Type} {l m : List ι} (run : Relation.ReflTransGen Repeat l m) :
    m.length ≤ l.length := by
  induction run with
  | refl => exact Nat.le_refl _
  | tail _ step ih =>
    have lengths := step.length_eq
    omega

section
variable {ι : Type} {angle : ι → ι → ι → Float} {threshold : Float}

theorem fst_sweepAfter_cons_cons (left x y : ι) (rest : List ι) :
    (sweepAfter angle threshold left (x :: y :: rest)).1 =
      if threshold ≤ angle left x y then (sweepAfter angle threshold left (y :: rest)).1
      else x :: (sweepAfter angle threshold x (y :: rest)).1 := by
  rw [sweepAfter]
  split <;> rfl

/-- A sweep that continues alike from the next element on continues alike from this one. -/
theorem fst_sweepAfter_congr {y : ι} {l m : List ι}
    (h : ∀ left, (sweepAfter angle threshold left (y :: l)).1 =
      (sweepAfter angle threshold left (y :: m)).1) (left x : ι) :
    (sweepAfter angle threshold left (x :: y :: l)).1 =
      (sweepAfter angle threshold left (x :: y :: m)).1 := by
  rw [fst_sweepAfter_cons_cons, fst_sweepAfter_cons_cons, h, h]

/-- Behind a left neighbour the first of two equal elements is dropped. -/
theorem sweepAfter_repeat (back : ∀ a x, threshold ≤ angle a x x) (left : ι)
    (before after : List ι) (x : ι) :
    (sweepAfter angle threshold left (before ++ x :: x :: after)).1 =
      (sweepAfter angle threshold left (before ++ x :: after)).1 := by
  induction before generalizing left with
  | nil =>
    rw [List.nil_append, List.nil_append, fst_sweepAfter_cons_cons, if_pos (back left x)]
  | cons p before ih =>
    -- The element after `p` is the same on both sides.
    cases before with
    | nil => exact fst_sweepAfter_congr ih left p
    | cons q before => exact fst_sweepAfter_congr ih left p

/-- At the beginning the second of two equal elements is dropped, unless it is the last one. -/
theorem sweep_repeat (ahead : ∀ x b, threshold ≤ angle x x b) (x y : ι) (after : List ι) :
    (sweep angle threshold (x :: x :: y :: after)).1 =
      (sweep angle threshold (x :: y :: after)).1 := by
  rw [sweep, sweep, fst_sweepAfter_cons_cons, if_pos (ahead x y)]

section
variable (back : ∀ a x, threshold ≤ angle a x x) (ahead : ∀ x b, threshold ≤ angle x x b)
include back ahead

theorem sweep_eq_of_repeat {l m : List ι} (h : Repeat l m) (long : 2 ≤ m.length) :
    (sweep angle threshold l).1 = (sweep angle threshold m).1 := by
  cases h with
  | between before after x =>
    match before, after with
    | [], [] => contradiction
    | [], y :: after => exact sweep_repeat ahead x y after
    | p :: before, after => exact congrArg (p :: ·) (sweepAfter_repeat back p before after x)

end

/-- Thinning goes on from what the first sweep keeps. -/
theorem thin_sweep (l : List ι) :
    (thin angle threshold (sweep angle threshold l).1).1 = (thin angle threshold l).1 := by
  by_cases quiet : (sweep angle threshold l).2 = []
  · rw [(settled_of_sweep quiet).1]
  · have long : 3 ≤ l.length := by
      by_contra short
      have settled : Settled angle threshold l :=
        settled_of_length_lt_three (Nat.lt_of_not_le short)
      rw [settled.sweep_eq] at quiet
      exact quiet rfl
    conv_rhs => rw [thin, if_pos long]
    dsimp only
    rw [dif_neg quiet]

section
variable (back : ∀ a x, threshold ≤ angle a x x) (ahead : ∀ x b, threshold ≤ angle x x b)
include back ahead

theorem thin_eq_of_repeat {l m : List ι} (h : Repeat l m) (long : 2 ≤ m.length) :
    (thin angle threshold l).1 = (thin angle threshold m).1 := by
  rw [← thin_sweep, sweep_eq_of_repeat back ahead h long, thin_sweep]

/-- Repetitions make no difference to what thinning keeps. -/
theorem thin_eq_of_repeats {l m : List ι} (run : Relation.ReflTransGen Repeat l m)
    (long : 2 ≤ m.length) : (thin angle threshold l).1 = (thin angle threshold m).1 := by
  induction run with
  | refl => rfl
  | tail _ step ih =>
    have lengths := step.length_eq
    exact (ih (by omega)).trans (thin_eq_of_repeat back ahead step long)

end

end

end RouteGeometry.Thinning
