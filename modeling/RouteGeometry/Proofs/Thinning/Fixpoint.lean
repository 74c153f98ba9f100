import RouteGeometry.Proofs.Number.Comparison
import RouteGeometry.Proofs.Thinning

/-! # What thinning ends with

Dropping one element changes the angles at both of its neighbours, and a sweep may have passed one
of them already. Thinning therefore ends only with a sweep that finds nothing, or with a list too
short for an element to have two neighbours. -/

namespace RouteGeometry.Thinning

section
variable {ι : Type} (angle : ι → ι → ι → Float) (threshold : Float)

/-- No element can be dropped. -/
def Settled (l : List ι) : Prop := ∀ m, ¬ Drop angle threshold l m

variable {angle threshold}

theorem Drop.cons {l m : List ι} (h : Drop angle threshold l m) (x : ι) :
    Drop angle threshold (x :: l) (x :: m) := by
  cases h with
  | between before after ht => exact .between (x :: before) after ht

/-- Whatever can be dropped has two neighbours. -/
theorem Drop.three_le_length {l m : List ι} (h : Drop angle threshold l m) : 3 ≤ l.length := by
  cases h with
  | between before after ht =>
    simp only [List.length_append, List.length_cons]
    omega

theorem settled_of_length_lt_three {l : List ι} (h : l.length < 3) : Settled angle threshold l := by
  intro m drop
  have := drop.three_le_length
  omega

/-- In a settled list every angle between two neighbours is below the threshold. -/
theorem Settled.not_le {before after : List ι} {left x right : ι}
    (h : Settled angle threshold (before ++ left :: x :: right :: after)) :
    ¬ threshold ≤ angle left x right :=
  fun ht => h _ (.between before after ht)

theorem settled_cons_iff {left x right : ι} {rest : List ι} :
    Settled angle threshold (left :: x :: right :: rest) ↔
      ¬ threshold ≤ angle left x right ∧ Settled angle threshold (x :: right :: rest) := by
  constructor
  · intro h
    exact ⟨fun ht => h _ (.between [] rest ht), fun m drop => h _ (drop.cons left)⟩
  · rintro ⟨first, others⟩ m drop
    -- The dropped element is the second of the list or lies behind it.
    generalize hl : left :: x :: right :: rest = l at drop
    cases drop with
    | between before after ht =>
      cases before with
      | nil =>
        obtain ⟨rfl, rfl, rfl, rfl⟩ : left = _ ∧ x = _ ∧ right = _ ∧ rest = _ := by
          simpa using hl
        exact first ht
      | cons y before =>
        rw [(List.cons.inj hl).2] at others
        exact others _ (.between before after ht)

theorem Settled.mono {l : List ι} {greater : Float} (h : Settled angle threshold l)
    (le : threshold ≤ greater) : Settled angle greater l := by
  intro m drop
  cases drop with
  | between before after ht => exact h.not_le (Number.float_le_trans le ht)

/-- A sweep that drops nothing has found nothing to drop. -/
theorem settled_of_sweepAfter {left : ι} {l : List ι}
    (quiet : (sweepAfter angle threshold left l).2 = []) :
    (sweepAfter angle threshold left l).1 = l ∧ Settled angle threshold (left :: l) := by
  fun_induction sweepAfter angle threshold left l with
  | case1 => exact ⟨rfl, settled_of_length_lt_three (by simp)⟩
  | case2 => exact ⟨rfl, settled_of_length_lt_three (by simp)⟩
  | case3 => contradiction
  | case4 left x y rest found h swept ih =>
    obtain ⟨same, settled⟩ := ih quiet
    exact ⟨congrArg (x :: ·) same, settled_cons_iff.2 ⟨h, settled⟩⟩

theorem settled_of_sweep {l : List ι} (quiet : (sweep angle threshold l).2 = []) :
    (sweep angle threshold l).1 = l ∧ Settled angle threshold l := by
  cases l with
  | nil => exact ⟨rfl, settled_of_length_lt_three (by simp)⟩
  | cons x rest =>
    obtain ⟨same, settled⟩ := settled_of_sweepAfter quiet
    exact ⟨congrArg (x :: ·) same, settled⟩

theorem Settled.sweepAfter_eq {left : ι} {l : List ι} (h : Settled angle threshold (left :: l)) :
    sweepAfter angle threshold left l = (l, []) := by
  fun_induction sweepAfter angle threshold left l with
  | case1 => rfl
  | case2 => rfl
  | case3 left x y rest found ht => exact absurd ht (settled_cons_iff.1 h).1
  | case4 left x y rest found ht swept ih =>
    have same : swept = (y :: rest, []) := ih (settled_cons_iff.1 h).2
    rw [same]

theorem Settled.sweep_eq {l : List ι} (h : Settled angle threshold l) :
    sweep angle threshold l = (l, []) := by
  cases l with
  | nil => rfl
  | cons x rest => rw [sweep, h.sweepAfter_eq]

/-- Thinning a settled list takes one sweep that drops nothing, or none at all. -/
theorem Settled.thin_eq {l : List ι} (h : Settled angle threshold l) :
    (thin angle threshold l).1 = l ∧ (thin angle threshold l).2.flatten = [] := by
  rw [thin, h.sweep_eq]
  split <;> exact ⟨rfl, rfl⟩

variable (angle threshold) in
/-- **Thinning ends with a settled list**, whatever the angles are. -/
theorem thin_settled (l : List ι) : Settled angle threshold (thin angle threshold l).1 := by
  fun_induction thin angle threshold l with
  | case1 l long swept =>
    rename_i quiet
    obtain ⟨same, settled⟩ := settled_of_sweep quiet
    exact same.symm ▸ settled
  | case2 l long swept busy rest =>
    rename_i ih
    exact ih
  | case3 l short => exact settled_of_length_lt_three (Nat.lt_of_not_le short)

end

end RouteGeometry.Thinning
