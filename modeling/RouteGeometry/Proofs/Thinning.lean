import Mathlib.Logic.Relation
import RouteGeometry.Thinning

/-! # Thinning step by step -/

namespace RouteGeometry.Thinning

section
variable {ι : Type} (angle : ι → ι → ι → Float) (threshold : Float)

/-- One element is dropped whose angle between its neighbours reaches the threshold. -/
inductive Drop : List ι → List ι → Prop
  | between (before after : List ι) {left x right : ι} (h : threshold ≤ angle left x right) :
      Drop (before ++ left :: x :: right :: after) (before ++ left :: right :: after)

/-- A sweep drops one element after the other. What lies in front of the left
neighbour takes no part in it. -/
theorem sweepAfter_drops (before : List ι) (left : ι) (l : List ι) :
    Relation.ReflTransGen (Drop angle threshold) (before ++ left :: l)
      (before ++ left :: (sweepAfter angle threshold left l).1) := by
  fun_induction sweepAfter angle threshold left l generalizing before with
  | case1 => exact .refl
  | case2 => exact .refl
  | case3 left x y rest found h swept ih => exact .head (.between before rest h) (ih before)
  | case4 left x y rest found h swept ih =>
    -- The kept element is the left neighbour from now on, and the old one joins the front.
    have shifted := ih (before ++ [left])
    rw [List.append_assoc, List.append_assoc] at shifted
    exact shifted

theorem sweep_drops (l : List ι) :
    Relation.ReflTransGen (Drop angle threshold) l (sweep angle threshold l).1 := by
  cases l with
  | nil => exact .refl
  | cons x rest => exact sweepAfter_drops angle threshold [] x rest

theorem thin_drops (l : List ι) :
    Relation.ReflTransGen (Drop angle threshold) l (thin angle threshold l).1 := by
  fun_induction thin angle threshold l with
  | case1 l long swept => exact sweep_drops angle threshold l
  | case2 l long swept busy rest =>
    rename_i ih
    exact (sweep_drops angle threshold l).trans ih
  | case3 => exact .refl

end

/-! ## Thinning under other names -/

section
variable {ι κ : Type} (f : ι → κ) (angle : κ → κ → κ → Float) (threshold : Float)

/-- The angle measured on what the names stand for. -/
abbrev angleOf (i j k : ι) : Float := angle (f i) (f j) (f k)

/-- The dropped elements, each with what its name stands for. -/
abbrev renamed (dropped : List (ι × Float)) : List (κ × Float) := dropped.map (Prod.map f id)

theorem sweepAfter_map (left : ι) (l : List ι) :
    sweepAfter angle threshold (f left) (l.map f) =
      ((sweepAfter (angleOf f angle) threshold left l).1.map f,
        renamed f (sweepAfter (angleOf f angle) threshold left l).2) := by
  fun_induction sweepAfter (angleOf f angle) threshold left l with
  | case1 => rfl
  | case2 => rfl
  | case3 left x y rest found h swept ih =>
    rw [List.map_cons] at ih
    rw [List.map_cons, List.map_cons, sweepAfter, if_pos h, ih]
    rfl
  | case4 left x y rest found h swept ih =>
    rw [List.map_cons] at ih
    rw [List.map_cons, List.map_cons, sweepAfter, if_neg h, ih]
    rfl

theorem sweep_map (l : List ι) :
    sweep angle threshold (l.map f) =
      ((sweep (angleOf f angle) threshold l).1.map f,
        renamed f (sweep (angleOf f angle) threshold l).2) := by
  cases l with
  | nil => rfl
  | cons x rest => rw [List.map_cons, sweep, sweepAfter_map, sweep, List.map_cons]

theorem thin_map (l : List ι) :
    thin angle threshold (l.map f) =
      ((thin (angleOf f angle) threshold l).1.map f,
        (thin (angleOf f angle) threshold l).2.map (renamed f)) := by
  fun_induction thin (angleOf f angle) threshold l with
  | case1 l long swept =>
    rename_i quiet
    rw [thin, if_pos (by rwa [List.length_map]), sweep_map, quiet]
    rfl
  | case2 l long swept busy rest =>
    rename_i ih
    have busy' : renamed f (sweep (angleOf f angle) threshold l).2 ≠ [] :=
      fun e => busy (List.map_eq_nil_iff.1 e)
    rw [thin, if_pos (by rwa [List.length_map]), sweep_map]
    dsimp only
    rw [dif_neg busy']
    change (_, _ :: _) = ((thin (angleOf f angle) threshold swept.1).1.map f, _ :: _)
    rw [ih]
  | case3 l short => rw [thin, if_neg (by rwa [List.length_map]), List.map_nil]

end

end RouteGeometry.Thinning
