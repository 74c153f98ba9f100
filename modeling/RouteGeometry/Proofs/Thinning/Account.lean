import RouteGeometry.Proofs.Thinning

/-! # What thinning keeps and what it drops -/

namespace RouteGeometry.Thinning

section
variable {ι : Type} {angle : ι → ι → ι → Float} {threshold : Float}

/-! ## The ends -/

theorem Drop.head?_eq {l m : List ι} (h : Drop angle threshold l m) : m.head? = l.head? := by
  cases h with
  | between before after ht => cases before <;> rfl

theorem Drop.getLast?_eq {l m : List ι} (h : Drop angle threshold l m) :
    m.getLast? = l.getLast? := by
  cases h with
  | between before after ht => simp [List.getLast?_cons_cons]

theorem ends_eq_of_drops {l m : List ι} (h : Relation.ReflTransGen (Drop angle threshold) l m) :
    m.head? = l.head? ∧ m.getLast? = l.getLast? := by
  induction h with
  | refl => exact ⟨rfl, rfl⟩
  | tail _ drop ih => exact ⟨drop.head?_eq.trans ih.1, drop.getLast?_eq.trans ih.2⟩

variable (angle threshold)

theorem head?_thin (l : List ι) : (thin angle threshold l).1.head? = l.head? :=
  (ends_eq_of_drops (thin_drops angle threshold l)).1

theorem getLast?_thin (l : List ι) : (thin angle threshold l).1.getLast? = l.getLast? :=
  (ends_eq_of_drops (thin_drops angle threshold l)).2

/-! ## Everything is accounted for -/

theorem sweepAfter_perm (left : ι) (l : List ι) :
    ((sweepAfter angle threshold left l).1 ++
      (sweepAfter angle threshold left l).2.map Prod.fst).Perm l := by
  fun_induction sweepAfter angle threshold left l with
  | case1 => exact .refl _
  | case2 => exact .refl _
  | case3 left x y rest found h swept ih => exact List.perm_middle.trans (ih.cons x)
  | case4 left x y rest found h swept ih => exact ih.cons x

theorem sweep_perm (l : List ι) :
    ((sweep angle threshold l).1 ++ (sweep angle threshold l).2.map Prod.fst).Perm l := by
  cases l with
  | nil => exact .refl _
  | cons x rest => exact (sweepAfter_perm angle threshold x rest).cons x

/-- Every element is kept or dropped once. -/
theorem thin_perm (l : List ι) :
    ((thin angle threshold l).1 ++ (thin angle threshold l).2.flatten.map Prod.fst).Perm l := by
  fun_induction thin angle threshold l with
  | case1 l long swept =>
    rename_i quiet
    have perm : (swept.1 ++ swept.2.map Prod.fst).Perm l := sweep_perm angle threshold l
    rwa [quiet] at perm
  | case2 l long swept busy rest =>
    rename_i ih
    have perm : (swept.1 ++ swept.2.map Prod.fst).Perm l := sweep_perm angle threshold l
    have later : (rest.1 ++ rest.2.flatten.map Prod.fst).Perm swept.1 := ih
    change (rest.1 ++ (swept.2 ++ rest.2.flatten).map Prod.fst).Perm l
    rw [List.map_append]
    -- What this sweep has dropped is moved behind what the later ones drop.
    apply (List.perm_append_comm.append_left rest.1).trans
    rw [← List.append_assoc]
    exact (later.append_right _).trans perm
  | case3 l short => simp

variable {angle threshold}

theorem mem_tail_of_mem_sweep {l : List ι} {r : ι × Float}
    (h : r ∈ (sweep angle threshold l).2) : r.1 ∈ l.tail := by
  cases l with
  | nil => contradiction
  | cons x rest =>
    have dropped : r.1 ∈ (sweepAfter angle threshold x rest).2.map Prod.fst :=
      List.mem_map_of_mem h
    exact (sweepAfter_perm angle threshold x rest).subset (List.mem_append_right _ dropped)

theorem tail_sweep_subset (l : List ι) : (sweep angle threshold l).1.tail ⊆ l.tail := by
  cases l with
  | nil => exact fun _ => id
  | cons x rest =>
    intro y hy
    exact (sweepAfter_perm angle threshold x rest).subset (List.mem_append_left _ hy)

theorem mem_tail_of_mem_thin {l : List ι} {r : ι × Float}
    (h : r ∈ (thin angle threshold l).2.flatten) : r.1 ∈ l.tail := by
  fun_induction thin angle threshold l with
  | case1 => simp at h
  | case2 l long swept busy rest =>
    rename_i ih
    rcases List.mem_append.1 h with now | later
    · exact mem_tail_of_mem_sweep now
    · exact tail_sweep_subset l (ih later)
  | case3 => simp at h

end

end RouteGeometry.Thinning
