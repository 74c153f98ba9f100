import RouteGeometry.Chain

/-! # What a chain lists

A chain shows a list of places: those that are still in it, in their order. The links that places
keep after they have been taken out say nothing about it. -/

namespace RouteGeometry.Chain

section
variable {n : Nat}

def isRemoved (c : Chain n) (i : Fin n) : Bool := getElem c.removed i.val i.isLt

theorem next?_unlink (c : Chain n) (i j : Fin n) :
    (c.unlink i).next? j = if c.prev? i = some j then c.next? i else c.next? j := by
  unfold unlink next?
  rw [Link.next_setPrev, Link.next_setNext]

theorem prev?_unlink (c : Chain n) (i j : Fin n) :
    (c.unlink i).prev? j = if c.next? i = some j then c.prev? i else c.prev? j := by
  unfold unlink prev?
  rw [Link.prev_setPrev, Link.prev_setNext]

theorem next?_unlink_of_ne {c : Chain n} {a i j : Fin n} (hp : c.prev? i = some a) (hj : j ≠ a) :
    (c.unlink i).next? j = c.next? j := by
  rw [next?_unlink, hp, if_neg]
  intro same
  exact hj (Option.some.inj same).symm

theorem prev?_unlink_of_ne {c : Chain n} {b i j : Fin n} (hn : c.next? i = some b) (hj : j ≠ b) :
    (c.unlink i).prev? j = c.prev? j := by
  rw [prev?_unlink, hn, if_neg]
  intro same
  exact hj (Option.some.inj same).symm

theorem isRemoved_unlink (c : Chain n) (i j : Fin n) :
    (c.unlink i).isRemoved j = (decide (i = j) || c.isRemoved j) := by
  by_cases h : i = j
  · subst h
    simp [unlink, isRemoved]
  · simp [unlink, isRemoved, h, Fin.val_inj]

theorem not_end_of_between {c : Chain n} {a i b : Fin n} (hp : c.prev? i = some a)
    (hn : c.next? i = some b) : ¬ (i.val = 0 ∨ i.val + 1 = n) := by
  have ha := c.prev_lt i a hp
  have hb := c.next_gt i b hn
  omega

theorem isAnchor_eq_false_of_between {c : Chain n} {a i b : Fin n} (hp : c.prev? i = some a)
    (hn : c.next? i = some b) : c.isAnchor i = false := by
  obtain ⟨first, last⟩ := not_or.1 (not_end_of_between hp hn)
  simp [isAnchor, first, last]

/-- The links of the listed places lead from each place to the next one and back,
and from the first one to `left?`. -/
def Linked (c : Chain n) : Option (Fin n) → List (Fin n) → Prop
  | _, [] => True
  | left?, i :: rest => c.prev? i = left? ∧ c.next? i = rest.head? ∧ Linked c (some i) rest

theorem Linked.congr {c d : Chain n} {l : List (Fin n)} {left? : Option (Fin n)}
    (h : c.Linked left? l) (hp : ∀ i ∈ l, d.prev? i = c.prev? i)
    (hn : ∀ i ∈ l, d.next? i = c.next? i) : d.Linked left? l := by
  induction l generalizing left? with
  | nil => trivial
  | cons i rest ih =>
    obtain ⟨hi, hi', hr⟩ := h
    refine ⟨(hp i List.mem_cons_self).trans hi, (hn i List.mem_cons_self).trans hi', ?_⟩
    exact ih hr (fun j hj => hp j (List.mem_cons_of_mem _ hj))
      (fun j hj => hn j (List.mem_cons_of_mem _ hj))

theorem Linked.neighbours {c : Chain n} {before rest : List (Fin n)} {left? : Option (Fin n)}
    {a i : Fin n} (h : c.Linked left? (before ++ a :: i :: rest)) :
    c.prev? i = some a ∧ c.next? i = rest.head? := by
  induction before generalizing left? with
  | nil => exact ⟨h.2.2.1, h.2.2.2.1⟩
  | cons x before ih => exact ih h.2.2

/-- Taking out the second place links the first one and the third one. -/
theorem Linked.unlink_second {c : Chain n} {after : List (Fin n)} {left? : Option (Fin n)}
    {a i b : Fin n} (h : c.Linked left? (a :: i :: b :: after))
    (nodup : (a :: i :: b :: after).Nodup) : (c.unlink i).Linked left? (a :: b :: after) := by
  obtain ⟨ha, hai, hia, hib, hbi, hb, hr⟩ := h
  obtain ⟨notA, nodup⟩ := List.nodup_cons.1 nodup
  obtain ⟨notB, -⟩ := List.nodup_cons.1 (List.nodup_cons.1 nodup).2
  have hab : a ≠ b := by
    rintro rfl
    exact notA (List.mem_cons_of_mem _ List.mem_cons_self)
  refine ⟨(prev?_unlink_of_ne hib hab).trans ha, ?_, ?_,
    (next?_unlink_of_ne hia hab.symm).trans hb, ?_⟩
  · rw [next?_unlink, hia, if_pos rfl]
    exact hib
  · rw [prev?_unlink, hib, List.head?_cons, if_pos rfl]
    exact hia
  · apply hr.congr
    · intro j hj
      apply prev?_unlink_of_ne hib
      rintro rfl
      exact notB hj
    · intro j hj
      apply next?_unlink_of_ne hia
      rintro rfl
      exact notA (List.mem_cons_of_mem _ (List.mem_cons_of_mem _ hj))

/-- Only the links of both neighbours change when a place is taken out. -/
theorem Linked.unlink {c : Chain n} {before after : List (Fin n)} {left? : Option (Fin n)}
    {a i b : Fin n} (h : c.Linked left? (before ++ a :: i :: b :: after))
    (nodup : (before ++ a :: i :: b :: after).Nodup) :
    (c.unlink i).Linked left? (before ++ a :: b :: after) := by
  obtain ⟨hp, hn⟩ := h.neighbours
  rw [List.head?_cons] at hn
  induction before generalizing left? with
  | nil => exact h.unlink_second nodup
  | cons x before ih =>
    obtain ⟨hx, hx', hr⟩ := h
    obtain ⟨notX, nodup⟩ := List.nodup_cons.1 nodup
    have hxa : x ≠ a := by
      rintro rfl
      exact notX (by simp)
    have hxb : x ≠ b := by
      rintro rfl
      exact notX (by simp)
    refine ⟨(prev?_unlink_of_ne hn hxb).trans hx, ?_, ih hr nodup⟩
    rw [next?_unlink_of_ne hp hxa, hx']
    cases before <;> rfl

/-- The chain consists of the places `live`, in this order. -/
structure Lists (c : Chain n) (live : List (Fin n)) : Prop where
  linked : c.Linked none live
  sorted : live.Pairwise (· < ·)
  mem_iff : ∀ i, i ∈ live ↔ c.isRemoved i = false
  ends_mem : ∀ i : Fin n, i.val = 0 ∨ i.val + 1 = n → i ∈ live
  alive_eq : c.alive = live.length

theorem Lists.nodup {c : Chain n} {live : List (Fin n)} (h : c.Lists live) : live.Nodup :=
  h.sorted.imp fun hlt => Fin.ne_of_lt hlt

theorem Lists.head_val_eq_zero {c : Chain n} {i : Fin n} {rest : List (Fin n)}
    (h : c.Lists (i :: rest)) : i.val = 0 := by
  rcases List.mem_cons.1 (h.ends_mem ⟨0, i.pos⟩ (.inl rfl)) with hi | hi
  · exact congrArg Fin.val hi.symm
  · exact absurd ((List.pairwise_cons.1 h.sorted).1 _ hi) (Nat.not_lt_zero _)

/-- The successor of a listed place is the first of the places listed behind it. -/
theorem Lists.next?_eq {c : Chain n} {before rest : List (Fin n)} {i : Fin n}
    (h : c.Lists (before ++ i :: rest)) : c.next? i = rest.head? := by
  rcases List.eq_nil_or_concat before with rfl | ⟨before, left, rfl⟩
  · exact h.linked.2.1
  · rw [List.concat_eq_append, List.append_assoc] at h
    exact (Linked.neighbours h.linked).2

/-- The predecessor of a listed place is the last of the places listed before it. -/
theorem Lists.prev?_eq {c : Chain n} {before rest : List (Fin n)} {i : Fin n}
    (h : c.Lists (before ++ i :: rest)) : c.prev? i = before.getLast? := by
  rcases List.eq_nil_or_concat before with rfl | ⟨before, left, rfl⟩
  · exact h.linked.1
  · rw [List.concat_eq_append, List.append_assoc] at h
    rw [(Linked.neighbours h.linked).1, List.concat_eq_append, List.getLast?_concat]

theorem Lists.exists_between {c : Chain n} {live : List (Fin n)} {a i b : Fin n} (h : c.Lists live)
    (hi : i ∈ live) (hp : c.prev? i = some a) (hn : c.next? i = some b) :
    ∃ before after, live = before ++ a :: i :: b :: after := by
  obtain ⟨front, behind, rfl⟩ := List.append_of_mem hi
  rw [h.prev?_eq] at hp
  rw [h.next?_eq] at hn
  obtain ⟨before, rfl⟩ := List.getLast?_eq_some_iff.1 hp
  obtain ⟨after, rfl⟩ := List.head?_eq_some_iff.1 hn
  exact ⟨before, after, by simp⟩

/-- Taking out a place between two others takes it out of the list. -/
theorem Lists.unlink {c : Chain n} {before after : List (Fin n)} {a i b : Fin n}
    (h : c.Lists (before ++ a :: i :: b :: after)) :
    (c.unlink i).Lists (before ++ a :: b :: after) := by
  have gone : before ++ a :: b :: after = (before ++ a :: i :: b :: after).erase i := by
    have hn := List.nodup_append.1 h.nodup
    have hi : i ∉ before := fun hi => hn.2.2 i hi i (by simp) rfl
    have ha : a ≠ i := by
      rintro rfl
      exact (List.nodup_cons.1 hn.2.1).1 List.mem_cons_self
    rw [List.erase_append_right _ hi, List.erase_cons_tail (by simpa using ha),
      List.erase_cons_head]
  obtain ⟨hp, hn⟩ := h.linked.neighbours
  have inner := not_end_of_between hp hn
  refine ⟨h.linked.unlink h.nodup, ?_, ?_, ?_, ?_⟩
  · rw [gone]
    exact h.sorted.sublist List.erase_sublist
  · intro j
    rw [gone, h.nodup.mem_erase_iff, h.mem_iff, isRemoved_unlink, Bool.or_eq_false_iff,
      decide_eq_false_iff_not]
    exact and_congr_left fun _ => ⟨Ne.symm, Ne.symm⟩
  · intro j hj
    rw [gone, h.nodup.mem_erase_iff]
    refine ⟨?_, h.ends_mem j hj⟩
    rintro rfl
    exact inner hj
  · have : (c.unlink i).alive = c.alive - 1 := rfl
    rw [this, h.alive_eq]
    simp only [List.length_append, List.length_cons]
    omega

/-! ## The beginning -/

theorem next?_full (i : Fin n) (s t : Bool) : (full n s t).next? i = succ? i := by
  simp [full, next?]

theorem prev?_full (i : Fin n) (s t : Bool) : (full n s t).prev? i = pred? i := by
  simp [full, prev?]

theorem isRemoved_full (i : Fin n) (s t : Bool) : (full n s t).isRemoved i = false := by
  simp [full, isRemoved]

theorem head?_drop_finRange (i : Fin n) : ((List.finRange n).drop (i.val + 1)).head? = succ? i := by
  rw [List.head?_drop, succ?]
  split
  · rename_i h
    rw [List.getElem?_eq_getElem (by simpa using h), List.getElem_finRange]
    rfl
  · rename_i h
    exact List.getElem?_eq_none (by simpa using h)

/-- The places from number `k` on are linked. -/
theorem linked_full (s t : Bool) (k : Nat) (left? : Option (Fin n))
    (hl : ∀ h : k < n, pred? ⟨k, h⟩ = left?) :
    (full n s t).Linked left? ((List.finRange n).drop k) := by
  induction hd : n - k generalizing k left? with
  | zero =>
    rw [List.drop_eq_nil_of_le (by simp; omega)]
    trivial
  | succ d ih =>
    have hk : k < n := by omega
    rw [List.drop_eq_getElem_cons (by simpa using hk), List.getElem_finRange]
    refine ⟨?_, ?_, ih (k + 1) _ (fun h => ?_) (by omega)⟩
    · rw [prev?_full]
      exact hl hk
    · rw [next?_full]
      exact (head?_drop_finRange ⟨k, hk⟩).symm
    · simp [pred?]

theorem lists_full (n : Nat) (s t : Bool) : (full n s t).Lists (List.finRange n) where
  linked := linked_full s t 0 none fun _ => by simp [pred?]
  sorted := List.pairwise_lt_finRange n
  mem_iff i := by simp [isRemoved_full]
  ends_mem i _ := List.mem_finRange i
  alive_eq := by simp [full]

end

end RouteGeometry.Chain
