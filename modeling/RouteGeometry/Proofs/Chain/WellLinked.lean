import Mathlib.Order.Bounds.Defs
import RouteGeometry.Proofs.Chain.Termination
import RouteGeometry.Proofs.Polyline.Refinement

/-! # Well linked chains

What the data of a chain say of each other as long as places are only taken out from between their
neighbours. Links of places that have been taken out may say anything. -/

namespace RouteGeometry.Chain

section
variable {n : Nat}

def following (c : Chain n) (i : Fin n) : List (Fin n) :=
  match _h : c.next? i with
  | none => [i]
  | some j => i :: following c j
termination_by n - i.val
decreasing_by
  have := c.next_gt i j _h
  omega

/-- The places along the successors, from the first place on. -/
def listing (c : Chain n) : List (Fin n) := (first? n).elim [] c.following

/-- Links, flags and count of a chain agree with each other. -/
structure WellLinked (c : Chain n) : Prop where
  /-- The successors lead through exactly the places that are left. -/
  mem_listing_iff : ∀ i, i ∈ c.listing ↔ c.isRemoved i = false
  /-- The successors lead forwards. -/
  listing_sorted : c.listing.Pairwise (· < ·)
  /-- The successors end at the last place of all. -/
  getLast?_listing : ∀ i : Fin n, i.val + 1 = n → c.listing.getLast? = some i
  /-- Of two places that are left, one is the successor if the other is the predecessor. -/
  next?_iff_prev? : ∀ i j, c.isRemoved i = false → c.isRemoved j = false →
    (c.next? i = some j ↔ c.prev? j = some i)
  /-- The successor is the first of the places behind that are left. -/
  next?_iff_isLeast : ∀ i j, c.isRemoved i = false → c.isRemoved j = false →
    (c.next? i = some j ↔ IsLeast {k | c.isRemoved k = false ∧ i < k} j)
  prev?_first : ∀ i : Fin n, i.val = 0 → c.prev? i = none
  next?_last : ∀ i : Fin n, i.val + 1 = n → c.next? i = none
  ends_stay : ∀ i : Fin n, i.val = 0 ∨ i.val + 1 = n → c.isRemoved i = false
  anchors_stay : ∀ i, c.isAnchor i = true → c.isRemoved i = false
  alive_eq_count : c.alive = c.removed.count false

section
variable {c : Chain n} {live : List (Fin n)} {i j : Fin n}

theorem Linked.following_eq {left? : Option (Fin n)} {rest : List (Fin n)}
    (h : c.Linked left? (i :: rest)) : c.following i = i :: rest := by
  induction rest generalizing left? i with
  | nil =>
    have hn : c.next? i = none := h.2.1
    rw [following]
    split
    · rfl
    · simp_all
  | cons j rest ih =>
    have hn : c.next? i = some j := h.2.1
    rw [following]
    split
    · simp_all
    · rename_i k hk
      obtain rfl : j = k := Option.some.inj (hn.symm.trans hk)
      rw [ih h.2.2]

/-- A chain that lists its places lists them along the successors. -/
theorem Lists.listing_eq (h : c.Lists live) : c.listing = live := by
  rw [listing, h.first?_eq]
  cases live with
  | nil => rfl
  | cons i rest => exact h.linked.following_eq

/-- A listed place is before the places listed behind it, and behind those listed before it. -/
theorem Lists.mem_behind_iff {before rest : List (Fin n)} (h : c.Lists (before ++ i :: rest))
    (k : Fin n) : k ∈ rest ↔ c.isRemoved k = false ∧ i < k := by
  obtain ⟨-, later, earlier⟩ := List.pairwise_append.1 h.sorted
  rw [← h.mem_iff k]
  constructor
  · intro hk
    exact ⟨by simp [hk], (List.pairwise_cons.1 later).1 k hk⟩
  · rintro ⟨hk, behind⟩
    rcases List.mem_append.1 hk with hk | hk
    · exact absurd (earlier k hk i List.mem_cons_self) (Fin.lt_asymm behind)
    · rcases List.mem_cons.1 hk with rfl | hk
      · exact absurd behind (Fin.lt_irrefl _)
      · exact hk

theorem Lists.next?_iff_isLeast (h : c.Lists live) (hi : i ∈ live) :
    c.next? i = some j ↔ IsLeast {k | c.isRemoved k = false ∧ i < k} j := by
  obtain ⟨before, rest, rfl⟩ := List.append_of_mem hi
  have behind : {k | c.isRemoved k = false ∧ i < k} = {k | k ∈ rest} :=
    Set.ext fun k => (h.mem_behind_iff k).symm
  have sorted := (List.pairwise_cons.1 (List.pairwise_append.1 h.sorted).2.1).2
  rw [h.next?_eq, behind]
  cases rest with
  | nil => simp [IsLeast]
  | cons first rest =>
    have least : IsLeast {k | k ∈ first :: rest} first := by
      refine ⟨List.mem_cons_self, fun k hk => ?_⟩
      rcases List.mem_cons.1 hk with rfl | hk
      · exact le_refl _
      · exact le_of_lt ((List.pairwise_cons.1 sorted).1 k hk)
    rw [List.head?_cons, Option.some.injEq]
    constructor
    · rintro rfl
      exact least
    · exact fun other => least.unique other

theorem Lists.next?_iff_prev? (h : c.Lists live) (hi : i ∈ live) (hj : j ∈ live) :
    c.next? i = some j ↔ c.prev? j = some i := by
  constructor
  · intro hn
    obtain ⟨before, rest, rfl⟩ := List.append_of_mem hi
    rw [h.next?_eq] at hn
    obtain ⟨after, rfl⟩ := List.head?_eq_some_iff.1 hn
    exact (Linked.neighbours h.linked).1
  · intro hp
    obtain ⟨before, rest, rfl⟩ := List.append_of_mem hj
    rw [h.prev?_eq] at hp
    obtain ⟨front, rfl⟩ := List.getLast?_eq_some_iff.1 hp
    rw [List.append_assoc] at h
    exact h.next?_eq

theorem Lists.getLast?_eq (h : c.Lists live) (last : i.val + 1 = n) : live.getLast? = some i := by
  obtain ⟨before, rest, rfl⟩ := List.append_of_mem (h.ends_mem i (.inr last))
  cases rest with
  | nil => exact List.getLast?_concat
  | cons k rest =>
    have := ((h.mem_behind_iff k).1 List.mem_cons_self).2
    omega

theorem isRemoved_eq_false_of_isAnchor (h : c.Lists live) (anchor : c.isAnchor i = true) :
    c.isRemoved i = false := by
  apply (h.mem_iff i).1
  apply h.ends_mem i
  simp only [isAnchor, Bool.or_eq_true, Bool.and_eq_true, beq_iff_eq] at anchor
  exact anchor.imp And.right And.right

theorem Lists.alive_eq_count (h : c.Lists live) : c.alive = c.removed.count false := by
  have flags : c.removed.toList = (List.finRange n).map c.isRemoved := by
    apply List.ext_getElem
    · simp
    · intro k hk hk'
      simp [isRemoved]
  rw [h.alive_eq, h.eq_filter, ← List.countP_eq_length_filter, ← Vector.count_toList, flags,
    List.count, List.countP_map]
  congr 1
  funext k
  cases hk : c.isRemoved k <;> simp [hk]

theorem Lists.wellLinked (h : c.Lists live) : c.WellLinked where
  mem_listing_iff i := by rw [h.listing_eq, h.mem_iff]
  listing_sorted := h.listing_eq ▸ h.sorted
  getLast?_listing i last := by rw [h.listing_eq, h.getLast?_eq last]
  next?_iff_prev? i j hi hj := h.next?_iff_prev? ((h.mem_iff i).2 hi) ((h.mem_iff j).2 hj)
  next?_iff_isLeast i j hi _ := h.next?_iff_isLeast ((h.mem_iff i).2 hi)
  prev?_first i first := by
    cases hp : c.prev? i with
    | none => rfl
    | some a =>
      have := c.prev_lt i a hp
      omega
  next?_last i last := by
    cases hn : c.next? i with
    | none => rfl
    | some b =>
      have := c.next_gt i b hn
      omega
  ends_stay i ends := (h.mem_iff i).1 (h.ends_mem i ends)
  anchors_stay i := isRemoved_eq_false_of_isAnchor h
  alive_eq_count := h.alive_eq_count

end

end

end RouteGeometry.Chain
