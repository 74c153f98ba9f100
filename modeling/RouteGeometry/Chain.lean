/-! # Chains

A doubly linked view of `n` places in a row, from which places are taken out one by one while the
order of the others is kept. A place taken out keeps its links, so a walk that has reached it still
finds the way on; links lead forwards and backwards only, and hence every walk ends. -/

namespace RouteGeometry

structure Link (n : Nat) where
  prev : Option (Fin n)
  next : Option (Fin n)
  deriving DecidableEq, Repr

namespace Link

section
variable {n : Nat}

/-- The links with `next` in place of the successor of `i?`, if `i?` is a place. -/
def setNext (links : Vector (Link n) n) (i? next : Option (Fin n)) : Vector (Link n) n :=
  match i? with
  | some i => links.set i { links[i] with next }
  | none => links

def setPrev (links : Vector (Link n) n) (i? prev : Option (Fin n)) : Vector (Link n) n :=
  match i? with
  | some i => links.set i { links[i] with prev }
  | none => links

theorem next_setNext (links : Vector (Link n) n) (i? next : Option (Fin n)) (j : Fin n) :
    (setNext links i? next)[j].next = if i? = some j then next else links[j].next := by
  cases i? with
  | none => simp [setNext]
  | some i =>
    by_cases h : i = j
    · subst h; simp [setNext]
    · simp [setNext, h, Fin.val_inj]

theorem prev_setNext (links : Vector (Link n) n) (i? next : Option (Fin n)) (j : Fin n) :
    (setNext links i? next)[j].prev = links[j].prev := by
  cases i? with
  | none => rfl
  | some i =>
    by_cases h : i = j
    · subst h; simp [setNext]
    · simp [setNext, h, Fin.val_inj]

theorem prev_setPrev (links : Vector (Link n) n) (i? prev : Option (Fin n)) (j : Fin n) :
    (setPrev links i? prev)[j].prev = if i? = some j then prev else links[j].prev := by
  cases i? with
  | none => simp [setPrev]
  | some i =>
    by_cases h : i = j
    · subst h; simp [setPrev]
    · simp [setPrev, h, Fin.val_inj]

theorem next_setPrev (links : Vector (Link n) n) (i? prev : Option (Fin n)) (j : Fin n) :
    (setPrev links i? prev)[j].next = links[j].next := by
  cases i? with
  | none => rfl
  | some i =>
    by_cases h : i = j
    · subst h; simp [setPrev]
    · simp [setPrev, h, Fin.val_inj]

end

end Link

structure Chain (n : Nat) where
  links : Vector (Link n) n
  /-- Which places have been taken out. -/
  removed : Vector Bool n
  /-- How many places are left. -/
  alive : Nat
  /-- Whether the first place is an anchor. -/
  hasSource : Bool
  hasTarget : Bool
  next_gt : ∀ i j : Fin n, links[i].next = some j → i < j
  prev_lt : ∀ i j : Fin n, links[i].prev = some j → j < i

namespace Chain

section
variable {n : Nat}

def succ? (i : Fin n) : Option (Fin n) :=
  if h : i.val + 1 < n then some ⟨i.val + 1, h⟩ else none

def pred? (i : Fin n) : Option (Fin n) :=
  if 0 < i.val then some ⟨i.val - 1, by omega⟩ else none

def full (n : Nat) (hasSource hasTarget : Bool) : Chain n where
  links := Vector.ofFn fun i => ⟨pred? i, succ? i⟩
  removed := Vector.replicate n false
  alive := n
  hasSource
  hasTarget
  next_gt i j h := by
    simp only [Fin.getElem_fin, Vector.getElem_ofFn, succ?] at h
    split at h <;> simp at h
    subst h
    simp [Fin.lt_def]
  prev_lt i j h := by
    simp only [Fin.getElem_fin, Vector.getElem_ofFn, pred?] at h
    split at h <;> simp at h
    subst h
    simp only [Fin.lt_def]
    omega

def next? (c : Chain n) (i : Fin n) : Option (Fin n) := c.links[i].next

def prev? (c : Chain n) (i : Fin n) : Option (Fin n) := c.links[i].prev

def isAnchor (c : Chain n) (i : Fin n) : Bool :=
  (c.hasSource && i.val == 0) || (c.hasTarget && i.val + 1 == n)

/-- The chain without the place `i`, its neighbours linked to each other. -/
def unlink (c : Chain n) (i : Fin n) : Chain n :=
  let prev := c.prev? i
  let next := c.next? i
  { c with
    links := Link.setPrev (Link.setNext c.links prev next) next prev
    removed := c.removed.set i true
    alive := c.alive - 1
    next_gt := by
      intro j k h
      rw [Link.next_setPrev, Link.next_setNext] at h
      split at h
      · rename_i hp
        exact Nat.lt_trans (c.prev_lt i j hp) (c.next_gt i k h)
      · exact c.next_gt j k h
    prev_lt := by
      intro j k h
      rw [Link.prev_setPrev, Link.prev_setNext] at h
      split at h
      · rename_i hn
        exact Nat.lt_trans (c.prev_lt i k h) (c.next_gt i j hn)
      · exact c.prev_lt j k h }

/-- Which of the places that are no anchors are left, in their order. -/
def survivors (c : Chain n) : List Bool :=
  let first := if c.hasSource then 1 else 0
  let last := n - if c.hasTarget then 1 else 0
  ((c.removed.toList.take last).drop first).map (!·)

end

end Chain

end RouteGeometry
