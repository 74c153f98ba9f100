import RouteGeometry.Proofs.Polyline.Refinement

/-! # Chains of plain numbers

The type of a chain says that its links stay inside and lead on. Here a chain is a few arrays and
counts of which nothing is known: whoever reads or writes an element that is not there, cuts out a
part that is not there or counts below zero gets nothing. -/

namespace RouteGeometry

/-- The neighbours of a place, as numbers that may lead anywhere. -/
structure LooseLink where
  prev : Option Nat
  next : Option Nat
  deriving DecidableEq, Repr

/-- Points in a row with links, flags and counts. -/
structure LooseChain (β : Type) where
  nodes : Array β
  links : Array LooseLink
  removed : Array Bool
  alive : Nat
  hasSource : Bool
  hasTarget : Bool

namespace LooseChain

section
variable {β γ : Type}

/-- The array with `x` as its element number `i`. -/
def put? (xs : Array γ) (i : Nat) (x : γ) : Option (Array γ) :=
  if h : i < xs.size then some (xs.set i x h) else none

/-- The elements from number `first` up to number `last`, which is excluded. -/
def slice? (xs : Array γ) (first last : Nat) : Option (List γ) :=
  if first ≤ last ∧ last ≤ xs.size then some (xs.extract first last).toList else none

/-- What is left of a count. -/
def minus? (count less : Nat) : Option Nat :=
  if less ≤ count then some (count - less) else none

/-- The links with a change to those of `i?`, if `i?` is a place. -/
def change? (links : Array LooseLink) (i? : Option Nat) (f : LooseLink → LooseLink) :
    Option (Array LooseLink) :=
  match i? with
  | some i => do
    let link ← links[i]?
    put? links i (f link)
  | none => some links

/-- All points between the anchors, each linked to its neighbours. -/
def ofPoints (source? : Option β) (points : List β) (target? : Option β) : LooseChain β :=
  let nodes := (source?.toList ++ points ++ target?.toList).toArray
  { nodes
    links := (Array.range nodes.size).map fun i =>
      ⟨minus? i 1, (some (i + 1)).filter (· < nodes.size)⟩
    removed := Array.replicate nodes.size false
    alive := nodes.size
    hasSource := source?.isSome
    hasTarget := target?.isSome }

def isAnchor (c : LooseChain β) (i : Nat) : Bool :=
  (c.hasSource && i == 0) || (c.hasTarget && i + 1 == c.nodes.size)

def unlink (c : LooseChain β) (i : Nat) : Option (LooseChain β) := do
  let link ← c.links[i]?
  let links ← change? c.links link.prev ({ · with next := link.next })
  let links ← change? links link.next ({ · with prev := link.prev })
  let removed ← put? c.removed i true
  let alive ← minus? c.alive 1
  return { c with links, removed, alive }

def visit (angle : β → β → β → Float) (threshold : Float) (c : LooseChain β) (i : Nat) :
    Option (LooseChain β × List (Nat × Float)) := do
  let link ← c.links[i]?
  match link.prev, link.next with
  | some left, some right =>
    if c.isAnchor i then return (c, [])
    else
      let a ← c.nodes[left]?
      let p ← c.nodes[i]?
      let b ← c.nodes[right]?
      let found := angle a p b
      if threshold ≤ found then
        let rest ← c.unlink i
        return (rest, [(i, found)])
      else return (c, [])
  | _, _ => return (c, [])

def survivors (c : LooseChain β) : Option (List Bool) := do
  let last ← minus? c.nodes.size c.hasTarget.toNat
  let flags ← slice? c.removed c.hasSource.toNat last
  return flags.map (!·)

end

end LooseChain

def Link.loose {n : Nat} (l : Link n) : LooseLink := ⟨l.prev.map Fin.val, l.next.map Fin.val⟩

def Link.looseAll {n : Nat} (links : Vector (Link n) n) : Array LooseLink :=
  (links.map Link.loose).toArray

/-- A chain of as many places as there are nodes, in plain numbers. -/
def Chain.loose {β : Type} (nodes : List β) (c : Chain nodes.length) : LooseChain β where
  nodes := nodes.toArray
  links := Link.looseAll c.links
  removed := c.removed.toArray
  alive := c.alive
  hasSource := c.hasSource
  hasTarget := c.hasTarget

/-- The removals with plain numbers for places. -/
def Chain.Removals.numbers {n : Nat} (removals : Removals n) : List (Nat × Float) :=
  removals.map (Prod.map Fin.val id)

namespace LooseChain

/-! ## Elements that are there -/

section
variable {γ : Type} {n : Nat}

theorem put?_toArray (xs : Vector γ n) (i : Fin n) (x : γ) :
    put? xs.toArray i.val x = some (xs.set i.val x i.isLt).toArray := by
  simp [put?]

theorem getElem?_looseAll (links : Vector (Link n) n) (i : Fin n) :
    (Link.looseAll links)[i.val]? = some (links.get i).loose := by
  simp [Link.looseAll, Vector.get]

theorem put?_looseAll (links : Vector (Link n) n) (i : Fin n) (l : Link n) :
    put? (Link.looseAll links) i.val l.loose =
      some (Link.looseAll (links.set i.val l i.isLt)) := by
  rw [Link.looseAll, put?_toArray, Link.looseAll, Vector.map_set]

theorem change?_looseAll (links : Vector (Link n) n) (i? : Option (Fin n)) (f : Link n → Link n)
    {g : LooseLink → LooseLink} (same : ∀ l, g l.loose = (f l).loose) :
    change? (Link.looseAll links) (i?.map Fin.val) g =
      some (Link.looseAll (i?.elim links fun i => links.set i.val (f (links.get i)) i.isLt)) := by
  cases i? with
  | none => rfl
  | some i =>
    rw [Option.map_some, change?, getElem?_looseAll, Option.bind_eq_bind, Option.bind_some, same]
    exact put?_looseAll links i (f (links.get i))

theorem change?_next (links : Vector (Link n) n) (i? next : Option (Fin n)) :
    change? (Link.looseAll links) (i?.map Fin.val) ({ · with next := next.map Fin.val }) =
      some (Link.looseAll (Link.setNext links i? next)) := by
  rw [change?_looseAll links i? ({ · with next }) fun _ => rfl]
  cases i? <;> rfl

theorem change?_prev (links : Vector (Link n) n) (i? prev : Option (Fin n)) :
    change? (Link.looseAll links) (i?.map Fin.val) ({ · with prev := prev.map Fin.val }) =
      some (Link.looseAll (Link.setPrev links i? prev)) := by
  rw [change?_looseAll links i? ({ · with prev }) fun _ => rfl]
  cases i? <;> rfl

end

theorem minus?_of_le {count less : Nat} (h : less ≤ count) :
    minus? count less = some (count - less) :=
  if_pos h

theorem slice?_of_le {γ : Type} {xs : Array γ} {first last : Nat} (h : first ≤ last)
    (h' : last ≤ xs.size) : slice? xs first last = some ((xs.toList.take last).drop first) := by
  rw [slice?, if_pos ⟨h, h'⟩, Array.toList_extract, List.extract_eq_take_drop, List.drop_take]

/-! ## Chains that keep the promises -/

theorem links_full (n : Nat) (hasSource hasTarget : Bool) :
    (Array.range n).map (fun i => (⟨minus? i 1, (some (i + 1)).filter (· < n)⟩ : LooseLink)) =
      Link.looseAll (Chain.full n hasSource hasTarget).links := by
  apply Array.ext
  · simp [Link.looseAll]
  · intro i h h'
    have prev : (Chain.pred? (⟨i, by simpa using h⟩ : Fin n)).map Fin.val = minus? i 1 := by
      unfold Chain.pred? minus?
      split <;> simp_all [Nat.succ_le_iff]
    have next : (Chain.succ? (⟨i, by simpa using h⟩ : Fin n)).map Fin.val =
        (some (i + 1)).filter (· < n) := by
      unfold Chain.succ?
      split <;> simp_all [Option.filter]
    simp [Link.looseAll, Link.loose, Chain.full, prev, next]

section
variable {β : Type} {nodes : List β}

theorem ofPoints_eq (source? : Option β) (points : List β) (target? : Option β) :
    ofPoints source? points target? =
      (Chain.full _ source?.isSome target?.isSome).loose
        (source?.toList ++ points ++ target?.toList) := by
  unfold ofPoints
  simp only [List.size_toArray]
  rw [links_full _ source?.isSome target?.isSome]
  rfl

variable {c : Chain nodes.length}

theorem getElem?_links_loose (i : Fin nodes.length) :
    (c.loose nodes).links[i.val]? = some ⟨(c.prev? i).map Fin.val, (c.next? i).map Fin.val⟩ :=
  getElem?_looseAll c.links i

theorem getElem?_nodes_loose (i : Fin nodes.length) :
    (c.loose nodes).nodes[i.val]? = some (nodes.get i) := by
  simp [Chain.loose]

theorem isAnchor_loose (i : Fin nodes.length) :
    (c.loose nodes).isAnchor i.val = c.isAnchor i := by
  simp [isAnchor, Chain.isAnchor, Chain.loose]

/-- Taking out a place when there are places left to count. -/
theorem unlink_loose (counted : 0 < c.alive) (i : Fin nodes.length) :
    (c.loose nodes).unlink i.val = some ((c.unlink i).loose nodes) := by
  have alive : minus? c.alive 1 = some (c.alive - 1) := minus?_of_le counted
  simp only [unlink, Chain.loose, getElem?_looseAll, Link.loose, change?_next,
    change?_prev, put?_toArray, alive, Option.bind_eq_bind, Option.bind_some]
  rfl

/-- A visit when a place that goes is counted. -/
theorem visit_loose (angle : β → β → β → Float) (threshold : Float) {i : Fin nodes.length}
    (counted : (c.visit (Thinning.angleOf nodes.get angle) threshold i).2 = [] ∨ 0 < c.alive) :
    (c.loose nodes).visit angle threshold i.val =
      let visited := c.visit (Thinning.angleOf nodes.get angle) threshold i
      some (visited.1.loose nodes, visited.2.numbers) := by
  unfold visit
  rw [getElem?_links_loose]
  cases hp : c.prev? i with
  | none =>
    rw [Chain.visit_first _ _ hp]
    rfl
  | some a =>
    cases hn : c.next? i with
    | none =>
      rw [Chain.visit_last _ _ hn]
      rfl
    | some b =>
      rw [Chain.visit_between _ _ hp hn] at counted ⊢
      simp only [Option.bind_eq_bind, Option.bind_some, Option.map_some, isAnchor_loose,
        Chain.isAnchor_eq_false_of_between hp hn, Bool.false_eq_true, if_false,
        getElem?_nodes_loose]
      by_cases goes : threshold ≤ angle (nodes.get a) (nodes.get i) (nodes.get b)
      · rw [if_pos goes] at counted
        rw [if_pos goes, if_pos goes, unlink_loose (counted.resolve_left (List.cons_ne_nil _ _))]
        rfl
      · rw [if_neg goes, if_neg goes]
        rfl

/-- The flags of the points when the anchors are among the places. -/
theorem survivors_loose (room : c.hasSource.toNat + c.hasTarget.toNat ≤ nodes.length) :
    (c.loose nodes).survivors = some c.survivors := by
  have last : minus? nodes.toArray.size c.hasTarget.toNat =
      some (nodes.length - c.hasTarget.toNat) := minus?_of_le (by simp; omega)
  have flags : slice? c.removed.toArray c.hasSource.toNat (nodes.length - c.hasTarget.toNat) =
      some ((c.removed.toList.take (nodes.length - c.hasTarget.toNat)).drop c.hasSource.toNat) :=
    slice?_of_le (by omega) (by simp)
  rw [Chain.survivors_eq, Chain.present, ← List.map_take, ← List.map_drop]
  simp only [survivors, Chain.loose, last, flags, Option.bind_eq_bind, Option.bind_some]
  rfl

end

end LooseChain

end RouteGeometry
