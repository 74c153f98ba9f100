import RouteGeometry.Proofs.Polyline.Anchors
import RouteGeometry.Proofs.Polyline.Shortcut
import RouteGeometry.Proofs.Segment.Inside

/-! # What default normalization leaves

Taking shortcuts as long as there are any ends with the same polyline whichever of them is taken
first, and that polyline can be read off without taking any: points that repeat the one before them
go, and of the others those go that lie strictly between the points next to them. -/

namespace RouteGeometry

/-! ## The closed form -/

namespace Polyline

/-- The points of a list that follows `left`, but for those strictly between the points
before and after them. -/
def bendsAfter (left : Point Rat 2) : List (Point Rat 2) → List (Point Rat 2)
  | [] => []
  | [x] => [x]
  | x :: next :: rest =>
    if (⟨left, next⟩ : Segment Rat).Inside x then bendsAfter x (next :: rest)
    else x :: bendsAfter x (next :: rest)

/-- The first point, the bends and the last point of a list in which no point is repeated at
once. One point is the first and the last one. -/
def endsAndBends : List (Point Rat 2) → List (Point Rat 2)
  | [] => []
  | [p] => [p, p]
  | p :: q :: rest => p :: bendsAfter p (q :: rest)

/-- The ends and the bends of a polyline, once repeated points count as one. -/
def straightened (l : Polyline Rat) : Polyline Rat := ⟨endsAndBends l.unify.points⟩

/-! ### Repeated points -/

section
variable {a x b : Point Rat 2}

theorem equal_rat_iff : a.equal b = true ↔ a = b :=
  Point.equal_iff (Point.toRat?_rat a) (Point.toRat?_rat b)

theorem withoutRepeats_cons_self (l : List (Point Rat 2)) :
    withoutRepeats a (a :: l) = withoutRepeats a l := by
  rw [withoutRepeats, if_pos (equal_rat_iff.2 rfl)]

theorem withoutRepeats_cons_of_ne (h : x ≠ a) (l : List (Point Rat 2)) :
    withoutRepeats a (x :: l) = x :: withoutRepeats x l := by
  rw [withoutRepeats, if_neg (mt equal_rat_iff.1 h)]

theorem withoutRepeats_cons_cons_self (l : List (Point Rat 2)) :
    withoutRepeats a (b :: b :: l) = withoutRepeats a (b :: l) := by
  by_cases h : b = a
  · rw [h, withoutRepeats_cons_self]
  · rw [withoutRepeats_cons_of_ne h, withoutRepeats_cons_of_ne h, withoutRepeats_cons_self]

/-- What comes after a point does not change which points are left up to it. -/
theorem exists_unify_append (before : List (Point Rat 2)) (a : Point Rat 2) :
    ∃ front, ∀ l, (⟨before ++ a :: l⟩ : Polyline Rat).unify.points =
      front ++ a :: withoutRepeats a l := by
  cases before with
  | nil => exact ⟨[], fun _ => rfl⟩
  | cons p before =>
    change ∃ front, ∀ l, p :: withoutRepeats p (before ++ a :: l) = front ++ a :: withoutRepeats a l
    induction before generalizing p with
    | nil =>
      by_cases h : a = p
      · subst h
        exact ⟨[], fun l => congrArg (a :: ·) (withoutRepeats_cons_self l)⟩
      · exact ⟨[p], fun l => congrArg (p :: ·) (withoutRepeats_cons_of_ne h l)⟩
    | cons q before ih =>
      by_cases h : q = p
      · subst h
        obtain ⟨front, unified⟩ := ih q
        refine ⟨front, fun l => ?_⟩
        rw [← unified, List.cons_append, withoutRepeats_cons_self]
      · obtain ⟨front, unified⟩ := ih q
        refine ⟨p :: front, fun l => ?_⟩
        rw [List.cons_append, withoutRepeats_cons_of_ne h, unified, List.cons_append]

end

/-! ### Points strictly between their neighbours -/

theorem bendsAfter_cons_cons (left x next : Point Rat 2) (rest : List (Point Rat 2)) :
    bendsAfter left (x :: next :: rest) =
      if (⟨left, next⟩ : Segment Rat).Inside x then bendsAfter x (next :: rest)
      else x :: bendsAfter x (next :: rest) := rfl

section
variable {a x b : Point Rat 2} (h : (⟨a, b⟩ : Segment Rat).Inside x)

include h

theorem bendsAfter_of_inside (rest : List (Point Rat 2)) :
    bendsAfter a (x :: b :: rest) = bendsAfter a (b :: rest) := by
  rw [bendsAfter_cons_cons, if_pos h]
  cases rest with
  | nil => rfl
  | cons c rest =>
    rw [bendsAfter_cons_cons, bendsAfter_cons_cons]
    exact if_congr (Segment.inside_start_iff h) rfl rfl

theorem bendsAfter_append (left : Point Rat 2) (front rest : List (Point Rat 2)) :
    bendsAfter left (front ++ a :: x :: b :: rest) = bendsAfter left (front ++ a :: b :: rest) := by
  induction front generalizing left with
  | nil =>
    rw [List.nil_append, List.nil_append, bendsAfter_cons_cons left, bendsAfter_of_inside h,
      bendsAfter_cons_cons left]
    exact if_congr (Segment.inside_finish_iff h) rfl rfl
  | cons p front ih =>
    -- The point after `p` is the same on both sides.
    cases front with
    | nil => exact congrArg (fun bends => if (⟨left, a⟩ : Segment Rat).Inside p then bends
        else p :: bends) (ih p)
    | cons q front => exact congrArg (fun bends => if (⟨left, q⟩ : Segment Rat).Inside p then bends
        else p :: bends) (ih p)

/-- A point strictly between its neighbours makes no difference. -/
theorem endsAndBends_append (front rest : List (Point Rat 2)) :
    endsAndBends (front ++ a :: x :: b :: rest) = endsAndBends (front ++ a :: b :: rest) := by
  match front with
  | [] => exact congrArg (a :: ·) (bendsAfter_of_inside h rest)
  | [p] => exact congrArg (p :: ·) (bendsAfter_append h p [] rest)
  | p :: q :: front => exact congrArg (p :: ·) (bendsAfter_append h p (q :: front) rest)

end

/-! ### Shortcuts -/

theorem Shortcut.straightened_eq {l m : Polyline Rat} (h : l.Shortcut m) :
    m.straightened = l.straightened := by
  cases h with
  | @between before after a x b covers =>
    obtain ⟨front, unified⟩ := exists_unify_append before a
    rw [straightened, straightened, unified, unified]
    by_cases first : x = a
    · rw [first, withoutRepeats_cons_self]
    · by_cases second : x = b
      · rw [second, withoutRepeats_cons_cons_self]
      · have inside : (⟨a, b⟩ : Segment Rat).Inside x := ⟨covers, first, second⟩
        have apart : b ≠ a := by
          rintro rfl
          exact Segment.not_inside_self b x inside
        rw [withoutRepeats_cons_of_ne first, withoutRepeats_cons_of_ne (Ne.symm second),
          withoutRepeats_cons_of_ne apart, endsAndBends_append inside]

theorem straightened_eq_of_shortcuts {l m : Polyline Rat}
    (run : Relation.ReflTransGen Shortcut l m) : m.straightened = l.straightened := by
  induction run with
  | refl => rfl
  | tail _ shortcut ih => exact shortcut.straightened_eq.trans ih

theorem two_le_size_of_shortcuts {l m : Polyline Rat} (h : 2 ≤ l.size)
    (run : Relation.ReflTransGen Shortcut l m) : 2 ≤ m.size := by
  cases run with
  | refl => exact h
  | tail _ shortcut => exact shortcut.two_le_size

/-- In a taut polyline every point between two others is a bend, away from the one before. -/
theorem Taut.cons_bend {p q r : Point Rat 2} {rest : List (Point Rat 2)}
    (h : Taut ⟨p :: q :: r :: rest⟩) :
    withoutRepeats p (q :: r :: rest) = q :: withoutRepeats q (r :: rest) ∧
      bendsAfter p (q :: r :: rest) = q :: bendsAfter q (r :: rest) := by
  constructor
  · apply withoutRepeats_cons_of_ne
    rintro rfl
    exact h.not_covers (Segment.covers_start ⟨q, r⟩)
  · rw [bendsAfter_cons_cons, if_neg]
    intro inside
    exact h.not_covers inside.1

theorem Taut.bends {p q r : Point Rat 2} {rest : List (Point Rat 2)}
    (h : Taut ⟨p :: q :: r :: rest⟩) :
    withoutRepeats p (q :: r :: rest) = q :: r :: rest ∧
      bendsAfter p (q :: r :: rest) = q :: r :: rest := by
  obtain ⟨moves, bend⟩ := h.cons_bend
  rw [moves, bend]
  induction rest generalizing p q r with
  | nil =>
    have apart : r ≠ q := by
      rintro rfl
      exact h.not_covers (Segment.covers_finish ⟨p, r⟩)
    rw [withoutRepeats_cons_of_ne apart]
    exact ⟨rfl, rfl⟩
  | cons s rest ih =>
    obtain ⟨moves', bend'⟩ := h.tail.cons_bend
    obtain ⟨once, bends⟩ := ih h.tail moves' bend'
    rw [moves', once, bend', bends]
    exact ⟨rfl, rfl⟩

theorem Taut.straightened_eq {l : Polyline Rat} (h : l.Taut) (long : 2 ≤ l.size) :
    l.straightened = l := by
  obtain ⟨points⟩ := l
  match points with
  | [p, q] =>
    change (⟨endsAndBends (p :: withoutRepeats p [q])⟩ : Polyline Rat) = _
    by_cases same : q = p
    · rw [same, withoutRepeats_cons_self]
      rfl
    · rw [withoutRepeats_cons_of_ne same]
      rfl
  | p :: q :: r :: rest =>
    obtain ⟨once, bends⟩ := h.bends
    change (⟨endsAndBends (p :: withoutRepeats p (q :: r :: rest))⟩ : Polyline Rat) = _
    rw [once, endsAndBends, bends]

/-- Whatever shortcuts are taken, once there are no more the ends and bends are left. -/
theorem eq_straightened_of_taut {l m : Polyline Rat} (long : 2 ≤ l.size)
    (run : Relation.ReflTransGen Shortcut l m) (taut : m.Taut) : m = l.straightened := by
  rw [← straightened_eq_of_shortcuts run, taut.straightened_eq (two_le_size_of_shortcuts long run)]

/-- All shortcuts can be taken, and then the ends and bends are left. -/
theorem shortcuts_straightened {l : Polyline Rat} (long : 2 ≤ l.size) :
    Relation.ReflTransGen Shortcut l l.straightened ∧ l.straightened.Taut := by
  have value : (⟨l.points⟩ : Polyline Rat).toRat? = some l :=
    toRat?_eq_some_iff.2 (List.map_congr_left fun p _ => Point.toRat?_rat p)
  -- Thinning the points themselves takes them, whatever the arctangent.
  obtain ⟨m, hm, run⟩ := drops_shortcuts
    (Thinning.thin_drops (interiorAngle fun _ x => x) pi l.points) value
  have taut := taut_of_settled (Thinning.thin_settled (interiorAngle fun _ x => x) pi l.points) hm
  rw [← eq_straightened_of_taut long run taut]
  exact ⟨run, taut⟩

/-! ### Backwards -/

theorem Shortcut.reverse {l m : Polyline Rat} (h : l.Shortcut m) :
    l.reverse.Shortcut m.reverse := by
  cases h with
  | between before after covers =>
    have back := Shortcut.between after.reverse before.reverse (Segment.covers_comm.1 covers)
    simpa [Polyline.reverse] using back

theorem reverse_reverse {α : Type} (l : Polyline α) : l.reverse.reverse = l := by
  simp [reverse]

theorem size_reverse {α : Type} (l : Polyline α) : l.reverse.size = l.size :=
  List.length_reverse

theorem Taut.reverse {l : Polyline Rat} (h : l.Taut) : l.reverse.Taut := by
  intro m shortcut
  have back := shortcut.reverse
  rw [reverse_reverse] at back
  exact h _ back

theorem straightened_reverse {l : Polyline Rat} (long : 2 ≤ l.size) :
    l.reverse.straightened = l.straightened.reverse := by
  obtain ⟨run, taut⟩ := shortcuts_straightened long
  have back : Relation.ReflTransGen Shortcut l.reverse l.straightened.reverse :=
    run.lift Polyline.reverse fun _ _ => Shortcut.reverse
  rw [← size_reverse] at long
  exact (eq_straightened_of_taut long back taut.reverse).symm

end Polyline

/-! ## Default normalization -/

/-- The same with the anchors changed over. -/
def Normalization.swap {α : Type} (n : Normalization α) : Normalization α :=
  { n with source? := n.target?, target? := n.source? }

theorem Normalization.withoutAnchors_swap {α β : Type} (n : Normalization α) (nodes : List β) :
    n.swap.withoutAnchors nodes.reverse = (n.withoutAnchors nodes).reverse := by
  unfold withoutAnchors swap
  cases n.source? <;> cases n.target? <;> simp [List.tail_dropLast]

namespace Polyline

theorem nodes_swap {α : Type} (l : Polyline α) (n : Normalization α) :
    l.reverse.nodes n.swap = (l.nodes n).reverse := by
  unfold nodes Normalization.swap reverse
  cases n.source? <;> cases n.target? <;> simp

section
variable {α : Type} [Coordinate α]

theorem toRat?_reverse {l : Polyline α} {m : Polyline Rat} (h : l.toRat? = some m) :
    l.reverse.toRat? = some m.reverse := by
  rw [toRat?_eq_some_iff] at h ⊢
  rw [reverse, reverse, List.map_reverse, List.map_reverse, h]

theorem size_eq_of_toRat? {l : Polyline α} {m : Polyline Rat} (h : l.toRat? = some m) :
    l.size = m.size := by
  have lengths := congrArg List.length (toRat?_eq_some_iff.1 h)
  rwa [List.length_map, List.length_map] at lengths

theorem toRat?_withoutAnchors {l : Polyline α} {n : Normalization α} {values : Polyline Rat}
    (h : (⟨l.nodes n⟩ : Polyline α).toRat? = some values) :
    l.toRat? = some ⟨n.withoutAnchors values.points⟩ := by
  rw [toRat?_eq_some_iff] at h ⊢
  rw [← withoutAnchors_nodes l n, ← Normalization.withoutAnchors_map, h,
    Normalization.withoutAnchors_map]

theorem two_le_size_of_nodes {l : Polyline α} (h : 2 ≤ l.size) {n : Normalization α}
    {values : Polyline Rat} (exact : (⟨l.nodes n⟩ : Polyline α).toRat? = some values) :
    2 ≤ values.size := by
  rw [← size_eq_of_toRat? exact]
  exact two_le_size_nodes h n

section
variable [Coordinate.Faithful α] (arctan₂ : Float → Float → Float) {l : Polyline α}
  (h : 2 ≤ l.size) {n : Normalization α} (straight : n.minAngle = .straight)
  {before : Polyline Rat} (exact : (⟨l.nodes n⟩ : Polyline α).toRat? = some before)

include h straight exact

/-- Default normalization leaves the ends and bends of the nodes. -/
theorem nodes_normalizeUsing_straight :
    (⟨(l.normalizeUsing arctan₂ n).polyline.nodes n⟩ : Polyline α).toRat? =
      some before.straightened := by
  rw [normalizeUsing, nodes_normalizeBy (interiorAngle arctan₂) h n, straight]
  obtain ⟨after, value, run⟩ := drops_shortcuts
    (Thinning.thin_drops (interiorAngle arctan₂) pi (l.nodes n)) exact
  have taut := taut_of_settled (Thinning.thin_settled (interiorAngle arctan₂) pi (l.nodes n)) value
  rw [← eq_straightened_of_taut (two_le_size_of_nodes h exact) run taut]
  exact value

theorem points_normalizeUsing_straight :
    (l.normalizeUsing arctan₂ n).polyline.toRat? =
      some ⟨n.withoutAnchors before.straightened.points⟩ :=
  toRat?_withoutAnchors (nodes_normalizeUsing_straight arctan₂ h straight exact)

/-- Backwards, with the anchors changed over, default normalization leaves the same points. -/
theorem points_normalizeUsing_reverse :
    (l.reverse.normalizeUsing arctan₂ n.swap).polyline.toRat? =
      some ⟨(n.withoutAnchors before.straightened.points).reverse⟩ := by
  have h' : 2 ≤ l.reverse.size := l.size_reverse ▸ h
  have straight' : n.swap.minAngle = .straight := straight
  have exact' : (⟨l.reverse.nodes n.swap⟩ : Polyline α).toRat? = some before.reverse := by
    rw [nodes_swap]
    exact toRat?_reverse exact
  have turned : n.swap.withoutAnchors before.straightened.reverse.points =
      (n.withoutAnchors before.straightened.points).reverse :=
    n.withoutAnchors_swap before.straightened.points
  rw [points_normalizeUsing_straight arctan₂ h' straight' exact',
    straightened_reverse (two_le_size_of_nodes h exact), turned]

end

end

/-- **Default normalization has a closed form.** By their exact values the nodes that are left
are the ends and bends of all nodes: those that do not repeat the node before them and do not
lie strictly between the nodes next to them, when repeated nodes count as one; where all nodes
are equal, the first and the last one. The first and the last node stay themselves. The points
that are left are these nodes without the anchors, and backwards, with the anchors changed
over, the same points are left. -/
theorem normalizeUsing_straightens {k : CoordinateKind} (arctan₂ : Float → Float → Float)
    {l : Polyline k.Carrier} (h : 2 ≤ l.size) {n : Normalization k.Carrier}
    (straight : n.minAngle = .straight) {before : Polyline Rat}
    (exact : (⟨l.nodes n⟩ : Polyline k.Carrier).toRat? = some before) :
    let result := (l.normalizeUsing arctan₂ n).polyline
    let backwards := (l.reverse.normalizeUsing arctan₂ n.swap).polyline
    (⟨result.nodes n⟩ : Polyline k.Carrier).toRat? = some before.straightened ∧
      (result.nodes n).head? = (l.nodes n).head? ∧
      (result.nodes n).getLast? = (l.nodes n).getLast? ∧
      result.toRat? = some ⟨n.withoutAnchors before.straightened.points⟩ ∧
      backwards.toRat? = result.toRat?.map reverse := by
  intro result backwards
  have points := points_normalizeUsing_straight arctan₂ h straight exact
  have thinned : result.nodes n =
      (Thinning.thin (interiorAngle arctan₂) n.minAngle.radians (l.nodes n)).1 :=
    nodes_normalizeBy (interiorAngle arctan₂) h n
  refine ⟨nodes_normalizeUsing_straight arctan₂ h straight exact, ?_, ?_, points, ?_⟩
  · rw [thinned]
    exact Thinning.head?_thin _ _ _
  · rw [thinned]
    exact Thinning.getLast?_thin _ _ _
  · rw [points]
    exact points_normalizeUsing_reverse arctan₂ h straight exact

/-- Repeated ends, an anchor at the first point and a way back on the same line. -/
theorem normalizeUsing_straightens_spike :
    let l : Polyline Int := ⟨[.plane 0 0, .plane 1 0, .plane 1 0, .plane 3 0, .plane 2 0,
      .plane 2 5, .plane 2 5]⟩
    let n : Normalization Int := { source? := some (.plane 0 0), target? := some (.plane 2 9) }
    let result := (l.normalizeUsing Float.atan2 n).polyline
    let backwards := (l.reverse.normalizeUsing Float.atan2 n.swap).polyline
    2 ≤ l.size ∧ n.minAngle = .straight ∧
      (⟨result.nodes n⟩ : Polyline Int).toRat? =
        some ⟨[.plane 0 0, .plane 3 0, .plane 2 0, .plane 2 9]⟩ ∧
      result.toRat? = some ⟨[.plane 3 0, .plane 2 0]⟩ ∧
      backwards.toRat? = some ⟨[.plane 2 0, .plane 3 0]⟩ := by
  intro l n result backwards
  have long : 2 ≤ l.size := by decide
  have value : (⟨l.nodes n⟩ : Polyline Int).toRat? = some ⟨[.plane 0 0, .plane 0 0, .plane 1 0,
      .plane 1 0, .plane 3 0, .plane 2 0, .plane 2 5, .plane 2 5, .plane 2 9]⟩ := rfl
  have closed : (⟨[.plane 0 0, .plane 0 0, .plane 1 0, .plane 1 0, .plane 3 0, .plane 2 0,
      .plane 2 5, .plane 2 5, .plane 2 9]⟩ : Polyline Rat).straightened =
        ⟨[.plane 0 0, .plane 3 0, .plane 2 0, .plane 2 9]⟩ :=
    congrArg Polyline.mk (by decide +kernel)
  obtain ⟨nodes, -, -, points, back⟩ :=
    normalizeUsing_straightens (k := .integer) Float.atan2 long rfl value
  rw [closed] at nodes points
  refine ⟨long, rfl, nodes, points, ?_⟩
  rw [points] at back
  exact back

end Polyline

end RouteGeometry
