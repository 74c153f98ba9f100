import Mathlib.Data.List.Forall2
import RouteGeometry.Proofs.Bend
import RouteGeometry.Proofs.Polyline.Places

/-! # Normalizing does not depend on the type of coordinates

Integers, rationals and floating-point numbers decide about a bend in ways of their own. Where two
types hold the same values they decide alike, bend by bend, and so in every sweep. -/

namespace RouteGeometry

/-! ## Agreeing points -/

/-- Two coordinates, maybe of different types, have the same exact value and the same number
of 64 bits nearest to it, bit for bit. -/
structure Coordinate.Agree {α β : Type} [Coordinate α] [Coordinate β] (a : α) (b : β) : Prop where
  value : ∃ x, toRat? a = some x ∧ toRat? b = some x
  toFloat_eq : toFloat a = toFloat b

/-- Two planar points agree when both coordinates do. -/
structure Point.Agree {α β : Type} [Coordinate α] [Coordinate β] (p : Point α 2)
    (q : Point β 2) : Prop where
  x : Coordinate.Agree p.x q.x
  y : Coordinate.Agree p.y q.y

section
variable {α β : Type} [Coordinate α] [Coordinate β]

theorem Coordinate.agree_iff {a : α} {b : β} :
    Agree a b ↔ (toRat? a).isSome = true ∧ toRat? a = toRat? b ∧ toFloat a = toFloat b := by
  rw [Option.isSome_iff_exists]
  constructor
  · rintro ⟨⟨x, hx, hx'⟩, same⟩
    exact ⟨⟨x, hx⟩, hx.trans hx'.symm, same⟩
  · rintro ⟨⟨x, hx⟩, equal, same⟩
    exact ⟨⟨x, hx, equal ▸ hx⟩, same⟩

instance (a : α) (b : β) : Decidable (Coordinate.Agree a b) :=
  decidable_of_iff' _ Coordinate.agree_iff

instance (p : Point α 2) (q : Point β 2) : Decidable (p.Agree q) :=
  decidable_of_iff (Coordinate.Agree p.x q.x ∧ Coordinate.Agree p.y q.y)
    ⟨fun h => ⟨h.1, h.2⟩, fun h => ⟨h.x, h.y⟩⟩

theorem Point.Agree.value {p : Point α 2} {q : Point β 2} (h : p.Agree q) :
    ∃ v, p.toRat? = some v ∧ q.toRat? = some v := by
  obtain ⟨x, hx, hx'⟩ := h.x.value
  obtain ⟨y, hy, hy'⟩ := h.y.value
  exact ⟨plane x y, toRat?_eq_some_iff.2 ⟨hx, hy⟩, toRat?_eq_some_iff.2 ⟨hx', hy'⟩⟩

theorem Point.Agree.toFloat_eq {p : Point α 2} {q : Point β 2} (h : p.Agree q) :
    p.toFloat = q.toFloat := by
  apply plane_ext
  · rw [Point.toFloat, Point.toFloat, x_map, x_map, h.x.toFloat_eq]
  · rw [Point.toFloat, Point.toFloat, y_map, y_map, h.y.toFloat_eq]

theorem interiorAngle_agree [Coordinate.Faithful α] [Coordinate.Faithful β]
    (arctan₂ : Float → Float → Float) {a p b : Point α 2} {a' p' b' : Point β 2}
    (ha : a.Agree a') (hp : p.Agree p') (hb : b.Agree b') :
    interiorAngle arctan₂ a p b = interiorAngle arctan₂ a' p' b' := by
  obtain ⟨va, hva, hva'⟩ := ha.value
  obtain ⟨vp, hvp, hvp'⟩ := hp.value
  obtain ⟨vb, hvb, hvb'⟩ := hb.value
  have still : (a.equal p || p.equal b) = (a'.equal p' || p'.equal b') :=
    Bool.eq_iff_iff.2 ((still_iff hva hvp hvb).trans (still_iff hva' hvp' hvb').symm)
  have cross : Coordinate.crossSign a p p b = Coordinate.crossSign a' p' p' b' := by
    rw [Coordinate.Faithful.crossSign_eq hva hvp hvp hvb,
      Coordinate.Faithful.crossSign_eq hva' hvp' hvp' hvb']
  have way : sameWay a p b = sameWay a' p' b' :=
    Bool.eq_iff_iff.2 ((sameWay_iff hva hvp hvb).trans (sameWay_iff hva' hvp' hvb').symm)
  have turn : turnAngle arctan₂ a p b = turnAngle arctan₂ a' p' b' := by
    rw [turnAngle, turnAngle, ha.toFloat_eq, hp.toFloat_eq, hb.toFloat_eq]
  rw [interiorAngle, interiorAngle, still, cross, way, turn]

end

/-! ## Lists whose elements correspond -/

section
variable {β γ : Type} {R : β → γ → Prop}

/-- Corresponding lists are both sides of one list of pairs. -/
theorem exists_pairs {xs : List β} {ys : List γ} (h : List.Forall₂ R xs ys) :
    ∃ pairs : List { c : β × γ // R c.1 c.2 },
      xs = pairs.map (fun c => c.1.1) ∧ ys = pairs.map (fun c => c.1.2) := by
  induction h with
  | nil => exact ⟨[], rfl, rfl⟩
  | @cons x y xs ys hxy _ ih =>
    obtain ⟨pairs, hxs, hys⟩ := ih
    exact ⟨⟨(x, y), hxy⟩ :: pairs, congrArg (x :: ·) hxs, congrArg (y :: ·) hys⟩

theorem forall₂_toList {x? : Option β} {y? : Option γ} (h : Option.Rel R x? y?) :
    List.Forall₂ R x?.toList y?.toList := by
  cases h with
  | none => exact .nil
  | some hxy => exact .cons hxy .nil

end

/-! ## The places at which elements are dropped -/

namespace Thinning

section
variable {ι κ : Type} (threshold : Float)

/-- What each sweep of thinning drops: the places in the whole list, with the angles. -/
def report (angle : ι → ι → ι → Float) (l : List ι) : List (List (Nat × Float)) :=
  (thin (angleOf Prod.fst angle) threshold l.zipIdx).2.map (List.map (Prod.map Prod.snd id))

theorem report_map (f : ι → κ) (angle : κ → κ → κ → Float) (l : List ι) :
    report threshold angle (l.map f) = report threshold (angleOf f angle) l := by
  rw [report, List.zipIdx_map, thin_map, report, List.map_map]
  apply List.map_congr_left
  intro dropped _
  rw [Function.comp_apply, renamed, List.map_map]
  rfl

theorem length_report (angle : ι → ι → ι → Float) (l : List ι) :
    (report threshold angle l).length = (thin angle threshold l).2.length := by
  have numbered := thin_map Prod.fst angle threshold l.zipIdx
  rw [List.zipIdx_map_fst] at numbered
  rw [numbered, report, List.length_map, List.length_map]

/-- Lists that correspond in such a way that angles are the same have the same report. -/
theorem report_eq_of_forall₂ {angle : ι → ι → ι → Float} {angle' : κ → κ → κ → Float}
    {R : ι → κ → Prop}
    (same : ∀ ⦃a p b a' p' b'⦄, R a a' → R p p' → R b b' → angle a p b = angle' a' p' b')
    {l : List ι} {m : List κ} (h : List.Forall₂ R l m) :
    report threshold angle l = report threshold angle' m := by
  obtain ⟨pairs, rfl, rfl⟩ := exists_pairs h
  have angles : angleOf (fun c : { c : ι × κ // R c.1 c.2 } => c.1.1) angle =
      angleOf (fun c => c.1.2) angle' := by
    funext a p b
    exact same a.2 p.2 b.2
  rw [report_map, report_map, angles]

end

end Thinning

namespace Polyline

section
variable {α : Type} (angle : Point α 2 → Point α 2 → Point α 2 → Float)

/-- The places are those that thinning the nodes reports, counted without the source. -/
theorem places_normalizeBy {l : Polyline α} (h : 2 ≤ l.size) (n : Normalization α) :
    (l.normalizeBy angle n).places =
      (Thinning.report n.minAngle.radians angle (l.nodes n)).flatten.map fun place =>
        (place.1 - n.source?.toList.length, place.2) := by
  rw [Normalized.places, removals_normalizeBy_of_places angle h, Thinning.report,
    ← List.map_flatten, List.map_map, List.map_map]
  rfl

end

section
variable {α β : Type} {angle : Point α 2 → Point α 2 → Point α 2 → Float}
  {angle' : Point β 2 → Point β 2 → Point β 2 → Float} {R : Point α 2 → Point β 2 → Prop}
  (same : ∀ ⦃a p b a' p' b'⦄, R a a' → R p p' → R b b' → angle a p b = angle' a' p' b')
  {l : Polyline α} {m : Polyline β} {n : Normalization α} {n' : Normalization β}
  (points : List.Forall₂ R l.points m.points) (source : Option.Rel R n.source? n'.source?)
  (target : Option.Rel R n.target? n'.target?) (threshold : n.minAngle = n'.minAngle)

include same points source target threshold

/-- Polylines whose angles are the same lose points at the same places in as many sweeps. -/
theorem normalizeBy_agree :
    (l.normalizeBy angle n).places = (m.normalizeBy angle' n').places ∧
      (l.normalizeBy angle n).summary? = (m.normalizeBy angle' n').summary? := by
  have size : l.size = m.size := points.length_eq
  by_cases h : 2 ≤ l.size
  · have h' : 2 ≤ m.size := size ▸ h
    have nodes : List.Forall₂ R (l.nodes n) (m.nodes n') :=
      List.rel_append (List.rel_append (forall₂_toList source) points) (forall₂_toList target)
    have reports := Thinning.report_eq_of_forall₂ n.minAngle.radians same nodes
    have places : (l.normalizeBy angle n).places = (m.normalizeBy angle' n').places := by
      rw [places_normalizeBy angle h, places_normalizeBy angle' h', reports, threshold,
        (forall₂_toList source).length_eq]
    refine ⟨places, ?_⟩
    rw [summary?_normalizeBy angle h, summary?_normalizeBy angle' h', size_normalizeBy,
      size_normalizeBy, Normalized.kept_eq_of_places places, size, ← Thinning.length_report,
      ← Thinning.length_report, reports, threshold]
  · rw [normalizeBy_of_size_lt_two angle (by omega), normalizeBy_of_size_lt_two angle' (by omega)]
    exact ⟨rfl, rfl⟩

end

/-- **Normalizing does not depend on the type of coordinates.** Polylines of any two types,
with anchors on the same sides, whose points agree in order lose and keep points at the same
places: they are taken out in the same order, with the same interior angles and in as many
sweeps. -/
theorem normalizeUsing_agree {k j : CoordinateKind} (arctan₂ : Float → Float → Float)
    {l : Polyline k.Carrier} {m : Polyline j.Carrier} {n : Normalization k.Carrier}
    {n' : Normalization j.Carrier} (points : List.Forall₂ Point.Agree l.points m.points)
    (source : Option.Rel Point.Agree n.source? n'.source?)
    (target : Option.Rel Point.Agree n.target? n'.target?) (threshold : n.minAngle = n'.minAngle) :
    let result := l.normalizeUsing arctan₂ n
    let result' := m.normalizeUsing arctan₂ n'
    result.places = result'.places ∧
      result.kept l.size = result'.kept m.size ∧
      result.polyline.points.map some = (result.kept l.size).map (fun i => l.points[i]?) ∧
      result'.polyline.points.map some = (result'.kept m.size).map (fun i => m.points[i]?) ∧
      result.summary? = result'.summary? := by
  intro result result'
  obtain ⟨places, sweeps⟩ := normalizeBy_agree (fun _ _ _ _ _ _ => interiorAngle_agree arctan₂)
    points source target threshold
  have size : l.size = m.size := points.length_eq
  have kept : result.kept l.size = result'.kept m.size :=
    size ▸ Normalized.kept_eq_of_places places l.size
  exact ⟨places, kept, points_normalizeBy _ l n, points_normalizeBy _ m n', sweeps⟩

/-- Integers of 32 bits and floating-point numbers of 64 bits take the same bends out. -/
theorem normalizeUsing_agree_int32_float64 :
    let l : Polyline (FixedInt 32) := ⟨[.plane ⟨1⟩ ⟨1⟩, .plane ⟨2⟩ ⟨2⟩, .plane ⟨3⟩ ⟨3⟩,
      .plane ⟨3⟩ ⟨4⟩]⟩
    let m : Polyline Float := ⟨[.plane 1 1, .plane 2 2, .plane 3 3, .plane 3 4]⟩
    let n : Normalization (FixedInt 32) := { source? := some (.plane ⟨0⟩ ⟨0⟩), minAngle := .right }
    let n' : Normalization Float := { source? := some (.plane 0 0), minAngle := .right }
    let result := l.normalizeUsing Float.atan2 n
    let result' := m.normalizeUsing Float.atan2 n'
    List.Forall₂ Point.Agree l.points m.points ∧
      Option.Rel Point.Agree n.source? n'.source? ∧
      Option.Rel Point.Agree n.target? n'.target? ∧ n.minAngle = n'.minAngle ∧
      result.places = result'.places ∧
      result.kept 4 = result'.kept 4 ∧
      result.polyline.points.map some = (result.kept 4).map (fun i => l.points[i]?) ∧
      result'.polyline.points.map some = (result'.kept 4).map (fun i => m.points[i]?) ∧
      result.summary? = result'.summary? := by
  intro l m n n' result result'
  have points : List.Forall₂ Point.Agree l.points m.points := by
    refine .cons ?_ (.cons ?_ (.cons ?_ (.cons ?_ .nil))) <;> decide +kernel
  have source : Option.Rel Point.Agree n.source? n'.source? := .some (by decide +kernel)
  have target : Option.Rel Point.Agree n.target? n'.target? := .none
  exact ⟨points, source, target, rfl, normalizeUsing_agree (k := .int32) (j := .float64)
    Float.atan2 points source target rfl⟩

end Polyline

end RouteGeometry
