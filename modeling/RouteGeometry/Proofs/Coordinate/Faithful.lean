import RouteGeometry.Coordinate.Kind
import RouteGeometry.Point.Comparison
import RouteGeometry.Point.Arithmetic
import RouteGeometry.Proofs.Coordinate.FixedInt
import RouteGeometry.Proofs.Number.Comparison

/-! # Coordinates that answer for their exact values

Every type compares coordinates, and tells signs of cross products, as if it worked with the exact
values, wherever there are such values. The exact types have one for every coordinate and tell
signs of turns in the same way. -/

namespace RouteGeometry

/-! ## Exact values of planar points -/

namespace Point

section
variable {α β γ : Type}

theorem mapPlane?_eq_some_iff {f : α → Option β} {p : Point α 2} {q : Point β 2} :
    p.mapPlane? f = some q ↔ f p.x = some q.x ∧ f p.y = some q.y := by
  unfold mapPlane?
  constructor
  · intro h
    split at h
    · rename_i x y hx hy
      obtain rfl := Option.some.inj h
      exact ⟨hx, hy⟩
    · cases h
  · rintro ⟨hx, hy⟩
    rw [hx, hy]
    exact congrArg some (plane_ext rfl rfl)

theorem mapPlane?_map (f : β → Option γ) (g : α → β) (p : Point α 2) :
    (p.map g).mapPlane? f = p.mapPlane? fun x => f (g x) := by
  unfold mapPlane?
  rw [x_map, y_map]

theorem toRat?_eq_some_iff [Coordinate α] {p : Point α 2} {q : Point Rat 2} :
    p.toRat? = some q ↔ Coordinate.toRat? p.x = some q.x ∧ Coordinate.toRat? p.y = some q.y :=
  mapPlane?_eq_some_iff

theorem toRat?_rat (p : Point Rat 2) : p.toRat? = some p :=
  toRat?_eq_some_iff.2 ⟨rfl, rfl⟩

end

end Point

/-! ## Floating-point types -/

namespace Binary

/-- Finite numbers are not NaN and compare as their values do. -/
class Lawful (F : Type) [Binary F] : Prop where
  isNaN_eq {x : F} {p : Rat} (hx : toRat? x = some p) : isNaN x = false
  equal_eq {x y : F} {p q : Rat} (hx : toRat? x = some p) (hy : toRat? y = some q) :
    equal x y = (Number.order p q == .eq)
  less_eq {x y : F} {p q : Rat} (hx : toRat? x = some p) (hy : toRat? y = some q) :
    less x y = (Number.order p q == .lt)

open Float.Model (Format UnpackedFloat)

theorem isNaN_of_toRat? {u : UnpackedFloat} {p : Rat} (h : Number.toRat? u = some p) :
    u.isNaN = false := by
  cases u with
  | notANumber | infinity => cases h
  | zero | finite => rfl

theorem less_float (x y : Float) :
    less x y = (x.toModel.unpack.compare y.toModel.unpack == some .lt) :=
  Bool.eq_iff_iff.2 (decide_eq_true_iff.trans Number.lt_iff_compare)

theorem less_float32 (x y : Float32) :
    less x y = (x.toModel.unpack.compare y.toModel.unpack == some .lt) := by
  refine Bool.eq_iff_iff.2 (decide_eq_true_iff.trans ?_)
  change decide (x.toModel < y.toModel) = true ↔ _
  exact decide_eq_true_iff

theorem lawful_of_unpack {F : Type} [Binary F] {format : Format} (unpack : F → UnpackedFloat)
    (canonical : ∀ x, Number.Canonical format (unpack x))
    (value : ∀ x, toRat? x = Number.toRat? (unpack x))
    (nan : ∀ x, isNaN x = (unpack x).isNaN)
    (equals : ∀ x y, equal x y = ((unpack x).compare (unpack y) == some .eq))
    (lesser : ∀ x y, less x y = ((unpack x).compare (unpack y) == some .lt)) : Lawful F where
  isNaN_eq hx := by
    rw [value] at hx
    rw [nan]
    exact isNaN_of_toRat? hx
  equal_eq hx hy := by
    rw [value] at hx hy
    rw [equals, Number.compare_of_toRat? (canonical _) (canonical _) hx hy]
    rfl
  less_eq hx hy := by
    rw [value] at hx hy
    rw [lesser, Number.compare_of_toRat? (canonical _) (canonical _) hx hy]
    rfl

instance : Lawful Float :=
  lawful_of_unpack (fun x => x.toModel.unpack) Number.canonical_float (fun _ => rfl)
    (fun _ => rfl) (fun _ _ => rfl) less_float

instance : Lawful Float32 :=
  lawful_of_unpack (fun x => x.toModel.unpack) Number.canonical_float32 (fun _ => rfl)
    (fun _ => rfl) (fun _ _ => rfl) less_float32

section
variable {F : Type} [Binary F]

theorem order?_eq [Lawful F] {x y : F} {p q : Rat} (hx : toRat? x = some p)
    (hy : toRat? y = some q) : order? x y = some (Number.order p q) := by
  unfold order?
  rw [Lawful.less_eq hx hy, Lawful.equal_eq hx hy, Lawful.less_eq hy hx]
  cases h : Number.order p q with
  | lt => rfl
  | eq => rfl
  | gt =>
    rw [Number.order_eq_lt_iff.2 (Number.order_eq_gt_iff.1 h)]
    rfl

theorem crossSign_eq {a₁ a₂ b₁ b₂ : Point F 2} {a₁' a₂' b₁' b₂' : Point Rat 2}
    (ha₁ : a₁.mapPlane? toRat? = some a₁') (ha₂ : a₂.mapPlane? toRat? = some a₂')
    (hb₁ : b₁.mapPlane? toRat? = some b₁') (hb₂ : b₂.mapPlane? toRat? = some b₂') :
    crossSign a₁ a₂ b₁ b₂ = Coordinate.crossSign a₁' a₂' b₁' b₂' := by
  rw [crossSign, ha₁, ha₂, hb₁, hb₂]

theorem crossSign_map_eq {G : Type} (value : G → F) {a₁ a₂ b₁ b₂ : Point G 2}
    {a₁' a₂' b₁' b₂' : Point Rat 2}
    (ha₁ : (a₁.mapPlane? fun x => toRat? (value x)) = some a₁')
    (ha₂ : (a₂.mapPlane? fun x => toRat? (value x)) = some a₂')
    (hb₁ : (b₁.mapPlane? fun x => toRat? (value x)) = some b₁')
    (hb₂ : (b₂.mapPlane? fun x => toRat? (value x)) = some b₂') :
    crossSign (a₁.map value) (a₂.map value) (b₁.map value) (b₂.map value) =
      Coordinate.crossSign a₁' a₂' b₁' b₂' := by
  rw [← Point.mapPlane?_map] at ha₁ ha₂ hb₁ hb₂
  exact crossSign_eq ha₁ ha₂ hb₁ hb₂

end

end Binary

/-! ## Coordinate types -/

namespace Coordinate

/-- Comparisons and signs of cross products are those of the values, where there are any. -/
class Faithful (α : Type) [Coordinate α] : Prop where
  equal_eq {a b : α} {x y : Rat} (ha : toRat? a = some x) (hb : toRat? b = some y) :
    equal a b = (Number.order x y == .eq)
  order?_eq {a b : α} {x y : Rat} (ha : toRat? a = some x) (hb : toRat? b = some y) :
    order? a b = some (Number.order x y)
  crossSign_eq {a₁ a₂ b₁ b₂ : Point α 2} {a₁' a₂' b₁' b₂' : Point Rat 2}
    (ha₁ : a₁.toRat? = some a₁') (ha₂ : a₂.toRat? = some a₂') (hb₁ : b₁.toRat? = some b₁')
    (hb₂ : b₂.toRat? = some b₂') : crossSign a₁ a₂ b₁ b₂ = crossSign a₁' a₂' b₁' b₂'

/-- Every coordinate has a value, and the sign of a turn is that of a cross product. -/
class Exact (α : Type) [Coordinate α] : Prop extends Faithful α where
  hasValue (a : α) : ∃ x, toRat? a = some x
  turnSign_eq (p q r : Point α 2) : turnSign p q r = crossSign p q p r

instance : Exact Rat where
  equal_eq {a b x y} ha hb := by
    cases ha
    cases hb
    rw [Number.order_beq_eq]
    rfl
  order?_eq ha hb := by
    cases ha
    cases hb
    rfl
  crossSign_eq {a₁ a₂ b₁ b₂} _ _ _ _ ha₁ ha₂ hb₁ hb₂ := by
    rw [Point.toRat?_rat] at ha₁ ha₂ hb₁ hb₂
    cases ha₁
    cases ha₂
    cases hb₁
    cases hb₂
    rfl
  hasValue a := ⟨a, rfl⟩
  turnSign_eq _ _ _ := rfl

instance : Exact Int where
  equal_eq {a b x y} ha hb := by
    cases ha
    cases hb
    rw [Number.order_intCast]
    exact Bool.eq_iff_iff.2 (beq_iff_eq.trans (Int.compare_eq_eq.symm.trans beq_iff_eq.symm))
  order?_eq {a b x y} ha hb := by
    cases ha
    cases hb
    rw [Number.order_intCast]
    rfl
  crossSign_eq {a₁ a₂ b₁ b₂ a₁' a₂' b₁' b₂'} ha₁ ha₂ hb₁ hb₂ := by
    have value {p : Point Int 2} {p' : Point Rat 2} (h : p.toRat? = some p') :
        p'.x = p.x ∧ p'.y = p.y := by
      obtain ⟨hx, hy⟩ := Point.toRat?_eq_some_iff.1 h
      exact ⟨(Option.some.inj hx).symm, (Option.some.inj hy).symm⟩
    change compare _ _ = Number.order _ _
    simp only [Displacement.x_sub, Displacement.y_sub, value ha₁, value ha₂, value hb₁, value hb₂]
    rw [← Number.order_intCast]
    push_cast
    rfl
  hasValue a := ⟨a, rfl⟩
  turnSign_eq _ _ _ := rfl

section
variable {w : Nat}

theorem toRat?_map_toInt (p : Point (FixedInt w) 2) : (p.map FixedInt.toInt).toRat? = p.toRat? :=
  Point.mapPlane?_map _ _ p

/-- The sign of a cross product is the one for integers of any size. -/
theorem crossSign_map_toInt (a₁ a₂ b₁ b₂ : Point (FixedInt w) 2) :
    crossSign (a₁.map FixedInt.toInt) (a₂.map FixedInt.toInt) (b₁.map FixedInt.toInt)
      (b₂.map FixedInt.toInt) = crossSign a₁ a₂ b₁ b₂ := by
  change compare _ _ = FixedInt.crossSign a₁ a₂ b₁ b₂
  rw [FixedInt.crossSign_eq]
  simp only [Displacement.x_sub, Displacement.y_sub, Point.x_map, Point.y_map]

instance : Exact (FixedInt w) where
  equal_eq {a b x y} ha hb := by
    cases ha
    cases hb
    rw [Number.order_intCast]
    refine Bool.eq_iff_iff.2 (beq_iff_eq.trans ?_)
    exact FixedInt.toInt_inj.symm.trans (Int.compare_eq_eq.symm.trans beq_iff_eq.symm)
  order?_eq {a b x y} ha hb := by
    cases ha
    cases hb
    rw [Number.order_intCast]
    rfl
  crossSign_eq ha₁ ha₂ hb₁ hb₂ := by
    rw [← toRat?_map_toInt] at ha₁ ha₂ hb₁ hb₂
    rw [← crossSign_map_toInt, Faithful.crossSign_eq ha₁ ha₂ hb₁ hb₂]
  hasValue a := ⟨a.toInt, rfl⟩
  turnSign_eq _ _ _ := rfl

end

section
variable {F : Type} [Binary F] [Binary.Lawful F]

variable (F) in
theorem faithful_binary : @Faithful F (Binary.coordinate F) :=
  let _ := Binary.coordinate F
  { equal_eq := fun ha hb => Binary.Lawful.equal_eq ha hb
    order?_eq := fun ha hb => Binary.order?_eq ha hb
    crossSign_eq := fun ha₁ ha₂ hb₁ hb₂ => Binary.crossSign_eq ha₁ ha₂ hb₁ hb₂ }

instance : Faithful (NotNan F) where
  equal_eq ha hb := Binary.Lawful.equal_eq ha hb
  order?_eq ha hb := Binary.order?_eq ha hb
  crossSign_eq ha₁ ha₂ hb₁ hb₂ := Binary.crossSign_map_eq NotNan.value ha₁ ha₂ hb₁ hb₂

instance : Faithful (Ordered F) where
  equal_eq {a b x y} ha hb := by
    change Ordered.equal a b = _
    rw [Ordered.equal, Binary.Lawful.isNaN_eq ha]
    exact Binary.Lawful.equal_eq ha hb
  order?_eq {a b x y} ha hb := by
    change some (Ordered.order a b) = _
    rw [Ordered.order, Binary.order?_eq ha hb]
  crossSign_eq ha₁ ha₂ hb₁ hb₂ := Binary.crossSign_map_eq Ordered.value ha₁ ha₂ hb₁ hb₂

end

instance : Faithful Float := faithful_binary Float

instance : Faithful Float32 := faithful_binary Float32

end Coordinate

/-! ## Points and lines of a faithful type -/

section
variable {α : Type} [Coordinate α]

theorem Coordinate.crossSign_rat_eq_eq_iff (a₁ a₂ b₁ b₂ : Point Rat 2) :
    Coordinate.crossSign a₁ a₂ b₁ b₂ = .eq ↔ (a₂ - a₁).area (b₂ - b₁) = 0 :=
  Number.order_eq_eq_iff.trans sub_eq_zero.symm

theorem Point.equal_iff [Coordinate.Faithful α] {p q : Point α 2} {p' q' : Point Rat 2}
    (hp : p.toRat? = some p') (hq : q.toRat? = some q') : p.equal q = true ↔ p' = q' := by
  obtain ⟨hpx, hpy⟩ := toRat?_eq_some_iff.1 hp
  obtain ⟨hqx, hqy⟩ := toRat?_eq_some_iff.1 hq
  rw [equal_plane, Coordinate.Faithful.equal_eq hpx hqx, Coordinate.Faithful.equal_eq hpy hqy,
    Bool.and_eq_true, beq_iff_eq, beq_iff_eq, Number.order_eq_eq_iff, Number.order_eq_eq_iff,
    plane_ext_iff]

theorem Point.exists_toRat? [Coordinate.Exact α] (p : Point α 2) : ∃ p', p.toRat? = some p' := by
  obtain ⟨x, hx⟩ := Coordinate.Exact.hasValue p.x
  obtain ⟨y, hy⟩ := Coordinate.Exact.hasValue p.y
  exact ⟨plane x y, toRat?_eq_some_iff.2 ⟨hx, hy⟩⟩

/-- Three points are colinear when the cross product of their values is zero. -/
theorem Orientation.isColinear_ofPoints_iff [Coordinate.Exact α] {p q r : Point α 2}
    {p' q' r' : Point Rat 2} (hp : p.toRat? = some p') (hq : q.toRat? = some q')
    (hr : r.toRat? = some r') :
    (ofPoints p q r).isColinear = true ↔ (q' - p').area (r' - p') = 0 := by
  rw [ofPoints, isColinear_ofSign, beq_iff_eq, Coordinate.Exact.turnSign_eq,
    Coordinate.Faithful.crossSign_eq hp hq hp hr, Coordinate.crossSign_rat_eq_eq_iff]

end

namespace CoordinateKind

/-- All types of coordinates compare by the exact values, where there are any. -/
instance (k : CoordinateKind) : Coordinate.Faithful k.Carrier :=
  match k with
  | int8 => inferInstanceAs (Coordinate.Faithful (FixedInt 8))
  | int16 => inferInstanceAs (Coordinate.Faithful (FixedInt 16))
  | int32 => inferInstanceAs (Coordinate.Faithful (FixedInt 32))
  | int64 => inferInstanceAs (Coordinate.Faithful (FixedInt 64))
  | integer => inferInstanceAs (Coordinate.Faithful Int)
  | rational => inferInstanceAs (Coordinate.Faithful Rat)
  | float32 => inferInstanceAs (Coordinate.Faithful Float32)
  | float64 => inferInstanceAs (Coordinate.Faithful Float)
  | ordered32 => inferInstanceAs (Coordinate.Faithful (Ordered Float32))
  | ordered64 => inferInstanceAs (Coordinate.Faithful (Ordered Float))
  | notNan32 => inferInstanceAs (Coordinate.Faithful (NotNan Float32))
  | notNan64 => inferInstanceAs (Coordinate.Faithful (NotNan Float))

theorem exact_of_isExact {k : CoordinateKind} (h : k.isExact = true) :
    Coordinate.Exact k.Carrier :=
  match k, h with
  | int8, _ => inferInstanceAs (Coordinate.Exact (FixedInt 8))
  | int16, _ => inferInstanceAs (Coordinate.Exact (FixedInt 16))
  | int32, _ => inferInstanceAs (Coordinate.Exact (FixedInt 32))
  | int64, _ => inferInstanceAs (Coordinate.Exact (FixedInt 64))
  | integer, _ => inferInstanceAs (Coordinate.Exact Int)
  | rational, _ => inferInstanceAs (Coordinate.Exact Rat)

end CoordinateKind

end RouteGeometry
