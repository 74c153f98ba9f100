/-! # Points and displacements

Points are subtracted, displacements are added to points. The operators work in any arithmetic, so
one formula serves binary numbers, exact rationals and calculations that may stop with a fault. -/

namespace RouteGeometry

structure Point (α : Type) (n : Nat) where
  coords : Vector α n
  deriving DecidableEq, Repr

/-- The way from one point of `n`-dimensional space to another. -/
structure Displacement (α : Type) (n : Nat) where
  coords : Vector α n
  deriving DecidableEq, Repr

section
variable {α β : Type} {n : Nat}

instance [Add α] : HAdd (Point α n) (Displacement α n) (Point α n) where
  hAdd p d := ⟨p.coords.zipWith (· + ·) d.coords⟩

instance [Sub α] : HSub (Point α n) (Displacement α n) (Point α n) where
  hSub p d := ⟨p.coords.zipWith (· - ·) d.coords⟩

/-- `q - p` is the way from `p` to `q`. -/
instance [Sub α] : HSub (Point α n) (Point α n) (Displacement α n) where
  hSub q p := ⟨q.coords.zipWith (· - ·) p.coords⟩

instance [Mul α] : HMul (Point α n) α (Point α n) where
  hMul p k := ⟨p.coords.map (· * k)⟩

instance [Add α] : Add (Displacement α n) where
  add d e := ⟨d.coords.zipWith (· + ·) e.coords⟩

instance [Sub α] : Sub (Displacement α n) where
  sub d e := ⟨d.coords.zipWith (· - ·) e.coords⟩

instance [Neg α] : Neg (Displacement α n) where
  neg d := ⟨d.coords.map (- ·)⟩

instance [Mul α] : HMul (Displacement α n) α (Displacement α n) where
  hMul d k := ⟨d.coords.map (· * k)⟩

namespace Point

def plane (x y : α) : Point α 2 := ⟨#v[x, y]⟩

def x (p : Point α 2) : α := p.coords[0]

def y (p : Point α 2) : α := p.coords[1]

def map (f : α → β) (p : Point α n) : Point β n := ⟨p.coords.map f⟩

def fromOrigin (p : Point α n) : Displacement α n := ⟨p.coords⟩

/-- A planar point whose coordinates all have an image under `f`. -/
def mapPlane? (f : α → Option β) (p : Point α 2) : Option (Point β 2) :=
  match f p.x, f p.y with
  | some x, some y => some (plane x y)
  | _, _ => none

end Point

namespace Displacement

def plane (x y : α) : Displacement α 2 := ⟨#v[x, y]⟩

def x (d : Displacement α 2) : α := d.coords[0]

def y (d : Displacement α 2) : α := d.coords[1]

def map (f : α → β) (d : Displacement α n) : Displacement β n := ⟨d.coords.map f⟩

def fromOrigin (d : Displacement α n) : Point α n := ⟨d.coords⟩

/-- The scalar product: the products of corresponding coordinates, added in
order to `zero`. -/
def scalarProduct [Add α] [Mul α] (zero : α) (d e : Displacement α n) : α :=
  (d.coords.toList.zip e.coords.toList).foldl (fun sum c => sum + c.1 * c.2) zero

/-- The area of the parallelogram that two planar displacements span, positive
when the second one points to the left of the first one. -/
def area [Sub α] [Mul α] (d e : Displacement α 2) : α :=
  d.x * e.y - d.y * e.x

end Displacement

end

/-! ## Planar coordinates under the operators -/

section
variable {α β : Type}

@[simp] theorem Point.x_plane (x y : α) : (Point.plane x y).x = x := rfl

@[simp] theorem Point.y_plane (x y : α) : (Point.plane x y).y = y := rfl

@[simp] theorem Displacement.x_plane (x y : α) : (Displacement.plane x y).x = x := rfl

@[simp] theorem Displacement.y_plane (x y : α) : (Displacement.plane x y).y = y := rfl

theorem Point.plane_ext {p q : Point α 2} (hx : p.x = q.x) (hy : p.y = q.y) : p = q := by
  obtain ⟨p⟩ := p
  obtain ⟨q⟩ := q
  simp only [Point.x, Point.y] at hx hy
  congr 1
  ext i hi
  match i, hi with
  | 0, _ => exact hx
  | 1, _ => exact hy

theorem Point.plane_ext_iff {p q : Point α 2} : p = q ↔ p.x = q.x ∧ p.y = q.y := by
  constructor
  · rintro rfl
    exact ⟨rfl, rfl⟩
  · rintro ⟨hx, hy⟩
    exact plane_ext hx hy

theorem Displacement.plane_ext {d e : Displacement α 2} (hx : d.x = e.x) (hy : d.y = e.y) :
    d = e := by
  obtain ⟨d⟩ := d
  obtain ⟨e⟩ := e
  simp only [Displacement.x, Displacement.y] at hx hy
  congr 1
  ext i hi
  match i, hi with
  | 0, _ => exact hx
  | 1, _ => exact hy

@[simp] theorem Point.x_add [Add α] (p : Point α 2) (d : Displacement α 2) :
    (p + d).x = p.x + d.x := by
  simp [HAdd.hAdd, Point.x, Displacement.x]

@[simp] theorem Point.y_add [Add α] (p : Point α 2) (d : Displacement α 2) :
    (p + d).y = p.y + d.y := by
  simp [HAdd.hAdd, Point.y, Displacement.y]

@[simp] theorem Displacement.x_sub [Sub α] (q p : Point α 2) : (q - p).x = q.x - p.x := by
  simp [HSub.hSub, Point.x, Displacement.x]

@[simp] theorem Displacement.y_sub [Sub α] (q p : Point α 2) : (q - p).y = q.y - p.y := by
  simp [HSub.hSub, Point.y, Displacement.y]

@[simp] theorem Displacement.x_mul [Mul α] (d : Displacement α 2) (k : α) :
    (d * k).x = d.x * k := by
  simp [HMul.hMul, Displacement.x]

@[simp] theorem Displacement.y_mul [Mul α] (d : Displacement α 2) (k : α) :
    (d * k).y = d.y * k := by
  simp [HMul.hMul, Displacement.y]

@[simp] theorem Point.x_map (f : α → β) (p : Point α 2) : (p.map f).x = f p.x := by
  simp [Point.map, Point.x]

@[simp] theorem Point.y_map (f : α → β) (p : Point α 2) : (p.map f).y = f p.y := by
  simp [Point.map, Point.y]

end

end RouteGeometry
