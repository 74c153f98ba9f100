import RouteGeometry.Coordinate.Exact

/-! # Sample points

Points drawn from a generator that counts in steps of a fixed size, one number of 64 bits for each
coordinate. Integers take the low bits; a binary number is the fraction of one that the high bits
stand for. -/

namespace RouteGeometry

/-- A generator that counts upwards, wrapping around at 64 bits. -/
structure Stepper where
  state : UInt64
  step : UInt64
  deriving DecidableEq, Repr

namespace Stepper

def next (g : Stepper) : UInt64 × Stepper := (g.state, { g with state := g.state + g.step })

def after (g : Stepper) (k : Nat) : Stepper := { g with state := g.state + .ofNat k * g.step }

theorem after_zero (g : Stepper) : g.after 0 = g := by
  simp [after]

theorem next_after (g : Stepper) (k : Nat) :
    (g.after k).next = ((g.after k).state, g.after (k + 1)) := by
  simp [next, after, UInt64.add_mul, UInt64.add_assoc]

end Stepper

class Drawable (α : Type) where
  /-- The coordinate that a number of 64 bits stands for. -/
  ofUInt64 : UInt64 → α

instance {w : Nat} : Drawable (FixedInt w) where
  ofUInt64 u := ⟨u.toBitVec.setWidth w⟩

instance : Drawable Float where
  ofUInt64 u := Number.toFloat (mkRat (u.toNat >>> 11) (1 <<< 53))

instance : Drawable Float32 where
  ofUInt64 u := Number.toFloat32 (mkRat (u.toUInt32.toNat >>> 8) (1 <<< 24))

def Point.draw (α : Type) [Drawable α] (n : Nat) : StateM Stepper (Point α n) := do
  let coords ← Vector.ofFnM fun _ : Fin n => do
    let u ← modifyGet Stepper.next
    return Drawable.ofUInt64 u
  return ⟨coords⟩

section
variable {α : Type} [Drawable α]

theorem coords_draw (n : Nat) (g : Stepper) :
    (Vector.ofFnM fun _ : Fin n => do
      let u ← modifyGet Stepper.next
      return Drawable.ofUInt64 u : StateM Stepper (Vector α n)).run g =
        (Vector.ofFn fun i : Fin n => Drawable.ofUInt64 (g.after i.val).state, g.after n) := by
  induction n with
  | zero =>
    rw [Vector.ofFnM_zero, g.after_zero]
    rfl
  | succ n ih =>
    rw [Vector.ofFnM_succ, StateT.run_bind, ih, Vector.ofFn_succ]
    exact congrArg (Prod.mk _) (congrArg Prod.snd (g.next_after n))

/-- The coordinates are those of consecutive numbers, and the generator is left behind them. -/
theorem Point.draw_eq (n : Nat) (g : Stepper) :
    (Point.draw α n).run g =
      (⟨Vector.ofFn fun i => Drawable.ofUInt64 (g.after i.val).state⟩, g.after n) := by
  rw [draw, StateT.run_bind, coords_draw]
  rfl

end

end RouteGeometry
