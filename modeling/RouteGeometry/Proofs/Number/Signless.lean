import RouteGeometry.Proofs.Number.Packing

/-! # Numbers without a sign

Zero and NaN have no sign, whichever zero it is. A number less itself is one of them, be it finite
or not, and so is what comes of them by multiplying and subtracting. -/

namespace RouteGeometry.Number

open Float.Model (Format UnpackedFloat)
open Float.Model.UnpackedFloat

/-- Zero or NaN. -/
inductive Signless : UnpackedFloat → Prop
  | nan : Signless .notANumber
  | zero (s : Sign) : Signless (.zero s)

/-! ## Before the result is written as bits -/

namespace Signless

section
variable {format : Format} {u w : UnpackedFloat}

theorem unpack_pack (h : Signless u) :
    Signless (UnpackedFloat.unpack format (UnpackedFloat.pack format u)) := by
  cases h with
  | nan =>
    change Signless (UnpackedFloat.unpack format (packedNaN format))
    rw [unpack_packedNaN]
    exact .nan
  | zero s =>
    change Signless (UnpackedFloat.unpack format (packedZero format s))
    rw [unpack_packedZero]
    exact .zero s

theorem mul (h : Signless u) (w : UnpackedFloat) : Signless (u.mul format w) := by
  cases h with
  | nan => cases w <;> exact .nan
  | zero s =>
    cases w with
    | notANumber | infinity => exact .nan
    | zero | finite => exact .zero _

theorem sub (hu : Signless u) (hw : Signless w) : Signless (u.sub format w) := by
  cases hu with
  | nan => cases hw <;> exact .nan
  | zero s =>
    cases hw with
    | nan => exact .nan
    | zero s' => cases s <;> cases s' <;> exact .zero _

/-- What is infinite has no difference from itself, and what is finite has none but zero. -/
theorem sub_self (u : UnpackedFloat) : Signless (u.sub format u) := by
  cases u with
  | notANumber => exact .nan
  | infinity s => cases s <;> exact .nan
  | zero s => cases s <;> exact .zero _
  | finite s m e positive =>
    simp only [UnpackedFloat.sub, Int.sub_self]
    exact .zero _

end

end Signless

theorem sign_mul_comm (s s' : Sign) : s * s' = s' * s := by
  cases s <;> cases s' <;> rfl

theorem unpacked_mul_comm (format : Format) (u w : UnpackedFloat) :
    u.mul format w = w.mul format u := by
  cases u <;> cases w <;> simp only [UnpackedFloat.mul, sign_mul_comm, Nat.mul_comm, Int.add_comm]

/-! ## Numbers of 64 bits -/

section
variable {x y : Float}

theorem signless_sub_self (x : Float) : Signless (x - x).toModel.unpack :=
  (Signless.sub_self _).unpack_pack

theorem signless_mul (h : Signless x.toModel.unpack) (y : Float) :
    Signless (x * y).toModel.unpack :=
  (h.mul _).unpack_pack

theorem signless_sub (hx : Signless x.toModel.unpack) (hy : Signless y.toModel.unpack) :
    Signless (x - y).toModel.unpack :=
  (hx.sub hy).unpack_pack

theorem float_mul_comm (x y : Float) : x * y = y * x :=
  congrArg (fun u => Float.ofModel (.pack u)) (unpacked_mul_comm .binary64 _ _)

end

end RouteGeometry.Number
