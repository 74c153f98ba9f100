import RouteGeometry.Number.Exact

/-! # Decimal text

Binary numbers are written with the fewest digits that read back as the same number, in positional
notation, with neither an exponent nor a point that nothing follows. -/

namespace RouteGeometry.Number

open Float.Model (Format UnpackedFloat)

/-- A finite decimal number without sign, `digits * 10 ^ exponent`. -/
structure Decimal where
  digits : Nat
  exponent : Int
  deriving DecidableEq, Repr

namespace Decimal

def value (d : Decimal) : Rat := d.digits * 10 ^ d.exponent

/-- The reals that are rounded to one positive binary number. The ends belong
to the interval when the significand is even. -/
structure Interval where
  low : Rat
  high : Rat
  closed : Bool

/-- The reals nearest to `significand * 2 ^ exponent`. Below a power of two the
next number is only half as far away as above it, except at the least exponent
of the format. -/
def Interval.around (format : Format) (significand : Nat) (exponent : Int) : Interval :=
  let narrow := significand = 1 <<< (format.mantissaBits - 1) ∧ format.minExponent < exponent
  let quarter : Rat := 2 ^ (exponent - 2)
  { low := (4 * significand - if narrow then 1 else 2) * quarter
    high := (4 * significand + 2) * quarter
    closed := significand % 2 = 0 }

def Interval.contains (i : Interval) (v : Rat) : Bool :=
  if i.closed then i.low ≤ v && v ≤ i.high else i.low < v && v < i.high

/-- The least `k` with `v < 10 ^ k`, for positive `v`: the number of digits of
the whole part, or for `v < 1` what the number of digits of `1 / v` says. -/
def leadingPlace (v : Rat) : Int :=
  if 1 ≤ v then (Nat.toDigits 10 v.floor.toNat).length
  else 1 - (Nat.toDigits 10 ((1 / v).ceil - 1).toNat).length

/-- The point of the grid `10 ^ exponent` nearest to `v` among the two
neighbours of `v` that lie in the interval, if there is one. Of two equally near
neighbours the upper one is taken. -/
def onGrid? (i : Interval) (v : Rat) (exponent : Int) : Option Decimal :=
  let lower : Decimal := ⟨(v / 10 ^ exponent).floor.toNat, exponent⟩
  let upper : Decimal := ⟨lower.digits + 1, exponent⟩
  match i.contains lower.value, i.contains upper.value with
  | true, true => some (if upper.value - v ≤ v - lower.value then upper else lower)
  | true, false => some lower
  | false, true => some upper
  | false, false => none

def ofBinary (significand : Nat) (exponent : Int) : Decimal :=
  if 0 ≤ exponent then ⟨significand <<< exponent.toNat, 0⟩
  else ⟨significand * Nat.pow 5 (-exponent).toNat, exponent⟩

/-- The fewest digits that read back as `significand * 2 ^ exponent`. Seventeen
are enough for numbers of 64 bits and nine for numbers of 32 bits. -/
def shortest (format : Format) (significand : Nat) (exponent : Int) : Decimal :=
  let v : Rat := significand * 2 ^ exponent
  let interval := Interval.around format significand exponent
  let top := leadingPlace v
  ((List.range 17).findSome? fun n : Nat => onGrid? interval v (top - 1 - n)).getD
    (ofBinary significand exponent)

/-- The digits of `n`, with zeros in front up to `places` digits. -/
def padded (places n : Nat) : List Char :=
  (Nat.toDigits 10 n).leftpad places '0'

/-- Whole part, point and fraction, without the zeros at the end of the
fraction and without a point that nothing follows. -/
def positional (d : Decimal) : String :=
  if 0 ≤ d.exponent then toString (d.digits * Nat.pow 10 d.exponent.toNat)
  else
    let places := (-d.exponent).toNat
    let unit := Nat.pow 10 places
    let fraction := padded places (d.digits % unit)
    let kept := (fraction.reverse.dropWhile (· == '0')).reverse
    let whole := toString (d.digits / unit)
    if kept.isEmpty then whole else whole ++ "." ++ String.ofList kept

end Decimal

/-- The quotient rounded to a whole number, of two equally near ones to the even one. -/
def divNearest (num den : Nat) : Nat :=
  let q := num / den
  let twice := 2 * (num % den)
  if twice < den ∨ (twice = den ∧ q % 2 = 0) then q else q + 1

/-- A minus sign in front of negative numbers, zero included. -/
def signText : UnpackedFloat.Sign → String
  | .negative => "-"
  | .positive => ""

def unpackedText (format : Format) : UnpackedFloat → String
  | .notANumber => "NaN"
  | .infinity sign => signText sign ++ "inf"
  | .zero sign => signText sign ++ "0"
  | .finite sign significand exponent _ =>
    signText sign ++ (Decimal.shortest format significand exponent).positional

def floatText (x : Float) : String :=
  unpackedText .binary64 x.toModel.unpack

def float32Text (x : Float32) : String :=
  unpackedText .binary32 x.toModel.unpack

example : floatText (0.1 + 0.2) = "0.30000000000000004" := by decide +kernel

example : floatText 1e-7 = "0.0000001" ∧ floatText (-0.0) = "-0" := by decide +kernel

/-- Two texts of eight digits are equally near, and the upper one is taken. -/
example : float32Text 263531.625 = "263531.63" := by decide +kernel

/-- The text of `n` units of the last of `places` decimal places. -/
def unitsText (places n : Nat) : String :=
  let unit := Nat.pow 10 places
  toString (n / unit) ++ "." ++ String.ofList (Decimal.padded places (n % unit))

/-- The value with exactly `places` decimal places, at least one. The exact value
is rounded to nearest, of two equally near texts to the one with an even last digit. -/
def fixedText (places : Nat) (x : Float) : String :=
  match x.toModel.unpack with
  | .notANumber => "NaN"
  | .infinity sign => signText sign ++ "inf"
  | .zero sign => signText sign ++ unitsText places 0
  | .finite sign significand exponent _ =>
    let v : Rat := significand * 2 ^ exponent * 10 ^ places
    signText sign ++ unitsText places (divNearest v.num.toNat v.den)

/-- Two texts are equally near, and the even one is taken. -/
example : fixedText 9 (1 / 1024) = "0.000976562" := by decide +kernel

/-- The text of an exact rational: in lowest terms, without a denominator of one. -/
def ratText (q : Rat) : String :=
  if q.den = 1 then toString q.num else toString q.num ++ "/" ++ toString q.den

end RouteGeometry.Number
