/-! # Sums of terms that lose nothing to rounding

What the rounded sum of two numbers of 64 bits lacks is itself such a number, and so is what a
rounded product lacks. An expansion is a number written as a sum of such terms, the least first. A
product too small for its error to be a number of 64 bits loses a part of it, and a number too large
to be halved turns its terms into NaN. -/

namespace RouteGeometry

abbrev Expansion := List Float

namespace Expansion

/-- What the rounded sum of `a` and `b` lacks. -/
def sumError (a b : Float) : Float :=
  let sum := a + b
  let b' := sum - a
  let a' := sum - b'
  (a - a') + (b - b')

/-- The upper half of the digits of `a` and the rest; the factor is `2 ^ 27 + 1`.
The product of two halves has no more digits than a number of 64 bits holds. -/
def halves (a : Float) : Float × Float :=
  let c := 134217729 * a
  let upper := c - (c - a)
  (upper, a - upper)

def productError (a b : Float) : Float :=
  let (a₁, a₀) := halves a
  let (b₁, b₀) := halves b
  a₀ * b₀ - (a * b - a₁ * b₁ - a₀ * b₁ - a₁ * b₀)

def ofProduct (a b : Float) : Expansion := [productError a b, a * b]

/-- A number added to an expansion: the errors of the running sums, then the last
of the sums. -/
def grow (a : Float) : Expansion → Expansion
  | [] => [a]
  | x :: e => sumError a x :: grow (a + x) e

/-- The sum of two expansions, to which the terms of the second one are added one
after the other. The least term of each result stays as it is. -/
def absorb (e : Expansion) : Expansion → Expansion
  | [] => e
  | a :: f =>
    match grow a e with
    | [] => []
    | x :: e' => x :: absorb e' f

/-- Whether `x` comes before `y` in the order of magnitude. Where one of them is
NaN, it does. -/
def precedes (x y : Float) : Bool := (y > x : Bool) == (y > -x : Bool)

/-- The terms of two expansions in order of magnitude, which is the order within
each of them. -/
def merge : Expansion → Expansion → Expansion
  | [], f => f
  | x :: e, f =>
    f.takeWhile (fun y => !precedes x y) ++ x :: merge e (f.dropWhile fun y => !precedes x y)

/-- The sum of two expansions, without terms that are zero. -/
def add (e f : Expansion) : Expansion := (grow 0 (merge e f)).filter (· != 0)

def rounded (e : Expansion) : Float := e.foldl (· + ·) 0

/-- The last term, next to which the others together are small. -/
def leading (e : Expansion) : Float := e.getLast?.getD 0

end Expansion

end RouteGeometry
