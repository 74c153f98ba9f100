import RouteGeometry.Number.Expansion
import RouteGeometry.Point

/-! # The sign of a turn in binary floating point

The turn at three points is the sign of the cross product of the ways from the last point to the
other two. It is calculated in stages of which each takes more of the rounding into account, up to
the first one whose result exceeds the bound on its error:

1. the differences, their products and the determinant are all rounded; here the signs of the two
   products may decide, too;
2. the products of the rounded differences are exact, which is the end of it if the differences lack
   nothing;
3. the determinant is corrected for what rounding took from the differences;
4. all products are exact, those with what the differences lack included.

The bounds hold where nothing is too large or too small for 64 bits. Elsewhere the calculation goes
on with infinities, with NaN, which counts as zero, and with products that underflow to zero. -/

namespace RouteGeometry.Determinant

open Expansion (sumError ofProduct)

/-- The sign of a number, NaN counting as zero. -/
def signOf (x : Float) : Ordering :=
  if x > 0 then .gt else if x < 0 then .lt else .eq

/-- Half the distance from one to the next number of 64 bits. -/
def unitRoundoff : Float := 1 / 9007199254740992

/-- The bound on the error of a rounded determinant, relative to the sum of its
products' magnitudes. -/
def roundedBound : Float := (3 + 16 * unitRoundoff) * unitRoundoff

/-- The same bound where only the differences are rounded. -/
def productBound : Float := (2 + 12 * unitRoundoff) * unitRoundoff

/-- The same bound after the correction for the differences. -/
def correctedBound : Float := (9 + 64 * unitRoundoff) * unitRoundoff * unitRoundoff

/-- The bound on the error of summing a determinant's terms, relative to the sum. -/
def summationBound : Float := (3 + 8 * unitRoundoff) * unitRoundoff

def decides (det bound : Float) : Bool := det ≥ bound || -det ≥ bound

/-- What the rounded way from `q` to `p` lacks. -/
def differenceError (p q : Point Float 2) : Displacement Float 2 :=
  .plane (sumError p.x (-q.x)) (sumError p.y (-q.y))

/-- The cross product, its two products being exact. -/
def crossTerms (d e : Displacement Float 2) : Expansion :=
  (ofProduct d.x e.y).absorb (ofProduct (-d.y) e.x)

/-- The cross product of `d + d'` and `e + e'`, where `terms` are those of `d` and
`e`. -/
def fullTerms (terms : Expansion) (d d' e e' : Displacement Float 2) : Expansion :=
  ((terms.add (crossTerms d' e)).add (crossTerms d e')).add (crossTerms d' e')

/-- The sign of the turn beyond the first stage; `sum` are the magnitudes of the
two rounded products, added. -/
def refinedTurnSign (p q r : Point Float 2) (sum : Float) : Ordering :=
  let d := p - r
  let e := q - r
  let terms := crossTerms d e
  let det := terms.rounded
  if decides det (productBound * sum) then signOf det
  else
    let d' := differenceError p r
    let e' := differenceError q r
    if d'.x == 0 && d'.y == 0 && e'.x == 0 && e'.y == 0 then signOf det
    else
      let bound := correctedBound * sum + summationBound * det.abs
      let det := det + ((d.x * e'.y + e.y * d'.x) - (d.y * e'.x + e.x * d'.y))
      if decides det bound then signOf det
      else signOf (fullTerms terms d d' e e').leading

/-- The sign of the determinant `det` whose products' magnitudes add up to `sum`:
its own sign if it exceeds the bound on its error, else that of the later stages. -/
def settledSign (p q r : Point Float 2) (det sum : Float) : Ordering :=
  if decides det (roundedBound * sum) then signOf det else refinedTurnSign p q r sum

def turnSign (p q r : Point Float 2) : Ordering :=
  let left := (p.x - r.x) * (q.y - r.y)
  let right := (p.y - r.y) * (q.x - r.x)
  let det := left - right
  if left > 0 then
    if right ≤ 0 then signOf det else settledSign p q r det (left + right)
  else if left < 0 then
    if right ≥ 0 then signOf det else settledSign p q r det (-left - right)
  else signOf det

end RouteGeometry.Determinant
