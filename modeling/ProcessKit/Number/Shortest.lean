/-
# The fewest digits that read back

A double is written with the fewest significant digits that round to it, and of those with the
digits nearest to it. `Double.shortest` looks at the decimal grids of 1, 2, … 17 digits in turn: if
any point of a grid rounds to the value, one of the value's two neighbours on that grid does.
-/

import ProcessKit.Number.Double

namespace ProcessKit

/-- `digits * 10 ^ exponent`. -/
structure Decimal where
  digits : Nat
  exponent : Int
  deriving DecidableEq, Repr

namespace Decimal

/-- The same number without trailing zeros in its digits. -/
def normalize (d : Decimal) : Decimal := go d.digits d d.digits
where
  /-- At most as many zeros as `fuel` are taken off. -/
  go : Nat → Decimal → Nat → Decimal
    | 0, d, _ => d
    | _ + 1, d, 0 => d
    | fuel + 1, d, n + 1 =>
      if (n + 1) % 10 = 0 then
        go fuel ⟨(n + 1) / 10, d.exponent + 1⟩ ((n + 1) / 10)
      else d

/-- The number as a ratio of natural numbers. -/
def ratio (d : Decimal) : Nat × Nat :=
  if 0 ≤ d.exponent then (d.digits * Nat.pow 10 d.exponent.toNat, 1)
  else (d.digits, Nat.pow 10 (-d.exponent).toNat)

end Decimal

namespace Double

/-- The ends of the interval of numbers that round to a positive `mantissa * 2 ^ exponent`, as
multiples of `2 ^ (exponent - 2)`. The lower neighbour of a power of two is nearer. -/
def rounding (d : Double) : Nat × Nat :=
  let low := if d.mantissa = 0x10000000000000 && -1074 < d.exponent then 4 * d.mantissa - 1
    else 4 * d.mantissa - 2
  (low, 4 * d.mantissa + 2)

/-- Whether a decimal rounds to the magnitude of `d`; the ends belong to an even mantissa. -/
def readsBack (d : Double) (c : Decimal) : Bool :=
  let (low, high) := d.rounding
  let (n, q) := c.ratio
  let e := d.exponent - 2
  let (n, q) := if 0 ≤ e then (n, q * Nat.pow 2 e.toNat) else (n * Nat.pow 2 (-e).toNat, q)
  if d.mantissa % 2 = 0 then low * q ≤ n && n ≤ high * q else low * q < n && n < high * q

/-- The distance of a decimal from the magnitude of `d`, as a ratio. -/
def distance (d : Double) (c : Decimal) : Nat × Nat :=
  let (n, q) := d.ratio
  let (n', q') := c.ratio
  ((n * q' - n' * q) + (n' * q - n * q'), q * q')

/-- The place of the first significant digit: `10 ^ place ≤ magnitude < 10 ^ (place + 1)`. -/
def leadingPlace (d : Double) : Int :=
  let (n, q) := d.ratio
  if q ≤ n then ((Nat.toDigits 10 (n / q)).length : Int) - 1
  else
    let k := (Nat.toDigits 10 (q / n)).length
    if n * Nat.pow 10 (k - 1) ≥ q then 1 - (k : Int) else -(k : Int)

/-- The nearer of the two neighbours of `d` among the decimals with `count` digits, of those that
read back; a tie goes to the even one. -/
def onGrid (d : Double) (count : Nat) : Option Decimal :=
  let exponent := d.leadingPlace - (count : Int) + 1
  let (n, q) := d.ratio
  let below := if 0 ≤ exponent then n / (q * Nat.pow 10 exponent.toNat)
    else n * Nat.pow 10 (-exponent).toNat / q
  let a : Decimal := ⟨below, exponent⟩
  let b : Decimal := ⟨below + 1, exponent⟩
  match d.readsBack a, d.readsBack b with
  | false, false => none
  | true, false => some a
  | false, true => some b
  | true, true =>
    let (x, s) := d.distance a
    let (y, t) := d.distance b
    if x * t < y * s then some a
    else if y * s < x * t then some b
    else if below % 2 = 0 then some a else some b

/-- The shortest decimal that rounds to the magnitude of `d`. -/
def shortest (d : Double) : Decimal :=
  if d.isZero then ⟨0, 0⟩
  else ((List.range 17).findSome? fun k => d.onGrid (k + 1)).getD ⟨0, 0⟩ |>.normalize

end Double

/-- How a double is written: between the two powers of ten the notation is positional, outside it
is scientific. -/
structure DoubleStyle where
  /-- The least place of the decimal point, counted from the first digit, written positionally. -/
  leastPoint : Int
  /-- The greatest place of the decimal point written positionally. -/
  greatestPoint : Int
  /-- Written before an exponent that is not negative. -/
  plus : String

/-- The text of a double: an integer keeps a point and a zero, an exponent is not padded. -/
def DoubleStyle.render (style : DoubleStyle) (d : Double) : String :=
  let s := d.shortest
  let digits := String.ofList (Nat.toDigits 10 s.digits)
  let count := digits.length
  let point : Int := (count : Int) + s.exponent
  let zeros (n : Int) : String := String.ofList (List.replicate n.toNat '0')
  let sign := if d.negative then "-" else ""
  let body :=
    if d.isZero then "0.0"
    else if 0 ≤ s.exponent && point ≤ style.greatestPoint then digits ++ zeros s.exponent ++ ".0"
    else if 0 < point && point ≤ style.greatestPoint then
      String.ofList (digits.toList.take point.toNat) ++ "." ++
        String.ofList (digits.toList.drop point.toNat)
    else if style.leastPoint ≤ point && point ≤ 0 then "0." ++ zeros (-point) ++ digits
    else
      let e := point - 1
      let mark := if e < 0 then "e-" else "e" ++ style.plus
      let front := String.ofList (digits.toList.take 1)
      let back := String.ofList (digits.toList.drop 1)
      (if back = "" then front else front ++ "." ++ back) ++ mark ++ toString e.natAbs
  sign ++ body

end ProcessKit
