/-
HeapDump/Number/Shortest.lean

The decimal text of a floating-point number: the fewest digits that read back
as the same number, written positionally.

The numbers that read back form an interval around the value, half way to each
neighbour; its ends belong to it iff the mantissa is even.  A grid of decimals
`d * 10 ^ k` is tried for ever smaller `k`.  On each grid only the two points
next to the value matter: the first grid on which one of them lies in the
interval wins, of two the nearer one, and the upper one in a tie.

All of it is exact arithmetic on naturals.  The interval is kept with a common
denominator, and a grid is compared with it by multiplying both up, so no
rational numbers are needed.
-/
import HeapDump.Number.Binary

namespace HeapDump

namespace Shortest

/-- The decimal number `digits * 10 ^ exponent`. -/
structure Decimal where
  digits : Nat
  exponent : Int
  deriving DecidableEq, Repr

/-- The interval of numbers that read back as one float, with its three marks
as integers over one common `scale`. -/
structure Interval where
  low : Nat
  value : Nat
  high : Nat
  scale : Nat
  /-- Whether the ends belong to the interval. -/
  closed : Bool

/-- The interval around `mantissa * 2 ^ exponent`, in quarters of the distance
to the upper neighbour. -/
def Interval.around (mantissa : Nat) (exponent : Int) (narrowBelow : Bool) : Interval :=
  let up := 1 <<< (exponent - 2).toNat
  -- Half of the distance to a neighbour is two quarters above, and one below a power of two.
  { low := (4 * mantissa - if narrowBelow then 1 else 2) * up
    value := 4 * mantissa * up
    high := (4 * mantissa + 2) * up
    scale := 1 <<< (2 - exponent).toNat
    closed := mantissa % 2 = 0 }

/-- The point of the grid of multiples of `10 ^ k` that stands for the interval's
value, if the grid has one inside the interval. -/
def Interval.pick? (i : Interval) (k : Int) : Option Decimal :=
  let zoom := Nat.pow 10 (-k).toNat
  let step := i.scale * Nat.pow 10 k.toNat
  -- The points next to the value are `below` and `below + 1`, in steps of the grid.
  let below := i.value * zoom / step
  let belowFits :=
    if i.closed then i.low * zoom ≤ below * step else i.low * zoom < below * step
  let aboveFits :=
    if i.closed then (below + 1) * step ≤ i.high * zoom else (below + 1) * step < i.high * zoom
  let nearerBelow := 2 * (i.value * zoom % step) < step
  if belowFits ∧ (nearerBelow ∨ ¬ aboveFits) then some ⟨below, k⟩
  else if aboveFits then some ⟨below + 1, k⟩
  else none

/-- The first grid with a point inside the interval, from `10 ^ k` downwards. -/
def Interval.search (i : Interval) : Nat → Int → Option Decimal
  | 0, _ => none
  | fuel + 1, k => (i.pick? k).or (i.search fuel (k - 1))

/-- The shortest decimal that reads back as `mantissa * 2 ^ exponent`.

No grid above the number of digits of the integral part can hit.  The value is
itself a multiple of `10 ^ exponent` for a negative exponent and of `1`
otherwise, so the search ends there at the latest. -/
def decimal (mantissa : Nat) (exponent : Int) (narrowBelow : Bool) : Decimal :=
  let top := (Nat.toDigits 10 (mantissa <<< exponent.toNat)).length
  let i := Interval.around mantissa exponent narrowBelow
  (i.search (top + (-exponent).toNat + 1) top).getD ⟨mantissa, exponent⟩

/-- A decimal written without an exponent, and without a point if it is whole. -/
def Decimal.text (d : Decimal) : String :=
  let digits := Nat.toDigits 10 d.digits
  match d.exponent with
  | .ofNat zeros => String.ofList (digits ++ List.replicate zeros '0')
  | .negSucc n =>
    let places := n + 1
    let digits := List.replicate (places + 1 - digits.length) '0' ++ digits
    let whole := digits.take (digits.length - places)
    let rest := digits.drop (digits.length - places)
    String.ofList (whole ++ '.' :: rest)

/-- The text of what a pattern stands for.  A zero keeps its sign. -/
def text : Binary.Content → String
  | .nan => "NaN"
  | .infinite negative => if negative then "-inf" else "inf"
  | .finite negative mantissa exponent narrowBelow =>
    let number := if mantissa = 0 then "0" else (decimal mantissa exponent narrowBelow).text
    if negative then "-" ++ number else number

end Shortest

/-- The shortest decimal text of a 32-bit float. -/
def Binary32.text (x : Binary32) : String := Shortest.text x.content

/-- The shortest decimal text of a 64-bit float. -/
def Binary64.text (x : Binary64) : String := Shortest.text x.content

end HeapDump
