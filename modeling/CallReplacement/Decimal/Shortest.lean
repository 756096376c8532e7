/-!
The shortest decimal of a binary number. Of all decimals that are read back as the number
`significand * 2 ^ exponent`, the one with the fewest digits is chosen, and of these the
nearest. It is written positionally, never with an exponent.

A decimal is read back as the number when it lies in the interval between the midpoints to
the two neighbouring numbers; a midpoint itself belongs to the even significand.
-/

namespace CallReplacement

structure Decimal where
  digits : Nat
  exponent : Int
deriving DecidableEq, Repr

namespace Decimal

/-- A positive binary number with its rounding interval. All three fields count quarters of
the last place, so that the midpoints to both neighbours are whole. -/
structure Interval where
  low : Nat
  value : Nat
  high : Nat
  scale : Int
  closed : Bool

/-- The interval of `significand * 2 ^ exponent`. Below a power of two the neighbours stand
half as far apart. -/
def Interval.ofBinary (significand : Nat) (exponent : Int) (narrowBelow : Bool) : Interval where
  low := 4 * significand - (if narrowBelow then 1 else 2)
  value := 4 * significand
  high := 4 * significand + 2
  scale := exponent - 2
  closed := significand % 2 == 0

def Interval.contains (i : Interval) (up down : Nat) (count : Nat) : Bool :=
  if i.closed then i.low * up ≤ count * down && count * down ≤ i.high * up
  else i.low * up < count * down && count * down < i.high * up

/-- The point of the grid of multiples of `10 ^ place` that lies in the interval and is
nearest to the value; of two equally near ones the larger. -/
def Interval.onGrid? (i : Interval) (place : Int) : Option Decimal :=
  let up := Nat.pow 2 i.scale.toNat * Nat.pow 10 (-place).toNat
  let down := Nat.pow 2 (-i.scale).toNat * Nat.pow 10 place.toNat
  let below := i.value * up / down
  let above := below + 1
  let nearAbove := above * down - i.value * up ≤ i.value * up - below * down
  if i.contains up down above && (nearAbove || !i.contains up down below) then
    some ⟨above, place⟩
  else if i.contains up down below then some ⟨below, place⟩
  else none

/-- The decimal places tried, the coarsest grid first: no finite number of 64 bits is as
large as `10 ^ 309`, and each has a point of the grid `10 ^ -324` in its interval. -/
def places : List Int := (List.range 634).map fun n : Nat => 309 - (n : Int)

def Interval.shortest (i : Interval) : Decimal :=
  (places.findSome? i.onGrid?).getD ⟨i.value, 0⟩

def text (d : Decimal) : String :=
  let digits := (toString d.digits).toList
  let fraction := (-d.exponent).toNat
  if d.exponent ≥ 0 then String.ofList (digits ++ List.replicate d.exponent.toNat '0')
  else if fraction < digits.length then
    String.ofList
      (digits.take (digits.length - fraction) ++ '.' :: digits.drop (digits.length - fraction))
  else
    String.ofList ('0' :: '.' :: List.replicate (fraction - digits.length) '0' ++ digits)

def isNegative (x : Float) : Bool := x.toBits >>> 63 == 1

def ofFinite (x : Float) : String :=
  let fraction := (x.toBits &&& 0xFFFFFFFFFFFFF).toNat
  let biased := ((x.toBits >>> 52) &&& 0x7FF).toNat
  let interval :=
    if biased = 0 then Interval.ofBinary fraction (-1074) false
    else
      Interval.ofBinary (fraction + 0x10000000000000) (biased - 1075)
        (fraction = 0 && biased > 1)
  let magnitude := if interval.value = 0 then "0" else interval.shortest.text
  if isNegative x then "-" ++ magnitude else magnitude

end Decimal
end CallReplacement
