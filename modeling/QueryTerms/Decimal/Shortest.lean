/-
QueryTerms.Decimal.Shortest — the fewest decimal digits that identify a double.

A positive double stands for all reals that round to it: from halfway to the double below to halfway
to the double above, both ends included exactly if its significand is even. Every end is a whole number
of quarter units of the last binary place, and a quarter unit is a whole number of a power of ten, so the
double and the two ends are naturals over one power of ten. Dropping digits from the right leaves two
neighbours on a coarser decimal grid; the coarsest grid with a neighbour among these reals wins, of two
neighbours the nearer one, and on a tie the even one. Dropping no digit always succeeds.
-/

namespace QueryTerms.Decimal

/-- A natural times a power of ten. -/
structure Scaled where
  digits : Nat
  exponent : Int
  deriving DecidableEq, Repr

/-- A positive double and the ends of its interval, over the power of ten `10 ^ exponent`. -/
structure Interval where
  lower : Nat
  value : Nat
  upper : Nat
  /-- Whether the ends belong to the interval. -/
  closed : Bool
  exponent : Int
  deriving DecidableEq, Repr

/-- The interval of the double with these bits; the sign is left aside. -/
def Interval.ofBits (bits : UInt64) : Interval :=
  let biased := (bits.toNat / Nat.pow 2 52) % Nat.pow 2 11
  let fraction := bits.toNat % Nat.pow 2 52
  let significand := if biased = 0 then fraction else Nat.pow 2 52 + fraction
  -- the binary exponent of a quarter unit of the last place
  let place : Int := (max biased 1 : Nat) - 1077
  -- below a power of two the doubles lie twice as dense
  let below := if fraction = 0 ∧ 1 < biased then 1 else 2
  let unit := if 0 ≤ place then Nat.pow 2 place.toNat else Nat.pow 5 (-place).toNat
  { lower := (4 * significand - below) * unit
    value := 4 * significand * unit
    upper := (4 * significand + 2) * unit
    closed := significand % 2 = 0
    exponent := min place 0 }

namespace Interval

/-- Whether a number over the interval's power of ten lies in the interval. -/
def contains (i : Interval) (n : Nat) : Bool :=
  if i.closed then i.lower ≤ n && n ≤ i.upper else i.lower < n && n < i.upper

/-- The neighbour of the value that stands in the interval, on the grid that drops `drop` digits; the
nearer one of two, and on a tie the even one. -/
def neighbour? (i : Interval) (drop : Nat) : Option Nat :=
  let grid := Nat.pow 10 drop
  let down := i.value / grid
  let up := down + 1
  match i.contains (down * grid), i.contains (up * grid) with
  | true, true =>
    let twice := 2 * i.value
    let ends := (down + up) * grid
    if twice < ends then some down
    else if ends < twice then some up
    else if down % 2 = 0 then some down else some up
  | true, false => some down
  | false, true => some up
  | false, false => none

/-- The neighbour on the coarsest grid of at most `drop` dropped digits. -/
def coarsest (i : Interval) : Nat → Scaled
  | 0 => ⟨i.value, i.exponent⟩
  | drop + 1 =>
    match i.neighbour? (drop + 1) with
    | some n => ⟨n, i.exponent + (drop + 1 : Nat)⟩
    | none => i.coarsest drop

end Interval

/-- Moves trailing zeros into the exponent. -/
def Scaled.strip (s : Scaled) : Scaled :=
  let digits := (Nat.toDigits 10 s.digits).reverse
  let zeros := (digits.takeWhile (· = '0')).length
  if s.digits = 0 then s else ⟨s.digits / Nat.pow 10 zeros, s.exponent + zeros⟩

/-- The fewest digits that identify the positive double with these bits. -/
def shortest (bits : UInt64) : Scaled :=
  let i := Interval.ofBits bits
  (i.coarsest ((Nat.toDigits 10 i.value).length - 1)).strip

end QueryTerms.Decimal
