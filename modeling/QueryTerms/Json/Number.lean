/-
QueryTerms.Json.Number — numbers: how they are read, and how they are shown.

A number without fraction and exponent is an integer if it lies from -2^63 to 2^64 - 1; minus zero and
every other number is a double. A double is computed from a significand below 2^64, into which digits
are absorbed as long as they fit, and a power of ten: one double multiplication or division, so the
result may be off by an ulp. A result beyond the largest double is malformed.

A double is shown with the fewest digits that identify it, positionally from 10^-5 up to 10^16 and with
a signed exponent elsewhere; whole numbers shown positionally keep `.0`.
-/
import QueryTerms.Json.Reader
import QueryTerms.Decimal.Shortest
import QueryTerms.Numeral

namespace QueryTerms.Json

/-- A number as it was understood; a double is known by its bits. -/
inductive Number where
  | integer (n : Int)
  | double (bits : UInt64)
  deriving DecidableEq

namespace Number

open Reader

variable {ε : Type}

/-! ## 1. Spelling -/

/-- The parts of a number as written: the digits, and the sign of the exponent. -/
structure Spelling where
  negative : Bool
  whole : List Char
  fraction : Option (List Char)
  /-- Whether the exponent is negative, and its digits. -/
  exponent : Option (Bool × List Char)

/-- The digits behind a point; there must be one. -/
def fractionDigits : Reader ε (List Char) := do
  let ds ← takeWhile Char.isDigit
  if ds.isEmpty then
    let _ ← next
    throw .malformed
  pure ds

/-- The digits of an exponent; the first one is given. -/
def exponentFrom (negative : Bool) (first : Char) : Reader ε (Bool × List Char) :=
  if first.isDigit then do
    let ds ← takeWhile Char.isDigit
    pure (negative, first :: ds)
  else throw .malformed

/-- An optional sign and the digits of an exponent; there must be one. -/
def exponentDigits : Reader ε (Bool × List Char) := do
  match ← next with
  | '+' => exponentFrom false (← next)
  | '-' => exponentFrom true (← next)
  | c => exponentFrom false c

/-- A fraction, if there is one. -/
def fraction? : Reader ε (Option (List Char)) := do
  if (← peek?) = some '.' then
    let _ ← next
    some <$> fractionDigits
  else pure none

/-- An exponent, if there is one. -/
def exponent? : Reader ε (Option (Bool × List Char)) := do
  let c? ← peek?
  if c? = some 'e' ∨ c? = some 'E' then
    let _ ← next
    some <$> exponentDigits
  else pure none

/-- A number whose first digit, behind the sign, is given. A leading zero stands alone. -/
def spelling (negative : Bool) (first : Char) : Reader ε Spelling := do
  if !first.isDigit then throw .malformed
  let rest ← takeWhile Char.isDigit
  if first = '0' && !rest.isEmpty then throw .malformed
  let fraction ← fraction?
  let exponent ← exponent?
  pure ⟨negative, first :: rest, fraction, exponent⟩

/-! ## 2. Value -/

/-- Absorbs digits into a significand while it stays below 2^64; the digits that are left too. -/
def absorb (m : Nat) : List Char → Nat × List Char
  | [] => (m, [])
  | d :: ds =>
    let m' := 10 * m + (d.toNat - '0'.toNat)
    if m' < Nat.pow 2 64 then absorb m' ds else (m, d :: ds)

/-- The double nearest to a natural times a power of ten. -/
def nearest (m e : Nat) : Float :=
  Float.ofScientific m false e

/-- A double times a power of ten, by one multiplication or division with the power, or by several
where the power is too small to be a double; none beyond the largest double. -/
def scale (x : Float) (e : Int) : Option Float :=
  if e.natAbs ≤ 308 then
    if 0 ≤ e then
      let y := x * nearest 1 e.natAbs
      if y.isInf then none else some y
    else some (x / nearest 1 e.natAbs)
  else if x == 0 then some x
  else if 0 ≤ e then none
  else scale (x / nearest 1 308) (e + 308)
termination_by e.natAbs

/-- Gives a double the sign of the number. -/
def signed (negative : Bool) (x : Float) : Number :=
  .double (if negative then -x else x).toBits

/-- The largest exponent that is taken at its word; beyond it a number is zero or out of range. -/
def exponentLimit : Nat := Nat.pow 2 31 - 1

/-- What a spelling stands for; none for a number beyond the largest double. -/
def Spelling.value? (s : Spelling) : Option Number :=
  let (m, left) := absorb 0 s.whole
  match s.fraction, s.exponent, left with
  | none, none, [] =>
    if !s.negative then some (.integer m)
    else if 0 < m ∧ m ≤ Nat.pow 2 63 then some (.integer (-m))
    else some (signed true (nearest m 0))
  | fraction, exponent, left =>
    let fractionDigits := fraction.getD []
    let (m, unread) := absorb m fractionDigits
    let shift : Int := (left.length : Int) - (fractionDigits.length - unread.length : Nat)
    match exponent with
    | none => (scale (nearest m 0) shift).map (signed s.negative)
    | some (negative, digits) =>
      let e := Nat.ofDigitChars 10 digits 0
      if exponentLimit < e then
        if m = 0 ∨ negative then some (signed s.negative 0) else none
      else (scale (nearest m 0) (if negative then shift - e else shift + e)).map (signed s.negative)

/-- Reads the number whose first digit is given. -/
def afterDigit (negative : Bool) (first : Char) : Reader ε Number := do
  match (← spelling negative first).value? with
  | some n => pure n
  | none => throw .malformed

/-! ## 3. Text -/

/-- An exponent as it is shown: always with a sign. -/
def exponentText (e : Int) : List Char :=
  'e' :: (if e < 0 then '-' else '+') :: Nat.toDigits 10 e.natAbs

/-- Lays out digits times a power of ten. -/
def layout (s : Decimal.Scaled) : String :=
  let digits := Nat.toDigits 10 s.digits
  let length : Int := digits.length
  let point := length + s.exponent
  String.ofList <|
    if 0 ≤ s.exponent ∧ point ≤ 16 then
      digits ++ List.replicate s.exponent.toNat '0' ++ ['.', '0']
    else if 0 < point ∧ point ≤ 16 then
      digits.take point.toNat ++ '.' :: digits.drop point.toNat
    else if -5 < point ∧ point ≤ 0 then
      ['0', '.'] ++ List.replicate (-point).toNat '0' ++ digits
    else
      let tail := digits.drop 1
      digits.take 1 ++ (if tail.isEmpty then [] else '.' :: tail) ++ exponentText (point - 1)

/-- A double as it is shown. -/
def doubleText (bits : UInt64) : String :=
  let magnitude := bits % (1 <<< 63)
  (if magnitude = bits then "" else "-") ++
    (if magnitude = 0 then "0.0" else layout (Decimal.shortest magnitude))

end Number

end QueryTerms.Json
