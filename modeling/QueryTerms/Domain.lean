/-
QueryTerms.Domain — the scalar domains and what a raw column means in each.

A domain is a truth value or a 64-bit integer. It fixes the type of its native values, the trivial
value that a policy may read as NULL, the name under which it is reported, and the value that the
bytes of a non-null column stand for. Decoding never fails: bytes that spell nothing decode to the
trivial value.
-/
import QueryTerms.Numeral

namespace QueryTerms

/-- The two kinds of value that a query can hold. -/
inductive Domain where
  | boolean
  | integral
  deriving DecidableEq, Repr, Inhabited

namespace Domain

/-- Native values: truth values, or integers of 64 bits. -/
abbrev Native : Domain → Type
  | .boolean => Bool
  | .integral => Int64

instance (d : Domain) : DecidableEq d.Native :=
  match d with
  | .boolean => inferInstanceAs (DecidableEq Bool)
  | .integral => inferInstanceAs (DecidableEq Int64)

/-- The value a policy may read as NULL: false, or zero. -/
def trivialValue : (d : Domain) → d.Native
  | .boolean => false
  | .integral => 0

/-- Whether a value is its domain's trivial value. -/
def isTrivial {d : Domain} (v : d.Native) : Bool :=
  v = d.trivialValue

/-- The name under which a domain is reported. -/
def name : Domain → String
  | .boolean => "boolean"
  | .integral => "integral"

/-- A native value in words: `true` and `false`, or decimal digits. -/
def describe : {d : Domain} → d.Native → String
  | .boolean, true => "true"
  | .boolean, false => "false"
  | .integral, n => Numeral.ofInt n.toInt

/-! ## Decoding -/

/-- A truth value is true when its first byte is `t` or `1`. -/
def decodeBoolean : List UInt8 → Bool
  | [] => false
  | b :: _ => b = 't'.toUInt8 || b = '1'.toUInt8

/-- Splits a leading sign off: whether the number is negative, and the bytes behind the sign. -/
def splitSign : List UInt8 → Bool × List UInt8
  | [] => (false, [])
  | b :: rest =>
    if b = '-'.toUInt8 then (true, rest)
    else if b = '+'.toUInt8 then (false, rest)
    else (false, b :: rest)

/-- The signed value of the digits behind an optional sign, of any size. -/
def signedValue (raw : List UInt8) : Int :=
  let (negative, rest) := splitSign raw
  let magnitude : Int := Numeral.valueOf (rest.takeWhile Numeral.isDigitByte)
  if negative then -magnitude else magnitude

/-- The signed value of the leading digits if it fits 64 bits, zero otherwise. -/
def decodeIntegral (raw : List UInt8) : Int64 :=
  let n := signedValue raw
  if Int64.minValue.toInt ≤ n ∧ n ≤ Int64.maxValue.toInt then Int64.ofInt n else 0

/-- The value that the bytes of a non-null column stand for. -/
def decode : (d : Domain) → List UInt8 → d.Native
  | .boolean, raw => decodeBoolean raw
  | .integral, raw => decodeIntegral raw

end Domain

/-- A native value together with its domain. -/
structure Value where
  domain : Domain
  native : domain.Native

/-- The native value, if it is one of the domain asked for. -/
def Value.as? (v : Value) (d : Domain) : Option d.Native :=
  if h : v.domain = d then some (h ▸ v.native) else none

end QueryTerms
