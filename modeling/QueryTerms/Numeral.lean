/-
QueryTerms.Numeral — integers as decimal text, and the natural number a run of digit bytes spells.

Writing goes through core's digit list, so that its lemmas apply; reading is a fold over bytes, since
raw columns are bytes and need not be text.
-/

namespace QueryTerms.Numeral

/-! ## 1. Writing -/

/-- The decimal digits of a natural number, without leading zeros. -/
def ofNat (n : Nat) : String :=
  String.ofList (Nat.toDigits 10 n)

/-- A minus sign for numbers below zero, then the digits of the magnitude. -/
def ofInt (n : Int) : String :=
  if n < 0 then "-" ++ ofNat n.natAbs else ofNat n.natAbs

theorem isDigit_of_mem_ofNat {n : Nat} {c : Char} (h : c ∈ (ofNat n).toList) : c.isDigit :=
  Nat.isDigit_of_mem_toDigits (by decide : 0 < 10) (by decide) (by simpa [ofNat] using h)

/-- A numeral is made of digits, behind a minus sign or none. -/
theorem isDigit_of_mem_ofInt {n : Int} {c : Char} (h : c ∈ (ofInt n).toList) :
    c = '-' ∨ c.isDigit := by
  unfold ofInt at h
  split at h
  · rw [String.toList_append, List.mem_append] at h
    exact h.imp (by simp) isDigit_of_mem_ofNat
  · exact Or.inr (isDigit_of_mem_ofNat h)

/-- A numeral has at least one character. -/
theorem ofInt_ne_nil (n : Int) : (ofInt n).toList ≠ [] := by
  unfold ofInt
  split <;> simp [ofNat, Nat.toDigits_ne_nil]

/-! ## 2. Reading -/

/-- The bytes of the ten decimal digits. -/
def isDigitByte (b : UInt8) : Bool :=
  48 ≤ b.toNat && b.toNat ≤ 57

/-- The number that a run of digit bytes spells; no digits spell zero. -/
def valueOf (digits : List UInt8) : Nat :=
  digits.foldl (fun n b => 10 * n + (b.toNat - 48)) 0

end QueryTerms.Numeral
