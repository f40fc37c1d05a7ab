/-
QueryTerms.Proofs.NumericPrefix — an integer is decoded to the exact value of its numeric prefix.

The numeric prefix of some bytes is an optional sign and the longest run of digits behind it
(`NumericPrefix`); all bytes have exactly one. Its value is that of the digits in decimal, of any size, and
decoding gives this value if it has a place among the integers of 64 bits, and zero otherwise. So it does
not matter how many zeros lead the digits, nor what follows them.

The same number is found by going over the bytes once: stop at the first byte that is neither a digit nor a
sign at the very front (`scanned`), take what was passed for text, and build the number up digit by digit,
giving up when it leaves the range (`readInt64?`). What was passed is ASCII, so it always is text. And giving
up early is right, because a number that has left the range never comes back: a further digit only takes it
further away from zero (`accumulate?_eq`).

  §1  numbers in decimal, and the range of 64 bits
  §2  the numeric prefix
  §3  decoding is the value of the prefix
  §4  scanning, and building the number up
  §5  the main statement
-/
import Mathlib.Data.List.Induction
import Mathlib.Data.List.TakeWhile
import Mathlib.Data.Nat.Digits.Defs
import QueryTerms.Proofs.ReadingBack

namespace QueryTerms

/-! ## 1. Numbers in decimal -/

namespace Numeral

/-- The number that digits spell in decimal: the last one counts ones, the one before it tens, and so
on. -/
def decimal (digits : List UInt8) : Nat :=
  Nat.ofDigits 10 (digits.reverse.map fun b => b.toNat - 48)

theorem decimal_append_singleton (digits : List UInt8) (b : UInt8) :
    decimal (digits ++ [b]) = 10 * decimal digits + (b.toNat - 48) := by
  simp [decimal, Nat.ofDigits_cons, Nat.add_comm]

/-- Reading digits one after another gives the number that they spell. -/
theorem valueOf_eq_decimal (digits : List UInt8) : valueOf digits = decimal digits := by
  induction digits using List.reverseRecOn with
  | nil => rfl
  | append_singleton digits b ih =>
      rw [decimal_append_singleton, ← ih, valueOf, List.foldl_append]
      rfl

/-- Leading zeros do not count. -/
theorem decimal_zeros (k : Nat) (digits : List UInt8) :
    decimal (List.replicate k '0'.toUInt8 ++ digits) = decimal digits := by
  have hzero : '0'.toUInt8.toNat - 48 = 0 := rfl
  rw [decimal, List.reverse_append, List.map_append, List.reverse_replicate, List.map_replicate, hzero,
    Nat.ofDigits_append_replicate_zero, decimal]

/-- The number has a place among the integers of 64 bits. -/
def Fits64 (n : Int) : Prop :=
  -9223372036854775808 ≤ n ∧ n ≤ 9223372036854775807

instance : DecidablePred Fits64 := fun _ => inferInstanceAs (Decidable (_ ∧ _))

/-- A number that fits is the value of its integer of 64 bits. -/
theorem toInt_ofInt_of_fits64 {n : Int} (h : Fits64 n) : (Int64.ofInt n).toInt = n :=
  Int64.toInt_ofInt_of_le h.1 (Int.lt_add_one_of_le h.2)

end Numeral

open Numeral

/-! ## 2. The numeric prefix -/

/-- The sign in front of a number. -/
inductive Sign where
  | absent
  | plus
  | minus
  deriving DecidableEq

namespace Sign

/-- The bytes that a sign is written with. -/
def bytes : Sign → List UInt8
  | .absent => []
  | .plus => ['+'.toUInt8]
  | .minus => ['-'.toUInt8]

/-- The number of the given magnitude. -/
def apply : Sign → Nat → Int
  | .minus, n => -n
  | _, n => n

/-- The sign that bytes start with. -/
def ofBytes : List UInt8 → Sign
  | [] => .absent
  | b :: _ => if b = '-'.toUInt8 then .minus else if b = '+'.toUInt8 then .plus else .absent

end Sign

/-- The bytes are a sign, digits, and a rest in front of which no digit stands; a sign is absent only if
none stands first. -/
structure NumericPrefix (raw : List UInt8) (sign : Sign) (digits rest : List UInt8) : Prop where
  bytes_eq : raw = sign.bytes ++ (digits ++ rest)
  digits_only : ∀ b ∈ digits, isDigitByte b
  longest : NoDigitFirst rest
  absent : sign = .absent → ∀ b ∈ raw.head?, b ≠ '-'.toUInt8 ∧ b ≠ '+'.toUInt8

theorem Sign.ofBytes_of_ne {raw : List UInt8}
    (h : ∀ b ∈ raw.head?, b ≠ '-'.toUInt8 ∧ b ≠ '+'.toUInt8) : Sign.ofBytes raw = .absent := by
  cases raw with
  | nil => rfl
  | cons b rest => rw [ofBytes, if_neg (h b rfl).1, if_neg (h b rfl).2]

/-- The sign that bytes start with stands in front of them. -/
theorem Sign.bytes_append_drop (raw : List UInt8) :
    (ofBytes raw).bytes ++ raw.drop (ofBytes raw).bytes.length = raw := by
  cases raw with
  | nil => rfl
  | cons b rest =>
      rw [ofBytes]
      split
      · next hb => simp [Sign.bytes, hb]
      · split
        · next hb => simp [Sign.bytes, hb]
        · rfl

namespace NumericPrefix

variable {raw digits rest : List UInt8} {sign : Sign}

theorem sign_eq (h : NumericPrefix raw sign digits rest) : sign = Sign.ofBytes raw := by
  cases sign with
  | absent => rw [Sign.ofBytes_of_ne (h.absent rfl)]
  | plus =>
      rw [h.bytes_eq]
      rfl
  | minus =>
      rw [h.bytes_eq]
      rfl

theorem drop_eq (h : NumericPrefix raw sign digits rest) :
    raw.drop sign.bytes.length = digits ++ rest := by
  rw [h.bytes_eq, List.drop_left]

/-- Bytes have one numeric prefix. -/
theorem unique (h : NumericPrefix raw sign digits rest) {sign' : Sign} {digits' rest' : List UInt8}
    (h' : NumericPrefix raw sign' digits' rest') : sign' = sign ∧ digits' = digits ∧ rest' = rest := by
  obtain rfl : sign' = sign := h'.sign_eq.trans h.sign_eq.symm
  have hbehind : digits' ++ rest' = digits ++ rest := h'.drop_eq.symm.trans h.drop_eq
  have hdigits : digits' = digits := by
    rw [← takeWhile_digits h'.digits_only h'.longest, hbehind,
      takeWhile_digits h.digits_only h.longest]
  subst hdigits
  exact ⟨rfl, rfl, List.append_cancel_left hbehind⟩

end NumericPrefix

/-- All bytes have a numeric prefix. -/
theorem exists_numericPrefix (raw : List UInt8) :
    ∃ sign digits rest, NumericPrefix raw sign digits rest := by
  let behind := raw.drop (Sign.ofBytes raw).bytes.length
  refine ⟨Sign.ofBytes raw, behind.takeWhile isDigitByte, behind.dropWhile isDigitByte, ?_, ?_, ?_, ?_⟩
  · rw [List.takeWhile_append_dropWhile]
    exact (Sign.bytes_append_drop raw).symm
  · exact fun b hb => List.mem_takeWhile_imp hb
  · intro b hb
    have hnot := List.head?_dropWhile_not isDigitByte behind
    rw [Option.mem_def.1 hb] at hnot
    simpa using hnot
  · intro habsent b hb
    cases raw with
    | nil => cases hb
    | cons c rest =>
        obtain rfl : c = b := by simpa using hb
        by_contra hsign
        rw [not_and_or, not_not, not_not] at hsign
        rcases hsign with rfl | rfl <;> cases habsent

/-! ## 3. Decoding is the value of the prefix -/

namespace NumericPrefix

variable {raw digits rest : List UInt8} {sign : Sign}

theorem splitSign_eq (h : NumericPrefix raw sign digits rest) :
    Domain.splitSign raw = (decide (sign = .minus), digits ++ rest) := by
  cases sign with
  | absent =>
      obtain rfl : raw = digits ++ rest := h.bytes_eq
      have hfirst := h.absent rfl
      cases hbytes : digits ++ rest with
      | nil => rfl
      | cons b bytes =>
          obtain ⟨hminus, hplus⟩ := hfirst b (by rw [hbytes]; rfl)
          rw [Domain.splitSign, if_neg hminus, if_neg hplus]
          rfl
  | plus =>
      rw [h.bytes_eq]
      rfl
  | minus =>
      rw [h.bytes_eq]
      rfl

theorem signedValue_eq (h : NumericPrefix raw sign digits rest) :
    Domain.signedValue raw = sign.apply (decimal digits) := by
  simp only [Domain.signedValue, h.splitSign_eq, takeWhile_digits h.digits_only h.longest,
    valueOf_eq_decimal]
  cases sign <;> rfl

end NumericPrefix

/-- Decoding gives the signed value if it fits, and zero if not. -/
theorem Domain.toInt_decodeIntegral (raw : List UInt8) :
    (decodeIntegral raw).toInt = if Fits64 (signedValue raw) then signedValue raw else 0 := by
  have hrange : (Int64.minValue.toInt ≤ signedValue raw ∧ signedValue raw ≤ Int64.maxValue.toInt)
      ↔ Fits64 (signedValue raw) := Iff.rfl
  simp only [decodeIntegral, hrange]
  split
  · next hfits => exact toInt_ofInt_of_fits64 hfits
  · rfl

/-! ## 4. Scanning, and building the number up -/

/-- The bytes in front of the first one that is neither a digit nor a sign at position 0, the first of
them standing at the position given. -/
def scanFrom : Nat → List UInt8 → List UInt8
  | _, [] => []
  | i, b :: rest =>
    if isDigitByte b || (i = 0 && (b = '-'.toUInt8 || b = '+'.toUInt8)) then
      b :: scanFrom (i + 1) rest
    else []

/-- The bytes that are passed before the number has ended. -/
def scanned (raw : List UInt8) : List UInt8 :=
  scanFrom 0 raw

/-- Behind the front the scan passes digits only. -/
theorem scanFrom_succ (i : Nat) (bytes : List UInt8) :
    scanFrom (i + 1) bytes = bytes.takeWhile isDigitByte := by
  induction bytes generalizing i with
  | nil => rfl
  | cons b rest ih =>
      rw [scanFrom, List.takeWhile_cons, ih]
      simp

theorem NumericPrefix.scanned_eq {raw digits rest : List UInt8} {sign : Sign}
    (h : NumericPrefix raw sign digits rest) : scanned raw = sign.bytes ++ digits := by
  have hdigits := takeWhile_digits h.digits_only h.longest
  cases sign with
  | absent =>
      obtain rfl : raw = digits ++ rest := h.bytes_eq
      have hfirst := h.absent rfl
      rw [scanned, Sign.bytes, List.nil_append]
      conv_rhs => rw [← hdigits]
      cases hbytes : digits ++ rest with
      | nil => rfl
      | cons b bytes =>
          obtain ⟨hminus, hplus⟩ := hfirst b (by rw [hbytes]; rfl)
          rw [scanFrom, scanFrom_succ, List.takeWhile_cons]
          simp [hminus, hplus]
  | plus =>
      rw [h.bytes_eq, scanned, Sign.bytes, List.singleton_append, scanFrom, scanFrom_succ, hdigits]
      rfl
  | minus =>
      rw [h.bytes_eq, scanned, Sign.bytes, List.singleton_append, scanFrom, scanFrom_succ, hdigits]
      rfl

/-- A byte below 128 is the one byte of its character. -/
theorem utf8EncodeChar_ofUInt8 {b : UInt8} (h : b.toNat < 128) :
    String.utf8EncodeChar (Char.ofUInt8 b) = [b] := by
  have hsize : (Char.ofUInt8 b).utf8Size = 1 := by
    rw [Char.utf8Size_eq_one_iff, UInt32.le_iff_toNat_le]
    exact Nat.le_of_lt_succ h
  have hbyte : (Char.ofUInt8 b).val.toUInt8 = b := UInt8.toUInt8_toUInt32 b
  rw [String.utf8EncodeChar_eq_singleton hsize, hbyte]

/-- Bytes below 128 are text. -/
theorem exists_fromUTF8?_of_ascii {bytes : List UInt8} (h : ∀ b ∈ bytes, b.toNat < 128) :
    ∃ text, String.fromUTF8? bytes.toByteArray = some text ∧ utf8 text = bytes := by
  have hencoded : (bytes.map Char.ofUInt8).flatMap String.utf8EncodeChar = bytes := by
    rw [List.flatMap_map]
    induction bytes with
    | nil => rfl
    | cons b rest ih =>
        rw [List.flatMap_cons, utf8EncodeChar_ofUInt8 (h b (by simp)), ih fun c hc => h c (by simp [hc]),
          List.singleton_append]
  have hvalid : bytes.toByteArray.IsValidUTF8 :=
    .intro (bytes.map Char.ofUInt8) (congrArg List.toByteArray hencoded.symm)
  refine ⟨String.fromUTF8 bytes.toByteArray hvalid, dif_pos hvalid, List.toByteArray_inj.1 ?_⟩
  exact String.utf8Encode_toList

/-- The number, if it fits. -/
def checked? (n : Int) : Option Int :=
  if Fits64 n then some n else none

/-- The number after some more digits; there is none once it does not fit. -/
def accumulate? (sign : Sign) : Int → List UInt8 → Option Int
  | n, [] => some n
  | n, b :: rest =>
    if isDigitByte b then do
      let tens ← checked? (10 * n)
      let next ← checked? (tens + sign.apply (b.toNat - 48))
      accumulate? sign next rest
    else none

/-- The number that bytes spell, if they are a sign or none and digits, and the number fits. -/
def readInt64? (bytes : List UInt8) : Option Int64 :=
  let sign := Sign.ofBytes bytes
  let digits := bytes.drop sign.bytes.length
  if digits = [] then none else (accumulate? sign 0 digits).map Int64.ofInt

/-- A number that does not fit does not come to fit by growing. -/
theorem Numeral.Fits64.of_le {sign : Sign} {m n : Nat} (h : Fits64 (sign.apply n)) (hle : m ≤ n) :
    Fits64 (sign.apply m) := by
  unfold Fits64 at *
  cases sign <;> simp only [Sign.apply] at * <;> omega

/-- More digits never make a number smaller. -/
theorem le_foldl_digits (digits : List UInt8) (n : Nat) :
    n ≤ digits.foldl (fun n b => 10 * n + (b.toNat - 48)) n := by
  induction digits generalizing n with
  | nil => exact Nat.le_refl n
  | cons b rest ih => exact Nat.le_trans (by omega) (ih (10 * n + (b.toNat - 48)))

theorem Sign.apply_step (sign : Sign) (n d : Nat) :
    10 * sign.apply n = sign.apply (10 * n) ∧ sign.apply (10 * n) + sign.apply d = sign.apply (10 * n + d) := by
  cases sign <;> simp only [Sign.apply] <;> omega

theorem checked?_of_fits {n : Int} (h : Fits64 n) : checked? n = some n :=
  if_pos h

theorem checked?_of_not_fits {n : Int} (h : ¬ Fits64 n) : checked? n = none :=
  if_neg h

/-- Building a number up with a check at every step gives the number if it fits at the end. -/
theorem accumulate?_eq (sign : Sign) {digits : List UInt8} (hdigits : ∀ b ∈ digits, isDigitByte b)
    {n : Nat} (hn : Fits64 (sign.apply n)) :
    accumulate? sign (sign.apply n) digits =
      checked? (sign.apply (digits.foldl (fun n b => 10 * n + (b.toNat - 48)) n)) := by
  induction digits generalizing n with
  | nil => rw [accumulate?, List.foldl_nil, checked?_of_fits hn]
  | cons b rest ih =>
      obtain ⟨htens, hnext⟩ := sign.apply_step n (b.toNat - 48)
      have hgrows := le_foldl_digits rest (10 * n + (b.toNat - 48))
      simp only [accumulate?, if_pos (hdigits b (by simp)), htens, List.foldl_cons]
      by_cases hfits : Fits64 (sign.apply (10 * n + (b.toNat - 48)))
      · have htens' : Fits64 (sign.apply (10 * n)) := hfits.of_le (Nat.le_add_right _ _)
        simp only [checked?_of_fits htens', Option.bind_eq_bind, Option.bind_some, hnext,
          checked?_of_fits hfits]
        exact ih (fun c hc => hdigits c (by simp [hc])) hfits
      · -- the digits that follow only take the number further away
        rw [checked?_of_not_fits fun h => hfits (h.of_le hgrows)]
        by_cases htens' : Fits64 (sign.apply (10 * n))
        · simp only [checked?_of_fits htens', Option.bind_eq_bind, Option.bind_some, hnext,
            checked?_of_not_fits hfits, Option.bind_none]
        · simp only [checked?_of_not_fits htens', Option.bind_eq_bind, Option.bind_none]

namespace NumericPrefix

variable {raw digits rest : List UInt8} {sign : Sign}

/-- The prefix alone has the same numeric prefix. -/
theorem front (h : NumericPrefix raw sign digits rest) :
    NumericPrefix (sign.bytes ++ digits) sign digits [] := by
  refine ⟨by rw [List.append_nil], h.digits_only, fun b hb => (by cases hb), ?_⟩
  rintro rfl b hb
  obtain rfl : raw = digits ++ rest := h.bytes_eq
  refine h.absent rfl b ?_
  rw [List.head?_append, show digits.head? = some b from hb]
  rfl

theorem readInt64?_eq (h : NumericPrefix raw sign digits rest) :
    readInt64? (sign.bytes ++ digits) =
      if digits = [] then none else (checked? (sign.apply (decimal digits))).map Int64.ofInt := by
  have hzero : sign.apply 0 = 0 := by cases sign <;> rfl
  have hbuilt := accumulate?_eq sign h.digits_only (n := 0) (by rw [hzero]; decide)
  rw [hzero] at hbuilt
  rw [← valueOf_eq_decimal, valueOf, ← hbuilt]
  simp only [readInt64?, ← h.front.sign_eq, h.front.drop_eq, List.append_nil]

theorem ascii (h : NumericPrefix raw sign digits rest) {b : UInt8} (hb : b ∈ sign.bytes ++ digits) :
    b.toNat < 128 := by
  rcases List.mem_append.1 hb with hsign | hdigit
  · cases sign <;> simp [Sign.bytes] at hsign <;> subst hsign <;> decide
  · have hrange := h.digits_only b hdigit
    rw [isDigitByte, Bool.and_eq_true, decide_eq_true_eq, decide_eq_true_eq] at hrange
    omega

/-- Reading by a scan gives what decoding gives, or nothing instead of zero. -/
theorem decodeIntegral_eq (h : NumericPrefix raw sign digits rest) :
    Domain.decodeIntegral raw = (readInt64? (sign.bytes ++ digits)).getD 0 := by
  rw [← Int64.toInt_inj, Domain.toInt_decodeIntegral, h.signedValue_eq, h.readInt64?_eq]
  by_cases hempty : digits = []
  · subst hempty
    cases sign <;> rfl
  · rw [if_neg hempty]
    by_cases hfits : Fits64 (sign.apply (decimal digits))
    · rw [if_pos hfits, checked?_of_fits hfits]
      exact (toInt_ofInt_of_fits64 hfits).symm
    · rw [if_neg hfits, checked?_of_not_fits hfits]
      rfl

end NumericPrefix

/-! ## 5. The exact value -/

/-- **An integer is decoded to the exact value of its numeric prefix.** All bytes have one numeric prefix:
a sign or none, the longest run of digits behind it, and a rest. They decode to the signed value of the
digits in decimal if there are digits and the value fits 64 bits, and to zero if not. Zeros may lead the
digits, and the rest may be any other: the value stays. A scan passes the sign and the digits; what it
passes is text, and the number read from this text with a check at every digit, or zero if there is none,
is the decoded one. In particular every number that fits decodes to itself from its numeral, whatever
stands behind it, and one that does not fit decodes to zero. -/
theorem Domain.decodeIntegral_exact :
    (∀ raw, ∃! p : Sign × List UInt8 × List UInt8, NumericPrefix raw p.1 p.2.1 p.2.2)
    ∧ (∀ {raw sign digits rest}, NumericPrefix raw sign digits rest →
        let n := sign.apply (decimal digits)
        (decodeIntegral raw).toInt = (if digits ≠ [] ∧ Fits64 n then n else 0)
        ∧ (∀ {zeros raw' rest'},
            NumericPrefix raw' sign (List.replicate zeros '0'.toUInt8 ++ digits) rest' →
              decodeIntegral raw' = decodeIntegral raw)
        ∧ scanned raw = sign.bytes ++ digits
        ∧ ∃ text, String.fromUTF8? (scanned raw).toByteArray = some text
            ∧ decodeIntegral raw = (readInt64? (utf8 text)).getD 0)
    ∧ ∀ n {rest}, NoDigitFirst rest →
        (decodeIntegral (utf8 (Numeral.ofInt n) ++ rest)).toInt = if Fits64 n then n else 0 := by
  refine ⟨fun raw => ?_, fun {raw sign digits rest} h => ⟨?_, ?_, h.scanned_eq, ?_⟩, fun n rest hrest => ?_⟩
  · obtain ⟨sign, digits, rest, h⟩ := exists_numericPrefix raw
    refine ⟨(sign, digits, rest), h, fun p hp => ?_⟩
    obtain ⟨hsign, hdigits, hrest⟩ := h.unique hp
    exact Prod.ext hsign (Prod.ext hdigits hrest)
  · rw [toInt_decodeIntegral, h.signedValue_eq]
    by_cases hempty : digits = []
    · subst hempty
      cases sign <;> rfl
    · simp only [ne_eq, hempty, not_false_eq_true, true_and]
  · intro zeros raw' rest' h'
    rw [← Int64.toInt_inj, toInt_decodeIntegral, toInt_decodeIntegral, h.signedValue_eq,
      h'.signedValue_eq, decimal_zeros]
  · obtain ⟨text, htext, hbytes⟩ := exists_fromUTF8?_of_ascii fun b => h.ascii (b := b)
    refine ⟨text, by rw [h.scanned_eq, htext], ?_⟩
    rw [hbytes]
    exact h.decodeIntegral_eq
  · rw [toInt_decodeIntegral, signedValue_utf8_ofInt n hrest]

/-- The smallest number with zeros in front and bytes behind that are no text, and the number next to the
greatest one. -/
theorem Domain.decodeIntegral_exact_edges :
    let digits := utf8 "9223372036854775808"
    let raw := utf8 "-00" ++ (digits ++ [0xff, 0x35])
    NumericPrefix (utf8 "-" ++ digits) .minus digits []
    ∧ NumericPrefix raw .minus (List.replicate 2 '0'.toUInt8 ++ digits) [0xff, 0x35]
    ∧ (decodeIntegral raw).toInt = -9223372036854775808
    ∧ NoDigitFirst (utf8 "-5")
    ∧ (decodeIntegral (utf8 (Numeral.ofInt 9223372036854775808) ++ utf8 "-5")).toInt = 0 := by
  intro digits raw
  obtain ⟨-, hexact, hnumerals⟩ := Domain.decodeIntegral_exact
  have hdigits : ∀ b ∈ List.replicate 2 '0'.toUInt8 ++ digits, isDigitByte b := List.all_eq_true.1 rfl
  have hshort : NumericPrefix (utf8 "-" ++ digits) .minus digits [] :=
    ⟨rfl, (List.forall_mem_append.1 hdigits).2, fun b hb => (by cases hb), fun h => (by cases h)⟩
  have hlong : NumericPrefix raw .minus (List.replicate 2 '0'.toUInt8 ++ digits) [0xff, 0x35] :=
    ⟨rfl, hdigits, fun b hb => (by cases hb; rfl), fun h => (by cases h)⟩
  have hrest : NoDigitFirst (utf8 "-5") := fun b hb => (by cases hb; rfl)
  obtain ⟨hvalue, hzeros, -⟩ := hexact hshort
  have hdecimal : decimal digits = 9223372036854775808 := by rw [← valueOf_eq_decimal]; rfl
  refine ⟨hshort, hlong, ?_, hrest, ?_⟩
  · have hfits : digits ≠ [] ∧ Fits64 (Sign.minus.apply (decimal digits)) := by
      rw [hdecimal]
      decide
    rw [hzeros hlong, hvalue, if_pos hfits, hdecimal]
    rfl
  · rw [hnumerals 9223372036854775808 hrest, if_neg (by decide)]

end QueryTerms
