/-
QueryTerms.Proofs.ReadingBack — a rendered value decodes to itself.

Decoding reads as far as it understands. An integer ends at the first byte that is no digit, so a numeral
reads back as its number if no digit follows; a truth value is decided by its first byte, which is the
same in either style. What follows the text is quantified over, so the value is read back wherever its
text ends.

  §1  numerals: their bytes are digits, behind a minus sign or none, and spell the number
  §2  native values in any spelling
  §3  expressions that hold a value, and what they are written as
  §4  fields that the text is assigned to, or that a fetch writes
-/
import QueryTerms.Proofs.Delivery
import QueryTerms.Proofs.TokenStream

namespace QueryTerms

theorem utf8_append (u v : String) : utf8 (u ++ v) = utf8 u ++ utf8 v := by
  rw [utf8, String.toList_append, List.flatMap_append, utf8, utf8]

/-- No decimal digit stands in front. -/
def NoDigitFirst (rest : List UInt8) : Prop :=
  ∀ b ∈ rest.head?, Numeral.isDigitByte b = false

/-! ## 1. Numerals -/

namespace Numeral

theorem bounds_of_isDigit {c : Char} (h : c.isDigit) : 48 ≤ c.toNat ∧ c.toNat ≤ 57 :=
  Char.isDigit_iff_toNat.1 h

/-- The byte of a digit has the number of the digit. -/
theorem toNat_toUInt8_of_isDigit {c : Char} (h : c.isDigit) : c.toUInt8.toNat = c.toNat := by
  have hhigh := (bounds_of_isDigit h).2
  show c.val.toUInt8.toNat = c.val.toNat
  rw [UInt32.toNat_toUInt8]
  exact Nat.mod_eq_of_lt (show c.toNat < 256 by omega)

theorem isDigitByte_of_isDigit {c : Char} (h : c.isDigit) : isDigitByte c.toUInt8 := by
  obtain ⟨hlow, hhigh⟩ := bounds_of_isDigit h
  rw [isDigitByte, toNat_toUInt8_of_isDigit h]
  simp [hlow, hhigh]

/-- Digits are one byte each. -/
theorem flatMap_utf8EncodeChar {cs : List Char} (h : ∀ c ∈ cs, c.isDigit) :
    cs.flatMap String.utf8EncodeChar = cs.map Char.toUInt8 := by
  induction cs with
  | nil => rfl
  | cons c cs ih =>
      have hsize : c.utf8Size = 1 := by
        have hhigh := (bounds_of_isDigit (h c (by simp))).2
        rw [Char.utf8Size_eq_one_iff, UInt32.le_iff_toNat_le]
        exact Nat.le_trans hhigh (by decide)
      have hrest : ∀ d ∈ cs, d.isDigit := fun d hd => h d (by simp [hd])
      simp [String.utf8EncodeChar_eq_singleton hsize, ih hrest]

/-- The bytes of digits spell the same number as the digits. -/
theorem foldl_toUInt8 {cs : List Char} (n : Nat) (h : ∀ c ∈ cs, c.isDigit) :
    (cs.map Char.toUInt8).foldl (fun n b => 10 * n + (b.toNat - 48)) n = Nat.ofDigitChars 10 cs n := by
  induction cs generalizing n with
  | nil => rfl
  | cons c cs ih =>
      have hrest : ∀ d ∈ cs, d.isDigit := fun d hd => h d (by simp [hd])
      rw [List.map_cons, List.foldl_cons, Nat.ofDigitChars_cons,
        toNat_toUInt8_of_isDigit (h c (by simp))]
      exact ih _ hrest

theorem utf8_ofNat (n : Nat) : utf8 (ofNat n) = (ofNat n).toList.map Char.toUInt8 :=
  flatMap_utf8EncodeChar fun _ => isDigit_of_mem_ofNat

/-- The digits of a number, as bytes, spell the number. -/
theorem valueOf_utf8_ofNat (n : Nat) : valueOf (utf8 (ofNat n)) = n := by
  rw [utf8_ofNat, valueOf, foldl_toUInt8 0 fun _ => isDigit_of_mem_ofNat, ofNat,
    String.toList_ofList, Nat.ofDigitChars_ten_toDigits]

theorem isDigitByte_of_mem_utf8_ofNat {n : Nat} {b : UInt8} (h : b ∈ utf8 (ofNat n)) :
    isDigitByte b := by
  rw [utf8_ofNat] at h
  obtain ⟨c, hc, rfl⟩ := List.mem_map.1 h
  exact isDigitByte_of_isDigit (isDigit_of_mem_ofNat hc)

/-- The leading digits are those in front of a rest that does not start with one. -/
theorem takeWhile_digits {digits rest : List UInt8} (hdigits : ∀ b ∈ digits, isDigitByte b)
    (hrest : NoDigitFirst rest) : (digits ++ rest).takeWhile isDigitByte = digits := by
  have hstop : rest.takeWhile isDigitByte = [] := by
    cases rest with
    | nil => rfl
    | cons b rest => simp [hrest b rfl]
  rw [List.takeWhile_append_of_pos hdigits, hstop, List.append_nil]

/-- The leading digits end with the number, if no digit follows. -/
theorem takeWhile_utf8_ofNat (n : Nat) {rest : List UInt8} (h : NoDigitFirst rest) :
    (utf8 (ofNat n) ++ rest).takeWhile isDigitByte = utf8 (ofNat n) :=
  takeWhile_digits (fun _ => isDigitByte_of_mem_utf8_ofNat) h

end Numeral

namespace Domain

/-- A digit is no sign. -/
theorem splitSign_of_isDigitByte {b : UInt8} (h : Numeral.isDigitByte b) (bytes : List UInt8) :
    splitSign (b :: bytes) = (false, b :: bytes) := by
  have hminus : b ≠ '-'.toUInt8 := by
    rintro rfl
    exact absurd h (by decide)
  have hplus : b ≠ '+'.toUInt8 := by
    rintro rfl
    exact absurd h (by decide)
  rw [splitSign, if_neg hminus, if_neg hplus]

theorem splitSign_utf8_ofNat (n : Nat) (rest : List UInt8) :
    splitSign (utf8 (Numeral.ofNat n) ++ rest) = (false, utf8 (Numeral.ofNat n) ++ rest) := by
  cases hbytes : utf8 (Numeral.ofNat n) with
  | nil =>
      rw [Numeral.utf8_ofNat, List.map_eq_nil_iff, Numeral.ofNat, String.toList_ofList] at hbytes
      exact absurd hbytes Nat.toDigits_ne_nil
  | cons b bytes =>
      have hmem : b ∈ utf8 (Numeral.ofNat n) := by simp [hbytes]
      exact splitSign_of_isDigitByte (Numeral.isDigitByte_of_mem_utf8_ofNat hmem) _

/-- A numeral reads back as its number, if no digit follows. -/
theorem signedValue_utf8_ofInt (n : Int) {rest : List UInt8} (h : NoDigitFirst rest) :
    signedValue (utf8 (Numeral.ofInt n) ++ rest) = n := by
  unfold Numeral.ofInt
  split
  · have hsign : splitSign (utf8 ("-" ++ Numeral.ofNat n.natAbs) ++ rest)
        = (true, utf8 (Numeral.ofNat n.natAbs) ++ rest) := by
      rw [utf8_append]
      rfl
    simp only [signedValue, hsign, Numeral.takeWhile_utf8_ofNat _ h, Numeral.valueOf_utf8_ofNat]
    simp only [if_true]
    omega
  · simp only [signedValue, splitSign_utf8_ofNat, Numeral.takeWhile_utf8_ofNat _ h,
      Numeral.valueOf_utf8_ofNat]
    simp only [Bool.false_eq_true, if_false]
    omega

/-- Every integer of 64 bits reads back, the smallest one included. -/
theorem decodeIntegral_utf8_ofInt (v : Int64) {rest : List UInt8} (h : NoDigitFirst rest) :
    decodeIntegral (utf8 (Numeral.ofInt v.toInt) ++ rest) = v := by
  have hrange : Int64.minValue.toInt ≤ v.toInt ∧ v.toInt ≤ Int64.maxValue.toInt :=
    ⟨Int64.minValue_le_toInt v, Int64.toInt_le v⟩
  rw [decodeIntegral]
  simp only [signedValue_utf8_ofInt v.toInt h, if_pos hrange, Int64.ofInt_toInt]

end Domain

/-! ## 2. Native values -/

/-- A native value in either style decodes to itself, if no digit follows. -/
theorem Domain.decode_spelling (style : BooleanStyle) {d : Domain} (v : d.Native)
    {rest : List UInt8} (h : NoDigitFirst rest) :
    d.decode (utf8 ((Token.ofNative v).spelling style) ++ rest) = v := by
  cases d with
  | boolean => cases style <;> cases v <;> rfl
  | integral => exact decodeIntegral_utf8_ofInt v h

/-! ## 3. Expressions that hold a value -/

/-- The expression is a leaf that is written as the value: the value as a literal, a parameter that has
it, such a parameter that is not NULL where NULL would be written, or a valid field that has it. -/
inductive Expr.Holds (s : Store) : {d : Domain} → Expr d → d.Native → Prop
  | literal {d : Domain} (v : d.Native) : Holds s (.literal v) v
  | parameter {d : Domain} (p : Parameter d) : Holds s (.parameter p) p.value
  | orNull {d : Domain} {p : Parameter d} (h : p.isNull = false) : Holds s (.orNull p) p.value
  | field {f : Field} (h : f.isValid = true) : Holds s (.field f) (s.get f.slot).value

theorem Expr.Holds.stream_eq {s : Store} {d : Domain} {e : Expr d} {v : d.Native} (h : e.Holds s v) :
    e.stream s = .one (.ofNative v) := by
  cases h with
  | literal v => rfl
  | parameter p => rfl
  | orNull hnull => simp [Expr.stream, hnull]
  | field hvalid =>
      rw [Expr.stream, Field.stream, Field.value?, Field.cell?, hvalid]
      rfl

/-! ## 4. Reading back -/

/-- The field may be read: it has the value, and is not NULL. -/
def Field.Shows (f : Field) (s : Store) (v : f.domain.Native) : Prop :=
  f.value? s = .ok v ∧ f.isNull? s = .ok false

theorem Field.shows_of_get {f : Field} {s : Store} {v : f.domain.Native} (hvalid : f.isValid = true)
    (hget : s.get f.slot = .nonNull v) : f.Shows s v := by
  rw [Shows, value?, isNull?, cell?, cell?, hvalid, hget]
  exact ⟨rfl, rfl⟩

/-- The bytes are taken for the value wherever bytes are decoded: by the domain itself, by a field that
they are assigned to, and by a field whose storage a fetch writes, if they are the column of the last
binding of this storage. -/
structure TakenFor (d : Domain) (bytes : List UInt8) (v : d.Native) : Prop where
  decode_eq : d.decode bytes = v
  assign_shows (id : Nat) (isValid : Bool) (s : Store) :
    (Field.assign ⟨⟨d, id⟩, isValid⟩ s (some bytes)).1.Shows
      (Field.assign ⟨⟨d, id⟩, isValid⟩ s (some bytes)).2 v
  fetch_shows (id : Nat) (isValid : Bool) (s : Store) {b : RowBuffer} {row : RawRow}
    {rest : List RawRow} {i : Nat} (hrows : b.rows = row :: rest) (hrow : b.Covers row)
    (hbound : RowBuffer.lastColumn? b.bindings ⟨d, id⟩ = some i) (hcolumn : row[i]? = some (some bytes)) :
    (b.fetch s).1 = .ok true ∧ (Field.validate ⟨⟨d, id⟩, isValid⟩).Shows (b.fetch s).2.2 v

theorem takenFor_of_decode {d : Domain} {bytes : List UInt8} {v : d.Native}
    (h : d.decode bytes = v) : TakenFor d bytes v := by
  have hcell : Cell.ofRaw (some bytes) = Cell.nonNull v := congrArg Cell.nonNull h
  refine ⟨h, fun id isValid s => ?_, ?_⟩
  · have hget : (s.decodeInto ⟨d, id⟩ (some bytes)).get ⟨d, id⟩ = .nonNull v :=
      (Store.get_put_self s ⟨d, id⟩ _).trans hcell
    exact Field.shows_of_get rfl hget
  · intro id isValid s b row rest i hrows hrow hbound hcolumn
    have hget : (RowBuffer.deliver b.bindings row s).get ⟨d, id⟩ = .nonNull v := by
      rw [RowBuffer.get_deliver, hbound, ← hcell]
      simp [RowBuffer.columnAt, hcolumn]
    rw [RowBuffer.fetch_of_covers hrows hrow]
    exact ⟨rfl, Field.shows_of_get rfl hget⟩

/-- **A rendered value decodes to itself.** A leaf that holds a value is written into plain text and by
every renderer. Whatever stands behind the text, if it does not start with a digit, the bytes decode to
the value, and a field reads the value and not NULL, whether the bytes are assigned to it or fetched
into its storage. -/
theorem Expr.Holds.reads_back {s : Store} {d : Domain} {e : Expr d} {v : d.Native}
    (h : e.Holds s v) :
    (∃ text, Term.serializeInto Sink.plain s (.single e) "" = (.ok (), text)
      ∧ ∀ rest, NoDigitFirst rest → TakenFor d (utf8 text ++ rest) v)
    ∧ ∀ c : Dialect, ∃ text,
      Term.serializeInto Renderer.sink s (.single e) { dialect := c } = (.ok (), { dialect := c, text })
      ∧ ∀ rest, NoDigitFirst rest → TakenFor d (utf8 text ++ rest) v := by
  have hstream : (Term.single e).stream s = .one (.ofNative v) := h.stream_eq
  have hreads : ∀ (style : BooleanStyle) (rest : List UInt8), NoDigitFirst rest →
      TakenFor d (utf8 ((Token.ofNative v).spelling style) ++ rest) v :=
    fun style _ hrest => takenFor_of_decode (Domain.decode_spelling style v hrest)
  have hspelled : ∀ style, (TokenStream.one (.ofNative v)).spelled style
      = (Token.ofNative v).spelling style := fun style => by simp [TokenStream.spelled, TokenStream.one]
  refine ⟨⟨(Token.ofNative v).spelling .numeric, ?_, hreads .numeric⟩, fun c =>
    ⟨(Token.ofNative v).spelling c.style, ?_, hreads c.style⟩⟩
  · rw [Term.serializeInto_plain, hstream, hspelled, String.empty_append]
    rfl
  · rw [Term.serializeInto_renderer, hstream, hspelled, String.empty_append]
    rfl

/-- The smallest integer, in a parameter that reads the trivial value as NULL, with a plus sign behind
its text. -/
theorem Expr.Holds.reads_back_minValue :
    let e : Expr .integral := .orNull { value := Int64.minValue, trivialIsNull := true }
    let bytes := utf8 "-9223372036854775808" ++ utf8 "+1"
    let b : RowBuffer := { rows := [[none, some bytes]], bindings := [(1, ⟨.integral, 7⟩)] }
    e.Holds {} Int64.minValue
    ∧ NoDigitFirst (utf8 "+1")
    ∧ Domain.decode .integral bytes = Int64.minValue
    ∧ Field.Shows ⟨⟨.integral, 7⟩, true⟩ (b.fetch {}).2.2 Int64.minValue := by
  intro e bytes b
  have hholds : e.Holds {} Int64.minValue := .orNull rfl
  have hrest : NoDigitFirst (utf8 "+1") := by
    rintro _ ⟨⟩
    rfl
  obtain ⟨⟨text, htext, hreads⟩, -⟩ := Expr.Holds.reads_back hholds
  have hwritten : Term.serializeInto Sink.plain {} (.single e) "" = (.ok (), "-9223372036854775808") :=
    rfl
  obtain rfl : "-9223372036854775808" = text := congrArg Prod.snd (hwritten.symm.trans htext)
  have htaken := hreads _ hrest
  refine ⟨hholds, hrest, htaken.decode_eq, ?_⟩
  have hcovers : b.Covers [none, some bytes] := (RowBuffer.covers_iff rfl _).2 (by decide : 1 < 2)
  exact (htaken.fetch_shows 7 false {} rfl hcovers rfl rfl).2

end QueryTerms
