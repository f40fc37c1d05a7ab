/-
QueryTerms.Proofs.StringForms — the texts that a string literal may be written in.

A character has a plain form, for some characters a short escape, and always a `\u` escape: one unit of
four hexadecimal digits, or above U+FFFF the two units of its UTF-16 spelling. A string is written by
writing its characters one after another, each in any of its forms, up to a closing quote. The literal
reader takes exactly these texts and answers the string that was written (`afterQuote_eq_ok_iff`).

The grammar goes from the character to its texts, the reader from the text to the character. What lies
between them is the arithmetic of UTF-16: which units are surrogates, and that the two units of a
character above U+FFFF pair up to it again.
-/
import QueryTerms.Json.StringLiteral

namespace QueryTerms.Json.StringLiteral

open Reader

variable {ε : Type}

/-! ## 1. Units -/

/-- A hexadecimal digit of either case, and its value. -/
def IsHex (c : Char) (n : Nat) : Prop :=
  n < 16 ∧ (c = n.digitChar ∨ c = n.digitChar.toUpper)

instance (c : Char) (n : Nat) : Decidable (IsHex c n) :=
  inferInstanceAs (Decidable (_ ∧ _))

/-- The reader of a digit knows exactly the two spellings of each value. -/
theorem hexDigit?_eq_some_iff {c : Char} {n : Nat} : hexDigit? c = some n ↔ IsHex c n := by
  constructor
  · intro h
    -- only the characters below 103 are in question
    have hall : ∀ m < 103, ∀ n ∈ hexDigit? (Char.ofNat m), IsHex (Char.ofNat m) n := by decide
    have := hall c.toNat (toNat_lt_of_hexDigit h) n
    rw [Char.ofNat_toNat] at this
    exact this h
  · rintro ⟨hn, hc⟩
    have hall : ∀ m < 16, hexDigit? m.digitChar = some m ∧
        hexDigit? m.digitChar.toUpper = some m := by
      decide
    rcases hc with rfl | rfl
    · exact (hall n hn).1
    · exact (hall n hn).2

/-- The ways to write a 16-bit unit. -/
inductive UnitForm : Nat → List Char → Prop
  | digits {a b c d : Char} {i j k l : Nat} : IsHex a i → IsHex b j → IsHex c k → IsHex d l →
      UnitForm (i * 0x1000 + j * 0x100 + k * 0x10 + l) [a, b, c, d]

/-- Four digits hold no more than 16 bits. -/
theorem UnitForm.lt {n : Nat} {u : List Char} (h : UnitForm n u) : n < 0x10000 := by
  obtain ⟨⟨hi, -⟩, ⟨hj, -⟩, ⟨hk, -⟩, ⟨hl, -⟩⟩ := h
  omega

/-- A unit is read exactly where four digits stand for it. The reader multiplies from the left, the
grammar weighs each digit by its place. -/
theorem unit_eq_ok_iff {s rest : List Char} {n : Nat} :
    (unit : Reader ε Nat) s = .ok (n, rest) ↔ ∃ u, UnitForm n u ∧ s = u ++ rest := by
  constructor
  · intro h
    unfold unit at h
    split at h
    · split at h
      · next a b c d _ _ _ _ _ i j k l ha hb hc hd =>
          -- four digits: the value is the same, weighed by place
          cases h
          have hn : ((i * 16 + j) * 16 + k) * 16 + l = i * 0x1000 + j * 0x100 + k * 0x10 + l := by
            omega
          refine ⟨[a, b, c, d], ?_, rfl⟩
          rw [hn]
          exact .digits (hexDigit?_eq_some_iff.1 ha) (hexDigit?_eq_some_iff.1 hb)
            (hexDigit?_eq_some_iff.1 hc) (hexDigit?_eq_some_iff.1 hd)
      · cases h
    · -- fewer than four characters are no unit
      split at h <;> cases h
  · rintro ⟨u, ⟨ha, hb, hc, hd⟩, rfl⟩
    simp only [List.cons_append, List.nil_append, unit, hexDigit?_eq_some_iff.2 ha,
      hexDigit?_eq_some_iff.2 hb, hexDigit?_eq_some_iff.2 hc, hexDigit?_eq_some_iff.2 hd]
    congr 2
    omega

/-! ## 2. Surrogates -/

/-! The number of a character above U+FFFF, less 0x10000, has twenty bits. The leading unit carries the
upper ten and the trailing unit the lower ten, each in a range of its own, where no character is. So the
two ranges tell a pair from a character that stands alone, and which half of a pair a unit is. -/

/-- The leading unit of a character above U+FFFF. -/
def leadingUnit (c : Char) : Nat := 0xD800 + (c.toNat - 0x10000) / 0x400

/-- The trailing unit of a character above U+FFFF. -/
def trailingUnit (c : Char) : Nat := 0xDC00 + (c.toNat - 0x10000) % 0x400

theorem isLeading_iff {n : Nat} : isLeading n = true ↔ 0xD800 ≤ n ∧ n ≤ 0xDBFF := by
  simp [isLeading]

theorem isTrailing_iff {n : Nat} : isTrailing n = true ↔ 0xDC00 ≤ n ∧ n ≤ 0xDFFF := by
  simp [isTrailing]

/-- Characters are below the surrogates or above them. -/
theorem toNat_valid (c : Char) : c.toNat < 0xD800 ∨ 0xDFFF < c.toNat ∧ c.toNat < 0x110000 :=
  c.valid

theorem toNat_ofNat {n : Nat} (h : n.isValidChar) : (Char.ofNat n).toNat = n := by
  rw [Char.ofNat, dif_pos h]
  rfl

/-- Two surrogates in order pair up to a character above U+FFFF. Its number is no surrogate, so that the
character of this number has it. -/
theorem toNat_paired {n m : Nat} (hn : isLeading n = true) (hm : isTrailing m = true) :
    (paired n m).toNat = 0x10000 + (n - 0xD800) * 0x400 + (m - 0xDC00) := by
  rw [isLeading_iff] at hn
  rw [isTrailing_iff] at hm
  refine toNat_ofNat (Or.inr ⟨?_, ?_⟩) <;> omega

/-- A pair keeps the units that it was made of. -/
theorem leadingUnit_paired {n m : Nat} (hn : isLeading n = true) (hm : isTrailing m = true) :
    leadingUnit (paired n m) = n := by
  rw [leadingUnit, toNat_paired hn hm]
  rw [isLeading_iff] at hn
  rw [isTrailing_iff] at hm
  omega

theorem trailingUnit_paired {n m : Nat} (hn : isLeading n = true) (hm : isTrailing m = true) :
    trailingUnit (paired n m) = m := by
  rw [trailingUnit, toNat_paired hn hm]
  rw [isLeading_iff] at hn
  rw [isTrailing_iff] at hm
  omega

theorem isLeading_leadingUnit (c : Char) : isLeading (leadingUnit c) = true := by
  have := toNat_valid c
  rw [isLeading_iff, leadingUnit]
  omega

theorem isTrailing_trailingUnit (c : Char) : isTrailing (trailingUnit c) = true := by
  rw [isTrailing_iff, trailingUnit]
  omega

/-- And a character above U+FFFF is the pair of its units. -/
theorem paired_units {c : Char} (h : 0x10000 ≤ c.toNat) :
    paired (leadingUnit c) (trailingUnit c) = c := by
  have hcode : 0x10000 + (leadingUnit c - 0xD800) * 0x400 + (trailingUnit c - 0xDC00) = c.toNat := by
    rw [leadingUnit, trailingUnit]
    omega
  rw [paired, hcode, Char.ofNat_toNat]

theorem not_isTrailing_of_isLeading {n : Nat} (h : isLeading n = true) : ¬ isTrailing n = true := by
  rw [isLeading_iff] at h
  rw [isTrailing_iff]
  omega

/-- No character is a surrogate. -/
theorem not_surrogate (c : Char) : ¬ isLeading c.toNat = true ∧ ¬ isTrailing c.toNat = true := by
  have := toNat_valid c
  rw [isLeading_iff, isTrailing_iff]
  omega

/-! ## 3. Forms -/

/-! The forms of one character overlap: the solidus has all three. They are a relation, then, and not a
function, and `Written` composes them freely. -/

/-- The characters that have a short escape, and what stands behind its backslash. -/
def shortForms : List (Char × Char) :=
  [('"', '"'), ('\\', '\\'), ('/', '/'), ('\x08', 'b'), ('\x0c', 'f'), ('\n', 'n'), ('\r', 'r'),
    ('\t', 't')]

/-- What may stand behind `\u` for a character. -/
inductive UnicodeForm : Char → List Char → Prop
  | unit {c : Char} {u : List Char} : UnitForm c.toNat u → UnicodeForm c u
  | pair {c : Char} {u v : List Char} : 0x10000 ≤ c.toNat →
      UnitForm (leadingUnit c) u → UnitForm (trailingUnit c) v →
      UnicodeForm c (u ++ '\\' :: 'u' :: v)

/-- The ways to write a character in a literal. -/
inductive Form : Char → List Char → Prop
  | plain {c : Char} : c ≠ '"' → c ≠ '\\' → 0x20 ≤ c.toNat → Form c [c]
  | short {c e : Char} : (c, e) ∈ shortForms → Form c ['\\', e]
  | unicode {c : Char} {u : List Char} : UnicodeForm c u → Form c ('\\' :: 'u' :: u)

/-- The ways to write a string between the quotes. -/
inductive Written : List Char → List Char → Prop
  | nil : Written [] []
  | cons {c : Char} {cs u t : List Char} : Form c u → Written cs t → Written (c :: cs) (u ++ t)

/-! ## 4. Reading -/

/-! One equivalence for each reader, from the escape up to the whole literal: it succeeds and leaves
`rest` exactly if the text is a form of the answer with `rest` behind it. -/

/-- The table of short escapes, read in the other direction. -/
theorem shortEscape?_eq_some_iff {c e : Char} : shortEscape? e = some c ↔ (c, e) ∈ shortForms := by
  unfold shortEscape?
  split <;> simp_all [shortForms, eq_comm]

/-- The reader decides by the first unit: a trailing surrogate is a problem, a leading one wants its
partner, and any other unit is the character. -/
theorem unicodeEscape_eq_ok_iff {s rest : List Char} {c : Char} :
    (unicodeEscape : Reader ε Char) s = .ok (c, rest) ↔ ∃ u, UnicodeForm c u ∧ s = u ++ rest := by
  rw [unicodeEscape, bind_eq_ok_iff]
  constructor
  · rintro ⟨n, mid, hn, h⟩
    obtain ⟨u, hu, rfl⟩ := unit_eq_ok_iff.1 hn
    split at h
    · cases h
    · next hntrail =>
        split at h
        · next hlead =>
            -- a leading half: its partner follows behind another `\u`, and the pair is the character
            obtain ⟨_, mid, hword, hsecond⟩ := bind_eq_ok_iff.1 h
            obtain ⟨m, mid', hm, hend⟩ := bind_eq_ok_iff.1 hsecond
            obtain ⟨v, hv, rfl⟩ := unit_eq_ok_iff.1 hm
            obtain rfl := word_eq_ok_iff.1 hword
            split at hend
            · next htrail =>
                obtain ⟨rfl, rfl⟩ := pure_eq_ok_iff.1 hend
                have habove : 0x10000 ≤ (paired n m).toNat := by
                  rw [toNat_paired hlead htrail]
                  omega
                refine ⟨u ++ '\\' :: 'u' :: v, .pair habove ?_ ?_, by simp⟩
                · rwa [leadingUnit_paired hlead htrail]
                · rwa [trailingUnit_paired hlead htrail]
            · cases hend
        · next hnlead =>
            -- neither half of a pair, so the unit is a character by itself
            obtain ⟨rfl, rfl⟩ := pure_eq_ok_iff.1 h
            have hlt := hu.lt
            rw [isLeading_iff] at hnlead
            rw [isTrailing_iff] at hntrail
            have hcode : (Char.ofNat n).toNat = n := toNat_ofNat (by unfold Nat.isValidChar; omega)
            refine ⟨u, .unit ?_, rfl⟩
            rwa [hcode]
  · rintro ⟨u, hu, rfl⟩
    cases hu with
    | unit hu =>
        -- the number of a character is neither half, so the reader takes it as it is
        obtain ⟨hlead, htrail⟩ := not_surrogate c
        refine ⟨c.toNat, rest, unit_eq_ok_iff.2 ⟨u, hu, rfl⟩, ?_⟩
        rw [if_neg htrail, if_neg hlead, Char.ofNat_toNat]
        rfl
    | @pair u v hc hu hv =>
        have hlead := isLeading_leadingUnit c
        refine ⟨_, ['\\', 'u'] ++ (v ++ rest), unit_eq_ok_iff.2 ⟨u, hu, by simp⟩, ?_⟩
        rw [if_neg (not_isTrailing_of_isLeading hlead), if_pos hlead,
          bind_of_ok (word_eq_ok_iff.2 rfl), bind_of_ok (unit_eq_ok_iff.2 ⟨v, hv, rfl⟩),
          if_pos (isTrailing_trailingUnit c), paired_units hc]
        rfl

/-- Behind a backslash: a short escape, or the letter u and a unit form. -/
theorem escape_eq_ok_iff {s rest : List Char} {c : Char} :
    (escape : Reader ε Char) s = .ok (c, rest) ↔
      (∃ e, (c, e) ∈ shortForms ∧ s = e :: rest) ∨ ∃ u, UnicodeForm c u ∧ s = 'u' :: (u ++ rest) := by
  rw [escape, bind_eq_ok_iff]
  constructor
  · rintro ⟨e, mid, he, h⟩
    rw [next_eq_ok_iff] at he
    split at h
    · next heu =>
        obtain ⟨u, hu, rfl⟩ := unicodeEscape_eq_ok_iff.1 h
        exact Or.inr ⟨u, hu, by rw [he, heu]⟩
    · cases hr : shortEscape? e with
      | none =>
          rw [hr] at h
          cases h
      | some r =>
          rw [hr] at h
          obtain ⟨rfl, rfl⟩ := pure_eq_ok_iff.1 h
          exact Or.inl ⟨e, shortEscape?_eq_some_iff.1 hr, he⟩
  · rintro (⟨e, he, rfl⟩ | ⟨u, hu, rfl⟩)
    · -- no short escape is the letter u, which the reader tries first
      have heu : e ≠ 'u' := by
        rintro rfl
        simp [shortForms] at he
      refine ⟨e, rest, rfl, ?_⟩
      rw [if_neg heu, shortEscape?_eq_some_iff.2 he]
      rfl
    · refine ⟨'u', u ++ rest, rfl, ?_⟩
      rw [if_pos rfl]
      exact unicodeEscape_eq_ok_iff.2 ⟨u, hu, rfl⟩

/-- Only the closing quote ends the characters. -/
theorem character?_eq_ok_none_iff {s rest : List Char} :
    (character? : Reader ε (Option Char)) s = .ok (none, rest) ↔ s = '"' :: rest := by
  rw [character?, bind_eq_ok_iff]
  constructor
  · rintro ⟨d, mid, hd, h⟩
    rw [next_eq_ok_iff] at hd
    split at h
    · next hquote =>
        obtain ⟨-, rfl⟩ := pure_eq_ok_iff.1 h
        rw [hd, hquote]
    · split at h
      · obtain ⟨a, -, ha⟩ := map_eq_ok_iff.1 h
        cases ha
      · split at h <;> cases h
  · rintro rfl
    exact ⟨'"', rest, rfl, rfl⟩

/-- A character is read exactly from its forms. The first character of the text decides which form it is:
a backslash starts an escape, and a control character is no form at all. -/
theorem character?_eq_ok_some_iff {s rest : List Char} {c : Char} :
    (character? : Reader ε (Option Char)) s = .ok (some c, rest) ↔
      ∃ u, Form c u ∧ s = u ++ rest := by
  rw [character?, bind_eq_ok_iff]
  constructor
  · rintro ⟨d, mid, hd, h⟩
    rw [next_eq_ok_iff] at hd
    split at h
    · cases h
    · next hquote =>
        split at h
        · next hback =>
            obtain ⟨a, ha, hsome⟩ := map_eq_ok_iff.1 h
            cases hsome
            rcases escape_eq_ok_iff.1 ha with ⟨e, he, rfl⟩ | ⟨u, hu, rfl⟩
            · exact ⟨['\\', e], .short he, by rw [hd, hback]; rfl⟩
            · exact ⟨'\\' :: 'u' :: u, .unicode hu, by rw [hd, hback]; rfl⟩
        · next hback =>
            split at h
            · cases h
            · next hcontrol =>
                obtain ⟨hdc, rfl⟩ := pure_eq_ok_iff.1 h
                cases hdc
                exact ⟨[c], .plain hquote hback (Nat.le_of_not_lt hcontrol), hd⟩
  · rintro ⟨u, hu, rfl⟩
    cases hu with
    | plain hquote hback hcontrol =>
        refine ⟨c, rest, rfl, ?_⟩
        rw [if_neg hquote, if_neg hback, if_neg (Nat.not_lt.2 hcontrol)]
        rfl
    | @short e he =>
        refine ⟨'\\', e :: rest, rfl, ?_⟩
        rw [if_neg (by decide), if_pos rfl]
        exact map_eq_ok_iff.2 ⟨c, escape_eq_ok_iff.2 (Or.inl ⟨e, he, rfl⟩), rfl⟩
    | @unicode u hu =>
        refine ⟨'\\', 'u' :: (u ++ rest), rfl, ?_⟩
        rw [if_neg (by decide), if_pos rfl]
        exact map_eq_ok_iff.2 ⟨c, escape_eq_ok_iff.2 (Or.inr ⟨u, hu, rfl⟩), rfl⟩

/-- The characters up to the closing quote, by induction on those that are read. -/
theorem characters_eq_ok_iff {cs : List Char} : ∀ {s rest : List Char},
    (characters : Reader ε (List Char)) s = .ok (cs, rest) ↔
      ∃ u, Written cs u ∧ s = u ++ '"' :: rest := by
  induction cs with
  | nil =>
      intro s rest
      rw [characters_eq, bind_eq_ok_iff]
      constructor
      · rintro ⟨c?, mid, hc, h⟩
        cases c? with
        | none =>
            obtain ⟨-, rfl⟩ := pure_eq_ok_iff.1 h
            exact ⟨[], .nil, character?_eq_ok_none_iff.1 hc⟩
        | some c =>
            -- a first character would be in the answer
            obtain ⟨cs, -, hcs⟩ := map_eq_ok_iff.1 h
            cases hcs
      · rintro ⟨u, hu, rfl⟩
        cases hu
        exact ⟨none, rest, character?_eq_ok_none_iff.2 rfl, rfl⟩
  | cons c cs ih =>
      intro s rest
      rw [characters_eq, bind_eq_ok_iff]
      constructor
      · rintro ⟨c?, mid, hc, h⟩
        cases c? with
        | none => cases h
        | some d =>
            obtain ⟨ds, hds, hcons⟩ := map_eq_ok_iff.1 h
            cases hcons
            -- the form of the first character, and the rest written by induction
            obtain ⟨u, hu, rfl⟩ := character?_eq_ok_some_iff.1 hc
            obtain ⟨t, ht, rfl⟩ := ih.1 hds
            exact ⟨u ++ t, .cons hu ht, by simp⟩
      · rintro ⟨u, hu, rfl⟩
        cases hu with
        | @cons _ _ u t hu ht =>
            have hc : (character? : Reader ε (Option Char)) (u ++ t ++ '"' :: rest) =
                .ok (some c, t ++ '"' :: rest) :=
              character?_eq_ok_some_iff.2 ⟨u, hu, by simp⟩
            exact ⟨some c, _, hc, map_eq_ok_iff.2 ⟨cs, ih.2 ⟨t, ht, rfl⟩, rfl⟩⟩

/-- A literal is read as a string exactly if it is one of the ways to write the string. -/
theorem afterQuote_eq_ok_iff {s rest : List Char} {str : String} :
    (afterQuote : Reader ε String) s = .ok (str, rest) ↔
      ∃ u, Written str.toList u ∧ s = u ++ '"' :: rest := by
  rw [afterQuote, bind_eq_ok_iff]
  constructor
  · rintro ⟨cs, mid, hcs, h⟩
    cases h
    rw [String.toList_ofList]
    exact characters_eq_ok_iff.1 hcs
  · intro h
    exact ⟨str.toList, rest, characters_eq_ok_iff.2 h, by simp⟩

end QueryTerms.Json.StringLiteral
