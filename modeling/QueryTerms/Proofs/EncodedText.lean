/-
QueryTerms.Proofs.EncodedText — which bytes are the encoding of a text, and where other bytes go wrong.

A character is encoded as a first byte, which tells how many bytes continue it, and these bytes; together
they hold the bits of the character's number (`Sequence`). The number must need that many bytes, and it
must be the number of a character: neither a surrogate nor above 10FFFF. Bytes that are made of such
sequences are well-formed, and they are exactly the encodings of texts (`wellFormed_iff`). All other bytes
go wrong behind the encoding of some text, in one of six ways (`not_wellFormed_iff`).

  §1  sequences, and bytes made of them
  §2  characters are sequences, and sequences are characters
  §3  texts
  §4  faults
-/
import Mathlib.Data.List.Basic
import QueryTerms.Store

namespace QueryTerms.Utf8

/-! ## 1. Sequences -/

/-- The byte continues a character. -/
def Continues (b : UInt8) : Prop :=
  0x80 ≤ b.toNat ∧ b.toNat ≤ 0xBF

instance : DecidablePred Continues :=
  fun _ => inferInstanceAs (Decidable (_ ∧ _))

/-- What a first byte tells: how many bytes continue the character, and the leading bits of its number. -/
def leading? (b : UInt8) : Option (Nat × Nat) :=
  if b.toNat ≤ 0x7F then some (0, b.toNat)
  else if b.toNat ≤ 0xBF then none
  else if b.toNat ≤ 0xDF then some (1, b.toNat - 0xC0)
  else if b.toNat ≤ 0xEF then some (2, b.toNat - 0xE0)
  else if b.toNat ≤ 0xF7 then some (3, b.toNat - 0xF0)
  else none

/-- A number with six more bits from each byte behind. -/
def number (bits : Nat) (tail : List UInt8) : Nat :=
  tail.foldl (fun n b => 64 * n + (b.toNat - 0x80)) bits

/-- The smallest number that needs so many continuing bytes. -/
def least : Nat → Nat
  | 0 => 0
  | 1 => 0x80
  | 2 => 0x800
  | _ => 0x10000

/-- A first byte with as many continuing bytes as it asks for, their count and the number they hold. -/
inductive Sequence : List UInt8 → Nat → Nat → Prop
  | mk {b : UInt8} {more bits : Nat} {tail : List UInt8} : leading? b = some (more, bits) →
      tail.length = more → (∀ c ∈ tail, Continues c) → Sequence (b :: tail) more (number bits tail)

/-- Sequences, each for the number of a character that needs it. -/
inductive WellFormed : List UInt8 → Prop
  | nil : WellFormed []
  | append {bytes rest : List UInt8} {more n : Nat} : Sequence bytes more n → least more ≤ n →
      n.isValidChar → WellFormed rest → WellFormed (bytes ++ rest)

/-- The first byte decides where a sequence ends. -/
theorem Sequence.unique {u u' r r' : List UInt8} {more more' n n' : Nat} (h : Sequence u more n)
    (h' : Sequence u' more' n') (heq : u ++ r = u' ++ r') : more = more' ∧ n = n' ∧ r = r' := by
  obtain ⟨hlead, hlength, -⟩ := h
  obtain ⟨hlead', hlength', -⟩ := h'
  obtain ⟨rfl, htail⟩ := List.cons.inj heq
  rw [hlead] at hlead'
  cases hlead'
  obtain ⟨rfl, rfl⟩ := List.append_inj htail (hlength.trans hlength'.symm)
  exact ⟨rfl, rfl, rfl⟩

theorem Sequence.ne_nil {u : List UInt8} {more n : Nat} (h : Sequence u more n) : u ≠ [] := by
  cases h
  exact List.cons_ne_nil _ _

/-- Of well-formed bytes, a sequence in front is for the number of a character that needs it. -/
theorem WellFormed.of_sequence {u r : List UInt8} {more n : Nat} (hu : Sequence u more n)
    (h : WellFormed (u ++ r)) : least more ≤ n ∧ n.isValidChar ∧ WellFormed r := by
  generalize hbytes : u ++ r = bytes at h
  cases h with
  | nil => exact absurd (List.append_eq_nil_iff.1 hbytes).1 hu.ne_nil
  | append hseq hleast hvalid hrest =>
    obtain ⟨rfl, rfl, rfl⟩ := hu.unique hseq hbytes
    exact ⟨hleast, hvalid, hrest⟩

/-! ## 2. Characters -/

/-- The four kinds of first bytes. -/
theorem leading?_eq_some_iff {b : UInt8} {more bits : Nat} :
    leading? b = some (more, bits)
      ↔ (more = 0 ∧ b.toNat = bits ∧ bits ≤ 0x7F)
        ∨ (more = 1 ∧ b.toNat = 0xC0 + bits ∧ bits ≤ 0x1F)
        ∨ (more = 2 ∧ b.toNat = 0xE0 + bits ∧ bits ≤ 0xF)
        ∨ (more = 3 ∧ b.toNat = 0xF0 + bits ∧ bits ≤ 0x7) := by
  unfold leading?
  repeat' split
  all_goals simp only [Option.some.injEq, Prod.mk.injEq, reduceCtorEq, false_iff]; omega

/-- Any other byte continues a character or stands in none. -/
theorem leading?_eq_none_iff {b : UInt8} : leading? b = none ↔ Continues b ∨ 0xF8 ≤ b.toNat := by
  unfold leading? Continues
  repeat' split
  all_goals simp only [reduceCtorEq, true_iff, false_iff]; omega

theorem toNat_ofNat_of_lt {n : Nat} (h : n < 256) : (UInt8.ofNat n).toNat = n := by
  rw [UInt8.toNat_ofNat']
  exact Nat.mod_eq_of_lt h

/-- Six bits behind the mark of a continuing byte. -/
theorem continues_ofNat (n : Nat) : Continues (UInt8.ofNat (n % 0x40 + 0x80)) := by
  rw [Continues, toNat_ofNat_of_lt (by omega)]
  omega

theorem toNat_ofNat_continuing (n : Nat) :
    (UInt8.ofNat (n % 0x40 + 0x80)).toNat - 0x80 = n % 0x40 := by
  rw [toNat_ofNat_of_lt (by omega)]
  omega

theorem sequence_one {n : Nat} (h : n ≤ 0x7F) : Sequence [UInt8.ofNat n] 0 n :=
  @Sequence.mk _ 0 n [] (leading?_eq_some_iff.2 (.inl ⟨rfl, toNat_ofNat_of_lt (by omega), h⟩)) rfl
    (by simp)

/-- The lead byte has the five bits above the last six. Nothing is asked yet about the least number, so
one that fits in a byte would do too. -/
theorem sequence_two {n : Nat} (h : n ≤ 0x7FF) :
    Sequence [UInt8.ofNat (n / 64 % 0x20 + 0xC0), UInt8.ofNat (n % 0x40 + 0x80)] 1 n := by
  have hlead : leading? (UInt8.ofNat (n / 64 % 0x20 + 0xC0)) = some (1, n / 64) :=
    leading?_eq_some_iff.2 (.inr (.inl ⟨rfl, by rw [toNat_ofNat_of_lt] <;> omega, by omega⟩))
  have hnumber : number (n / 64) [UInt8.ofNat (n % 0x40 + 0x80)] = n := by
    simp only [number, List.foldl_cons, List.foldl_nil, toNat_ofNat_continuing]
    omega
  have hseq := Sequence.mk hlead rfl (List.forall_mem_singleton.2 (continues_ofNat n))
  rwa [hnumber] at hseq

theorem sequence_three {n : Nat} (h : n ≤ 0xFFFF) :
    Sequence [UInt8.ofNat (n / 4096 % 0x10 + 0xE0), UInt8.ofNat (n / 64 % 0x40 + 0x80),
      UInt8.ofNat (n % 0x40 + 0x80)] 2 n := by
  have hlead : leading? (UInt8.ofNat (n / 4096 % 0x10 + 0xE0)) = some (2, n / 4096) :=
    leading?_eq_some_iff.2 (.inr (.inr (.inl ⟨rfl, by rw [toNat_ofNat_of_lt] <;> omega, by omega⟩)))
  have hnumber : number (n / 4096)
      [UInt8.ofNat (n / 64 % 0x40 + 0x80), UInt8.ofNat (n % 0x40 + 0x80)] = n := by
    simp only [number, List.foldl_cons, List.foldl_nil, toNat_ofNat_continuing]
    omega
  have hseq := Sequence.mk hlead rfl
    (List.forall_mem_cons.2 ⟨continues_ofNat (n / 64), List.forall_mem_singleton.2 (continues_ofNat n)⟩)
  rwa [hnumber] at hseq

theorem sequence_four {n : Nat} (h : n < 0x200000) :
    Sequence [UInt8.ofNat (n / 262144 % 0x08 + 0xF0), UInt8.ofNat (n / 4096 % 0x40 + 0x80),
      UInt8.ofNat (n / 64 % 0x40 + 0x80), UInt8.ofNat (n % 0x40 + 0x80)] 3 n := by
  have hlead : leading? (UInt8.ofNat (n / 262144 % 0x08 + 0xF0)) = some (3, n / 262144) :=
    leading?_eq_some_iff.2 (.inr (.inr (.inr ⟨rfl, by rw [toNat_ofNat_of_lt] <;> omega, by omega⟩)))
  have hnumber : number (n / 262144)
      [UInt8.ofNat (n / 4096 % 0x40 + 0x80), UInt8.ofNat (n / 64 % 0x40 + 0x80),
        UInt8.ofNat (n % 0x40 + 0x80)] = n := by
    simp only [number, List.foldl_cons, List.foldl_nil, toNat_ofNat_continuing]
    omega
  have hseq := Sequence.mk hlead rfl (List.forall_mem_cons.2 ⟨continues_ofNat (n / 4096),
    List.forall_mem_cons.2 ⟨continues_ofNat (n / 64), List.forall_mem_singleton.2 (continues_ofNat n)⟩⟩)
  rwa [hnumber] at hseq

/-- The encoding of a character is a sequence for its number, which needs it. -/
theorem sequence_utf8EncodeChar (c : Char) :
    ∃ more, Sequence (String.utf8EncodeChar c) more c.toNat ∧ least more ≤ c.toNat := by
  have hmax : c.toNat < 0x200000 := by
    have hvalid : c.toNat.isValidChar := c.valid
    unfold Nat.isValidChar at hvalid
    omega
  have hval : c.val.toNat = c.toNat := rfl
  unfold String.utf8EncodeChar
  simp only [hval]
  split
  · next h => exact ⟨0, sequence_one h, Nat.zero_le _⟩
  · next hone =>
    split
    · next h => exact ⟨1, sequence_two h, Nat.lt_of_not_le hone⟩
    · next htwo =>
      split
      · next h => exact ⟨2, sequence_three h, Nat.lt_of_not_le htwo⟩
      · next hthree => exact ⟨3, sequence_four hmax, Nat.lt_of_not_le hthree⟩

theorem eq_ofNat {b : UInt8} {n : Nat} (h : b.toNat = n) : b = UInt8.ofNat n := by
  rw [← h, UInt8.ofNat_toNat]

/-- A sequence for the number of a character that needs it encodes the character. -/
theorem Sequence.eq_utf8EncodeChar {bytes : List UInt8} {more n : Nat} (h : Sequence bytes more n)
    (hleast : least more ≤ n) (hvalid : n.isValidChar) :
    bytes = String.utf8EncodeChar (Char.ofNat n) := by
  have hval : (Char.ofNat n).val.toNat = n := by
    rw [Char.ofNat, dif_pos hvalid]
    rfl
  unfold String.utf8EncodeChar
  simp only [hval]
  clear hval hvalid
  obtain @⟨b, more, bits, tail, hlead, hlength, htail⟩ := h
  rcases leading?_eq_some_iff.1 hlead with ⟨rfl, hb, hbits⟩ | ⟨rfl, hb, hbits⟩ | ⟨rfl, hb, hbits⟩
    | ⟨rfl, hb, hbits⟩
  · obtain rfl := List.length_eq_zero_iff.1 hlength
    have hn : number bits [] = bits := rfl
    rw [hn, if_pos hbits, ← eq_ofNat hb]
  · -- the number that was read is taken apart again, by the bounds on the bits in each byte
    obtain ⟨c, rfl⟩ := List.length_eq_one_iff.1 hlength
    obtain ⟨hlow, hhigh⟩ := htail c List.mem_cons_self
    have hn : number bits [c] = 64 * bits + (c.toNat - 0x80) := rfl
    rw [least] at hleast
    generalize number bits [c] = n at hn hleast ⊢
    rw [if_neg (by omega), if_pos (by omega)]
    simp only [List.cons.injEq, and_true]
    exact ⟨eq_ofNat (by omega), eq_ofNat (by omega)⟩
  · obtain ⟨c, d, rfl⟩ := List.length_eq_two.1 hlength
    obtain ⟨hc, hd⟩ : Continues c ∧ Continues d := by simpa using htail
    unfold Continues at hc hd
    have hn : number bits [c, d] = 64 * (64 * bits + (c.toNat - 0x80)) + (d.toNat - 0x80) := rfl
    rw [least] at hleast
    generalize number bits [c, d] = n at hn hleast ⊢
    rw [if_neg (by omega), if_neg (by omega), if_pos (by omega)]
    simp only [List.cons.injEq, and_true]
    exact ⟨eq_ofNat (by omega), eq_ofNat (by omega), eq_ofNat (by omega)⟩
  · obtain ⟨c, d, e, rfl⟩ := List.length_eq_three.1 hlength
    obtain ⟨hc, hd, he⟩ : Continues c ∧ Continues d ∧ Continues e := by simpa using htail
    unfold Continues at hc hd he
    have hn : number bits [c, d, e]
        = 64 * (64 * (64 * bits + (c.toNat - 0x80)) + (d.toNat - 0x80)) + (e.toNat - 0x80) := rfl
    have hlong : 0x10000 ≤ number bits [c, d, e] := hleast
    generalize number bits [c, d, e] = n at hn hlong ⊢
    rw [if_neg (by omega), if_neg (by omega), if_neg (by omega)]
    simp only [List.cons.injEq, and_true]
    exact ⟨eq_ofNat (by omega), eq_ofNat (by omega), eq_ofNat (by omega), eq_ofNat (by omega)⟩

/-! ## 3. Texts -/

/-- The encoding of characters is well-formed, character by character. -/
theorem wellFormed_flatMap (cs : List Char) : WellFormed (cs.flatMap String.utf8EncodeChar) := by
  induction cs with
  | nil => exact .nil
  | cons c cs ih =>
    obtain ⟨more, hseq, hleast⟩ := sequence_utf8EncodeChar c
    exact .append hseq hleast c.valid ih

/-- **Well-formed bytes are exactly the encodings of texts.** -/
theorem wellFormed_iff {bytes : List UInt8} : WellFormed bytes ↔ ∃ t, bytes = utf8 t := by
  constructor
  · intro h
    induction h with
    | nil => exact ⟨"", rfl⟩
    | @append bytes rest more n hseq hleast hvalid _ ih =>
      obtain ⟨t, rfl⟩ := ih
      refine ⟨String.ofList (Char.ofNat n :: t.toList), ?_⟩
      rw [utf8, utf8, String.toList_ofList, List.flatMap_cons, hseq.eq_utf8EncodeChar hleast hvalid]
  · rintro ⟨t, rfl⟩
    exact wellFormed_flatMap t.toList

/-- What stands behind the encoding of a text decides. -/
theorem wellFormed_utf8_append {t : String} {rest : List UInt8} :
    WellFormed (utf8 t ++ rest) ↔ WellFormed rest := by
  rw [utf8]
  induction t.toList with
  | nil => rfl
  | cons c cs ih =>
    obtain ⟨more, hseq, hleast⟩ := sequence_utf8EncodeChar c
    rw [List.flatMap_cons, List.append_assoc, ← ih]
    exact ⟨fun h => (h.of_sequence hseq).2.2, fun h => .append hseq hleast c.valid h⟩

theorem toByteArray_eq (t : String) : t.toByteArray = (utf8 t).toByteArray :=
  String.utf8Encode_toList.symm

theorem eq_toByteArray_iff {content : ByteArray} {bytes : List UInt8} :
    content = bytes.toByteArray ↔ content.data.toList = bytes := by
  rw [ByteArray.ext_iff, List.data_toByteArray, ← Array.toList_inj]

/-- Bytes are read as the text that they encode. -/
theorem fromUTF8?_eq_some_iff {content : ByteArray} {t : String} :
    String.fromUTF8? content = some t ↔ content.data.toList = utf8 t := by
  rw [← eq_toByteArray_iff, ← toByteArray_eq]
  constructor
  · intro h
    unfold String.fromUTF8? at h
    split at h
    · cases h
      rfl
    · cases h
  · rintro rfl
    exact dif_pos t.isValidUTF8

/-- Bytes that are not well-formed are no text. -/
theorem fromUTF8?_eq_none_iff {content : ByteArray} :
    String.fromUTF8? content = none ↔ ¬ WellFormed content.data.toList := by
  rw [wellFormed_iff, Option.eq_none_iff_forall_ne_some, not_exists]
  simp only [ne_eq, fromUTF8?_eq_some_iff]

/-! ## 4. Faults -/

/-- The ways in which bytes go wrong at their start. -/
inductive Fault : List UInt8 → Prop
  /-- A continuing byte where a character starts. -/
  | stray {b : UInt8} {rest : List UInt8} : Continues b → Fault (b :: rest)
  /-- A byte that stands in no character. -/
  | foreign {b : UInt8} {rest : List UInt8} : 0xF8 ≤ b.toNat → Fault (b :: rest)
  /-- Fewer continuing bytes than the first byte asks for. -/
  | missing {b : UInt8} {more bits : Nat} {tail rest : List UInt8} :
      leading? b = some (more, bits) → (∀ c ∈ tail, Continues c) → tail.length < more →
      (∀ c, rest.head? = some c → ¬ Continues c) → Fault (b :: (tail ++ rest))
  /-- More bytes than the number needs. -/
  | overlong {bytes rest : List UInt8} {more n : Nat} : Sequence bytes more n → n < least more →
      Fault (bytes ++ rest)
  /-- The number of a surrogate. -/
  | surrogate {bytes rest : List UInt8} {more n : Nat} : Sequence bytes more n →
      0xD800 ≤ n → n ≤ 0xDFFF → Fault (bytes ++ rest)
  /-- A number above that of every character. -/
  | beyond {bytes rest : List UInt8} {more n : Nat} : Sequence bytes more n → 0x10FFFF < n →
      Fault (bytes ++ rest)

/-- Well-formed bytes start with a byte that is understood. -/
theorem WellFormed.exists_leading {b : UInt8} {rest : List UInt8} (h : WellFormed (b :: rest)) :
    ∃ more bits tail others, leading? b = some (more, bits) ∧ tail.length = more
      ∧ (∀ c ∈ tail, Continues c) ∧ rest = tail ++ others := by
  generalize hbytes : b :: rest = bytes at h
  cases h with
  | nil => cases hbytes
  | append hseq _ _ _ =>
    obtain ⟨hlead, hlength, htail⟩ := hseq
    obtain ⟨rfl, rfl⟩ := List.cons.inj hbytes
    exact ⟨_, _, _, _, hlead, hlength, htail, rfl⟩

/-- Bytes that go wrong at their start are not well-formed. -/
theorem Fault.not_wellFormed {bytes : List UInt8} (h : Fault bytes) : ¬ WellFormed bytes := by
  intro hwell
  cases h with
  | stray hb =>
    obtain ⟨more, bits, -, -, hlead, -⟩ := hwell.exists_leading
    rw [leading?_eq_none_iff.2 (.inl hb)] at hlead
    cases hlead
  | foreign hb =>
    obtain ⟨more, bits, -, -, hlead, -⟩ := hwell.exists_leading
    rw [leading?_eq_none_iff.2 (.inr hb)] at hlead
    cases hlead
  | @missing b more bits tail rest hlead _ hshort hrest =>
    obtain ⟨_, _, tail', others, hlead', hlength, htail', hsame⟩ := hwell.exists_leading
    rw [hlead] at hlead'
    cases hlead'
    -- The byte behind the short tail is the next one of the long tail.
    have hnext : (tail' ++ others)[tail.length]? = rest.head? := by
      rw [← hsame, List.getElem?_append_right (Nat.le_refl _), Nat.sub_self, List.head?_eq_getElem?]
    have hinside : tail.length < tail'.length := by omega
    rw [List.getElem?_append_left hinside, List.getElem?_eq_getElem hinside] at hnext
    exact hrest _ hnext.symm (htail' _ (List.getElem_mem hinside))
  | overlong hseq hshort =>
    have hleast := (hwell.of_sequence hseq).1
    omega
  | surrogate hseq hlow hhigh =>
    have hvalid := (hwell.of_sequence hseq).2.1
    unfold Nat.isValidChar at hvalid
    omega
  | beyond hseq hhigh =>
    have hvalid := (hwell.of_sequence hseq).2.1
    unfold Nat.isValidChar at hvalid
    omega

/-- A sequence goes wrong by its number, or encodes a character. -/
theorem Sequence.fault_or_character {bytes : List UInt8} {more n : Nat} (h : Sequence bytes more n)
    (rest : List UInt8) : Fault (bytes ++ rest) ∨ ∃ c, bytes = String.utf8EncodeChar c := by
  by_cases hshort : n < least more
  · exact .inl (.overlong h hshort)
  · by_cases hvalid : n.isValidChar
    · exact .inr ⟨_, h.eq_utf8EncodeChar (Nat.le_of_not_lt hshort) hvalid⟩
    · unfold Nat.isValidChar at hvalid
      by_cases hhigh : n ≤ 0xDFFF
      · exact .inl (.surrogate h (by omega) hhigh)
      · exact .inl (.beyond h (by omega))

/-- Bytes go wrong at their start, unless they start with the encoding of a character. -/
theorem fault_or_character (b : UInt8) (rest : List UInt8) :
    Fault (b :: rest) ∨ ∃ c others, b :: rest = String.utf8EncodeChar c ++ others := by
  cases hlead : leading? b with
  | none => exact .inl ((leading?_eq_none_iff.1 hlead).elim .stray .foreign)
  | some p =>
    obtain ⟨more, bits⟩ := p
    let continuing := rest.takeWhile (Continues ·)
    have hcontinuing : ∀ c ∈ continuing, Continues c := fun c hc =>
      of_decide_eq_true (List.all_eq_true.1 List.all_takeWhile c hc)
    have hrest : rest = continuing ++ rest.dropWhile (Continues ·) :=
      List.takeWhile_append_dropWhile.symm
    by_cases hlength : more ≤ continuing.length
    · -- there are enough of them, and what is not needed starts the rest
      have hseq : Sequence (b :: continuing.take more) more (number bits (continuing.take more)) :=
        .mk hlead (List.length_take_of_le hlength) fun c hc => hcontinuing c (List.mem_of_mem_take hc)
      have hbytes : b :: rest
          = (b :: continuing.take more) ++ (continuing.drop more ++ rest.dropWhile (Continues ·)) := by
        rw [List.cons_append, ← List.append_assoc, List.take_append_drop, ← hrest]
      rw [hbytes]
      rcases hseq.fault_or_character (continuing.drop more ++ rest.dropWhile (Continues ·)) with
        hfault | ⟨c, hc⟩
      · exact .inl hfault
      · exact .inr ⟨c, _, by rw [hc]⟩
    · left
      rw [hrest]
      refine .missing hlead hcontinuing (Nat.lt_of_not_le hlength) fun c hc hcontinues => ?_
      have hnot := List.head?_dropWhile_not (fun c : UInt8 => decide (Continues c)) rest
      rw [hc] at hnot
      exact absurd hcontinues (of_decide_eq_false hnot)

/-- Bytes that are not well-formed start with the encodings of some characters, and go wrong behind
them. -/
theorem exists_fault : ∀ bytes : List UInt8, ¬ WellFormed bytes →
    ∃ (cs : List Char) (rest : List UInt8),
      bytes = cs.flatMap String.utf8EncodeChar ++ rest ∧ Fault rest
  | [], h => absurd .nil h
  | b :: rest, h => by
    rcases fault_or_character b rest with hfault | ⟨c, others, hbytes⟩
    · exact ⟨[], b :: rest, rfl, hfault⟩
    · obtain ⟨more, hseq, hleast⟩ := sequence_utf8EncodeChar c
      have hshorter : others.length < (b :: rest).length := by
        have hpos := List.length_pos_of_ne_nil hseq.ne_nil
        rw [hbytes, List.length_append]
        omega
      have hothers : ¬ WellFormed others := fun hwell =>
        h (hbytes ▸ .append hseq hleast c.valid hwell)
      obtain ⟨cs, wrong, rfl, hfault⟩ := exists_fault others hothers
      refine ⟨c :: cs, wrong, ?_, hfault⟩
      rw [hbytes, List.flatMap_cons, List.append_assoc]
termination_by bytes => bytes.length
decreasing_by exact hshorter

/-- **Bytes that are not well-formed go wrong** behind the encoding of a text, and such bytes are not
well-formed, whatever the text. -/
theorem not_wellFormed_iff {bytes : List UInt8} :
    ¬ WellFormed bytes ↔ ∃ t rest, bytes = utf8 t ++ rest ∧ Fault rest := by
  constructor
  · intro h
    obtain ⟨cs, rest, hbytes, hfault⟩ := exists_fault bytes h
    refine ⟨String.ofList cs, rest, ?_, hfault⟩
    rw [utf8, String.toList_ofList, hbytes]
  · rintro ⟨t, rest, rfl, hfault⟩ hwell
    exact hfault.not_wellFormed (wellFormed_utf8_append.1 hwell)

end QueryTerms.Utf8
