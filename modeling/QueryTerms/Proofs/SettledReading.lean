/-
QueryTerms.Proofs.SettledReading — what a reader has answered, more text does not change.

A reader that runs out of text may answer anything once there is more. Every other answer is settled: a
value stays the value, and the text left over is what was left with the new text behind it; a problem
stays a problem. A relation between problems says how much of the problem stays (`Settled`).

Two readers look further than they take. The four digits of a `\u` escape are judged together, so it
matters that four bytes that are no unit stay so when more characters come. And a number ends where a
character comes that cannot stand in a number: what is read of a number at the very end of the text is
not settled. The readers of numbers are settled where such a character is still to come (`Closed`).
-/
import QueryTerms.Json.StringLiteral
import QueryTerms.Json.Number

namespace QueryTerms.Json

namespace Reader

variable {ε α β : Type}

/-! ## 1. Settled answers -/

/-! A reader is settled on a text, not as such: most readers here are settled on every text, but those of
numbers only where the number is known to have ended. The value part also says that what is left is an
end of the text; going on behind a value needs that, for `Closed` is a property of ends. -/

/-- What the reader answers on the text stands when the text is continued: a value with what it leaves,
and a problem, other than the end of the text, up to a relation. -/
structure Settled (E : Problem ε → Problem ε → Prop) (r : Reader ε α) (p : List Char) : Prop where
  value : ∀ {a rest}, r p = .ok (a, rest) → rest <:+ p ∧ ∀ s, r (p ++ s) = .ok (a, rest ++ s)
  problem : ∀ {e}, r p = .error e → e ≠ .endOfText → ∀ s, ∃ e', r (p ++ s) = .error e' ∧ E e e'

variable {E : Problem ε → Problem ε → Prop}

/-- A reader that takes nothing is settled. -/
theorem settled_pure (a : α) (p : List Char) : Settled E (pure a : Reader ε α) p where
  value h := by
    obtain ⟨rfl, rfl⟩ := pure_eq_ok_iff.1 h
    exact ⟨List.suffix_refl _, fun s => rfl⟩
  problem h := by cases h

/-- One character is settled once it is there; before that the text has ended too soon. -/
theorem settled_next (p : List Char) : Settled E (next : Reader ε Char) p where
  value h := by
    rw [next_eq_ok_iff] at h
    subst h
    exact ⟨List.suffix_cons _ _, fun s => rfl⟩
  problem h hne := by
    cases p with
    | nil =>
        cases h
        exact absurd rfl hne
    | cons c rest => cases h

/-- Looking ahead is settled where there is something to see. At the end of the text it is not: the answer
`none` turns into a character when more text comes. -/
theorem settled_peek? {p : List Char} (h : p ≠ []) :
    Settled E (peek? : Reader ε (Option Char)) p where
  value := by
    intro c? rest hc
    cases hc
    obtain ⟨c, p, rfl⟩ := List.exists_cons_of_ne_nil h
    exact ⟨List.suffix_refl _, fun s => rfl⟩
  problem h := by cases h

/-- A reader that goes on with another one is settled where both are. -/
theorem settled_bind {r : Reader ε α} {f : α → Reader ε β} {p : List Char} (hr : Settled E r p)
    (hf : ∀ a rest, r p = .ok (a, rest) → rest <:+ p → Settled E (f a) rest) :
    Settled E (r >>= f) p where
  value h := by
    obtain ⟨a, mid, hmid, hrest⟩ := bind_eq_ok_iff.1 h
    obtain ⟨hsuf, hext⟩ := hr.value hmid
    obtain ⟨hsuf', hext'⟩ := (hf a mid hmid hsuf).value hrest
    exact ⟨hsuf'.trans hsuf, fun s => (bind_of_ok (hext s)).trans (hext' s)⟩
  problem h hne s := by
    -- the problem is the first reader's, or the second one's behind a value that is settled
    cases hr' : r p with
    | error e =>
        rw [bind_of_error hr'] at h
        cases h
        obtain ⟨e', he', hE⟩ := hr.problem hr' hne s
        exact ⟨e', bind_of_error he', hE⟩
    | ok x =>
        obtain ⟨a, mid⟩ := x
        obtain ⟨hsuf, hext⟩ := hr.value hr'
        rw [bind_of_ok hr'] at h
        rw [bind_of_ok (hext s)]
        exact (hf a mid hr' hsuf).problem h hne s

/-- What is made of a value does not change whether it is settled. -/
theorem settled_map {r : Reader ε α} {p : List Char} (g : α → β) (hr : Settled E r p) :
    Settled E (g <$> r) p := by
  rw [map_eq_pure_bind]
  exact settled_bind hr fun a rest _ _ => settled_pure _ _

/-- The next character that is not white space. A text of white space only has ended too soon, however
long it is; otherwise the white space in front is over, and what comes later is not in it. -/
theorem settled_token (p : List Char) : Settled E (token : Reader ε Char) p := by
  cases hp : p.dropWhile isBlank with
  | nil =>
      have hend : (token : Reader ε Char) p = .error .endOfText := by
        rw [token_apply, hp]
        rfl
      constructor
      · intro c rest h
        rw [hend] at h
        cases h
      · intro e h hne
        rw [hend] at h
        cases h
        exact absurd rfl hne
  | cons c rest =>
      have hext : ∀ s, (token : Reader ε Char) (p ++ s) = .ok (c, rest ++ s) := by
        intro s
        rw [token_apply, List.dropWhile_append, hp]
        rfl
      have htoken : (token : Reader ε Char) p = .ok (c, rest) := by
        simpa using hext []
      constructor
      · intro c' rest' h
        obtain ⟨rfl, rfl⟩ := Prod.mk.inj (Except.ok.inj (htoken.symm.trans h))
        have hsuf : c :: rest <:+ p := hp ▸ List.dropWhile_suffix isBlank
        exact ⟨(List.suffix_cons c rest).trans hsuf, hext⟩
      · intro e h
        rw [htoken] at h
        cases h

section

variable (hE : ∀ e, E e e)
include hE

/-! A problem is settled if it stays related to itself, so from here on the relation has to be reflexive. -/

/-- A problem stays where it is. -/
theorem settled_throw (e : Problem ε) (p : List Char) : Settled E (throw e : Reader ε α) p where
  value h := by cases h
  problem h _ s := by
    cases h
    exact ⟨e, rfl, hE e⟩

/-- A fixed word is read one character after another. -/
theorem settled_word : ∀ (w p : List Char), Settled E (word w : Reader ε Unit) p
  | [], p => settled_pure () p
  | c :: w, p => by
      refine settled_bind (settled_next p) fun a rest _ _ => ?_
      split
      · exact settled_word w rest
      · exact settled_throw hE _ _

end

/-! ## 2. Whole texts -/

/-! What is settled of a reader, said of whole texts: of those that are read to their end, of those that
are wrong, and of those that are only a beginning. -/

/-- A value is kept exactly if only white space is added. -/
theorem Settled.readAll_append_of_ok {r : Reader ε α} {p : List Char} (hr : Settled E r p) {a : α}
    (h : readAll r p = .ok a) (s : List Char) :
    readAll r (p ++ s) = if s.all isBlank then .ok a else .error .malformed := by
  obtain ⟨rest, hvalue, hblank⟩ := readAll_eq_ok_iff.1 h
  obtain ⟨-, hext⟩ := hr.value hvalue
  rw [readAll_of_ok (hext s), List.all_append, hblank, Bool.true_and]

/-- What problem there is decides, whatever is added. -/
theorem Settled.readAll_append_of_error {r : Reader ε α} {p : List Char} (hr : Settled Eq r p)
    {e : Problem ε} (h : readAll r p = .error e) (hne : e ≠ .endOfText) (s : List Char) :
    readAll r (p ++ s) = .error e := by
  cases hvalue : r p with
  | error e' =>
      rw [readAll_of_error hvalue] at h
      cases h
      obtain ⟨e', he', rfl⟩ := hr.problem hvalue hne s
      exact readAll_of_error he'
  | ok x =>
      obtain ⟨a, rest⟩ := x
      rw [readAll_of_ok hvalue] at h
      split at h
      · cases h
      · next hrest =>
          -- more than a value stood there already, and white space does not take it away
          cases h
          obtain ⟨-, hext⟩ := hr.value hvalue
          rw [readAll_of_ok (hext s), if_neg]
          rw [List.all_append, Bool.and_eq_true]
          exact fun hall => hrest hall.1

/-- A text that lacks more than white space of a value has ended too soon. -/
theorem Settled.readAll_of_append {r : Reader ε α} {p s : List Char} (hr : Settled E r p) {a : α}
    (h : readAll r (p ++ s) = .ok a) (hs : ¬ s.all isBlank = true) :
    readAll r p = .error .endOfText := by
  obtain ⟨rest, hvalue, hblank⟩ := readAll_eq_ok_iff.1 h
  cases hcut : r p with
  | error e =>
      rw [readAll_of_error hcut]
      by_cases he : e = .endOfText
      · rw [he]
      · obtain ⟨e', he', -⟩ := hr.problem hcut he s
        rw [hvalue] at he'
        cases he'
  | ok x =>
      -- a value read too early would leave what is added, which is more than white space
      obtain ⟨a', rest'⟩ := x
      obtain ⟨-, hext⟩ := hr.value hcut
      have heq := hvalue.symm.trans (hext s)
      cases heq
      rw [List.all_append, Bool.and_eq_true] at hblank
      exact absurd hblank.2 hs

end Reader

namespace StringLiteral

open Reader

variable {ε : Type} {E : Problem ε → Problem ε → Prop}

/-! ## 3. Four digits -/

/-! The reader of a unit judges four characters together. If there are fewer than four, it counts their
bytes: fewer than four bytes end too soon, but four bytes in fewer characters are malformed already. That
answer is settled all the same, for such characters cannot all be digits, and a unit that starts with
something else than a digit stays malformed with any text behind it. -/

/-- Bytes are counted from the front. -/
theorem byteLength_cons (c : Char) (s : List Char) :
    byteLength (c :: s) = c.utf8Size + byteLength s := by
  have hfold : ∀ (s : List Char) (n : Nat),
      s.foldl (fun n ch => n + ch.utf8Size) n = n + byteLength s := by
    intro s
    induction s with
    | nil => intro n; rfl
    | cons d s ih =>
        intro n
        rw [byteLength, List.foldl_cons, List.foldl_cons, ih, ih]
        omega
  rw [byteLength, List.foldl_cons, hfold]
  omega

theorem byteLength_append (s t : List Char) : byteLength (s ++ t) = byteLength s + byteLength t := by
  induction s with
  | nil => simp [byteLength]
  | cons c s ih => rw [List.cons_append, byteLength_cons, ih, byteLength_cons, Nat.add_assoc]

/-- A digit takes one byte. -/
theorem utf8Size_of_hexDigit {c : Char} {n : Nat} (h : hexDigit? c = some n) : c.utf8Size = 1 := by
  have hlt : c.val.toNat < 103 := toNat_lt_of_hexDigit h
  rw [Char.utf8Size_eq_one_iff, UInt32.le_iff_toNat_le]
  exact Nat.le_trans (Nat.le_of_lt hlt) (by decide)

/-- Characters that take more bytes than there are of them are not all digits. -/
theorem exists_not_hexDigit {s : List Char} (h : s.length < byteLength s) :
    ∃ c ∈ s, hexDigit? c = none := by
  induction s with
  | nil => simp [byteLength] at h
  | cons c s ih =>
      cases hc : hexDigit? c with
      | none => exact ⟨c, List.mem_cons_self, hc⟩
      | some n =>
          rw [byteLength_cons, utf8Size_of_hexDigit hc, List.length_cons] at h
          obtain ⟨d, hd, hnone⟩ := ih (by omega)
          exact ⟨d, List.mem_cons_of_mem _ hd, hnone⟩

/-- With four characters all of them must be digits. -/
theorem unit_four (a b c d : Char) (rest : List Char) :
    (unit : Reader ε Nat) (a :: b :: c :: d :: rest) =
      match hexDigit? a, hexDigit? b, hexDigit? c, hexDigit? d with
      | some i, some j, some k, some l => .ok (((i * 16 + j) * 16 + k) * 16 + l, rest)
      | _, _, _, _ => .error .malformed :=
  rfl

/-- With fewer, the bytes decide between the two problems. -/
theorem unit_short {s : List Char} (h : s.length < 4) :
    (unit : Reader ε Nat) s =
      if byteLength s < 4 then .error .endOfText else .error .malformed := by
  unfold unit
  split
  · next a b c d rest =>
      simp at h
      omega
  · rfl

/-- Once there are four bytes it is settled that they are no unit. -/
theorem unit_eq_malformed {s : List Char} (hlen : 4 ≤ byteLength s)
    (h : ∃ c ∈ s.take 4, hexDigit? c = none) : (unit : Reader ε Nat) s = .error .malformed := by
  obtain ⟨x, hx, hnone⟩ := h
  match s with
  | a :: b :: c :: d :: rest =>
      rw [unit_four]
      split
      · next ha hb hc hd =>
          have hx' : x = a ∨ x = b ∨ x = c ∨ x = d := by simpa using hx
          rcases hx' with rfl | rfl | rfl | rfl <;> simp_all
      · rfl
  | [] | [_] | [_, _] | [_, _, _] => rw [unit_short (by simp), if_neg (by omega)]

section

variable (hE : ∀ e, E e e)
include hE

/-- A unit is settled, also where the text does not hold four characters. -/
theorem settled_unit (p : List Char) : Settled E (unit : Reader ε Nat) p := by
  rcases Nat.lt_or_ge p.length 4 with hlen | hlen
  · constructor
    · intro n rest h
      rw [unit_short hlen] at h
      split at h <;> cases h
    · intro e h hne s
      rw [unit_short hlen] at h
      split at h
      · cases h
        exact absurd rfl hne
      · -- fewer than four characters in four bytes: one of them is no digit
        cases h
        obtain ⟨c, hc, hnone⟩ := exists_not_hexDigit (s := p) (by omega)
        refine ⟨_, unit_eq_malformed ?_ ⟨c, ?_, hnone⟩, hE _⟩
        · rw [byteLength_append]
          omega
        · rw [List.take_append, List.take_of_length_le (Nat.le_of_lt hlen)]
          exact List.mem_append_left _ hc
  · -- four characters are all that the reader looks at
    match p, hlen with
    | a :: b :: c :: d :: rest, _ =>
        constructor
        · intro n rest' h
          rw [unit_four] at h
          split at h
          · next ha hb hc hd =>
              cases h
              refine ⟨List.suffix_append [a, b, c, d] rest, fun s => ?_⟩
              simp only [List.cons_append]
              rw [unit_four, ha, hb, hc, hd]
          · cases h
        · intro e h hne s
          refine ⟨e, ?_, hE e⟩
          simp only [List.cons_append]
          rw [unit_four] at h ⊢
          split at h
          · cases h
          · exact h

/-! ## 4. String literals -/

/-! The readers of a literal are put together from settled ones, so each is settled by `settled_bind` at
every step that its definition takes. -/

/-- A unit, and for a leading surrogate its partner. -/
theorem settled_unicodeEscape (p : List Char) : Settled E (unicodeEscape : Reader ε Char) p := by
  refine settled_bind (settled_unit hE p) fun n rest _ _ => ?_
  split
  · exact settled_throw hE _ _
  · split
    · refine settled_bind (settled_word hE _ _) fun _ rest _ _ => ?_
      refine settled_bind (settled_unit hE _) fun m rest _ _ => ?_
      split
      · exact settled_pure _ _
      · exact settled_throw hE _ _
    · exact settled_pure _ _

/-- What stands behind a backslash. -/
theorem settled_escape (p : List Char) : Settled E (escape : Reader ε Char) p := by
  refine settled_bind (settled_next p) fun c rest _ _ => ?_
  split
  · exact settled_unicodeEscape hE rest
  · split
    · exact settled_pure _ _
    · exact settled_throw hE _ _

/-- One character of a literal, or its closing quote. -/
theorem settled_character? (p : List Char) :
    Settled E (character? : Reader ε (Option Char)) p := by
  refine settled_bind (settled_next p) fun c rest _ _ => ?_
  split
  · exact settled_pure _ _
  · split
    · exact settled_map some (settled_escape hE rest)
    · split
      · exact settled_throw hE _ _
      · exact settled_pure _ _

/-- All characters of a literal: each takes something, so the text left gets shorter. -/
theorem settled_characters (p : List Char) :
    Settled E (characters : Reader ε (List Char)) p := by
  rw [characters_eq]
  refine settled_bind (settled_character? hE p) fun c? rest h _ => ?_
  cases c? with
  | none => exact settled_pure _ _
  | some c =>
      have : rest.length < p.length := consumes_character? p _ _ h
      exact settled_map _ (settled_characters rest)
termination_by p.length

/-- A literal, behind its opening quote. -/
theorem settled_afterQuote (p : List Char) : Settled E (afterQuote : Reader ε String) p :=
  settled_bind (settled_characters hE p) fun _ _ _ _ => settled_pure _ _

end

end StringLiteral

namespace Number

open Reader

variable {ε : Type} {E : Problem ε → Problem ε → Prop}

/-! ## 5. The end of a number -/

/-! A number has no closing mark. Where the text is closed, by a character that cannot stand in a number,
that character is still in every text that a reader of numbers leaves: each takes parts of a number only.
So no such reader reaches the end of the text, and what it has taken is settled. -/

/-- Whether a character can stand in a number. -/
def isPart (c : Char) : Bool :=
  c.isDigit || c = '.' || c = 'e' || c = 'E' || c = '+' || c = '-'

/-- The text ends with a character that cannot stand in a number. -/
def Closed (p : List Char) : Prop :=
  ∃ c ∈ p.getLast?, isPart c = false

/-- A digit can stand in a number. -/
theorem isPart_of_isDigit {c : Char} (h : c.isDigit = true) : isPart c = true := by
  simp [isPart, h]

/-- A closed text is not at its end. -/
theorem Closed.ne_nil {p : List Char} (h : Closed p) : p ≠ [] := by
  obtain ⟨c, hc, -⟩ := h
  rintro rfl
  simp at hc

/-- Characters of a number can be taken off the front. -/
theorem closed_of_append {w p : List Char} (hw : ∀ c ∈ w, isPart c = true) (h : Closed (w ++ p)) :
    Closed p := by
  obtain ⟨c, hc, hpart⟩ := h
  refine ⟨c, ?_, hpart⟩
  cases p with
  | nil =>
      -- then the last character would be one of a number
      have := hw c (List.mem_of_getLast? (by simpa using hc))
      simp [this] at hpart
  | cons d p => simpa [List.getLast?_append] using hc

/-- Taking a part of a number leaves a closed text closed. -/
theorem closed_of_next {p rest : List Char} {c : Char} (h : Closed p) (hc : isPart c = true)
    (hp : (next : Reader ε Char) p = .ok (c, rest)) : Closed rest := by
  rw [next_eq_ok_iff] at hp
  subst hp
  exact closed_of_append (w := [c]) (by simpa using hc) h

/-- So does taking a run of digits. -/
theorem closed_of_digits {p ds rest : List Char} (h : Closed p)
    (hds : (takeWhile Char.isDigit : Reader ε (List Char)) p = .ok (ds, rest)) : Closed rest := by
  cases hds
  rw [← List.takeWhile_append_dropWhile (p := Char.isDigit) (l := p)] at h
  refine closed_of_append (fun c hc => isPart_of_isDigit ?_) h
  have hall : (p.takeWhile Char.isDigit).all Char.isDigit = true := List.all_takeWhile
  exact List.all_eq_true.1 hall c hc

/-- A run of digits is settled in a closed text, for it ends at a character that is there already. -/
theorem settled_digits {p : List Char} (h : Closed p) :
    Settled E (takeWhile Char.isDigit : Reader ε (List Char)) p where
  value := by
    intro ds rest hds
    have hne : rest ≠ [] := (closed_of_digits h hds).ne_nil
    cases hds
    refine ⟨List.dropWhile_suffix _, fun s => ?_⟩
    -- the run of digits ends before the text does
    have hlen : (p.takeWhile Char.isDigit).length ≠ p.length := by
      intro hlen
      have hsplit : p.takeWhile Char.isDigit ++ p.dropWhile Char.isDigit = p :=
        List.takeWhile_append_dropWhile
      have := congrArg List.length hsplit
      rw [List.length_append] at this
      exact hne (List.eq_nil_of_length_eq_zero (by omega))
    show Except.ok ((p ++ s).takeWhile Char.isDigit, (p ++ s).dropWhile Char.isDigit) = _
    rw [List.takeWhile_append, if_neg hlen, List.dropWhile_append, if_neg (by simpa using hne)]
  problem h := by cases h

/-- The digits behind the point leave a closed text closed. -/
theorem closed_of_fractionDigits {p ds rest : List Char} (h : Closed p)
    (hds : (fractionDigits : Reader ε (List Char)) p = .ok (ds, rest)) : Closed rest := by
  obtain ⟨ds', mid, hdigits, hend⟩ := bind_eq_ok_iff.1 hds
  dsimp only at hend
  split at hend
  · obtain ⟨_, _, -, hthrow⟩ := bind_eq_ok_iff.1 hend
    cases hthrow
  · obtain ⟨-, rfl⟩ := pure_eq_ok_iff.1 hend
    exact closed_of_digits h hdigits

/-- So does a character that was looked at before it is taken. -/
theorem Closed.next_of_head? {p rest : List Char} {c d : Char} (h : Closed p)
    (hhead : p.head? = some c) (hc : isPart c = true)
    (hp : (next : Reader ε Char) p = .ok (d, rest)) : Closed rest := by
  have hp' := next_eq_ok_iff.1 hp
  subst hp'
  cases hhead
  exact closed_of_next h hc hp

/-- And so does a fraction, whether there is one or not. -/
theorem closed_of_fraction? {p rest : List Char} {ds? : Option (List Char)} (h : Closed p)
    (hds : (fraction? : Reader ε (Option (List Char))) p = .ok (ds?, rest)) : Closed rest := by
  obtain ⟨c?, mid, hpeek, hend⟩ := bind_eq_ok_iff.1 hds
  cases hpeek
  split at hend
  · next hpoint =>
      obtain ⟨c, mid, hc, hdigits⟩ := bind_eq_ok_iff.1 hend
      obtain ⟨ds, hds', -⟩ := map_eq_ok_iff.1 hdigits
      exact closed_of_fractionDigits (h.next_of_head? hpoint (by decide) hc) hds'
  · obtain ⟨-, rfl⟩ := pure_eq_ok_iff.1 hend
    exact h

/-! ## 6. Numbers -/

section

variable (hE : ∀ e, E e e)
include hE

/-! Now each part of a number is settled in a closed text. A sign or a digit that was taken before must
leave the text closed; where the character taken is no part of a number, the reader ends with a problem
and nothing has to be known of the text. -/

/-- The digits behind the point: at least one, else a problem. -/
theorem settled_fractionDigits {p : List Char} (h : Closed p) :
    Settled E (fractionDigits : Reader ε (List Char)) p := by
  refine settled_bind (settled_digits h) fun ds rest hds _ => ?_
  split
  · exact settled_bind (settled_next _) fun _ _ _ _ => settled_throw hE _ _
  · exact settled_pure _ _

/-- The digits of an exponent, of which the first has been taken. -/
theorem settled_exponentFrom (negative : Bool) {first : Char} {p : List Char}
    (h : first.isDigit = true → Closed p) :
    Settled E (exponentFrom negative first : Reader ε (Bool × List Char)) p := by
  unfold exponentFrom
  split
  · next hd => exact settled_bind (settled_digits (h hd)) fun _ _ _ _ => settled_pure _ _
  · exact settled_throw hE _ _

/-- An exponent: a sign or none, and at least one digit. -/
theorem settled_exponentDigits {p : List Char} (h : Closed p) :
    Settled E (exponentDigits : Reader ε (Bool × List Char)) p := by
  refine settled_bind (settled_next _) fun c rest hc _ => ?_
  have hsign : isPart c = true → ∀ d rest', (next : Reader ε Char) rest = .ok (d, rest') →
      d.isDigit = true → Closed rest' := by
    intro hpart d rest' hd hdigit
    exact closed_of_next (closed_of_next h hpart hc) (isPart_of_isDigit hdigit) hd
  split
  · refine settled_bind (settled_next _) fun d rest' hd _ => ?_
    exact settled_exponentFrom hE false (hsign (by decide) d rest' hd)
  · refine settled_bind (settled_next _) fun d rest' hd _ => ?_
    exact settled_exponentFrom hE true (hsign (by decide) d rest' hd)
  · exact settled_exponentFrom hE false fun hdigit =>
      closed_of_next h (isPart_of_isDigit hdigit) hc

/-- A fraction, if there is a point. -/
theorem settled_fraction? {p : List Char} (h : Closed p) :
    Settled E (fraction? : Reader ε (Option (List Char))) p := by
  refine settled_bind (settled_peek? h.ne_nil) fun c? rest hpeek _ => ?_
  cases hpeek
  split
  · next hpoint =>
      refine settled_bind (settled_next _) fun c rest hc _ => ?_
      exact settled_map some (settled_fractionDigits hE (h.next_of_head? hpoint (by decide) hc))
  · exact settled_pure _ _

/-- An exponent, if there is its letter. -/
theorem settled_exponent? {p : List Char} (h : Closed p) :
    Settled E (exponent? : Reader ε (Option (Bool × List Char))) p := by
  refine settled_bind (settled_peek? h.ne_nil) fun c? rest hpeek _ => ?_
  cases hpeek
  split
  · next hmark =>
      refine settled_bind (settled_next _) fun c rest hc _ => ?_
      have hrest : Closed rest := by
        rcases hmark with he | he
        · exact h.next_of_head? he (by decide) hc
        · exact h.next_of_head? he (by decide) hc
      exact settled_map some (settled_exponentDigits hE hrest)
  · exact settled_pure _ _

/-- A number's spelling, of which the first character has been taken: digits, a fraction and an exponent. -/
theorem settled_spelling (negative : Bool) {first : Char} {p : List Char}
    (h : first.isDigit = true → Closed p) :
    Settled E (spelling negative first : Reader ε Spelling) p := by
  unfold spelling
  dsimp only
  split
  · exact settled_throw hE _ _
  · next hfirst =>
      have hp := h (by simpa using hfirst)
      refine settled_bind (settled_digits hp) fun ds rest hds _ => ?_
      have hrest := closed_of_digits hp hds
      split
      · exact settled_throw hE _ _
      · refine settled_bind (settled_fraction? hE hrest) fun fraction rest' hfraction _ => ?_
        have hrest' := closed_of_fraction? hrest hfraction
        exact settled_bind (settled_exponent? hE hrest') fun _ _ _ _ => settled_pure _ _

/-- A number: its spelling, if it stands for one. -/
theorem settled_afterDigit (negative : Bool) {first : Char} {p : List Char}
    (h : first.isDigit = true → Closed p) :
    Settled E (afterDigit negative first : Reader ε Number) p := by
  refine settled_bind (settled_spelling hE negative h) fun x rest _ _ => ?_
  split
  · exact settled_pure _ _
  · exact settled_throw hE _ _

end

end Number

end QueryTerms.Json
