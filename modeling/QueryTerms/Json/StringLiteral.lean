/-
QueryTerms.Json.StringLiteral — string literals, read from behind the opening quote.

A literal is a run of characters, some of them escaped, and a closing quote. Control characters must be
escaped. An escape `\u` has four hexadecimal digits of either case and names one 16-bit unit; a
character above U+FFFF takes two escapes, a leading and a trailing unit, and neither may stand alone.
The four digits are looked for in the next four bytes: if fewer are left, the text has ended too soon.
-/
import QueryTerms.Json.Reader

namespace QueryTerms.Json.StringLiteral

open Reader

variable {ε : Type}

/-! ## 1. Escapes -/

/-- The value of a hexadecimal digit of either case. -/
def hexDigit? (c : Char) : Option Nat :=
  if '0' ≤ c ∧ c ≤ '9' then some (c.toNat - '0'.toNat)
  else if 'a' ≤ c ∧ c ≤ 'f' then some (c.toNat - 'a'.toNat + 10)
  else if 'A' ≤ c ∧ c ≤ 'F' then some (c.toNat - 'A'.toNat + 10)
  else none

theorem toNat_lt_of_hexDigit {c : Char} {n : Nat} (h : hexDigit? c = some n) : c.toNat < 103 := by
  have hle : ∀ {a b : Char}, a ≤ b ↔ a.toNat ≤ b.toNat := by
    intro a b
    rw [Char.le_def, UInt32.le_iff_toNat_le]
    rfl
  have h9 : '9'.toNat = 57 := rfl
  have hf : 'f'.toNat = 102 := rfl
  have hF : 'F'.toNat = 70 := rfl
  simp only [hexDigit?, hle] at h
  split at h
  · omega
  · split at h
    · omega
    · split at h
      · omega
      · cases h

/-- The number of bytes that characters take in UTF-8. -/
def byteLength (s : List Char) : Nat :=
  s.foldl (fun n ch => n + ch.utf8Size) 0

/-- Takes four hexadecimal digits. -/
def unit : Reader ε Nat
  | a :: b :: c :: d :: rest =>
    match hexDigit? a, hexDigit? b, hexDigit? c, hexDigit? d with
    | some a, some b, some c, some d => .ok (((a * 16 + b) * 16 + c) * 16 + d, rest)
    | _, _, _, _ => .error .malformed
  | short => if byteLength short < 4 then .error .endOfText else .error .malformed

/-- Whether a 16-bit unit opens a pair. -/
def isLeading (n : Nat) : Bool := 0xD800 ≤ n && n ≤ 0xDBFF

/-- Whether a 16-bit unit closes a pair. -/
def isTrailing (n : Nat) : Bool := 0xDC00 ≤ n && n ≤ 0xDFFF

/-- The character that a leading and a trailing unit name together. -/
def paired (leading trailing : Nat) : Char :=
  Char.ofNat (0x10000 + (leading - 0xD800) * 0x400 + (trailing - 0xDC00))

/-- What stands behind `\u`: one unit, or a pair of them with `\u` between. -/
def unicodeEscape : Reader ε Char := do
  let n ← unit
  if isTrailing n then throw .malformed
  else if isLeading n then
    word ['\\', 'u']
    let m ← unit
    if isTrailing m then pure (paired n m) else throw .malformed
  else pure (Char.ofNat n)

/-- The character that a short escape names. -/
def shortEscape? : Char → Option Char
  | '"' => some '"'
  | '\\' => some '\\'
  | '/' => some '/'
  | 'b' => some '\x08'
  | 'f' => some '\x0c'
  | 'n' => some '\n'
  | 'r' => some '\r'
  | 't' => some '\t'
  | _ => none

/-- What stands behind a backslash. -/
def escape : Reader ε Char := do
  let c ← next
  if c = 'u' then unicodeEscape
  else
    match shortEscape? c with
    | some r => pure r
    | none => throw .malformed

/-! ## 2. The literal -/

/-- The next character of the string, however it is written; none for the closing quote. -/
def character? : Reader ε (Option Char) := do
  let c ← next
  if c = '"' then pure none
  else if c = '\\' then some <$> escape
  else if c.toNat < 0x20 then throw .malformed
  else pure (some c)

theorem consumes_unit : Consumes 0 (unit : Reader ε Nat) := by
  intro s n rest h
  unfold unit at h
  split at h
  · split at h
    · cases h; simp; omega
    · cases h
  · split at h <;> cases h

theorem consumes_word (w : List Char) : Consumes 0 (word w : Reader ε Unit) := by
  induction w with
  | nil => exact consumes_pure ()
  | cons c w ih =>
    refine (consumes_bind (n := 0) consumes_next fun a => ?_).mono (by omega)
    split
    · exact ih
    · exact consumes_throw 0 _

theorem consumes_unicodeEscape : Consumes 0 (unicodeEscape : Reader ε Char) := by
  refine consumes_bind (m := 0) (n := 0) consumes_unit fun n => ?_
  split
  · exact consumes_throw 0 _
  · split
    · refine consumes_bind (m := 0) (n := 0) (consumes_word _) fun _ => ?_
      refine consumes_bind (m := 0) (n := 0) consumes_unit fun m => ?_
      split
      · exact consumes_pure _
      · exact consumes_throw 0 _
    · exact consumes_pure _

theorem consumes_escape : Consumes 0 (escape : Reader ε Char) := by
  refine (consumes_bind (n := 0) consumes_next fun c => ?_).mono (by omega)
  split
  · exact consumes_unicodeEscape
  · split
    · exact consumes_pure _
    · exact consumes_throw 0 _

/-- Every step through a literal takes a character, so the literal is read in finitely many. -/
theorem consumes_character? : Consumes 1 (character? : Reader ε (Option Char)) := by
  refine consumes_bind (n := 0) consumes_next fun c => ?_
  split
  · exact consumes_pure _
  · split
    · exact consumes_bind (m := 0) (n := 0) consumes_escape fun a => consumes_pure _
    · split
      · exact consumes_throw 0 _
      · exact consumes_pure _

/-- The characters up to the closing quote, which is taken too. -/
def characters (s : List Char) : Except (Problem ε) (List Char × List Char) :=
  match h : character? s with
  | .error p => .error p
  | .ok (none, rest) => .ok ([], rest)
  | .ok (some c, rest) =>
    have : rest.length < s.length := consumes_character? s _ _ h
    match characters rest with
    | .error p => .error p
    | .ok (cs, rest) => .ok (c :: cs, rest)
termination_by s.length

/-- The loop over the characters, as a reader. -/
theorem characters_eq : (characters : Reader ε (List Char)) =
    character? >>= fun
      | none => pure []
      | some c => (c :: ·) <$> (characters : Reader ε (List Char)) := by
  funext s
  rw [characters]
  split
  · next h => rw [bind_of_error h]
  · next h =>
      rw [bind_of_ok h]
      rfl
  · next c rest h =>
      have hmap : ((c :: ·) <$> (characters : Reader ε (List Char)) : Reader ε (List Char)) rest =
          (characters >>= fun cs => pure (c :: cs) : Reader ε (List Char)) rest := by
        rw [map_eq_pure_bind]
      rw [bind_of_ok h]
      refine Eq.trans ?_ hmap.symm
      cases hrest : (characters : Reader ε (List Char)) rest with
      | error e => rw [bind_of_error hrest]
      | ok x =>
          obtain ⟨cs, rest'⟩ := x
          rw [bind_of_ok hrest]
          rfl

/-- The string whose opening quote has been taken. -/
def afterQuote : Reader ε String := do
  let cs ← (characters : Reader ε (List Char))
  pure (String.ofList cs)

end QueryTerms.Json.StringLiteral
