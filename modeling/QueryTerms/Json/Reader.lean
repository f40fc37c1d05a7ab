/-
QueryTerms.Json.Reader — reading a text from left to right, and the three ways it can end early.

A reader takes the text that is left and answers a value and what it leaves, or the problem that stops
the reading. The text may end too soon, or it may be no JSON, or it may be JSON that does not fit what
is wanted; the last kind says how. Whatever stands behind a problem is never looked at.

Readers are built from `next`, which takes one character, and `token`, which skips white space before
it. A reader that takes at least `n` characters is said to consume `n`; this is what lets loops over
readers end.
-/

namespace QueryTerms.Json

/-! ## 1. Readers -/

/-- Why reading stopped. -/
inductive Problem (ε : Type) where
  /-- The text ends inside a value. -/
  | endOfText
  /-- The text is not JSON, or holds more than is wanted. -/
  | malformed
  /-- The text does not describe what is wanted. -/
  | misfit (e : ε)
  deriving DecidableEq

/-- Answers a value and the text left, or a problem. -/
abbrev Reader (ε : Type) := StateT (List Char) (Except (Problem ε))

namespace Reader

variable {ε α β : Type}

/-- Takes one character. -/
def next : Reader ε Char
  | [] => .error .endOfText
  | c :: rest => .ok (c, rest)

/-- The next character, left where it is; none at the end. -/
def peek? : Reader ε (Option Char)
  | s => .ok (s.head?, s)

/-- The white space that may stand around tokens. -/
def isBlank (c : Char) : Bool :=
  c = ' ' || c = '\t' || c = '\n' || c = '\r'

/-- Takes the next character that is not white space. -/
def token : Reader ε Char
  | s => next (s.dropWhile isBlank)

/-- Takes the longest run of characters of a class. -/
def takeWhile (p : Char → Bool) : Reader ε (List Char)
  | s => .ok (s.takeWhile p, s.dropWhile p)

/-- Takes exactly these characters. -/
def word : List Char → Reader ε Unit
  | [] => pure ()
  | c :: cs => do
    if (← next) = c then word cs else throw .malformed

/-- Nothing but white space may be left. -/
def finish : Reader ε Unit
  | s => if s.all isBlank then .ok ((), []) else .error .malformed

/-- Runs a reader on a whole text. -/
def readAll (r : Reader ε α) (text : List Char) : Except (Problem ε) α :=
  (do let a ← r; finish; pure a : Reader ε α).run' text

/-! ## 2. Answers -/

theorem bind_of_ok {r : Reader ε α} {f : α → Reader ε β} {s rest : List Char} {a : α}
    (h : r s = .ok (a, rest)) : (r >>= f) s = f a rest := by
  simp only [bind, StateT.bind, Except.bind, h]

theorem bind_of_error {r : Reader ε α} {f : α → Reader ε β} {s : List Char} {p : Problem ε}
    (h : r s = .error p) : (r >>= f) s = .error p := by
  simp only [bind, StateT.bind, Except.bind, h]

theorem bind_eq_ok_iff {r : Reader ε α} {f : α → Reader ε β} {s rest : List Char} {b : β} :
    (r >>= f) s = .ok (b, rest) ↔ ∃ a mid, r s = .ok (a, mid) ∧ f a mid = .ok (b, rest) := by
  constructor
  · intro h
    cases hr : r s with
    | error p =>
        rw [bind_of_error hr] at h
        cases h
    | ok x => exact ⟨x.1, x.2, rfl, (bind_of_ok hr).symm.trans h⟩
  · rintro ⟨a, mid, hr, hf⟩
    rw [bind_of_ok hr, hf]

theorem map_eq_ok_iff {r : Reader ε α} {g : α → β} {s rest : List Char} {b : β} :
    (g <$> r) s = .ok (b, rest) ↔ ∃ a, r s = .ok (a, rest) ∧ g a = b := by
  rw [map_eq_pure_bind, bind_eq_ok_iff]
  constructor
  · rintro ⟨a, mid, hr, hpure⟩
    cases hpure
    exact ⟨a, hr, rfl⟩
  · rintro ⟨a, hr, rfl⟩
    exact ⟨a, rest, hr, rfl⟩

@[simp] theorem pure_eq_ok_iff {a b : α} {s rest : List Char} :
    (pure a : Reader ε α) s = .ok (b, rest) ↔ a = b ∧ s = rest := by
  have hpure : (pure a : Reader ε α) s = .ok (a, s) := rfl
  rw [hpure, Except.ok.injEq, Prod.mk.injEq]

@[simp] theorem throw_ne_ok {p : Problem ε} {s : List Char} {x : α × List Char} :
    (throw p : Reader ε α) s ≠ .ok x := by
  intro h
  cases h

@[simp] theorem next_eq_ok_iff {s rest : List Char} {c : Char} :
    (next : Reader ε Char) s = .ok (c, rest) ↔ s = c :: rest := by
  cases s <;> simp [next]

theorem word_eq_ok_iff {w s rest : List Char} :
    (word w : Reader ε Unit) s = .ok ((), rest) ↔ s = w ++ rest := by
  induction w generalizing s with
  | nil => simp [word]
  | cons c w ih =>
      rw [word, bind_eq_ok_iff]
      constructor
      · rintro ⟨d, mid, hd, h⟩
        split at h
        · next hc =>
            rw [next_eq_ok_iff.1 hd, ih.1 h, hc]
            rfl
        · exact absurd h throw_ne_ok
      · rintro rfl
        exact ⟨c, w ++ rest, rfl, by rw [if_pos rfl, ih]⟩

theorem token_apply (s : List Char) : (token : Reader ε Char) s = next (s.dropWhile isBlank) :=
  rfl

/-- A token is the first character behind white space. -/
theorem token_eq_ok_iff {s rest : List Char} {c : Char} :
    (token : Reader ε Char) s = .ok (c, rest)
      ↔ isBlank c = false ∧ ∃ w, w.all isBlank = true ∧ s = w ++ c :: rest := by
  rw [token_apply, next_eq_ok_iff]
  constructor
  · intro h
    have hc : isBlank c = false := by
      have := List.head?_dropWhile_not isBlank s
      simpa [h] using this
    refine ⟨hc, s.takeWhile isBlank, List.all_takeWhile, ?_⟩
    rw [← h, List.takeWhile_append_dropWhile]
  · rintro ⟨hc, w, hw, rfl⟩
    rw [List.dropWhile_append_of_pos (by simpa using hw)]
    simp [hc]

theorem suffix_of_token {s rest : List Char} {c : Char}
    (h : (token : Reader ε Char) s = .ok (c, rest)) : c :: rest <:+ s := by
  obtain ⟨-, w, -, rfl⟩ := token_eq_ok_iff.1 h
  exact List.suffix_append _ _

theorem readAll_of_error {r : Reader ε α} {text : List Char} {p : Problem ε}
    (h : r text = .error p) : readAll r text = .error p := by
  have hread : (do let a ← r; finish; pure a : Reader ε α) text = .error p := bind_of_error h
  rw [readAll, StateT.run', hread]
  rfl

theorem readAll_of_ok {r : Reader ε α} {text rest : List Char} {a : α} (h : r text = .ok (a, rest)) :
    readAll r text = if rest.all isBlank then .ok a else .error .malformed := by
  have hread : (do let a ← r; finish; pure a : Reader ε α) text =
      (do finish; pure a : Reader ε α) rest := bind_of_ok h
  rw [readAll, StateT.run', hread]
  cases hblank : rest.all isBlank with
  | true =>
      have hfinish : (finish : Reader ε Unit) rest = .ok ((), []) := by
        rw [finish, if_pos hblank]
      rw [bind_of_ok hfinish]
      rfl
  | false =>
      have hfinish : (finish : Reader ε Unit) rest = .error .malformed := by
        rw [finish, hblank]
        rfl
      rw [bind_of_error hfinish]
      rfl

theorem readAll_eq_ok_iff {r : Reader ε α} {text : List Char} {a : α} :
    readAll r text = .ok a ↔ ∃ rest, r text = .ok (a, rest) ∧ rest.all isBlank = true := by
  cases h : r text with
  | error p => simp [readAll_of_error h]
  | ok x =>
      obtain ⟨a', rest'⟩ := x
      rw [readAll_of_ok h]
      constructor
      · intro hread
        split at hread
        · next hblank =>
            cases hread
            exact ⟨rest', rfl, hblank⟩
        · cases hread
      · rintro ⟨rest, hx, hblank⟩
        cases hx
        rw [if_pos hblank]

/-! ## 3. Consumption -/

/-- A success leaves at least `n` characters fewer than there were. -/
def Consumes (n : Nat) (r : Reader ε α) : Prop :=
  ∀ s a rest, r s = .ok (a, rest) → rest.length + n ≤ s.length

theorem consumes_pure (a : α) : Consumes 0 (pure a : Reader ε α) := by
  intro s b rest h
  cases h
  simp

theorem consumes_throw (n : Nat) (p : Problem ε) : Consumes n (throw p : Reader ε α) := by
  intro s a rest h
  cases h

theorem consumes_next : Consumes 1 (next : Reader ε Char) := by
  intro s a rest h
  cases s with
  | nil => cases h
  | cons c s => cases h; simp

theorem consumes_bind {m n : Nat} {r : Reader ε α} {f : α → Reader ε β}
    (hr : Consumes m r) (hf : ∀ a, Consumes n (f a)) : Consumes (m + n) (r >>= f) := by
  intro s b rest h
  obtain ⟨a, mid, hr', hf'⟩ := bind_eq_ok_iff.1 h
  have h1 := hr s a mid hr'
  have h2 := hf a mid b rest hf'
  omega

theorem Consumes.mono {m n : Nat} {r : Reader ε α} (h : Consumes n r) (hmn : m ≤ n) :
    Consumes m r := by
  intro s a rest hr
  have := h s a rest hr
  omega

end Reader

end QueryTerms.Json
