/-
QueryTerms.Proofs.DocumentGrammar — the texts that describe a dialect.

A document is a sequence of lexemes: six marks, strings, and the word null. White space may stand in
front of each, and a string may be written in many ways. Which sequences of lexemes describe which
dialect is a finite table of shapes (`Describes`). The text is read as a dialect exactly if it spells
one of the shapes that describe it, and only white space is left over (`ofDocument_eq_ok_iff`).

## How the proof goes

`Lexes s xs rest` says that the text `s` begins with a spelling of the lexemes `xs` and leaves `rest`.
It splits where a list of lexemes is put together, as a reader splits at a bind. So there is one
equivalence for each reader: it succeeds on `s` and leaves `rest` exactly if `s` lexes to a form of what
was read. A reader that is given its first character speaks of the text from before that character.

The loop over the members of an object is compared with the ways to complete what has been given so far
(`Completes`). That relation knows the members in either order and each at most once; from nothing given
it comes down to the three shapes of objects.
-/
import QueryTerms.Dialect.Document
import QueryTerms.Proofs.StringForms

namespace QueryTerms.Dialect

open Json Json.Reader Json.StringLiteral

/-! ## 1. Lexemes -/

/-! White space stands only in front of a lexeme, never behind it. The reader skips it in the same
place, so a text that lexes leaves exactly what the reader leaves. -/

/-- The marks between the words of a document. -/
def marks : List Char := ['{', '}', '[', ']', ':', ',']

/-- The words of a document. -/
inductive Lexeme where
  | mark (c : Char)
  /-- A string, by what it says and not by its spelling. -/
  | string (s : String)
  | null

/-- The ways to write a lexeme. -/
inductive Lexeme.Form : Lexeme → List Char → Prop
  | mark {c : Char} : c ∈ marks → Form (.mark c) [c]
  | string {s : String} {u : List Char} : Written s.toList u → Form (.string s) ('"' :: u ++ ['"'])
  | null : Form .null ['n', 'u', 'l', 'l']

/-- The text begins with lexemes, white space before each, and the rest follows. -/
inductive Lexes : List Char → List Lexeme → List Char → Prop
  | nil (s : List Char) : Lexes s [] s
  | cons {w u t rest : List Char} {x : Lexeme} {xs : List Lexeme} : w.all isBlank = true →
      x.Form u → Lexes t xs rest → Lexes (w ++ u ++ t) (x :: xs) rest

/-! ## 2. The grammar -/

/-! The grammar speaks of lexemes and not of characters: how a name is spelled, and how much white space
stands where, is said once, by `Lexes`. -/

/-- A choice among names: a string, or an object whose only member has the name and the value null. -/
inductive Naming (name : String) : List Lexeme → Prop
  /-- `"name"` -/
  | bare : Naming name [.string name]
  /-- `{"name": null}` -/
  | member : Naming name [.mark '{', .string name, .mark ':', .null, .mark '}']

/-- A style, or null for none. -/
inductive StyleForm : Option BooleanStyle → List Lexeme → Prop
  | null : StyleForm none [.null]
  | named {style : BooleanStyle} {xs : List Lexeme} :
      Naming style.name xs → StyleForm (some style) xs

/-- The shapes of documents: objects without a style, with the kind or the style first, and arrays of
one or two elements. -/
inductive Describes : Dialect → List Lexeme → Prop
  /-- `{"kind": K}` -/
  | object {kind : Kind} {ks : List Lexeme} : Naming kind.name ks →
      Describes ⟨kind, none⟩
        ([.mark '{', .string "kind", .mark ':'] ++ ks ++ [.mark '}'])
  /-- `{"kind": K, "boolean_literals": S}` -/
  | kindFirst {kind : Kind} {style : Option BooleanStyle} {ks ss : List Lexeme} :
      Naming kind.name ks → StyleForm style ss →
      Describes ⟨kind, style⟩
        ([.mark '{', .string "kind", .mark ':'] ++ ks
          ++ [.mark ',', .string "boolean_literals", .mark ':'] ++ ss ++ [.mark '}'])
  /-- `{"boolean_literals": S, "kind": K}` -/
  | styleFirst {kind : Kind} {style : Option BooleanStyle} {ks ss : List Lexeme} :
      Naming kind.name ks → StyleForm style ss →
      Describes ⟨kind, style⟩
        ([.mark '{', .string "boolean_literals", .mark ':'] ++ ss
          ++ [.mark ',', .string "kind", .mark ':'] ++ ks ++ [.mark '}'])
  /-- `[K]` -/
  | single {kind : Kind} {ks : List Lexeme} : Naming kind.name ks →
      Describes ⟨kind, none⟩ ([.mark '['] ++ ks ++ [.mark ']'])
  /-- `[K, S]` -/
  | pair {kind : Kind} {style : Option BooleanStyle} {ks ss : List Lexeme} :
      Naming kind.name ks → StyleForm style ss →
      Describes ⟨kind, style⟩ ([.mark '['] ++ ks ++ [.mark ','] ++ ss ++ [.mark ']'])

/-- The text spells the dialect: a shape that describes it, and nothing but white space behind. -/
def Spells (text : List Char) (d : Dialect) : Prop :=
  ∃ xs rest, Describes d xs ∧ Lexes text xs rest ∧ rest.all isBlank = true

/-- The brackets that a document stands in. -/
def brackets : List (Char × Char) := [('{', '}'), ('[', ']')]

/-- Every shape stands in one pair of brackets. -/
theorem Describes.exists_brackets {d : Dialect} {xs : List Lexeme} (h : Describes d xs) :
    ∃ opening inner closing, (opening, closing) ∈ brackets ∧
      xs = .mark opening :: inner ++ [.mark closing] := by
  cases h with
  | object => exact ⟨'{', _, '}', by simp [brackets], rfl⟩
  | kindFirst => exact ⟨'{', _, '}', by simp [brackets], rfl⟩
  | styleFirst => exact ⟨'{', _, '}', by simp [brackets], rfl⟩
  | single => exact ⟨'[', _, ']', by simp [brackets], rfl⟩
  | pair => exact ⟨'[', _, ']', by simp [brackets], rfl⟩

/-- The two pairs, as cases. -/
theorem mem_brackets_iff {opening closing : Char} :
    (opening, closing) ∈ brackets ↔
      opening = '{' ∧ closing = '}' ∨ opening = '[' ∧ closing = ']' := by
  simp [brackets]

/-- A choice takes at least one lexeme, so a character can be read where one stands. -/
theorem Naming.ne_nil {name : String} {xs : List Lexeme} (h : Naming name xs) : xs ≠ [] := by
  cases h <;> simp

theorem StyleForm.ne_nil {style : Option BooleanStyle} {xs : List Lexeme} (h : StyleForm style xs) :
    xs ≠ [] := by
  cases h with
  | null => simp
  | named h => exact h.ne_nil

/-! ## 3. Reading lexemes -/

/-- What the reader takes of a lexeme behind its first character. -/
def Lexeme.Ends : Lexeme → Char → List Char → List Char → Prop
  | .mark m, c, s, rest => m ∈ marks ∧ c = m ∧ s = rest
  | .string str, c, s, rest =>
      c = '"' ∧ (afterQuote : DocumentReader String) s = .ok (str, rest)
  | .null, c, s, rest =>
      c = 'n' ∧ (word ['u', 'l', 'l'] : DocumentReader Unit) s = .ok ((), rest)

/-- The reader takes, behind the first character of a lexeme, exactly the rest of one of its forms. Here
the spellings of strings come in (`afterQuote_eq_ok_iff`). -/
theorem ends_iff {x : Lexeme} {c : Char} {s rest : List Char} :
    x.Ends c s rest ↔ ∃ u, x.Form (c :: u) ∧ s = u ++ rest := by
  cases x with
  | mark m =>
      constructor
      · rintro ⟨hm, rfl, rfl⟩
        exact ⟨[], .mark hm, rfl⟩
      · rintro ⟨u, hu, rfl⟩
        cases hu with
        | mark hm => exact ⟨hm, rfl, rfl⟩
  | string str =>
      constructor
      · rintro ⟨rfl, h⟩
        obtain ⟨u, hu, rfl⟩ := afterQuote_eq_ok_iff.1 h
        exact ⟨u ++ ['"'], .string hu, by simp⟩
      · rintro ⟨u, hu, rfl⟩
        cases hu with
        | string hu =>
            -- the form has the closing quote, which `afterQuote` takes, too
            exact ⟨rfl, afterQuote_eq_ok_iff.2 ⟨_, hu, by simp⟩⟩
  | null =>
      constructor
      · rintro ⟨rfl, h⟩
        exact ⟨['u', 'l', 'l'], .null, word_eq_ok_iff.1 h⟩
      · rintro ⟨u, hu, rfl⟩
        cases hu
        exact ⟨rfl, word_eq_ok_iff.2 rfl⟩

/-- No lexeme begins with white space. -/
theorem Lexeme.Form.exists_cons {x : Lexeme} {u : List Char} (h : x.Form u) :
    ∃ c t, u = c :: t ∧ isBlank c = false := by
  cases h with
  | @mark c hc =>
      have hblank : ∀ m ∈ marks, isBlank m = false := by simp [marks, isBlank]
      exact ⟨c, [], rfl, hblank c hc⟩
  | string => exact ⟨'"', _, rfl, by decide⟩
  | null => exact ⟨'n', _, rfl, by decide⟩

/-- No lexeme takes nothing. -/
theorem lexes_nil_iff {s rest : List Char} : Lexes s [] rest ↔ s = rest := by
  constructor
  · rintro ⟨⟩
    rfl
  · rintro rfl
    exact .nil s

/-- Lexemes one after another are read one after another: the first character by `token`, which skips the
white space, and then the rest of the first lexeme. -/
theorem lexes_cons_iff {s rest : List Char} {x : Lexeme} {xs : List Lexeme} :
    Lexes s (x :: xs) rest ↔
      ∃ c after mid, (token : DocumentReader Char) s = .ok (c, after) ∧ x.Ends c after mid ∧
        Lexes mid xs rest := by
  constructor
  · intro h
    cases h with
    | @cons w u t _ _ _ hw hu ht =>
        -- the white space ends where the lexeme begins, for its first character is none
        obtain ⟨c, u, rfl, hc⟩ := hu.exists_cons
        exact ⟨c, u ++ t, t, token_eq_ok_iff.2 ⟨hc, w, hw, by simp⟩, ends_iff.2 ⟨u, hu, rfl⟩, ht⟩
  · rintro ⟨c, after, mid, htoken, hends, hrest⟩
    obtain ⟨-, w, hw, rfl⟩ := token_eq_ok_iff.1 htoken
    obtain ⟨u, hu, rfl⟩ := ends_iff.1 hends
    have := Lexes.cons hw hu hrest
    simpa using this

/-- What lexemes leave is an end of the text. -/
theorem Lexes.suffix {s rest : List Char} {xs : List Lexeme} (h : Lexes s xs rest) : rest <:+ s := by
  induction h with
  | nil s => exact List.suffix_refl s
  | @cons w u t rest x xs _ _ _ ih => exact ih.trans (List.suffix_append (w ++ u) t)

/-- Lexing splits where the lexemes split. This is the counterpart of `bind_eq_ok_iff`, and the two are
used side by side below. -/
theorem lexes_append_iff {s rest : List Char} {xs ys : List Lexeme} :
    Lexes s (xs ++ ys) rest ↔ ∃ mid, Lexes s xs mid ∧ Lexes mid ys rest := by
  induction xs generalizing s with
  | nil => simp [lexes_nil_iff]
  | cons x xs ih =>
      simp only [List.cons_append, lexes_cons_iff, ih]
      constructor
      · rintro ⟨c, after, mid, htoken, hends, mid', hxs, hys⟩
        exact ⟨mid', ⟨c, after, mid, htoken, hends, hxs⟩, hys⟩
      · rintro ⟨mid', ⟨c, after, mid, htoken, hends, hxs⟩, hys⟩
        exact ⟨c, after, mid, htoken, hends, mid', hxs, hys⟩

theorem Lexes.append {s mid rest : List Char} {xs ys : List Lexeme} (hxs : Lexes s xs mid)
    (hys : Lexes mid ys rest) : Lexes s (xs ++ ys) rest :=
  lexes_append_iff.2 ⟨mid, hxs, hys⟩

/-! One equivalence for each kind of lexeme, in the shape in which the readers ask for it: a mark is read
by `token` alone, a string by `token` and `afterQuote`, and null by `token` and `word`. -/

/-- A mark is one character. -/
theorem lexes_mark_iff {c : Char} {s rest : List Char} {xs : List Lexeme} (hc : c ∈ marks) :
    Lexes s (.mark c :: xs) rest ↔
      ∃ mid, (token : DocumentReader Char) s = .ok (c, mid) ∧ Lexes mid xs rest := by
  rw [lexes_cons_iff]
  constructor
  · rintro ⟨_, _, mid, h, ⟨-, rfl, rfl⟩, hxs⟩
    exact ⟨_, h, hxs⟩
  · rintro ⟨mid, h, hxs⟩
    exact ⟨c, mid, mid, h, ⟨hc, rfl, rfl⟩, hxs⟩

/-- A string is a quote and what `afterQuote` reads. -/
theorem lexes_string_iff {s rest : List Char} {str : String} {xs : List Lexeme} :
    Lexes s (.string str :: xs) rest ↔
      ∃ after mid, (token : DocumentReader Char) s = .ok ('"', after) ∧
        (afterQuote : DocumentReader String) after = .ok (str, mid) ∧ Lexes mid xs rest := by
  rw [lexes_cons_iff]
  constructor
  · rintro ⟨_, after, mid, h, ⟨rfl, hstr⟩, hxs⟩
    exact ⟨after, mid, h, hstr, hxs⟩
  · rintro ⟨after, mid, h, hstr, hxs⟩
    exact ⟨'"', after, mid, h, ⟨rfl, hstr⟩, hxs⟩

/-- Null is the letter n and the other three. -/
theorem lexes_null_iff {s rest : List Char} {xs : List Lexeme} :
    Lexes s (.null :: xs) rest ↔
      ∃ after mid, (token : DocumentReader Char) s = .ok ('n', after) ∧
        (word ['u', 'l', 'l'] : DocumentReader Unit) after = .ok ((), mid) ∧ Lexes mid xs rest := by
  rw [lexes_cons_iff]
  constructor
  · rintro ⟨_, after, mid, h, ⟨rfl, hnull⟩, hxs⟩
    exact ⟨after, mid, h, hnull, hxs⟩
  · rintro ⟨after, mid, h, hnull, hxs⟩
    exact ⟨'n', after, mid, h, ⟨rfl, hnull⟩, hxs⟩

/-- Where the first character is known, the first lexeme begins with it. -/
theorem Lexes.of_token {c : Char} {s after rest : List Char} {x : Lexeme} {xs : List Lexeme}
    (hlex : Lexes s (x :: xs) rest) (h : (token : DocumentReader Char) s = .ok (c, after)) :
    ∃ mid, x.Ends c after mid ∧ Lexes mid xs rest := by
  obtain ⟨c', after', mid, h', hends, hxs⟩ := lexes_cons_iff.1 hlex
  obtain ⟨rfl, rfl⟩ := Prod.mk.inj (Except.ok.inj (h.symm.trans h'))
  exact ⟨mid, hends, hxs⟩

/-- Where a lexeme stands, a first character can be read. -/
theorem Lexes.exists_token {s rest : List Char} {xs : List Lexeme} (h : Lexes s xs rest)
    (hne : xs ≠ []) : ∃ c after, (token : DocumentReader Char) s = .ok (c, after) := by
  obtain ⟨x, xs, rfl⟩ := List.exists_cons_of_ne_nil hne
  obtain ⟨c, after, -, htoken, -, -⟩ := lexes_cons_iff.1 h
  exact ⟨c, after, htoken⟩

/-- A reader that wants one mark succeeds exactly where the mark is the next character. -/
theorem expect_eq_ok_iff {c : Char} {s rest : List Char} :
    expect c s = .ok ((), rest) ↔ (token : DocumentReader Char) s = .ok (c, rest) := by
  rw [expect, bind_eq_ok_iff]
  constructor
  · rintro ⟨d, mid, hd, h⟩
    split at h
    · next hdc =>
        obtain ⟨-, rfl⟩ := pure_eq_ok_iff.1 h
        exact hdc ▸ hd
    · cases h
  · intro h
    exact ⟨c, rest, h, by rw [if_pos rfl]; rfl⟩

/-! ## 4. Choices -/

/-! The names are finite tables, and no two members of a table share one. So looking a name up and being
the name of what is found are the same. -/

theorem Kind.ofName?_eq_some_iff {name : String} {kind : Kind} :
    Kind.ofName? name = some kind ↔ name = kind.name := by
  unfold Kind.ofName?
  split <;> cases kind <;> simp_all [Kind.name]

theorem styleOfName?_eq_some_iff {name : String} {style : BooleanStyle} :
    BooleanStyle.ofName? name = some style ↔ name = style.name := by
  unfold BooleanStyle.ofName?
  split <;> cases style <;> simp_all [BooleanStyle.name]

theorem Member.ofName?_eq_some_iff {name : String} {m : Member} :
    Member.ofName? name = some m ↔ name = m.name := by
  unfold Member.ofName?
  split <;> cases m <;> simp_all [Member.name]

/-- Looking a name up takes no text. -/
theorem named_eq_ok_iff {α : Type} {ofName? : String → Option α} {unknown : String → Misfit}
    {name : String} {a : α} {s rest : List Char} :
    named ofName? unknown name s = .ok (a, rest) ↔ ofName? name = some a ∧ s = rest := by
  rw [named]
  cases ofName? name <;> simp

section

variable {c : Char} {s after rest : List Char}

/-- A choice is read exactly where one of its two shapes stands, for a name that the table knows. The
first character has been taken already; the lexemes start before it. -/
theorem choice_eq_ok_iff {α : Type} {ofName? : String → Option α} {unknown : String → Misfit}
    (hc : (token : DocumentReader Char) s = .ok (c, after)) {a : α} :
    choice ofName? unknown c after = .ok (a, rest) ↔
      ∃ name xs, ofName? name = some a ∧ Naming name xs ∧ Lexes s xs rest := by
  constructor
  · intro h
    unfold choice at h
    split at h
    · -- a quote: the name stands alone
      obtain ⟨name, mid, hname, h⟩ := bind_eq_ok_iff.1 h
      obtain ⟨ha, rfl⟩ := named_eq_ok_iff.1 h
      exact ⟨name, _, ha, .bare, lexes_string_iff.2 ⟨_, _, hc, hname, .nil _⟩⟩
    · -- a brace: one lexeme for each reader on the way, put together from the last one backwards
      obtain ⟨_, s1, hquote, h1⟩ := bind_eq_ok_iff.1 h
      obtain ⟨name, s2, hname, h2⟩ := bind_eq_ok_iff.1 h1
      obtain ⟨a', s3, hnamed, h3⟩ := bind_eq_ok_iff.1 h2
      obtain ⟨ha, rfl⟩ := named_eq_ok_iff.1 hnamed
      obtain ⟨_, s4, hcolon, h4⟩ := bind_eq_ok_iff.1 h3
      obtain ⟨d, s5, hd, h5⟩ := bind_eq_ok_iff.1 h4
      split at h5
      · next hdn =>
          subst hdn
          obtain ⟨_, s6, hnull, h6⟩ := bind_eq_ok_iff.1 h5
          obtain ⟨_, s7, hclose, h7⟩ := bind_eq_ok_iff.1 h6
          obtain ⟨rfl, rfl⟩ := pure_eq_ok_iff.1 h7
          have hend : Lexes s6 [.mark '}'] s7 :=
            (lexes_mark_iff (by decide)).2 ⟨_, expect_eq_ok_iff.1 hclose, .nil _⟩
          have hvalue : Lexes s2 [.mark ':', .null, .mark '}'] s7 :=
            (lexes_mark_iff (by decide)).2
              ⟨_, expect_eq_ok_iff.1 hcolon, lexes_null_iff.2 ⟨_, _, hd, hnull, hend⟩⟩
          have hstring := lexes_string_iff.2 ⟨_, _, expect_eq_ok_iff.1 hquote, hname, hvalue⟩
          exact ⟨name, _, ha, .member, (lexes_mark_iff (by decide)).2 ⟨_, hc, hstring⟩⟩
      · exact absurd h5 wrongValue_ne_ok
    · cases h
  · rintro ⟨name, xs, ha, hxs, hlex⟩
    cases hxs with
    | bare =>
        obtain ⟨_, ⟨rfl, hname⟩, hrest⟩ := hlex.of_token hc
        obtain rfl := lexes_nil_iff.1 hrest
        exact bind_eq_ok_iff.2 ⟨name, _, hname, named_eq_ok_iff.2 ⟨ha, rfl⟩⟩
    | member =>
        obtain ⟨_, ⟨-, rfl, rfl⟩, h1⟩ := hlex.of_token hc
        obtain ⟨s1, s2, hquote, hname, h2⟩ := lexes_string_iff.1 h1
        obtain ⟨s3, hcolon, h3⟩ := (lexes_mark_iff (by decide)).1 h2
        obtain ⟨s4, s5, hn, hnull, h4⟩ := lexes_null_iff.1 h3
        obtain ⟨s6, hclose, h5⟩ := (lexes_mark_iff (by decide)).1 h4
        obtain rfl := lexes_nil_iff.1 h5
        -- the same way forwards: each lexeme lets its reader succeed
        refine (bind_of_ok (expect_eq_ok_iff.2 hquote)).trans ?_
        refine (bind_of_ok hname).trans ?_
        refine (bind_of_ok (named_eq_ok_iff.2 ⟨ha, rfl⟩)).trans ?_
        refine (bind_of_ok (expect_eq_ok_iff.2 hcolon)).trans ?_
        refine (bind_of_ok hn).trans ?_
        rw [if_pos rfl]
        refine (bind_of_ok hnull).trans ?_
        exact bind_of_ok (expect_eq_ok_iff.2 hclose)

/-- A kind is a choice among the names of kinds. -/
theorem kindFrom_eq_ok_iff (hc : (token : DocumentReader Char) s = .ok (c, after)) {kind : Kind} :
    kindFrom c after = .ok (kind, rest) ↔ ∃ xs, Naming kind.name xs ∧ Lexes s xs rest := by
  simp only [kindFrom, choice_eq_ok_iff hc, Kind.ofName?_eq_some_iff]
  simp

/-- A style is null or a choice among the names of styles. -/
theorem styleFrom_eq_ok_iff (hc : (token : DocumentReader Char) s = .ok (c, after))
    {style : Option BooleanStyle} :
    styleFrom c after = .ok (style, rest) ↔ ∃ xs, StyleForm style xs ∧ Lexes s xs rest := by
  unfold styleFrom
  constructor
  · intro h
    split at h
    · next hcn =>
        subst hcn
        obtain ⟨_, mid, hnull, h1⟩ := bind_eq_ok_iff.1 h
        obtain ⟨rfl, rfl⟩ := pure_eq_ok_iff.1 h1
        exact ⟨_, .null, lexes_null_iff.2 ⟨_, _, hc, hnull, .nil _⟩⟩
    · obtain ⟨style, hstyle, rfl⟩ := map_eq_ok_iff.1 h
      obtain ⟨name, xs, hofName, hxs, hlex⟩ := (choice_eq_ok_iff hc).1 hstyle
      obtain rfl := styleOfName?_eq_some_iff.1 hofName
      exact ⟨xs, .named hxs, hlex⟩
  · rintro ⟨xs, hxs, hlex⟩
    cases hxs with
    | null =>
        obtain ⟨_, ⟨rfl, hnull⟩, hrest⟩ := hlex.of_token hc
        obtain rfl := lexes_nil_iff.1 hrest
        rw [if_pos rfl]
        exact bind_of_ok hnull
    | @named style xs hxs =>
        -- a name begins with a quote or a brace, so it is not taken for null
        have hcn : c ≠ 'n' := by
          rintro rfl
          cases hxs with
          | bare =>
              obtain ⟨_, ⟨hquote, -⟩, -⟩ := hlex.of_token hc
              exact absurd hquote (by decide)
          | member =>
              obtain ⟨_, ⟨-, hbrace, -⟩, -⟩ := hlex.of_token hc
              exact absurd hbrace (by decide)
        have hchoice : choice BooleanStyle.ofName? .unknownStyle c after = .ok (style, rest) :=
          (choice_eq_ok_iff hc).2 ⟨style.name, xs, styleOfName?_eq_some_iff.2 rfl, hxs, hlex⟩
        rw [if_neg hcn]
        exact map_eq_ok_iff.2 ⟨style, hchoice, rfl⟩

end

/-! ## 5. Objects -/

/-! The loop over the members is told whether it stands at the first one, for the others have a comma in
front. `separator` keeps this difference out of everything that follows. -/

/-- What stands before the name of a member. -/
def separator (isFirst : Bool) : List Lexeme :=
  if isFirst then [] else [.mark ',']

/-- The loop ends exactly at a closing brace, at the first member as at any other. -/
theorem nextMember_eq_ok_false_iff {isFirst : Bool} {s rest : List Char} :
    nextMember isFirst s = .ok (false, rest) ↔
      (token : DocumentReader Char) s = .ok ('}', rest) := by
  rw [nextMember, bind_eq_ok_iff]
  constructor
  · rintro ⟨c, mid, hc, h⟩
    split at h
    · next hbrace =>
        obtain ⟨-, rfl⟩ := pure_eq_ok_iff.1 h
        exact hbrace ▸ hc
    · split at h
      -- the other ways answer that there is a member, or a problem
      · split at h <;> cases h
      · split at h
        · obtain ⟨_, _, -, hpure⟩ := bind_eq_ok_iff.1 h
          cases hpure
        · cases h
  · intro h
    exact ⟨'}', rest, h, rfl⟩

/-- It goes on exactly at the quote of a name, behind the separator. A comma with anything else behind it
is a problem, so it never stands in front of a closing brace. -/
theorem nextMember_eq_ok_true_iff {isFirst : Bool} {s rest : List Char} :
    nextMember isFirst s = .ok (true, rest) ↔
      ∃ mid, Lexes s (separator isFirst) mid ∧
        (token : DocumentReader Char) mid = .ok ('"', rest) := by
  rw [nextMember, bind_eq_ok_iff]
  constructor
  · rintro ⟨c, mid, hc, h⟩
    split at h
    · cases h
    · split at h
      · next hfirst =>
          subst hfirst
          split at h
          · next hquote =>
              obtain ⟨-, rfl⟩ := pure_eq_ok_iff.1 h
              exact ⟨s, .nil s, hquote ▸ hc⟩
          · cases h
      · next hfirst =>
          split at h
          · next hcomma =>
              obtain ⟨_, mid', hquote, hpure⟩ := bind_eq_ok_iff.1 h
              obtain ⟨-, rfl⟩ := pure_eq_ok_iff.1 hpure
              refine ⟨mid, ?_, expect_eq_ok_iff.1 hquote⟩
              rw [separator, if_neg hfirst]
              exact (lexes_mark_iff (by decide)).2 ⟨_, hcomma ▸ hc, .nil _⟩
          · cases h
  · rintro ⟨mid, hsep, hquote⟩
    cases isFirst with
    | true =>
        obtain rfl := lexes_nil_iff.1 hsep
        exact ⟨'"', rest, hquote, rfl⟩
    | false =>
        obtain ⟨after, hcomma, hnil⟩ := (lexes_mark_iff (by decide)).1 hsep
        obtain rfl := lexes_nil_iff.1 hnil
        exact ⟨',', after, hcomma, bind_of_ok (expect_eq_ok_iff.2 hquote)⟩

/-- The name of a member, in any spelling. -/
theorem memberName_eq_ok_iff {m : Member} {s rest : List Char} :
    memberName s = .ok (m, rest) ↔
      (afterQuote : DocumentReader String) s = .ok (m.name, rest) := by
  rw [memberName, bind_eq_ok_iff]
  constructor
  · rintro ⟨name, mid, hquote, hnamed⟩
    obtain ⟨hm, rfl⟩ := named_eq_ok_iff.1 hnamed
    exact Member.ofName?_eq_some_iff.1 hm ▸ hquote
  · intro h
    exact ⟨m.name, rest, h, named_eq_ok_iff.2 ⟨Member.ofName?_eq_some_iff.2 rfl, rfl⟩⟩

/-- The name of a member, known or not, behind what stands before it. -/
theorem lexes_name_iff {isFirst : Bool} {x : String} {s rest : List Char} :
    Lexes s (separator isFirst ++ [.string x]) rest ↔
      ∃ mid, nextMember isFirst s = .ok (true, mid) ∧
        (afterQuote : DocumentReader String) mid = .ok (x, rest) := by
  constructor
  · intro h
    obtain ⟨s1, hsep, hname⟩ := lexes_append_iff.1 h
    obtain ⟨s2, s3, hquote, hx, hnil⟩ := lexes_string_iff.1 hname
    obtain rfl := lexes_nil_iff.1 hnil
    exact ⟨s2, nextMember_eq_ok_true_iff.2 ⟨s1, hsep, hquote⟩, hx⟩
  · intro h
    obtain ⟨mid, hnext, hx⟩ := h
    obtain ⟨s1, hsep, hquote⟩ := nextMember_eq_ok_true_iff.1 hnext
    exact hsep.append (lexes_string_iff.2 ⟨mid, rest, hquote, hx, .nil rest⟩)

/-- The beginning of a member, up to the colon. -/
def Member.opening (m : Member) (isFirst : Bool) : List Lexeme :=
  separator isFirst ++ [.string m.name, .mark ':']

/-- The three readers of the beginning of a member, as one list of lexemes. -/
theorem lexes_opening_iff {isFirst : Bool} {m : Member} {s rest : List Char} :
    Lexes s (m.opening isFirst) rest ↔
      ∃ s1 s2, nextMember isFirst s = .ok (true, s1) ∧ memberName s1 = .ok (m, s2) ∧
        expect ':' s2 = .ok ((), rest) := by
  have hsplit : m.opening isFirst = (separator isFirst ++ [.string m.name]) ++ [.mark ':'] := by
    simp [Member.opening]
  rw [hsplit, lexes_append_iff]
  constructor
  · intro h
    obtain ⟨s2, hname, hend⟩ := h
    obtain ⟨s1, hnext, hquote⟩ := lexes_name_iff.1 hname
    obtain ⟨s3, hcolon, hnil⟩ := (lexes_mark_iff (by decide)).1 hend
    obtain rfl := lexes_nil_iff.1 hnil
    exact ⟨s1, s2, hnext, memberName_eq_ok_iff.2 hquote, expect_eq_ok_iff.2 hcolon⟩
  · intro h
    obtain ⟨s1, s2, hnext, hname, hcolon⟩ := h
    have hend : Lexes s2 [.mark ':'] rest :=
      (lexes_mark_iff (by decide)).2 ⟨_, expect_eq_ok_iff.1 hcolon, .nil _⟩
    exact ⟨s2, lexes_name_iff.2 ⟨s1, hnext, memberName_eq_ok_iff.1 hname⟩, hend⟩

/-! The loop is compared with `Completes` in both directions. From the loop to the lexemes the induction is
on the loop; from the lexemes to the loop it is on the relation, and one lemma for each member says that
the loop takes it and goes on. -/

/-- The ways to complete an object in which some members have been given. -/
inductive Completes : Bool → Given → Dialect → List Lexeme → Prop
  /-- The kind is there, so the object may end; a style that was not given is none. -/
  | close {isFirst : Bool} {kind : Kind} {style : Option (Option BooleanStyle)} :
      Completes isFirst ⟨some kind, style⟩ ⟨kind, style.join⟩ [.mark '}']
  /-- The kind is given next. -/
  | kind {isFirst : Bool} {kind : Kind} {style : Option (Option BooleanStyle)} {d : Dialect}
      {ks xs : List Lexeme} :
      Naming kind.name ks → Completes false ⟨some kind, style⟩ d xs →
      Completes isFirst ⟨none, style⟩ d (Member.kind.opening isFirst ++ ks ++ xs)
  /-- The style is given next. -/
  | style {isFirst : Bool} {kind : Option Kind} {style : Option BooleanStyle} {d : Dialect}
      {ss xs : List Lexeme} :
      StyleForm style ss → Completes false ⟨kind, some style⟩ d xs →
      Completes isFirst ⟨kind, none⟩ d (Member.booleanLiterals.opening isFirst ++ ss ++ xs)

/-- Whatever the loop reads completes what has been given so far. -/
theorem exists_completes {isFirst : Bool} {g : Given} {d : Dialect} : ∀ {s rest : List Char},
    members isFirst g s = .ok (d, rest) → ∃ xs, Completes isFirst g d xs ∧ Lexes s xs rest := by
  -- along the loop: each member given closes one of the two that are open, so the recursion goes on
  -- with what is given then, and the lexemes of the rest come from there
  induction isFirst, g using members.induct with
  | case1 isFirst g ihkind ihstyle =>
      intro s rest h
      obtain ⟨kind?, style?⟩ := g
      rw [members] at h
      obtain ⟨more, s1, hmore, h1⟩ := bind_eq_ok_iff.1 h
      cases more with
      | false =>
          -- an object without a kind is a problem, whatever else it has
          cases kind? with
          | none => exact absurd h1 throw_ne_ok
          | some kind =>
              obtain ⟨rfl, rfl⟩ := pure_eq_ok_iff.1 h1
              have hclose := nextMember_eq_ok_false_iff.1 hmore
              exact ⟨_, .close, (lexes_mark_iff (by decide)).2 ⟨_, hclose, .nil _⟩⟩
      | true =>
          obtain ⟨m, s2, hm, h2⟩ := bind_eq_ok_iff.1 h1
          cases m with
          | kind =>
              dsimp only at h2
              split at h2
              · next hopen =>
                  subst hopen
                  obtain ⟨_, s3, hcolon, h3⟩ := bind_eq_ok_iff.1 h2
                  obtain ⟨c, s4, hc, h4⟩ := bind_eq_ok_iff.1 h3
                  obtain ⟨kind, s5, hkind, h5⟩ := bind_eq_ok_iff.1 h4
                  obtain ⟨ks, hks, hlex⟩ := (kindFrom_eq_ok_iff hc).1 hkind
                  obtain ⟨xs, hxs, hlex'⟩ := ihkind rfl kind h5
                  have hopening : Lexes s (Member.kind.opening isFirst) s3 :=
                    lexes_opening_iff.2 ⟨s1, s2, hmore, hm, hcolon⟩
                  exact ⟨_, .kind hks hxs, (hopening.append hlex).append hlex'⟩
              · -- a second kind is a problem
                exact absurd h2 throw_ne_ok
          | booleanLiterals =>
              dsimp only at h2
              split at h2
              · next hopen =>
                  subst hopen
                  obtain ⟨_, s3, hcolon, h3⟩ := bind_eq_ok_iff.1 h2
                  obtain ⟨c, s4, hc, h4⟩ := bind_eq_ok_iff.1 h3
                  obtain ⟨style, s5, hstyle, h5⟩ := bind_eq_ok_iff.1 h4
                  obtain ⟨ss, hss, hlex⟩ := (styleFrom_eq_ok_iff hc).1 hstyle
                  obtain ⟨xs, hxs, hlex'⟩ := ihstyle rfl style h5
                  have hopening : Lexes s (Member.booleanLiterals.opening isFirst) s3 :=
                    lexes_opening_iff.2 ⟨s1, s2, hmore, hm, hcolon⟩
                  exact ⟨_, .style hss hxs, (hopening.append hlex).append hlex'⟩
              · exact absurd h2 throw_ne_ok

/-- Behind the beginning of a kind not given yet, the kind is read, and the loop goes on. -/
theorem members_of_opening {isFirst : Bool} {style : Option (Option BooleanStyle)} {s rest : List Char}
    (hlex : Lexes s (Member.kind.opening isFirst) rest) :
    members isFirst ⟨none, style⟩ s =
      (do let kind ← kindFrom (← token); members false ⟨some kind, style⟩ : DocumentReader Dialect)
        rest := by
  rw [members]
  obtain ⟨s1, s2, hmore, hm, hcolon⟩ := lexes_opening_iff.1 hlex
  exact (bind_of_ok hmore).trans ((bind_of_ok hm).trans (bind_of_ok hcolon))

/-- A kind not given yet is read, and the loop goes on. -/
theorem members_of_kind {isFirst : Bool} {style : Option (Option BooleanStyle)} {kind : Kind}
    {ks : List Lexeme} (hks : Naming kind.name ks) {s rest : List Char}
    (hlex : Lexes s (Member.kind.opening isFirst ++ ks) rest) :
    members isFirst ⟨none, style⟩ s = members false ⟨some kind, style⟩ rest := by
  obtain ⟨mid, hopening, hvalue⟩ := lexes_append_iff.1 hlex
  obtain ⟨c, after, hc⟩ := hvalue.exists_token hks.ne_nil
  rw [members_of_opening hopening]
  refine (bind_of_ok hc).trans ?_
  exact bind_of_ok ((kindFrom_eq_ok_iff hc).2 ⟨ks, hks, hvalue⟩)

/-- A style not given yet is read, and the loop goes on. -/
theorem members_of_style {isFirst : Bool} {kind : Option Kind} {style : Option BooleanStyle}
    {ss : List Lexeme} (hss : StyleForm style ss) {s rest : List Char}
    (hlex : Lexes s (Member.booleanLiterals.opening isFirst ++ ss) rest) :
    members isFirst ⟨kind, none⟩ s = members false ⟨kind, some style⟩ rest := by
  rw [members]
  obtain ⟨s3, hopening, hvalue⟩ := lexes_append_iff.1 hlex
  obtain ⟨s1, s2, hmore, hm, hcolon⟩ := lexes_opening_iff.1 hopening
  obtain ⟨c, s4, hc⟩ := hvalue.exists_token hss.ne_nil
  refine (bind_of_ok hmore).trans ((bind_of_ok hm).trans ?_)
  refine (bind_of_ok hcolon).trans ((bind_of_ok hc).trans ?_)
  exact bind_of_ok ((styleFrom_eq_ok_iff hc).2 ⟨ss, hss, hvalue⟩)

/-- And whatever completes it is read by the loop. -/
theorem members_of_completes {isFirst : Bool} {g : Given} {d : Dialect} {xs : List Lexeme}
    (h : Completes isFirst g d xs) {s rest : List Char} (hlex : Lexes s xs rest) :
    members isFirst g s = .ok (d, rest) := by
  -- along the ways to complete: each constructor is one turn of the loop
  induction h generalizing s with
  | close =>
      rw [members]
      obtain ⟨mid, hclose, hnil⟩ := (lexes_mark_iff (by decide)).1 hlex
      obtain rfl := lexes_nil_iff.1 hnil
      exact bind_of_ok (nextMember_eq_ok_false_iff.2 hclose)
  | kind hks _ ih =>
      obtain ⟨mid, hmember, hlex'⟩ := lexes_append_iff.1 hlex
      rw [members_of_kind hks hmember]
      exact ih hlex'
  | style hss _ ih =>
      obtain ⟨mid, hmember, hlex'⟩ := lexes_append_iff.1 hlex
      rw [members_of_style hss hmember]
      exact ih hlex'

/-- Where nothing has been given yet, an object is completed to one of the shapes of objects. -/
theorem completes_iff {d : Dialect} {xs : List Lexeme} :
    Completes true {} d xs ↔ Describes d (.mark '{' :: xs) := by
  constructor
  · intro h
    -- with nothing given an object cannot be closed, nor with a style only; with both nothing else fits
    cases h with
    | kind hks h1 =>
        cases h1 with
        | close => exact .object hks
        | style hss h2 =>
            cases h2 with
            | close =>
                have := Describes.kindFirst hks hss
                simpa [Member.opening, separator, Member.name] using this
    | style hss h1 =>
        cases h1 with
        | kind hks h2 =>
            cases h2 with
            | close =>
                have := Describes.styleFirst hks hss
                simpa [Member.opening, separator, Member.name] using this
  · intro h
    cases h with
    | object hks => exact .kind hks .close
    | @kindFirst kind style ks ss hks hss =>
        have hstyle : Completes false ⟨some kind, none⟩ ⟨kind, style⟩ _ := .style hss .close
        have hkind : Completes true {} ⟨kind, style⟩ _ := .kind hks hstyle
        simpa [Member.opening, separator, Member.name] using hkind
    | @styleFirst kind style ks ss hks hss =>
        have hkind : Completes false ⟨none, some style⟩ ⟨kind, style⟩ _ := .kind hks .close
        have hstyle : Completes true {} ⟨kind, style⟩ _ := .style hss hkind
        simpa [Member.opening, separator, Member.name] using hstyle

/-- An object is read exactly where one of the shapes of objects stands, less its opening brace. -/
theorem members_eq_ok_iff {d : Dialect} {s rest : List Char} :
    members true {} s = .ok (d, rest) ↔ ∃ xs, Describes d (.mark '{' :: xs) ∧ Lexes s xs rest := by
  constructor
  · intro h
    obtain ⟨xs, hxs, hlex⟩ := exists_completes h
    exact ⟨xs, completes_iff.1 hxs, hlex⟩
  · rintro ⟨xs, hxs, hlex⟩
    exact members_of_completes (completes_iff.2 hxs) hlex

/-! ## 6. Arrays -/

/-! In an array the reader looks for the closing bracket before it reads an element. It is no element's
first character, so a text that lexes to a shape is never taken for an array that is closed too soon. -/

/-- No choice begins with a closing bracket. -/
theorem Naming.token_ne_bracket {name : String} {xs : List Lexeme} (h : Naming name xs) {c : Char}
    {s after rest : List Char} (hlex : Lexes s xs rest)
    (hc : (token : DocumentReader Char) s = .ok (c, after)) : c ≠ ']' := by
  rintro rfl
  cases h with
  | bare =>
      obtain ⟨_, ⟨hquote, -⟩, -⟩ := hlex.of_token hc
      exact absurd hquote (by decide)
  | member =>
      obtain ⟨_, ⟨-, hbrace, -⟩, -⟩ := hlex.of_token hc
      exact absurd hbrace (by decide)

/-- Neither does null. -/
theorem StyleForm.token_ne_bracket {style : Option BooleanStyle} {xs : List Lexeme}
    (h : StyleForm style xs) {c : Char} {s after rest : List Char} (hlex : Lexes s xs rest)
    (hc : (token : DocumentReader Char) s = .ok (c, after)) : c ≠ ']' := by
  cases h with
  | null =>
      obtain ⟨_, ⟨rfl, -⟩, -⟩ := hlex.of_token hc
      decide
  | named h => exact h.token_ne_bracket hlex hc

/-- An array is read exactly where one of its two shapes stands, less its opening bracket. -/
theorem elements_eq_ok_iff {d : Dialect} {s rest : List Char} :
    elements s = .ok (d, rest) ↔ ∃ xs, Describes d (.mark '[' :: xs) ∧ Lexes s xs rest := by
  unfold elements
  dsimp only
  constructor
  · intro h
    obtain ⟨c, s1, hc, h1⟩ := bind_eq_ok_iff.1 h
    split at h1
    · -- an array without elements
      obtain ⟨_, _, hthrow, -⟩ := bind_eq_ok_iff.1 h1
      exact absurd hthrow throw_ne_ok
    · obtain ⟨kind, s2, hkind, h2⟩ := bind_eq_ok_iff.1 h1
      obtain ⟨ks, hks, hlex⟩ := (kindFrom_eq_ok_iff hc).1 hkind
      obtain ⟨c', s3, hc', h3⟩ := bind_eq_ok_iff.1 h2
      split at h3
      · next hclose =>
          subst hclose
          cases h3
          have hend : Lexes s2 [.mark ']'] rest :=
            (lexes_mark_iff (by decide)).2 ⟨_, hc', .nil _⟩
          exact ⟨_, .single hks, hlex.append hend⟩
      · split at h3
        · next hcomma =>
            subst hcomma
            obtain ⟨c'', s4, hc'', h4⟩ := bind_eq_ok_iff.1 h3
            split at h4
            · -- a comma and no element behind it
              obtain ⟨_, _, hthrow, -⟩ := bind_eq_ok_iff.1 h4
              exact absurd hthrow throw_ne_ok
            · obtain ⟨style, s5, hstyle, h5⟩ := bind_eq_ok_iff.1 h4
              obtain ⟨ss, hss, hlex'⟩ := (styleFrom_eq_ok_iff hc'').1 hstyle
              obtain ⟨_, s6, hclose, h6⟩ := bind_eq_ok_iff.1 h5
              cases h6
              have hcomma : Lexes s2 [.mark ','] s3 :=
                (lexes_mark_iff (by decide)).2 ⟨_, hc', .nil _⟩
              have hend : Lexes s5 [.mark ']'] rest :=
                (lexes_mark_iff (by decide)).2 ⟨_, expect_eq_ok_iff.1 hclose, .nil _⟩
              exact ⟨_, .pair hks hss, ((hlex.append hcomma).append hlex').append hend⟩
        · exact absurd h3 throw_ne_ok
  · rintro ⟨xs, hxs, hlex⟩
    cases hxs with
    | @single kind ks hks =>
        -- the reader looks at the first character of the kind before it reads the kind
        obtain ⟨s2, hkind, h1⟩ := lexes_append_iff.1 hlex
        obtain ⟨s3, hclose, h2⟩ := (lexes_mark_iff (by decide)).1 h1
        obtain rfl := lexes_nil_iff.1 h2
        obtain ⟨c, s1, hc⟩ := hkind.exists_token hks.ne_nil
        refine (bind_of_ok hc).trans ?_
        rw [if_neg (hks.token_ne_bracket hkind hc)]
        refine (bind_of_ok ((kindFrom_eq_ok_iff hc).2 ⟨ks, hks, hkind⟩)).trans ?_
        refine (bind_of_ok hclose).trans ?_
        rw [if_pos rfl]
        rfl
    | @pair kind style ks ss hks hss =>
        -- cut at the three marks, from the back, as the shape is put together
        obtain ⟨s5, h1, h2⟩ := lexes_append_iff.1 hlex
        obtain ⟨s4, h3, hstyle⟩ := lexes_append_iff.1 h1
        obtain ⟨s2, hkind, h4⟩ := lexes_append_iff.1 h3
        obtain ⟨s3, hcomma, h5⟩ := (lexes_mark_iff (by decide)).1 h4
        obtain rfl := lexes_nil_iff.1 h5
        obtain ⟨s6, hclose, h6⟩ := (lexes_mark_iff (by decide)).1 h2
        obtain rfl := lexes_nil_iff.1 h6
        obtain ⟨c, s1, hc⟩ := hkind.exists_token hks.ne_nil
        obtain ⟨c', s1', hc'⟩ := hstyle.exists_token hss.ne_nil
        refine (bind_of_ok hc).trans ?_
        rw [if_neg (hks.token_ne_bracket hkind hc)]
        refine (bind_of_ok ((kindFrom_eq_ok_iff hc).2 ⟨ks, hks, hkind⟩)).trans ?_
        refine (bind_of_ok hcomma).trans ?_
        rw [if_neg (by decide), if_pos rfl]
        refine (bind_of_ok hc').trans ?_
        rw [if_neg (hss.token_ne_bracket hstyle hc')]
        refine (bind_of_ok ((styleFrom_eq_ok_iff hc').2 ⟨ss, hss, hstyle⟩)).trans ?_
        exact bind_of_ok (expect_eq_ok_iff.2 hclose)

/-! ## 7. Documents -/

/-- The first mark decides between an object and an array; nothing else describes a dialect. -/
theorem value_eq_ok_iff {d : Dialect} {s rest : List Char} :
    value s = .ok (d, rest) ↔ ∃ xs, Describes d xs ∧ Lexes s xs rest := by
  rw [value, bind_eq_ok_iff]
  constructor
  · rintro ⟨c, mid, hc, h⟩
    split at h
    · obtain ⟨xs, hxs, hlex⟩ := members_eq_ok_iff.1 h
      exact ⟨_, hxs, (lexes_mark_iff (by decide)).2 ⟨mid, hc, hlex⟩⟩
    · obtain ⟨xs, hxs, hlex⟩ := elements_eq_ok_iff.1 h
      exact ⟨_, hxs, (lexes_mark_iff (by decide)).2 ⟨mid, hc, hlex⟩⟩
    · exact absurd h wrongValue_ne_ok
  · rintro ⟨xs, hxs, hlex⟩
    obtain ⟨opening, inner, closing, hbrackets, rfl⟩ := hxs.exists_brackets
    -- the opening bracket of the shape is what the reader decides by
    rcases mem_brackets_iff.1 hbrackets with ⟨rfl, -⟩ | ⟨rfl, -⟩
    · obtain ⟨mid, hc, hlex'⟩ := (lexes_mark_iff (by decide)).1 hlex
      exact ⟨'{', mid, hc, members_eq_ok_iff.2 ⟨_, hxs, hlex'⟩⟩
    · obtain ⟨mid, hc, hlex'⟩ := (lexes_mark_iff (by decide)).1 hlex
      exact ⟨'[', mid, hc, elements_eq_ok_iff.2 ⟨_, hxs, hlex'⟩⟩

/-- The whole text is used: what is left over may only be white space. -/
theorem readAll_value_eq_ok_iff {text : List Char} {d : Dialect} :
    readAll value text = .ok d ↔ Spells text d := by
  rw [readAll_eq_ok_iff]
  constructor
  · rintro ⟨rest, hvalue, hblank⟩
    obtain ⟨xs, hxs, hlex⟩ := value_eq_ok_iff.1 hvalue
    exact ⟨xs, rest, hxs, hlex, hblank⟩
  · rintro ⟨xs, rest, hxs, hlex, hblank⟩
    exact ⟨rest, value_eq_ok_iff.2 ⟨xs, hxs, hlex⟩, hblank⟩

/-- The outcome of a document carries the dialect of the reader unchanged. -/
theorem ofDocument_eq_ok_iff_readAll {text : String} {d : Dialect} :
    ofDocument text = .ok d ↔ readAll value text.toList = .ok d := by
  rw [ofDocument]
  cases readAll value text.toList with
  | error e => constructor <;> intro h <;> cases h
  | ok d' =>
      constructor
      · intro h
        cases h
        rfl
      · intro h
        cases h
        rfl

/-- **A document is read as a dialect exactly if it spells the dialect.** -/
theorem ofDocument_eq_ok_iff (text : String) (d : Dialect) :
    ofDocument text = .ok d ↔ Spells text.toList d := by
  rw [ofDocument_eq_ok_iff_readAll, readAll_value_eq_ok_iff]

-- an escape inside a name, and null for the style
example : ofDocument "[\"m\\u0079sql\", null]" = .ok { kind := .mysql } := by decide +kernel

end QueryTerms.Dialect
