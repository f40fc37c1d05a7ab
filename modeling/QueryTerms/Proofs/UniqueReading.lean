/-
QueryTerms.Proofs.UniqueReading — rendered text can be read in one way only.

An expression is erased to its outline: the tree of its operators, a column by its table and name, and
every other leaf by the text it renders to. Rendering sees no more of an expression than the outline,
and the text gives the outline back, and with it the number of items of a list. There is no reader
here: `Outline.eq_of_chars_append` compares two texts directly, from the left.

## How the proof goes

Five characters are reserved: the space, the parentheses, the comma and the dot. Leaves have none of
them and a column has one dot, so a leaf or a column ends where the next space, closing parenthesis or
comma stands. An operator opens with a parenthesis, which nothing else starts with. Behind it stands
an operand or the word `NOT`, and no leaf is spelled so. Hence the first differing character of two
texts lies inside leaves that differ, or in the words of two operators that differ. What follows an
outline is quantified over, which is what lets the induction go through the left operand.
-/
import QueryTerms.Proofs.TokenStream

namespace QueryTerms

/-! ## 1. Words -/

/-- The characters that operators, columns and lists are put together with. -/
def isReserved (ch : Char) : Bool :=
  ch ∈ [' ', '(', ')', ',', '.']

/-- The word has no reserved character. -/
def Unreserved (w : String) : Prop :=
  ∀ ch ∈ w.toList, isReserved ch = false

instance (w : String) : Decidable (Unreserved w) :=
  List.decidableBAll (fun ch => isReserved ch = false) w.toList

/-- Nothing follows, or something reserved does. -/
def Bounded (x : List Char) : Prop :=
  ∀ ch ∈ x.head?, isReserved ch = true

/-- A word ends where a reserved character or the end of the text stands. -/
theorem eq_of_word_append {u v : String} {x y : List Char} (hu : Unreserved u) (hv : Unreserved v)
    (hx : Bounded x) (hy : Bounded y) (h : u.toList ++ x = v.toList ++ y) : u = v ∧ x = y := by
  rcases List.append_eq_append_iff.1 h with ⟨m, hm, hxy⟩ | ⟨m, hm, hyx⟩
  · cases m with
    | nil => exact ⟨String.toList_inj.1 (by simpa using hm.symm), by simpa using hxy⟩
    | cons ch m =>
        have hfree : isReserved ch = false := hv ch (by simp [hm])
        have hbound : isReserved ch = true := hx ch (by simp [hxy])
        simp [hfree] at hbound
  · cases m with
    | nil => exact ⟨String.toList_inj.1 (by simpa using hm), by simpa using hyx.symm⟩
    | cons ch m =>
        have hfree : isReserved ch = false := hu ch (by simp [hm])
        have hbound : isReserved ch = true := hy ch (by simp [hyx])
        simp [hfree] at hbound

/-- No word starts like an operator. -/
theorem word_append_ne_paren {w : String} {x y : List Char} (hw : Unreserved w)
    (hx : x.head? ≠ some '(') : w.toList ++ x ≠ '(' :: y := by
  intro h
  cases hl : w.toList with
  | nil => simp [hl] at h; simp [h] at hx
  | cons ch m =>
      rw [hl, List.cons_append, List.cons.injEq] at h
      have := hw ch (by simp [hl])
      simp [h.1, isReserved] at this

/-! ## 2. Outlines -/

/-- What rendered text shows of an expression. -/
inductive Outline where
  | column (table name : String)
  | leaf (text : String)
  | binary (op : BooleanOperator) (left right : Outline)
  | not (operand : Outline)
  deriving DecidableEq

namespace Outline

/-- The text of an outline. -/
def chars : Outline → List Char
  | column table name => table.toList ++ '.' :: name.toList
  | leaf text => text.toList
  | binary op left right =>
    '(' :: (left.chars ++ ' ' :: (op.word.toList ++ ' ' :: (right.chars ++ [')'])))
  | not operand => '(' :: (negationWord.toList ++ ' ' :: (operand.chars ++ [')']))

/-- Tables, names and leaves are words, and no leaf is empty or reads like a negation. -/
def Legible : Outline → Prop
  | column table name => Unreserved table ∧ Unreserved name
  | leaf text => Unreserved text ∧ text ≠ "" ∧ text ≠ negationWord
  | binary _ left right => left.Legible ∧ right.Legible
  | not operand => operand.Legible

/-- Nothing follows, or what may follow an operand or an item does. -/
def Stops (x : List Char) : Prop :=
  ∀ ch ∈ x.head?, ch = ' ' ∨ ch = ')' ∨ ch = ','

/-- Where writing may stop, a word ends. -/
theorem Stops.bounded {x : List Char} (h : Stops x) : Bounded x := by
  intro ch hch
  rcases h ch hch with rfl | rfl | rfl <;> rfl

/-- A dot is no end. -/
theorem not_stops_dot (x : List Char) : ¬ Stops ('.' :: x) := by
  intro h
  have := h '.' (by simp)
  simp at this

/-- Only operators start with a parenthesis. -/
theorem leaf_append_ne_paren {text : String} {x y : List Char} (h : (leaf text).Legible)
    (hx : Stops x) : (leaf text).chars ++ x ≠ '(' :: y := by
  refine word_append_ne_paren h.1 fun hparen => ?_
  have := hx '(' (by simp [hparen])
  simp at this

theorem column_append_ne_paren {table name : String} {x y : List Char}
    (h : (column table name).Legible) : (column table name).chars ++ x ≠ '(' :: y := by
  rw [chars, List.append_assoc]
  exact word_append_ne_paren h.1 (by simp)

/-- No column reads like a word that stands in its place. -/
theorem column_append_ne_word {table name w : String} {x y : List Char}
    (h : (column table name).Legible) (hw : Unreserved w) (hy : Stops y) :
    (column table name).chars ++ x ≠ w.toList ++ y := by
  intro heq
  rw [chars, List.append_assoc, List.cons_append] at heq
  have hdot : Bounded ('.' :: (name.toList ++ x)) := by simp [Bounded, isReserved]
  obtain ⟨-, rfl⟩ := eq_of_word_append h.1 hw hdot hy.bounded heq
  exact not_stops_dot _ hy

/-- Behind the parenthesis of an operator no operand reads like the word of a negation. -/
theorem chars_append_ne_negation {a : Outline} {x y : List Char} (h : a.Legible) (hx : Stops x) :
    a.chars ++ x ≠ negationWord.toList ++ ' ' :: y := by
  have hspace : Stops (' ' :: y) := by simp [Stops]
  have hword : Unreserved negationWord := by decide
  cases a with
  | column table name => exact column_append_ne_word h hword hspace
  | leaf text =>
      intro heq
      obtain ⟨rfl, -⟩ := eq_of_word_append h.1 hword hx.bounded hspace.bounded heq
      exact h.2.2 rfl
  | binary op left right => simp [chars, negationWord]
  | not operand => simp [chars, negationWord]

/-- **A text determines the outline it starts with, and the rest of the text.** -/
theorem eq_of_chars_append : ∀ (a b : Outline) {x y : List Char}, a.Legible → b.Legible →
    Stops x → Stops y → a.chars ++ x = b.chars ++ y → a = b ∧ x = y
  | column table name, b, x, y, ha, hb, hx, hy, h => by
      cases b with
      | column table' name' =>
          simp only [chars, List.append_assoc, List.cons_append] at h
          obtain ⟨rfl, hname⟩ := eq_of_word_append ha.1 hb.1 (by simp [Bounded, isReserved])
            (by simp [Bounded, isReserved]) h
          rw [List.cons.injEq] at hname
          obtain ⟨rfl, rfl⟩ := eq_of_word_append ha.2 hb.2 hx.bounded hy.bounded hname.2
          exact ⟨rfl, rfl⟩
      | leaf text => exact absurd h (column_append_ne_word ha hb.1 hy)
      | binary op left right => exact absurd h (column_append_ne_paren ha)
      | not operand => exact absurd h (column_append_ne_paren ha)
  | leaf text, b, x, y, ha, hb, hx, hy, h => by
      cases b with
      | column table name => exact absurd h.symm (column_append_ne_word hb ha.1 hx)
      | leaf text' =>
          obtain ⟨rfl, rfl⟩ := eq_of_word_append ha.1 hb.1 hx.bounded hy.bounded h
          exact ⟨rfl, rfl⟩
      | binary op left right => exact absurd h (leaf_append_ne_paren ha hx)
      | not operand => exact absurd h (leaf_append_ne_paren ha hx)
  | binary op left right, b, x, y, ha, hb, hx, hy, h => by
      cases b with
      | column table name => exact absurd h.symm (column_append_ne_paren hb)
      | leaf text => exact absurd h.symm (leaf_append_ne_paren hb hy)
      | binary op' left' right' =>
          simp only [chars, List.append_assoc, List.cons_append, List.cons.injEq, true_and] at h
          obtain ⟨rfl, hword⟩ := eq_of_chars_append left left' ha.1 hb.1 (by simp [Stops])
            (by simp [Stops]) h
          -- the words differ in their first letters
          have hop : op = op' := by
            cases op <;> cases op' <;> simp [BooleanOperator.word] at hword ⊢
          subst hop
          simp only [List.cons.injEq, true_and, List.append_cancel_left_eq] at hword
          obtain ⟨rfl, hrest⟩ := eq_of_chars_append right right' ha.2 hb.2 (by simp [Stops])
            (by simp [Stops]) hword
          exact ⟨rfl, by simpa using hrest⟩
      | not operand =>
          simp only [chars, List.append_assoc, List.cons_append, List.cons.injEq, true_and] at h
          exact absurd h (chars_append_ne_negation ha.1 (by simp [Stops]))
  | not operand, b, x, y, ha, hb, hx, hy, h => by
      cases b with
      | column table name => exact absurd h.symm (column_append_ne_paren hb)
      | leaf text => exact absurd h.symm (leaf_append_ne_paren hb hy)
      | binary op left right =>
          simp only [chars, List.append_assoc, List.cons_append, List.cons.injEq, true_and] at h
          exact absurd h.symm (chars_append_ne_negation hb.1 (by simp [Stops]))
      | not operand' =>
          simp only [chars, List.append_assoc, List.cons_append, List.cons.injEq, true_and,
            List.append_cancel_left_eq] at h
          obtain ⟨rfl, hrest⟩ := eq_of_chars_append operand operand' ha hb (by simp [Stops])
            (by simp [Stops]) h
          exact ⟨rfl, by simpa using hrest⟩

/-- An outline is never written as nothing. -/
theorem chars_ne_nil {a : Outline} (h : a.Legible) : a.chars ≠ [] := by
  cases a with
  | leaf text => simpa [chars] using h.2.1
  | _ => simp [chars]

/-! ## 3. Lists of outlines -/

/-- The text of the items of a list; once an item stands before them, each has a separator before
it. -/
def charsOfItems : Bool → List Outline → List Char
  | _, [] => []
  | follows, a :: rest =>
    (if follows then [',', ' '] else []) ++ (a.chars ++ charsOfItems true rest)

theorem stops_charsOfItems (l : List Outline) : Stops (charsOfItems true l) := by
  cases l <;> simp [charsOfItems, Stops]

/-- A text determines the items that it lists. -/
theorem eq_of_charsOfItems (follows : Bool) : ∀ l m : List Outline, (∀ a ∈ l, a.Legible) →
    (∀ b ∈ m, b.Legible) → charsOfItems follows l = charsOfItems follows m → l = m
  | [], [], _, _, _ => rfl
  | [], b :: m, _, hm, h => by
      have := chars_ne_nil (hm b (by simp))
      simp [charsOfItems, this] at h
  | a :: l, [], hl, _, h => by
      have := chars_ne_nil (hl a (by simp))
      simp [charsOfItems, this] at h
  | a :: l, b :: m, hl, hm, h => by
      rw [charsOfItems, charsOfItems, List.append_cancel_left_eq] at h
      obtain ⟨rfl, hrest⟩ := eq_of_chars_append a b (hl a (by simp)) (hm b (by simp))
        (stops_charsOfItems l) (stops_charsOfItems m) h
      rw [eq_of_charsOfItems true l m (fun a ha => hl a (by simp [ha]))
        (fun b hb => hm b (by simp [hb])) hrest]

end Outline

/-! ## 4. Tokens as leaves -/

/-- No reserved character is a digit. -/
theorem isReserved_of_isDigit {ch : Char} (h : ch.isDigit = true) : isReserved ch = false := by
  rw [isReserved, decide_eq_false_iff_not]
  intro hmem
  have hnone : [' ', '(', ')', ',', '.'].all (fun r => !r.isDigit) = true := rfl
  have hnot := List.all_eq_true.1 hnone ch hmem
  simp [h] at hnot

/-- No character of a numeral is reserved: all are digits, but for a minus. -/
theorem unreserved_ofInt (n : Int) : Unreserved (Numeral.ofInt n) := by
  intro ch hch
  rcases Numeral.isDigit_of_mem_ofInt hch with rfl | hdigit
  · rfl
  · exact isReserved_of_isDigit hdigit

theorem ofInt_ne_negation (n : Int) : Numeral.ofInt n ≠ negationWord := by
  intro h
  have hN : 'N' ∈ (Numeral.ofInt n).toList := by rw [h]; decide
  rcases Numeral.isDigit_of_mem_ofInt hN with hdash | hdigit
  · exact absurd hdash (by decide)
  · exact absurd hdigit (by decide)

/-- Whatever its style, the spelling of a native value or of NULL is a legible leaf. -/
theorem legible_spelling (style : BooleanStyle) {t : Token} (ht : t.isValue) :
    (Outline.leaf (t.spelling style)).Legible := by
  cases t with
  | text w => simp [Token.isValue] at ht
  | boolean b => cases style <;> cases b <;> simp [Outline.Legible] <;> decide
  | integral n =>
      have hne : Numeral.ofInt n.toInt ≠ "" := by
        intro h
        exact Numeral.ofInt_ne_nil n.toInt (by simp [h])
      exact ⟨unreserved_ofInt n.toInt, hne, ofInt_ne_negation n.toInt⟩
  | null =>
      have hnull : Token.null.spelling style = "NULL" := rfl
      rw [hnull]
      exact ⟨by decide, by decide, by decide⟩

/-! ## 5. The outline of an expression -/

/-- What a renderer writes for the expression alone. -/
def Expr.text (c : Dialect) (s : Store) {d : Domain} (e : Expr d) : String :=
  ((Term.single e).serializeInto Renderer.sink s { dialect := c }).2.text

/-- The operators of an expression over its columns and the texts of all other leaves. -/
def Expr.outline (c : Dialect) (s : Store) : {d : Domain} → Expr d → Outline
  | _, .literal v => .leaf ((Expr.literal v).text c s)
  | _, .column table name => .column table name
  | _, .parameter p => .leaf ((Expr.parameter p).text c s)
  | _, .orNull p => .leaf ((Expr.orNull p).text c s)
  | _, .field f => .leaf ((Expr.field f).text c s)
  | _, .binary op left right => .binary op (left.outline c s) (right.outline c s)
  | _, .not operand => .not (operand.outline c s)

/-- Behind a stream that goes through, the next one decides. -/
theorem TokenStream.failure_append {a b : TokenStream} (h : a.failure = none) :
    (a ++ b).failure = b.failure := by
  obtain ⟨ts, failure⟩ := a
  subst h
  rfl

/-- Behind a stream that goes through, the next one is spelled on. -/
theorem TokenStream.spelled_append {a b : TokenStream} (h : a.failure = none) (style : BooleanStyle) :
    (a ++ b).spelled style = a.spelled style ++ b.spelled style := by
  obtain ⟨ts, failure⟩ := a
  subst h
  simp [spelled, String.join_append]

@[simp] theorem Token.spelling_text (style : BooleanStyle) (w : String) :
    (Token.text w).spelling style = w := by
  simp [Token.spelling, Token.plainText, Sink.write, Sink.plain]

@[simp] theorem TokenStream.toList_spelled_texts (ws : List String) (style : BooleanStyle) :
    ((texts ws).spelled style).toList = ws.flatMap String.toList := by
  simp [spelled, texts, Function.comp_def]

/-- The text of an expression is the spelling of its stream. -/
theorem Expr.text_eq_spelled (c : Dialect) (s : Store) {d : Domain} (e : Expr d) :
    e.text c s = (e.stream s).spelled c.style := by
  rw [text, Term.serializeInto_renderer, Term.stream]
  exact String.empty_append

/-- Any expression is spelled as the leaf of its own text; the outlines of columns and operations say
more. -/
theorem Expr.toList_spelled_leaf (c : Dialect) (s : Store) {d : Domain} (e : Expr d) :
    ((e.stream s).spelled c.style).toList = (Outline.leaf (e.text c s)).chars := by
  rw [text_eq_spelled]
  rfl

/-- An expression with a row in each of its fields is written to its end, as its outline reads. -/
theorem Expr.stream_of_valid (c : Dialect) (s : Store) {d : Domain} (e : Expr d)
    (h : ∀ f ∈ e.fields, f.isValid) :
    (e.stream s).failure = none
    ∧ ((e.stream s).spelled c.style).toList = (e.outline c s).chars := by
  induction e with
  | literal v => exact ⟨rfl, toList_spelled_leaf c s _⟩
  | column table name => exact ⟨rfl, by simp [Expr.stream, outline, Outline.chars]⟩
  | parameter p => exact ⟨rfl, toList_spelled_leaf c s _⟩
  | orNull p => exact ⟨rfl, toList_spelled_leaf c s _⟩
  | field f =>
      have hvalid : f.isValid = true := h f (by simp [fields])
      refine ⟨?_, toList_spelled_leaf c s _⟩
      simp [Expr.stream, Field.stream, Field.value?, Field.cell?, hvalid, Except.map, TokenStream.one]
  | binary op left right ihl ihr =>
      simp only [fields, List.forall_mem_append] at h
      obtain ⟨hleft, hltext⟩ := ihl h.1
      obtain ⟨hright, hrtext⟩ := ihr h.2
      have htexts : ∀ ws, (TokenStream.texts ws).failure = none := fun _ => rfl
      simp only [Expr.stream, TokenStream.failure_append, TokenStream.spelled_append, htexts, hleft,
        hright, String.toList_append, TokenStream.toList_spelled_texts, hltext, hrtext, true_and]
      simp [outline, Outline.chars]
  | not operand ih =>
      obtain ⟨hoperand, htext⟩ := ih h
      have htexts : ∀ ws, (TokenStream.texts ws).failure = none := fun _ => rfl
      simp only [Expr.stream, TokenStream.failure_append, TokenStream.spelled_append, htexts,
        hoperand, String.toList_append, TokenStream.toList_spelled_texts, htext, true_and]
      simp [outline, Outline.chars, negationWord]

/-- A leaf with a row in it, if it is a field, is a legible leaf. -/
theorem Expr.legible_one (c : Dialect) (s : Store) {d : Domain} {e : Expr d} {t : Token}
    (h : e.stream s = .one t) (ht : t.isValue) : (Outline.leaf (e.text c s)).Legible := by
  have htext : e.text c s = t.spelling c.style := by
    rw [text_eq_spelled, h]
    simp [TokenStream.spelled, TokenStream.one]
  rw [htext]
  exact legible_spelling c.style ht

/-- The outline of an expression is legible if its columns are named by words. -/
theorem Expr.legible_outline (c : Dialect) (s : Store) {d : Domain} (e : Expr d)
    (hnames : ∀ w ∈ e.identifiers, Unreserved w) (hvalid : ∀ f ∈ e.fields, f.isValid) :
    (e.outline c s).Legible := by
  induction e with
  | literal v => exact legible_one c s rfl (by simp)
  | column table name => exact ⟨hnames table (by simp [identifiers]), hnames name (by simp [identifiers])⟩
  | parameter p => exact legible_one c s rfl (by simp)
  | orNull p => exact legible_one c s rfl p.isValue_orNull
  | field f =>
      have hf : f.isValid = true := hvalid f (by simp [fields])
      refine legible_one c s (t := .ofNative (s.get f.slot).value) ?_ (by simp)
      simp [Expr.stream, Field.stream, Field.value?, Field.cell?, hf, Except.map]
  | binary op left right ihl ihr =>
      simp only [identifiers, fields, List.forall_mem_append] at hnames hvalid
      exact ⟨ihl hnames.1 hvalid.1, ihr hnames.2 hvalid.2⟩
  | not operand ih => exact ih hnames hvalid

/-! ## 6. Terms -/

namespace Term

/-- An expression, or a list of expressions. -/
def IsFlat {d : Domain} : Term d → Prop
  | .single _ => True
  | .list items => ∀ item ∈ items, item.isSingle

/-- Terms whose text can be read: flat, with columns named by words and a row in every field. -/
structure Readable {d : Domain} (t : Term d) : Prop where
  flat : t.IsFlat
  names : ∀ w ∈ t.exprs.flatMap Expr.identifiers, Unreserved w
  valid : ∀ f ∈ t.exprs.flatMap Expr.fields, f.isValid

/-- The items of a list are spelled one by one, with separators from the second one on. -/
theorem streamOfItems_of_valid (c : Dialect) (s : Store) {d : Domain} :
    ∀ (follows : Bool) (items : List (Term d)), (∀ item ∈ items, item.isSingle) →
      (∀ f ∈ (exprsOfAll items).flatMap Expr.fields, f.isValid) →
        (streamOfItems s follows items).failure = none
        ∧ ((streamOfItems s follows items).spelled c.style).toList
            = Outline.charsOfItems follows ((exprsOfAll items).map (Expr.outline c s))
  | _, [], _, _ => ⟨rfl, rfl⟩
  | follows, .list inner :: items, hflat, _ => by
      have := hflat (.list inner) (by simp)
      simp [isSingle] at this
  | follows, .single e :: items, hflat, hvalid => by
      rw [exprsOfAll, exprs, List.flatMap_append, List.forall_mem_append] at hvalid
      obtain ⟨hitem, htext⟩ := e.stream_of_valid c s (by simpa using hvalid.1)
      obtain ⟨hrest, hresttext⟩ := streamOfItems_of_valid c s true items
        (fun item h => hflat item (by simp [h])) hvalid.2
      have htexts : ∀ ws, (TokenStream.texts ws).failure = none := fun _ => rfl
      simp only [streamOfItems, stream, TokenStream.failure_append, TokenStream.spelled_append, htexts,
        hitem, hrest, String.toList_append, TokenStream.toList_spelled_texts, htext, hresttext,
        true_and]
      cases follows <;> simp [exprsOfAll, exprs, Outline.charsOfItems]

/-- A readable term is written to its end, as the outlines of its items read. -/
theorem Readable.stream_spelled {d : Domain} {t : Term d} (h : t.Readable) (c : Dialect) (s : Store) :
    (t.stream s).failure = none
    ∧ ((t.stream s).spelled c.style).toList
        = Outline.charsOfItems false (t.exprs.map (Expr.outline c s)) := by
  cases t with
  | single e =>
      obtain ⟨hend, htext⟩ := e.stream_of_valid c s (by simpa [exprs] using h.valid)
      simp [stream, exprs, Outline.charsOfItems, hend, htext]
  | list items =>
      rw [stream, exprs]
      exact streamOfItems_of_valid c s false items h.flat (by simpa [exprs] using h.valid)

theorem Readable.legible {d : Domain} {t : Term d} (h : t.Readable) (c : Dialect) (s : Store) :
    ∀ a ∈ t.exprs.map (Expr.outline c s), a.Legible := by
  intro a ha
  obtain ⟨e, he, rfl⟩ := List.mem_map.1 ha
  refine e.legible_outline c s (fun w hw => h.names w ?_) (fun f hf => h.valid f ?_)
  · exact List.mem_flatMap.2 ⟨e, he, hw⟩
  · exact List.mem_flatMap.2 ⟨e, he, hf⟩

/-- **Rendered text is unambiguous.** Two readable terms, of whatever domains and over whatever
stores, are written to their end in a dialect; and they are written alike if and only if they have the
same number of items, with the same outlines in the same order. -/
theorem render_eq_iff {d d' : Domain} (c : Dialect) (s s' : Store) (t : Term d) (t' : Term d')
    (ht : t.Readable) (ht' : t'.Readable) :
    ∃ text text',
      t.serializeInto Renderer.sink s { dialect := c } = (.ok (), ⟨c, text⟩)
      ∧ t'.serializeInto Renderer.sink s' { dialect := c } = (.ok (), ⟨c, text'⟩)
      ∧ (text = text'
          ↔ t.exprs.map (Expr.outline c s) = t'.exprs.map (Expr.outline c s')) := by
  obtain ⟨hend, htext⟩ := ht.stream_spelled c s
  obtain ⟨hend', htext'⟩ := ht'.stream_spelled c s'
  refine ⟨(t.stream s).spelled c.style, (t'.stream s').spelled c.style, ?_, ?_, ?_⟩
  · rw [serializeInto_renderer, TokenStream.ending, hend, String.empty_append]
  · rw [serializeInto_renderer, TokenStream.ending, hend', String.empty_append]
  · rw [← String.toList_inj, htext, htext']
    constructor
    · exact Outline.eq_of_charsOfItems false _ _ (ht.legible c s) (ht'.legible c s')
    · intro h
      rw [h]

/-- A field that holds a falsehood is spelled as the literal is, so lists that differ in that leaf alone
are written alike. -/
theorem render_eq_iff_of_field :
    let c : Dialect := { kind := .sqlite }
    let rest : List (Term .boolean) := [.single (.orNull {}), .single (.literal true)]
    let t : Term .boolean :=
      .list (.single (.binary .and (.column "users" "active") (.not (.field ⟨⟨.boolean, 0⟩, true⟩)))
        :: rest)
    let t' : Term .boolean :=
      .list (.single (.binary .and (.column "users" "active") (.not (.literal false))) :: rest)
    t.Readable ∧ t'.Readable
    ∧ ∃ text,
        t.serializeInto Renderer.sink {} { dialect := c } = (.ok (), ⟨c, text⟩)
        ∧ t'.serializeInto Renderer.sink {} { dialect := c } = (.ok (), ⟨c, text⟩) := by
  intro c rest t t'
  have hwords : ∀ w ∈ ["users", "active"], Unreserved w := by decide
  have ht : t.Readable :=
    ⟨by simp [t, rest, IsFlat, isSingle],
      by simpa [t, rest, exprs, exprsOfAll, Expr.identifiers] using hwords,
      by simp [t, rest, exprs, exprsOfAll, Expr.fields]⟩
  have ht' : t'.Readable :=
    ⟨by simp [t', rest, IsFlat, isSingle],
      by simpa [t', rest, exprs, exprsOfAll, Expr.identifiers] using hwords,
      by simp [t', rest, exprs, exprsOfAll, Expr.fields]⟩
  obtain ⟨text, text', htext, htext', hiff⟩ := render_eq_iff c {} {} t t' ht ht'
  obtain rfl : text = text' := hiff.2 rfl
  exact ⟨ht, ht', text, htext, htext'⟩

end Term

end QueryTerms
