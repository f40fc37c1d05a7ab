/-
QueryTerms.Proofs.TokenStream — every term is written through one stream of tokens.

Serializing asks a sink for nothing but to take tokens, so a term in a store has a stream: its tokens
from left to right, ended by the access failure of the first field without a row, if there is one. The
stream is made without a sink in sight. `Term.serializeInto_eq_play` says that serializing into any
sink hands over the stream, token by token; every statement about a particular sink is then a
statement about how that sink takes a list of tokens.

  §1  streams, and handing them to a sink
  §2  the stream of a term
  §3  serializing hands over the stream
  §4  what the tokens of a stream are: the native values, each once, and raw text for all else
  §5  plain text and renderers: what they write and how they end
-/
import QueryTerms.Expr
import QueryTerms.Renderer

namespace QueryTerms

/-! ## 1. Streams -/

/-- Tokens in order, and the access failure behind the last of them, if there is one. -/
@[ext] structure TokenStream where
  tokens : List Token := []
  failure : Option AccessError := none

namespace TokenStream

/-- Hands tokens to a sink in order, until one is refused; behind the last one stands the failure. -/
def playFrom {σ : Type} (k : Sink σ) (failure : Option AccessError) :
    List Token → σ → Except SerializeError Unit × σ
  | [], x =>
    match failure with
    | none => (.ok (), x)
    | some e => (.error (.access e), x)
  | t :: rest, x =>
    match k.write t x with
    | (true, x) => playFrom k failure rest x
    | (false, x) => (.error .sinkFailed, x)

/-- Hands a stream to a sink. -/
def play {σ : Type} (k : Sink σ) (a : TokenStream) (x : σ) : Except SerializeError Unit × σ :=
  playFrom k a.failure a.tokens x

/-- One stream behind another; behind a failure nothing comes any more. -/
def append (a b : TokenStream) : TokenStream :=
  match a.failure with
  | none => ⟨a.tokens ++ b.tokens, b.failure⟩
  | some _ => a

instance : Append TokenStream := ⟨append⟩

/-- One token. -/
def one (t : Token) : TokenStream := { tokens := [t] }

/-- Raw texts, each a token of its own. -/
def texts (ws : List String) : TokenStream := { tokens := ws.map .text }

@[simp] theorem mk_none_append (ts : List Token) (b : TokenStream) :
    (⟨ts, none⟩ : TokenStream) ++ b = ⟨ts ++ b.tokens, b.failure⟩ := rfl

@[simp] theorem mk_some_append (ts : List Token) (e : AccessError) (b : TokenStream) :
    (⟨ts, some e⟩ : TokenStream) ++ b = ⟨ts, some e⟩ := rfl

theorem append_assoc (a b c : TokenStream) : (a ++ b) ++ c = a ++ (b ++ c) := by
  obtain ⟨ts, _ | e⟩ := a
  · obtain ⟨us, _ | e'⟩ := b
    · simp
    · simp
  · rfl

theorem mem_tokens_append {a b : TokenStream} {t : Token} (h : t ∈ (a ++ b).tokens) :
    t ∈ a.tokens ∨ t ∈ b.tokens := by
  obtain ⟨ts, _ | e⟩ := a
  · simpa using h
  · exact Or.inl h

end TokenStream

/-! ## 2. The stream of a term -/

/-- The stream of a field: its value, or the refusal to read it. -/
def Field.stream (f : Field) (s : Store) : TokenStream :=
  match f.value? s with
  | .ok v => .one (.ofNative v)
  | .error e => { failure := some e }

/-- The stream of an expression. -/
def Expr.stream (s : Store) : {d : Domain} → Expr d → TokenStream
  | _, .literal v => .one (.ofNative v)
  | _, .column table name => .texts [table, ".", name]
  | _, .parameter p => .one (.ofNative p.value)
  | _, .orNull p => .one (if p.isNull then .null else .ofNative p.value)
  | _, .field f => f.stream s
  | _, .binary op left right =>
    .texts ["("] ++ (left.stream s ++ (.texts [" ", op.word, " "] ++ (right.stream s ++ .texts [")"])))
  | _, .not operand => .texts ["(", negationWord, " "] ++ (operand.stream s ++ .texts [")"])

mutual

/-- The stream of a term. -/
def Term.stream {d : Domain} (s : Store) : Term d → TokenStream
  | .single e => e.stream s
  | .list items => Term.streamOfItems s false items

/-- The stream of the items of a list; once an item stands before them, each has a separator before
it. -/
def Term.streamOfItems {d : Domain} (s : Store) : Bool → List (Term d) → TokenStream
  | _, [] => {}
  | follows, item :: items =>
    .texts (if follows then [", "] else []) ++ (item.stream s ++ Term.streamOfItems s true items)

end

/-! ## 3. Serializing hands over the stream -/

section Playing

variable {σ : Type} (k : Sink σ)

/-- Handing over one stream behind another: the second is reached if the first one ends well. -/
theorem TokenStream.play_append (a b : TokenStream) (x : σ) :
    (a ++ b).play k x =
      match a.play k x with
      | (.ok _, y) => b.play k y
      | (.error e, y) => (.error e, y) := by
  obtain ⟨ts, failure⟩ := a
  induction ts generalizing x with
  | nil => cases failure <;> rfl
  | cons t rest ih =>
      rcases h : k.write t x with ⟨_ | _, y⟩
      · cases failure <;> simp [play, playFrom, h]
      · have := ih y
        cases failure <;> simpa [play, playFrom, h] using this

/-- Writing twice: the second writing is reached if the first one ends well. -/
theorem Writing.run_bind (a b : Writing σ Unit) (x : σ) :
    (a >>= fun _ => b).run.run x =
      match a.run.run x with
      | (.ok _, y) => b.run.run y
      | (.error e, y) => (.error e, y) := by
  simp only [ExceptT.run_bind, StateT.run_bind]
  rcases a.run.run x with ⟨_ | _, y⟩ <;> rfl

/-- A writing that does what handing over a stream does. -/
def Plays (w : Writing σ Unit) (a : TokenStream) : Prop :=
  ∀ x, w.run.run x = a.play k x

variable {k}

theorem plays_pure : Plays k (pure ()) {} := fun _ => rfl

theorem plays_put (t : Token) : Plays k (k.put t) (.one t) := by
  intro x
  have hlift : (liftM (k.write t) : Writing σ Bool).run.run x
      = (.ok (k.write t x).1, (k.write t x).2) := rfl
  simp only [Sink.put, ExceptT.run_bind, StateT.run_bind, hlift, TokenStream.play, TokenStream.one,
    TokenStream.playFrom]
  rcases k.write t x with ⟨_ | _, y⟩ <;> rfl

theorem Plays.bind {v w : Writing σ Unit} {a b : TokenStream} (hv : Plays k v a) (hw : Plays k w b) :
    Plays k (v >>= fun _ => w) (a ++ b) := by
  intro x
  rw [Writing.run_bind, hv x, TokenStream.play_append]
  rcases a.play k x with ⟨_ | _, y⟩
  · rfl
  · exact hw y

/-- Raw texts are put one after another. -/
theorem Plays.put_text {w : Writing σ Unit} {b : TokenStream} (u : String) (us : List String)
    (hw : Plays k w (.texts us ++ b)) :
    Plays k (k.put (.text u) >>= fun _ => w) (.texts (u :: us) ++ b) :=
  (plays_put (.text u)).bind hw

theorem Field.plays_serialize (s : Store) (f : Field) : Plays k (f.serialize k s) (f.stream s) := by
  unfold Field.serialize Field.stream
  cases f.value? s with
  | ok v => exact plays_put _
  | error e => exact fun _ => rfl

theorem Expr.plays_serialize (s : Store) {d : Domain} (e : Expr d) :
    Plays k (e.serialize k s) (e.stream s) := by
  induction e with
  | literal v => exact plays_put _
  | column table name =>
      exact (plays_put (.text table)).bind ((plays_put (.text ".")).bind (plays_put (.text name)))
  | parameter p => exact plays_put _
  | orNull p =>
      unfold Expr.serialize Expr.stream
      split <;> exact plays_put _
  | field f => exact f.plays_serialize s
  | binary op left right ihl ihr =>
      refine .put_text "(" [] (ihl.bind ?_)
      refine .put_text " " _ (.put_text op.word _ (.put_text " " [] (ihr.bind ?_)))
      exact plays_put (.text ")")
  | not operand ih =>
      refine .put_text "(" _ (.put_text negationWord _ (.put_text " " [] (ih.bind ?_)))
      exact plays_put (.text ")")

mutual

theorem Term.plays_serialize {d : Domain} (s : Store) :
    ∀ t : Term d, Plays k (t.serialize k s) (t.stream s)
  | .single e => by
      rw [Term.serialize, Term.stream]
      exact e.plays_serialize s
  | .list items => by
      rw [Term.serialize, Term.stream]
      exact Term.plays_serializeItems s false items

theorem Term.plays_serializeItems {d : Domain} (s : Store) :
    ∀ (follows : Bool) (items : List (Term d)),
      Plays k (Term.serializeItems k s follows items) (Term.streamOfItems s follows items)
  | _, [] => by
      rw [Term.serializeItems, Term.streamOfItems]
      exact plays_pure
  | follows, item :: items => by
      have htail := (item.plays_serialize s).bind (Term.plays_serializeItems s true items)
      rw [Term.serializeItems, Term.streamOfItems]
      cases follows with
      | false => exact plays_pure.bind htail
      | true => exact (plays_put (.text ", ")).bind htail

end

variable (k) in
/-- Serializing a term hands its stream to the sink. -/
theorem Term.serializeInto_eq_play {d : Domain} (s : Store) (t : Term d) (x : σ) :
    t.serializeInto k s x = (t.stream s).play k x :=
  t.plays_serialize s x

end Playing

/-! ## 4. What the tokens of a stream are

The native values of a term are listed without any text around them, and the texts that may surround
them are listed without any value. -/

/-- Whether a token goes through a hook of its own rather than through raw text. -/
def Token.isValue : Token → Bool
  | .text _ => false
  | .boolean _ | .integral _ | .null => true

@[simp] theorem Token.isValue_ofNative {d : Domain} (v : d.Native) : (Token.ofNative v).isValue := by
  cases d <;> rfl

theorem Parameter.isValue_orNull {d : Domain} (p : Parameter d) :
    (if p.isNull then Token.null else .ofNative p.value).isValue := by
  split
  · rfl
  · exact Token.isValue_ofNative _

namespace TokenStream

/-- The tokens that are no raw text. -/
def values (a : TokenStream) : TokenStream :=
  ⟨a.tokens.filter Token.isValue, a.failure⟩

/-- The answers up to the first refusal. -/
def ofAnswers : List (Except AccessError Token) → TokenStream
  | [] => {}
  | .ok t :: rest => .one t ++ ofAnswers rest
  | .error e :: _ => { failure := some e }

theorem values_append (a b : TokenStream) : (a ++ b).values = a.values ++ b.values := by
  obtain ⟨ts, _ | e⟩ := a
  · simp [values]
  · rfl

theorem ofAnswers_append (l m : List (Except AccessError Token)) :
    ofAnswers (l ++ m) = ofAnswers l ++ ofAnswers m := by
  induction l with
  | nil => rfl
  | cons r rest ih =>
      cases r with
      | ok t => rw [List.cons_append, ofAnswers, ofAnswers, ih, append_assoc]
      | error e => rfl

@[simp] theorem values_texts (ws : List String) : (texts ws).values = {} := by
  ext1
  · simp [values, texts, List.filter_map, Function.comp_def, Token.isValue]
  · rfl

theorem values_one {t : Token} (h : t.isValue) : (one t).values = ofAnswers [.ok t] := by
  simp [values, one, ofAnswers, h]

@[simp] theorem empty_append (a : TokenStream) : ({} : TokenStream) ++ a = a := rfl

@[simp] theorem append_empty (a : TokenStream) : a ++ ({} : TokenStream) = a := by
  obtain ⟨ts, _ | e⟩ := a <;> simp

end TokenStream

/-- The native values an expression is written with, from left to right; a field may refuse its own. -/
def Expr.natives (s : Store) : {d : Domain} → Expr d → List (Except AccessError Token)
  | _, .literal v => [.ok (.ofNative v)]
  | _, .column _ _ => []
  | _, .parameter p => [.ok (.ofNative p.value)]
  | _, .orNull p => [.ok (if p.isNull then .null else .ofNative p.value)]
  | _, .field f => [(f.value? s).map .ofNative]
  | _, .binary _ left right => left.natives s ++ right.natives s
  | _, .not operand => operand.natives s

/-- The tables and names of the columns of an expression. -/
def Expr.identifiers : {d : Domain} → Expr d → List String
  | _, .column table name => [table, name]
  | _, .binary _ left right => left.identifiers ++ right.identifiers
  | _, .not operand => operand.identifiers
  | _, _ => []

/-- The fields of an expression, from left to right. -/
def Expr.fields : {d : Domain} → Expr d → List Field
  | _, .field f => [f]
  | _, .binary _ left right => left.fields ++ right.fields
  | _, .not operand => operand.fields
  | _, _ => []

/-- The raw texts that expressions are put together with. -/
def glue : List String :=
  ["(", ")", " ", ".", ", ", BooleanOperator.and.word, BooleanOperator.or.word, negationWord]

mutual

/-- The expressions that a term is made of, through lists of any depth. -/
def Term.exprs {d : Domain} : Term d → List (Expr d)
  | .single e => [e]
  | .list items => Term.exprsOfAll items

/-- The expressions of several terms, one term after another. -/
def Term.exprsOfAll {d : Domain} : List (Term d) → List (Expr d)
  | [] => []
  | t :: ts => t.exprs ++ Term.exprsOfAll ts

end

/-- Native values go through their own hooks: each one once and in order, up to the first refusal. -/
theorem Expr.values_stream (s : Store) {d : Domain} (e : Expr d) :
    (e.stream s).values = .ofAnswers (e.natives s) := by
  induction e with
  | literal v => exact TokenStream.values_one (by simp)
  | column table name => exact TokenStream.values_texts _
  | parameter p => exact TokenStream.values_one (by simp)
  | orNull p => exact TokenStream.values_one p.isValue_orNull
  | field f =>
      simp only [Expr.stream, Expr.natives, Field.stream]
      cases f.value? s with
      | ok v => exact TokenStream.values_one (by simp)
      | error e => rfl
  | binary op left right ihl ihr =>
      simp [Expr.stream, Expr.natives, TokenStream.values_append, TokenStream.ofAnswers_append, ihl, ihr]
  | not operand ih => simp [Expr.stream, Expr.natives, TokenStream.values_append, ih]

mutual

theorem Term.values_stream {d : Domain} (s : Store) :
    ∀ t : Term d, (t.stream s).values = .ofAnswers (t.exprs.flatMap (Expr.natives s))
  | .single e => by simp [Term.stream, Term.exprs, e.values_stream s]
  | .list items => by
      rw [Term.stream, Term.exprs]
      exact Term.values_streamOfItems s false items

theorem Term.values_streamOfItems {d : Domain} (s : Store) :
    ∀ (follows : Bool) (items : List (Term d)),
      (Term.streamOfItems s follows items).values
        = .ofAnswers ((Term.exprsOfAll items).flatMap (Expr.natives s))
  | _, [] => by
      rw [Term.streamOfItems, Term.exprsOfAll]
      rfl
  | follows, item :: items => by
      rw [Term.streamOfItems, Term.exprsOfAll, List.flatMap_append, TokenStream.values_append,
        TokenStream.values_append, TokenStream.values_texts, TokenStream.ofAnswers_append,
        item.values_stream s, Term.values_streamOfItems s true items, TokenStream.empty_append]

end

/-- Every raw text of the stream has the property. -/
def TokenStream.TextsAre (p : String → Prop) (a : TokenStream) : Prop :=
  ∀ w, .text w ∈ a.tokens → p w

section Texts

variable {p : String → Prop}

theorem TokenStream.TextsAre.append {a b : TokenStream} (ha : a.TextsAre p) (hb : b.TextsAre p) :
    (a ++ b).TextsAre p :=
  fun w hw => (mem_tokens_append hw).elim (ha w) (hb w)

theorem TokenStream.textsAre_texts {ws : List String} (h : ∀ w ∈ ws, p w) :
    (texts ws).TextsAre p := by
  intro w hw
  obtain ⟨u, hu, huw⟩ := List.mem_map.1 hw
  cases huw
  exact h w hu

theorem TokenStream.textsAre_one {t : Token} (h : t.isValue) : (one t).TextsAre p := by
  intro w hw
  rw [← List.mem_singleton.1 hw] at h
  simp [Token.isValue] at h

/-- What an expression writes as raw text is glue, or names one of its columns. -/
theorem Expr.textsAre_stream (hglue : ∀ w ∈ glue, p w) (s : Store) {d : Domain} (e : Expr d)
    (hnames : ∀ w ∈ e.identifiers, p w) : (e.stream s).TextsAre p := by
  induction e with
  | literal v => exact TokenStream.textsAre_one (by simp)
  | column table name =>
      simp only [identifiers, List.forall_mem_cons] at hnames
      simp only [Expr.stream]
      refine TokenStream.textsAre_texts ?_
      simp only [List.forall_mem_cons]
      exact ⟨hnames.1, hglue "." (by decide), hnames.2⟩
  | parameter p => exact TokenStream.textsAre_one (by simp)
  | orNull p => exact TokenStream.textsAre_one p.isValue_orNull
  | field f =>
      simp only [Expr.stream, Field.stream]
      cases f.value? s with
      | ok v => exact TokenStream.textsAre_one (by simp)
      | error e => exact fun w hw => absurd hw (by simp)
  | binary op left right ihl ihr =>
      simp only [identifiers, List.forall_mem_append] at hnames
      have hword : p op.word := by cases op <;> exact hglue _ (by decide)
      have hspace : p " " := hglue _ (by decide)
      refine (TokenStream.textsAre_texts (by simpa using hglue "(" (by decide))).append ?_
      refine (ihl hnames.1).append ?_
      refine (TokenStream.textsAre_texts (by simp [hword, hspace])).append ?_
      exact (ihr hnames.2).append (TokenStream.textsAre_texts (by simpa using hglue ")" (by decide)))
  | not operand ih =>
      have hopen : ∀ w ∈ ["(", negationWord, " "], p w :=
        fun w hw => hglue w (by revert w; decide)
      refine (TokenStream.textsAre_texts hopen).append ?_
      exact (ih hnames).append (TokenStream.textsAre_texts (by simpa using hglue ")" (by decide)))

mutual

theorem Term.textsAre_stream (hglue : ∀ w ∈ glue, p w) (s : Store) {d : Domain} :
    ∀ t : Term d, (∀ w ∈ t.exprs.flatMap Expr.identifiers, p w) → (t.stream s).TextsAre p
  | .single e, hnames => by
      rw [Term.stream]
      exact e.textsAre_stream hglue s (by simpa [Term.exprs] using hnames)
  | .list items, hnames => by
      rw [Term.stream]
      exact Term.textsAre_streamOfItems hglue s false items (by simpa [Term.exprs] using hnames)

theorem Term.textsAre_streamOfItems (hglue : ∀ w ∈ glue, p w) (s : Store) {d : Domain} :
    ∀ (follows : Bool) (items : List (Term d)),
      (∀ w ∈ (Term.exprsOfAll items).flatMap Expr.identifiers, p w) →
        (Term.streamOfItems s follows items).TextsAre p
  | _, [], _ => by
      rw [Term.streamOfItems]
      exact fun w hw => absurd hw (by simp)
  | follows, item :: items, hnames => by
      rw [Term.exprsOfAll, List.flatMap_append, List.forall_mem_append] at hnames
      have hseparator : ∀ w ∈ (if follows then [", "] else []), p w := by
        cases follows
        · simp
        · simpa using hglue ", " (by decide)
      rw [Term.streamOfItems]
      exact (TokenStream.textsAre_texts hseparator).append
        ((item.textsAre_stream hglue s hnames.1).append
          (Term.textsAre_streamOfItems hglue s true items hnames.2))

end

end Texts

/-! ## 5. Plain text and renderers

Both take every token, so how writing into them ends is the stream's own ending, and what they hold
afterwards is what they held before and the spellings of the tokens. -/

/-- A token in the style's spelling of truth values, and the default one of all else. -/
def Token.spelling (style : BooleanStyle) : Token → String
  | .boolean b => style.literal b
  | t => t.plainText

/-- The numeric style is the default spelling. -/
theorem Token.spelling_numeric (t : Token) : t.spelling .numeric = t.plainText := by
  cases t with
  | boolean b => cases b <;> rfl
  | _ => rfl

namespace TokenStream

/-- How handing the stream over ends when every token is taken. -/
def ending (a : TokenStream) : Except SerializeError Unit :=
  match a.failure with
  | none => .ok ()
  | some e => .error (.access e)

/-- The tokens in a spelling, one behind the other. -/
def spelled (style : BooleanStyle) (a : TokenStream) : String :=
  String.join (a.tokens.map (Token.spelling style))

/-- A sink whose state holds a text, and that takes every token by adding its spelling, adds the
spellings of all. -/
theorem play_of_taken {σ : Type} {k : Sink σ} {hold : String → σ} {spell : Token → String}
    (htaken : ∀ t text, k.write t (hold text) = (true, hold (text ++ spell t)))
    (a : TokenStream) (text : String) :
    a.play k (hold text) = (a.ending, hold (text ++ String.join (a.tokens.map spell))) := by
  obtain ⟨ts, failure⟩ := a
  induction ts generalizing text with
  | nil => cases failure <;> simp [play, playFrom, ending]
  | cons t rest ih =>
      have hrest := ih (text ++ spell t)
      rw [String.append_assoc] at hrest
      simp only [play, playFrom, htaken, List.map_cons, String.join_cons]
      exact hrest

end TokenStream

/-- Plain text takes every token. -/
theorem Sink.plain_write (t : Token) (text : String) :
    Sink.plain.write t text = (true, text ++ t.spelling .numeric) := by
  rw [Token.spelling_numeric]
  cases t <;> simp [Token.plainText, Sink.write, Sink.plain]

/-- A renderer takes every token. -/
theorem Renderer.sink_write (c : Dialect) (t : Token) (text : String) :
    Renderer.sink.write t ⟨c, text⟩ = (true, ⟨c, text ++ t.spelling c.style⟩) := by
  cases t <;> simp [Token.spelling, Token.plainText, Sink.write, Sink.plain, Renderer.sink,
    Renderer.append, Dialect.booleanLiteral]

/-- Serializing into plain text writes the stream in the numeric style. -/
theorem Term.serializeInto_plain {d : Domain} (s : Store) (t : Term d) (text : String) :
    t.serializeInto Sink.plain s text
      = ((t.stream s).ending, text ++ (t.stream s).spelled .numeric) := by
  rw [Term.serializeInto_eq_play]
  exact TokenStream.play_of_taken Sink.plain_write _ text

/-- Serializing into a renderer writes the stream in the dialect's style. -/
theorem Term.serializeInto_renderer {d : Domain} (s : Store) (t : Term d) (c : Dialect)
    (text : String) :
    t.serializeInto Renderer.sink s ⟨c, text⟩
      = ((t.stream s).ending, ⟨c, text ++ (t.stream s).spelled c.style⟩) := by
  rw [Term.serializeInto_eq_play]
  exact TokenStream.play_of_taken (Renderer.sink_write c) _ text

end QueryTerms
