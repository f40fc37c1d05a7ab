/-
QueryTerms.Proofs.DroppedFields — serializing fails at the first field without a row, and only there.

Take the text of a term with the fields cut out: what is left are pieces, tokens and fields from left to
right, that depend neither on what is stored nor on which fields hold a row (`Term.pieces`). The stream of
the term is made of its pieces one by one, and only a field can end it. So what was written before the
failure is the text of the pieces in front of the first field without a row. Give every such field a row,
with any value in it: the pieces stay the same, those in front of that field even with their values, and so
what had been written is where the full text begins.

  §1  fields and pieces of a term
  §2  the stream is made of the pieces
  §3  where the stream ends
  §4  giving fields a row
  §5  the main statement
-/
import QueryTerms.Proofs.TokenStream

namespace QueryTerms

/-! ## 1. Fields and pieces -/

/-- The fields anywhere in a term, from left to right. -/
def Term.fields {d : Domain} (t : Term d) : List Field :=
  t.exprs.flatMap Expr.fields

/-- What the text of a term is put together from: a token, or the value of a field. -/
inductive Piece where
  | token (t : Token)
  | field (f : Field)

namespace Piece

/-- Raw texts, each a piece of its own. -/
def texts (ws : List String) : List Piece :=
  ws.map fun w => .token (.text w)

/-- The field of a piece, if it is one. -/
def field? : Piece → Option Field
  | .token _ => none
  | .field f => some f

/-- Whether the piece is a field that holds no row. -/
def isDropped : Piece → Bool
  | .token _ => false
  | .field f => !f.isValid

/-- The token that a piece stands for: that of the stored value for a field, valid or not. -/
def tokenIn (s : Store) : Piece → Token
  | .token t => t
  | .field f => .ofNative (s.get f.slot).value

/-- The text of pieces, one behind the other. -/
def spelled (style : BooleanStyle) (s : Store) (ps : List Piece) : String :=
  String.join (ps.map fun p => (p.tokenIn s).spelling style)

end Piece

/-- The pieces of an expression. -/
def Expr.pieces : {d : Domain} → Expr d → List Piece
  | _, .literal v => [.token (.ofNative v)]
  | _, .column table name => Piece.texts [table, ".", name]
  | _, .parameter p => [.token (.ofNative p.value)]
  | _, .orNull p => [.token (if p.isNull then .null else .ofNative p.value)]
  | _, .field f => [.field f]
  | _, .binary op left right =>
    Piece.texts ["("] ++ (left.pieces ++ (Piece.texts [" ", op.word, " "]
      ++ (right.pieces ++ Piece.texts [")"])))
  | _, .not operand => Piece.texts ["(", negationWord, " "] ++ (operand.pieces ++ Piece.texts [")"])

mutual

/-- The pieces of a term. -/
def Term.pieces {d : Domain} : Term d → List Piece
  | .single e => e.pieces
  | .list items => Term.piecesOfItems false items

/-- The pieces of the items of a list; once an item stands before them, each has a separator before
it. -/
def Term.piecesOfItems {d : Domain} : Bool → List (Term d) → List Piece
  | _, [] => []
  | follows, item :: items =>
    Piece.texts (if follows then [", "] else []) ++ (item.pieces ++ Term.piecesOfItems true items)

end

@[simp] theorem Piece.filterMap_field?_texts (ws : List String) :
    (texts ws).filterMap field? = [] := by
  simp [texts, field?]

/-- The fields among the pieces of an expression are its fields. -/
theorem Expr.filterMap_field?_pieces {d : Domain} (e : Expr d) :
    e.pieces.filterMap Piece.field? = e.fields := by
  induction e with
  | binary op left right ihl ihr => simp [Expr.pieces, Expr.fields, ihl, ihr]
  | not operand ih => simp [Expr.pieces, Expr.fields, ih]
  | _ => simp [Expr.pieces, Expr.fields, Piece.field?]

mutual

/-- The fields among the pieces are the fields of the term, in the order of writing. -/
theorem Term.filterMap_field?_pieces {d : Domain} :
    ∀ t : Term d, t.pieces.filterMap Piece.field? = t.fields
  | .single e => by simp [Term.pieces, Term.fields, Term.exprs, e.filterMap_field?_pieces]
  | .list items => by
      rw [Term.pieces, Term.fields, Term.exprs]
      exact Term.filterMap_field?_piecesOfItems false items

theorem Term.filterMap_field?_piecesOfItems {d : Domain} :
    ∀ (follows : Bool) (items : List (Term d)),
      (Term.piecesOfItems follows items).filterMap Piece.field?
        = (Term.exprsOfAll items).flatMap Expr.fields
  | _, [] => by rw [Term.piecesOfItems, Term.exprsOfAll, List.filterMap_nil, List.flatMap_nil]
  | follows, item :: items => by
      rw [Term.piecesOfItems, Term.exprsOfAll, List.filterMap_append, List.filterMap_append,
        Piece.filterMap_field?_texts, item.filterMap_field?_pieces,
        Term.filterMap_field?_piecesOfItems true items, List.flatMap_append, List.nil_append, Term.fields]

end

/-! ## 2. The stream is made of the pieces -/

/-- The stream of a piece. -/
def Piece.stream (s : Store) : Piece → TokenStream
  | .token t => .one t
  | .field f => f.stream s

namespace TokenStream

/-- The streams of pieces, one behind the other. -/
def ofPieces (s : Store) : List Piece → TokenStream
  | [] => {}
  | p :: ps => p.stream s ++ ofPieces s ps

theorem ofPieces_append (s : Store) (ps qs : List Piece) :
    ofPieces s (ps ++ qs) = ofPieces s ps ++ ofPieces s qs := by
  induction ps with
  | nil => rfl
  | cons p ps ih => rw [List.cons_append, ofPieces, ofPieces, ih, append_assoc]

theorem ofPieces_singleton (s : Store) (p : Piece) : ofPieces s [p] = p.stream s :=
  append_empty _

theorem ofPieces_texts (s : Store) (ws : List String) : ofPieces s (Piece.texts ws) = texts ws := by
  induction ws with
  | nil => rfl
  | cons w ws ih =>
      rw [Piece.texts, List.map_cons, ofPieces, ← Piece.texts, ih]
      rfl

end TokenStream

/-- An expression hands over its pieces, one behind the other. -/
theorem Expr.stream_eq_ofPieces (s : Store) {d : Domain} (e : Expr d) :
    e.stream s = .ofPieces s e.pieces := by
  induction e with
  | binary op left right ihl ihr =>
      simp only [Expr.stream, Expr.pieces, TokenStream.ofPieces_append, TokenStream.ofPieces_texts, ihl, ihr]
  | not operand ih =>
      simp only [Expr.stream, Expr.pieces, TokenStream.ofPieces_append, TokenStream.ofPieces_texts, ih]
  | column table name => exact (TokenStream.ofPieces_texts s _).symm
  | literal v => exact (TokenStream.ofPieces_singleton s (.token (.ofNative v))).symm
  | parameter p => exact (TokenStream.ofPieces_singleton s (.token (.ofNative p.value))).symm
  | orNull p => exact (TokenStream.ofPieces_singleton s (.token _)).symm
  | field f => exact (TokenStream.ofPieces_singleton s (.field f)).symm

mutual

/-- So does a term, and a list puts the separating texts between its items; by recursion on the two
together. -/
theorem Term.stream_eq_ofPieces {d : Domain} (s : Store) :
    ∀ t : Term d, t.stream s = .ofPieces s t.pieces
  | .single e => by rw [Term.stream, Term.pieces, e.stream_eq_ofPieces]
  | .list items => by rw [Term.stream, Term.pieces, Term.streamOfItems_eq_ofPieces]

theorem Term.streamOfItems_eq_ofPieces {d : Domain} (s : Store) :
    ∀ (follows : Bool) (items : List (Term d)),
      Term.streamOfItems s follows items = .ofPieces s (Term.piecesOfItems follows items)
  | _, [] => by
      rw [Term.streamOfItems, Term.piecesOfItems]
      rfl
  | follows, item :: items => by
      rw [Term.streamOfItems, Term.piecesOfItems, TokenStream.ofPieces_append,
        TokenStream.ofPieces_append, TokenStream.ofPieces_texts, item.stream_eq_ofPieces s,
        Term.streamOfItems_eq_ofPieces s true items]

end

/-! ## 3. Where the stream ends -/

/-- A piece that has its value is one token. -/
theorem Piece.stream_of_not_isDropped {p : Piece} (h : p.isDropped = false) (s : Store) :
    p.stream s = .one (p.tokenIn s) := by
  cases p with
  | token t => rfl
  | field f =>
      have hvalid : f.isValid = true := by simpa [isDropped] using h
      rw [Piece.stream, Field.stream, Field.value?, Field.cell?, hvalid]
      rfl

/-- A field without a row hands over nothing, and is what is wrong. -/
theorem Piece.stream_of_isDropped {p : Piece} (h : p.isDropped = true) (s : Store) :
    p.stream s = { failure := some (.nonExistentRow .value) } := by
  cases p with
  | token t => cases h
  | field f =>
      have hdropped : f.isValid = false := by simpa [isDropped] using h
      rw [Piece.stream, Field.stream, Field.value?, Field.cell?, hdropped]
      rfl

namespace TokenStream

/-- Pieces that all have their value are handed over to the end. -/
theorem ofPieces_of_none_dropped {ps : List Piece} (h : ∀ p ∈ ps, p.isDropped = false) (s : Store) :
    ofPieces s ps = ⟨ps.map (Piece.tokenIn s), none⟩ := by
  induction ps with
  | nil => rfl
  | cons p ps ih =>
      rw [ofPieces, Piece.stream_of_not_isDropped (h p (by simp)), ih fun q hq => h q (by simp [hq])]
      rfl

/-- The first field without a row ends the stream. -/
theorem ofPieces_of_first_dropped {front back : List Piece} {p : Piece}
    (hfront : ∀ q ∈ front, q.isDropped = false) (hp : p.isDropped = true) (s : Store) :
    ofPieces s (front ++ p :: back)
      = ⟨front.map (Piece.tokenIn s), some (.nonExistentRow .value)⟩ := by
  rw [ofPieces_append, ofPieces_of_none_dropped hfront, ofPieces, Piece.stream_of_isDropped hp]
  simp

end TokenStream

/-! ## 4. Giving fields a row -/

/-- The expression with a row in every field. -/
def Expr.validated : {d : Domain} → Expr d → Expr d
  | _, .literal v => .literal v
  | _, .column table name => .column table name
  | _, .parameter p => .parameter p
  | _, .orNull p => .orNull p
  | _, .field f => .field f.validate
  | _, .binary op left right => .binary op left.validated right.validated
  | _, .not operand => .not operand.validated

mutual

/-- The term with a row in every field. -/
def Term.validated {d : Domain} : Term d → Term d
  | .single e => .single e.validated
  | .list items => .list (Term.validatedAll items)

/-- Several terms with a row in every field. -/
def Term.validatedAll {d : Domain} : List (Term d) → List (Term d)
  | [] => []
  | t :: ts => t.validated :: Term.validatedAll ts

end

/-- A piece with a row in its field. -/
def Piece.validated : Piece → Piece
  | .token t => .token t
  | .field f => .field f.validate

theorem Piece.map_validated_texts (ws : List String) : (texts ws).map validated = texts ws := by
  simp [texts, validated]

/-- Giving the fields of an expression a row gives one to its pieces, and changes no other. -/
theorem Expr.pieces_validated {d : Domain} (e : Expr d) :
    e.validated.pieces = e.pieces.map Piece.validated := by
  induction e with
  | binary op left right ihl ihr =>
      simp only [Expr.validated, Expr.pieces, List.map_append, Piece.map_validated_texts, ihl, ihr]
  | not operand ih =>
      simp only [Expr.validated, Expr.pieces, List.map_append, Piece.map_validated_texts, ih]
  | column table name => exact (Piece.map_validated_texts _).symm
  | _ => rfl

mutual

/-- The same of a term, by recursion on terms and lists of items together. -/
theorem Term.pieces_validated {d : Domain} :
    ∀ t : Term d, t.validated.pieces = t.pieces.map Piece.validated
  | .single e => by rw [Term.validated, Term.pieces, Term.pieces, e.pieces_validated]
  | .list items => by rw [Term.validated, Term.pieces, Term.pieces, Term.piecesOfItems_validated]

theorem Term.piecesOfItems_validated {d : Domain} :
    ∀ (follows : Bool) (items : List (Term d)),
      Term.piecesOfItems follows (Term.validatedAll items)
        = (Term.piecesOfItems follows items).map Piece.validated
  | _, [] => by rw [Term.validatedAll, Term.piecesOfItems, List.map_nil]
  | follows, item :: items => by
      rw [Term.validatedAll, Term.piecesOfItems, Term.piecesOfItems, List.map_append, List.map_append,
        Piece.map_validated_texts, item.pieces_validated, Term.piecesOfItems_validated true items]

end

@[simp] theorem Piece.isDropped_validated (p : Piece) : p.validated.isDropped = false := by
  cases p <;> rfl

@[simp] theorem Piece.tokenIn_validated (s : Store) (p : Piece) :
    p.validated.tokenIn s = p.tokenIn s := by
  cases p <;> rfl

/-- With a row in every field, a term is written to the end, with whatever values are stored. -/
theorem Term.stream_validated {d : Domain} (s : Store) (t : Term d) :
    t.validated.stream s = ⟨t.pieces.map (Piece.tokenIn s), none⟩ := by
  have hvalid : ∀ p ∈ t.pieces.map Piece.validated, p.isDropped = false := by
    intro p hp
    obtain ⟨q, -, rfl⟩ := List.mem_map.1 hp
    exact q.isDropped_validated
  rw [Term.stream_eq_ofPieces, Term.pieces_validated, TokenStream.ofPieces_of_none_dropped hvalid,
    List.map_map]
  simp [Function.comp_def]

/-! ## 5. Where writing stops -/

/-- Where text is written that is never refused: plain text, or a renderer of a dialect. -/
inductive Outlet where
  | plain
  | renderer (c : Dialect)

/-- The spelling of truth values at an outlet. -/
def Outlet.style : Outlet → BooleanStyle
  | .plain => .numeric
  | .renderer c => c.style

/-- Serializes a term behind some text: the result, and all the text there is then. -/
def Term.writeTo {d : Domain} (t : Term d) (s : Store) :
    Outlet → String → Except SerializeError Unit × String
  | .plain, text => t.serializeInto Sink.plain s text
  | .renderer c, text =>
    let (result, r) := t.serializeInto Renderer.sink s ⟨c, text⟩
    (result, r.text)

/-- At either outlet, what is written is the stream in the spelling of the outlet. -/
theorem Term.writeTo_eq {d : Domain} (t : Term d) (s : Store) (o : Outlet) (text : String) :
    t.writeTo s o text = ((t.stream s).ending, text ++ (t.stream s).spelled o.style) := by
  cases o with
  | plain => exact t.serializeInto_plain s text
  | renderer c => rw [Term.writeTo, t.serializeInto_renderer, Outlet.style]

theorem Term.mem_fields_iff {d : Domain} {t : Term d} {f : Field} :
    f ∈ t.fields ↔ .field f ∈ t.pieces := by
  rw [← t.filterMap_field?_pieces, List.mem_filterMap]
  constructor
  · rintro ⟨_ | g, hp, hf⟩
    · cases hf
    · cases hf
      exact hp
  · exact fun h => ⟨.field f, h, rfl⟩

theorem TokenStream.spelled_map_tokenIn (style : BooleanStyle) (s : Store) (ps : List Piece)
    (failure : Option AccessError) :
    spelled style ⟨ps.map (Piece.tokenIn s), failure⟩ = Piece.spelled style s ps := by
  rw [spelled, List.map_map]
  rfl

theorem Piece.spelled_append (style : BooleanStyle) (s : Store) (ps qs : List Piece) :
    spelled style s (ps ++ qs) = spelled style s ps ++ spelled style s qs := by
  simp [spelled]

/-- A term has a field without a row, or none of its pieces lacks its value. -/
theorem Term.dropped_cases {d : Domain} (t : Term d) :
    ((∀ f ∈ t.fields, f.isValid = true) ∧ ∀ p ∈ t.pieces, p.isDropped = false)
    ∨ ∃ front f back, t.pieces = front ++ .field f :: back ∧ f ∈ t.fields ∧ f.isValid = false
        ∧ ∀ p ∈ front, p.isDropped = false := by
  cases hfind : t.pieces.find? Piece.isDropped with
  | none =>
      have hnone : ∀ p ∈ t.pieces, p.isDropped = false := by
        simpa [List.find?_eq_none] using hfind
      refine Or.inl ⟨fun f hf => ?_, hnone⟩
      simpa [Piece.isDropped] using hnone _ (Term.mem_fields_iff.1 hf)
  | some p =>
      obtain ⟨hp, front, back, hsplit, hfront⟩ := List.find?_eq_some_iff_append.1 hfind
      cases p with
      | token _ => cases hp
      | field f =>
          have hmem : f ∈ t.fields := Term.mem_fields_iff.2 (by simp [hsplit])
          exact Or.inr ⟨front, f, back, hsplit, hmem, by simpa [Piece.isDropped] using hp,
            by simpa using hfront⟩

/-- A term all of whose fields hold a row is written to the end. -/
theorem Term.writeTo_of_none_dropped {d : Domain} {t : Term d} (h : ∀ p ∈ t.pieces, p.isDropped = false)
    (s : Store) (o : Outlet) (text : String) :
    t.writeTo s o text = (.ok (), text ++ Piece.spelled o.style s t.pieces) := by
  rw [t.writeTo_eq, t.stream_eq_ofPieces, TokenStream.ofPieces_of_none_dropped h,
    TokenStream.spelled_map_tokenIn]
  rfl

/-- Writing stops in front of the first field without a row. -/
theorem Term.writeTo_of_first_dropped {d : Domain} {t : Term d} {front back : List Piece} {f : Field}
    (hsplit : t.pieces = front ++ .field f :: back) (hf : f.isValid = false)
    (hfront : ∀ p ∈ front, p.isDropped = false) (s : Store) (o : Outlet) (text : String) :
    t.writeTo s o text =
      (.error (.access (.nonExistentRow .value)), text ++ Piece.spelled o.style s front) := by
  have hdropped : (Piece.field f).isDropped = true := by rw [Piece.isDropped, hf]; rfl
  rw [t.writeTo_eq, t.stream_eq_ofPieces, hsplit, TokenStream.ofPieces_of_first_dropped hfront hdropped,
    TokenStream.spelled_map_tokenIn]
  rfl

/-- With a row in every field, a term is written to the end. -/
theorem Term.writeTo_validated {d : Domain} (t : Term d) (s : Store) (o : Outlet) (text : String) :
    t.validated.writeTo s o text = (.ok (), text ++ Piece.spelled o.style s t.pieces) := by
  rw [Term.writeTo_eq, Term.stream_validated, TokenStream.spelled_map_tokenIn]
  rfl

/-- The stores hold the same value in every field of the term that holds a row. -/
def Term.ValidKept {d : Domain} (t : Term d) (s s' : Store) : Prop :=
  ∀ f ∈ t.fields, f.isValid = true → (s'.get f.slot).value = (s.get f.slot).value

/-- Pieces that have their value keep their text. -/
theorem Term.ValidKept.spelled_eq {d : Domain} {t : Term d} {s s' : Store} (h : t.ValidKept s s')
    {ps : List Piece} (hps : ∀ p ∈ ps, p ∈ t.pieces ∧ p.isDropped = false) (style : BooleanStyle) :
    Piece.spelled style s' ps = Piece.spelled style s ps := by
  refine congrArg String.join (List.map_congr_left fun p hp => ?_)
  obtain ⟨hmem, hvalid⟩ := hps p hp
  cases p with
  | token _ => rfl
  | field f =>
      have hvalue := h f (Term.mem_fields_iff.2 hmem) (by simpa [Piece.isDropped] using hvalid)
      rw [Piece.tokenIn, Piece.tokenIn, hvalue]

/-- **Serializing fails at the first field without a row, and only there.** Into plain text and into every
renderer, whatever they hold already, a term is written to the end if all its fields hold a row, and its
text is that of its pieces. If some field anywhere in it holds none, writing fails with the access error of
its value; what has been written is the text of the pieces in front of the first such field. Give every
such field a row, with any value in it, while the others keep theirs: then the term is written to the end,
and its text starts with what had been written, followed by the value that stands in that field now. -/
theorem Term.writeTo_stops_at_dropped {d : Domain} (s : Store) (t : Term d) (o : Outlet) (text : String) :
    ((t.writeTo s o text).1 = .ok () ↔ ∀ f ∈ t.fields, f.isValid = true)
    ∧ ((t.writeTo s o text).1 = .ok () →
        (t.writeTo s o text).2 = text ++ Piece.spelled o.style s t.pieces)
    ∧ ((t.writeTo s o text).1 ≠ .ok () → ∃ front f back,
        t.pieces = front ++ .field f :: back
        ∧ t.fields = front.filterMap Piece.field? ++ f :: back.filterMap Piece.field?
        ∧ f.isValid = false
        ∧ (∀ g ∈ front.filterMap Piece.field?, g.isValid = true)
        ∧ t.writeTo s o text =
            (.error (.access (.nonExistentRow .value)), text ++ Piece.spelled o.style s front)
        ∧ ∀ s', t.ValidKept s s' → t.validated.writeTo s' o text =
            (.ok (), text ++ Piece.spelled o.style s front
              ++ (Token.ofNative (s'.get f.slot).value).spelling o.style
              ++ Piece.spelled o.style s' back)) := by
  rcases t.dropped_cases with ⟨hvalid, hnone⟩ | ⟨front, f, back, hsplit, hmem, hf, hfront⟩
  · rw [Term.writeTo_of_none_dropped hnone]
    exact ⟨⟨fun _ => hvalid, fun _ => rfl⟩, fun _ => rfl, fun h => absurd rfl h⟩
  · rw [Term.writeTo_of_first_dropped hsplit hf hfront]
    refine ⟨⟨fun h => (by cases h), fun h => ?_⟩, fun h => (by cases h),
      fun _ => ⟨front, f, back, hsplit, ?_, hf, fun g hg => ?_, rfl, fun s' hkept => ?_⟩⟩
    · rw [h f hmem] at hf
      cases hf
    · rw [← t.filterMap_field?_pieces, hsplit, List.filterMap_append, List.filterMap_cons]
      rfl
    · obtain ⟨_ | _, hp, hg⟩ := List.mem_filterMap.1 hg
      · cases hg
      · cases hg
        simpa [Piece.isDropped] using hfront _ hp
    · have hsame : Piece.spelled o.style s' front = Piece.spelled o.style s front :=
        hkept.spelled_eq (fun p hp => ⟨by simp [hsplit, hp], hfront p hp⟩) o.style
      have hvalue : Piece.spelled o.style s' (.field f :: back)
          = (Token.ofNative (s'.get f.slot).value).spelling o.style ++ Piece.spelled o.style s' back := by
        rw [Piece.spelled, List.map_cons, String.join_cons]
        rfl
      rw [Term.writeTo_validated, hsplit, Piece.spelled_append, hsame, hvalue, String.append_assoc,
        String.append_assoc]

/-- Two fields hold no row, one of them twice in the term; they are given rows by decoding columns. -/
theorem Term.writeTo_stops_at_dropped_twice :
    let gone : Field := ⟨⟨.boolean, 1⟩, false⟩
    let t : Term .boolean := .list
      [.single (.binary .or (.field ⟨⟨.boolean, 0⟩, true⟩) (.orNull { forcedNull := true })),
        .list [.single (.not (.field gone))],
        .single (.binary .and (.field ⟨⟨.boolean, 2⟩, false⟩) (.field gone))]
    let s : Store := ({} : Store).set ⟨.boolean, 0⟩ true
    let s' : Store := (s.decodeInto ⟨.boolean, 1⟩ (some [116])).decodeInto ⟨.boolean, 2⟩ none
    (t.writeTo s .plain "").1 ≠ .ok ()
    ∧ t.ValidKept s s'
    ∧ t.writeTo s .plain "" = (.error (.access (.nonExistentRow .value)), "(1 OR NULL), (NOT ")
    ∧ ∃ rest, t.validated.writeTo s' .plain "" = (.ok (), "(1 OR NULL), (NOT " ++ rest) := by
  intro gone t s s'
  have hfails : (t.writeTo s .plain "").1 ≠ .ok () := by
    intro h
    cases h
  have hkept : t.ValidKept s s' := by
    intro f hf hvalid
    have hfields : t.fields = [⟨⟨.boolean, 0⟩, true⟩, gone, ⟨⟨.boolean, 2⟩, false⟩, gone] := rfl
    rw [hfields] at hf
    simp only [List.mem_cons, List.not_mem_nil, or_false] at hf
    rcases hf with rfl | rfl | rfl | rfl
    · rfl
    · cases hvalid
    · cases hvalid
    · cases hvalid
  have hwritten : t.writeTo s .plain "" =
    (.error (.access (.nonExistentRow .value)), "(1 OR NULL), (NOT ") := rfl
  obtain ⟨-, -, hstops⟩ := t.writeTo_stops_at_dropped s .plain ""
  obtain ⟨front, f, back, -, -, -, -, hstopped, hrepaired⟩ := hstops hfails
  have hfront : "(1 OR NULL), (NOT " = "" ++ Piece.spelled .numeric s front :=
    congrArg Prod.snd (hwritten.symm.trans hstopped)
  refine ⟨hfails, hkept, hwritten,
    (Token.ofNative (s'.get f.slot).value).spelling .numeric ++ Piece.spelled .numeric s' back, ?_⟩
  rw [hrepaired s' hkept, hfront, ← String.append_assoc]
  rfl

end QueryTerms
