/-
QueryTerms.Proofs.WrongNames — a wrong name in a document is reported as it reads.

A document can go wrong at a name in three ways: a member that there is not, a member given twice, and a
kind that there is not. Each is reported as soon as the closing quote of the name has been read, so what
follows has no say in it; and the message shows the name itself, whichever of its spellings stands in
the text (`ofDocument_of_wrongName`).

## How the proof goes

What stands before the name is a list of lexemes, as in the grammar of documents. `GivenBy` is the part
of it that the loop over the members of an object has behind it: by `GivenBy.members_eq` the loop, begun
with nothing given, has come to the same point as one begun with what those lexemes give. So each
of the three ways is a statement about one round of the loop from any point. The spellings of the name
are no concern here, since one lexeme stands for all of them.
-/
import QueryTerms.Proofs.ContinuedDocuments

namespace QueryTerms.Dialect

open Json Json.Reader Json.StringLiteral

/-! ## 1. What has been given -/

/-- The lexemes of an object behind its opening brace, up to the end of some member, and what these
members give. It is the first member's turn only if there are none. -/
inductive GivenBy : Bool → Given → List Lexeme → Prop
  | nothing : GivenBy true {} []
  | kind {isFirst : Bool} {kind : Kind} {style : Option (Option BooleanStyle)}
      {xs ks : List Lexeme} :
      GivenBy isFirst ⟨none, style⟩ xs → Naming kind.name ks →
      GivenBy false ⟨some kind, style⟩ (xs ++ (Member.kind.opening isFirst ++ ks))
  | style {isFirst : Bool} {kind : Option Kind} {style : Option BooleanStyle}
      {xs ss : List Lexeme} :
      GivenBy isFirst ⟨kind, none⟩ xs → StyleForm style ss →
      GivenBy false ⟨kind, some style⟩ (xs ++ (Member.booleanLiterals.opening isFirst ++ ss))

/-- Whether a member has been given; a style has also if it is null. -/
def Given.Has (g : Given) : Member → Prop
  | .kind => g.kind ≠ none
  | .booleanLiterals => g.style ≠ none

/-- The loop over the members comes to what has been given, whatever follows. -/
theorem GivenBy.members_eq {isFirst : Bool} {g : Given} {xs : List Lexeme}
    (h : GivenBy isFirst g xs) {s rest : List Char} (hlex : Lexes s xs rest) :
    members true {} s = members isFirst g rest := by
  induction h generalizing rest with
  | nothing => rw [lexes_nil_iff.1 hlex]
  | kind _ hks ih =>
      obtain ⟨mid, hxs, hmember⟩ := lexes_append_iff.1 hlex
      rw [ih hxs, members_of_kind hks hmember]
  | style _ hss ih =>
      obtain ⟨mid, hxs, hmember⟩ := lexes_append_iff.1 hlex
      rw [ih hxs, members_of_style hss hmember]

/-- What may stand before the name of a kind: the beginning of the member in an object that has none
yet, or of an array. -/
inductive BeforeKind : List Lexeme → Prop
  | member {isFirst : Bool} {style : Option (Option BooleanStyle)} {xs : List Lexeme} :
      GivenBy isFirst ⟨none, style⟩ xs →
      BeforeKind (.mark '{' :: (xs ++ Member.kind.opening isFirst))
  | element : BeforeKind [.mark '[']

/-! ## 2. Names that are refused -/

theorem named_of_unknown {α : Type} {ofName? : String → Option α} {unknown : String → Misfit}
    {x : String} (hx : ofName? x = none) (s : List Char) :
    named ofName? unknown x s = .error (.misfit (unknown x)) := by
  rw [named, hx]
  rfl

/-- A name that is no member's is refused, whatever has been given. -/
theorem members_of_unknown {x : String} (hx : ∀ m : Member, x ≠ m.name) {isFirst : Bool}
    {s rest : List Char} (hlex : Lexes s (separator isFirst ++ [.string x]) rest) (g : Given) :
    members isFirst g s = .error (.misfit (.unknownMember x)) := by
  have hnone : Member.ofName? x = none :=
    Option.eq_none_iff_forall_ne_some.2 fun m h => hx m (Member.ofName?_eq_some_iff.1 h)
  obtain ⟨mid, hnext, hquote⟩ := lexes_name_iff.1 hlex
  have hname : memberName mid = .error (.misfit (.unknownMember x)) :=
    (bind_of_ok hquote).trans (named_of_unknown hnone rest)
  rw [members]
  exact (bind_of_ok hnext).trans (bind_of_error hname)

/-- The name of a member that has been given is refused, whatever was given with it. -/
theorem members_of_duplicate {g : Given} {m : Member} (hm : g.Has m) {isFirst : Bool}
    {s rest : List Char} (hlex : Lexes s (separator isFirst ++ [.string m.name]) rest) :
    members isFirst g s = .error (.misfit (.duplicateMember m)) := by
  obtain ⟨mid, hnext, hquote⟩ := lexes_name_iff.1 hlex
  rw [members]
  refine (bind_of_ok hnext).trans ((bind_of_ok (memberName_eq_ok_iff.2 hquote)).trans ?_)
  cases m with
  | kind =>
      dsimp only
      rw [dif_neg hm]
      rfl
  | booleanLiterals =>
      dsimp only
      rw [dif_neg hm]
      rfl

/-- What may stand before the name of a choice: nothing, or the brace of an object. -/
def choiceOpenings : List (List Lexeme) := [[], [.mark '{']]

/-- A choice is refused at a name that is none of the choices, bare or in an object. -/
theorem choice_of_unknown {α : Type} {ofName? : String → Option α} {unknown : String → Misfit}
    {x : String} (hx : ofName? x = none) {opening : List Lexeme} (hopening : opening ∈ choiceOpenings)
    {c : Char} {s after rest : List Char} (hlex : Lexes s (opening ++ [.string x]) rest)
    (hc : (token : DocumentReader Char) s = .ok (c, after)) :
    choice ofName? unknown c after = .error (.misfit (unknown x)) := by
  obtain rfl | rfl : opening = [] ∨ opening = [.mark '{'] := by simpa [choiceOpenings] using hopening
  · obtain ⟨_, ⟨rfl, hname⟩, -⟩ := hlex.of_token hc
    exact (bind_of_ok hname).trans (named_of_unknown hx _)
  · obtain ⟨_, ⟨-, rfl, rfl⟩, hname⟩ := hlex.of_token hc
    obtain ⟨s1, s2, hquote, hstring, -⟩ := lexes_string_iff.1 hname
    refine (bind_of_ok (expect_eq_ok_iff.2 hquote)).trans ((bind_of_ok hstring).trans ?_)
    exact bind_of_error (named_of_unknown hx _)

section

variable {x : String} (hx : ∀ kind : Kind, x ≠ kind.name) {opening : List Lexeme}
  (hopening : opening ∈ choiceOpenings)
include hx hopening

theorem kindFrom_of_unknown {c : Char} {s after rest : List Char}
    (hlex : Lexes s (opening ++ [.string x]) rest)
    (hc : (token : DocumentReader Char) s = .ok (c, after)) :
    kindFrom c after = .error (.misfit (.unknownKind x)) := by
  have hnone : Kind.ofName? x = none :=
    Option.eq_none_iff_forall_ne_some.2 fun kind h => hx kind (Kind.ofName?_eq_some_iff.1 h)
  exact choice_of_unknown hnone hopening hlex hc

theorem members_of_unknownKind {isFirst : Bool} {style : Option (Option BooleanStyle)}
    {s rest : List Char}
    (hlex : Lexes s (Member.kind.opening isFirst ++ (opening ++ [.string x])) rest) :
    members isFirst ⟨none, style⟩ s = .error (.misfit (.unknownKind x)) := by
  obtain ⟨mid, hmember, hvalue⟩ := lexes_append_iff.1 hlex
  obtain ⟨c, after, hc⟩ := hvalue.exists_token (by simp)
  rw [members_of_opening hmember]
  exact (bind_of_ok hc).trans (bind_of_error (kindFrom_of_unknown hx hopening hvalue hc))

theorem elements_of_unknownKind {s rest : List Char} (hlex : Lexes s (opening ++ [.string x]) rest) :
    elements s = .error (.misfit (.unknownKind x)) := by
  obtain ⟨c, mid, hc⟩ := hlex.exists_token (by simp)
  have hkind := kindFrom_of_unknown hx hopening hlex hc
  -- behind a closing bracket there would be no kind to refuse
  have hbracket : c ≠ ']' := by
    intro h
    subst h
    cases hkind
  unfold elements
  dsimp only
  refine (bind_of_ok hc).trans ?_
  rw [if_neg hbracket]
  exact bind_of_error hkind

end

/-! ## 3. Documents -/

theorem value_of_object {s rest : List Char} {xs : List Lexeme}
    (hlex : Lexes s (.mark '{' :: xs) rest) :
    ∃ mid, value s = members true {} mid ∧ Lexes mid xs rest := by
  obtain ⟨mid, hc, hxs⟩ := (lexes_mark_iff (by decide)).1 hlex
  exact ⟨mid, bind_of_ok hc, hxs⟩

theorem value_of_array {s rest : List Char} {xs : List Lexeme}
    (hlex : Lexes s (.mark '[' :: xs) rest) :
    ∃ mid, value s = elements mid ∧ Lexes mid xs rest := by
  obtain ⟨mid, hc, hxs⟩ := (lexes_mark_iff (by decide)).1 hlex
  exact ⟨mid, bind_of_ok hc, hxs⟩

/-- At the name of a member, an object has come to what stands before the name. -/
theorem value_of_givenBy {isFirst : Bool} {g : Given} {xs ys : List Lexeme}
    (h : GivenBy isFirst g xs) {s rest : List Char} (hlex : Lexes s (.mark '{' :: (xs ++ ys)) rest) :
    ∃ mid, value s = members isFirst g mid ∧ Lexes mid ys rest := by
  obtain ⟨s1, hvalue, hlex'⟩ := value_of_object hlex
  obtain ⟨mid, hxs, hys⟩ := lexes_append_iff.1 hlex'
  exact ⟨mid, hvalue.trans (h.members_eq hxs), hys⟩

/-- The text is JSON that describes no dialect, and a user is told so in these words. -/
def ReportedAs (text message : String) : Prop :=
  ∃ e, ofDocument text = .error (.problem (.misfit e)) ∧ e.message = message

theorem reportedAs_of_value {text : String} {e : Misfit}
    (h : value text.toList = .error (.misfit e)) : ReportedAs text e.message :=
  ⟨e, ofDocument_eq_error_iff.2 (readAll_of_error h), rfl⟩

/-- **A wrong name is reported as it reads.** Let a text begin with some way to write a string, behind
what may stand before a member's name, or before the name of a kind; and let anything follow. If the
string is no member's name, or that of a member given before, or no kind's, the text is refused with a
message that shows the string itself. -/
theorem ofDocument_of_wrongName (text x : String) (rest : List Char) :
    (∀ (isFirst : Bool) (g : Given) (xs : List Lexeme), GivenBy isFirst g xs →
      Lexes text.toList (.mark '{' :: (xs ++ (separator isFirst ++ [.string x]))) rest →
        ((∀ m : Member, x ≠ m.name) →
          ReportedAs text ("unknown field `" ++ x ++ "`, expected `kind` or `boolean_literals`"))
        ∧ (∀ m : Member, x = m.name → g.Has m → ReportedAs text ("duplicate field `" ++ x ++ "`")))
    ∧ ∀ xs opening : List Lexeme, BeforeKind xs → opening ∈ choiceOpenings →
        Lexes text.toList (xs ++ (opening ++ [.string x])) rest → (∀ kind : Kind, x ≠ kind.name) →
          ReportedAs text
            ("unknown variant `" ++ x ++ "`, expected one of `postgres`, `sqlite`, `mysql`") := by
  constructor
  · intro isFirst g xs hxs hlex
    obtain ⟨mid, hvalue, hname⟩ := value_of_givenBy hxs hlex
    constructor
    · intro hx
      exact reportedAs_of_value (hvalue.trans (members_of_unknown hx hname g))
    · intro m hm hgiven
      subst hm
      exact reportedAs_of_value (hvalue.trans (members_of_duplicate hgiven hname))
  · intro xs opening hxs hopening hlex hx
    cases hxs with
    | member hgiven =>
        rw [List.cons_append, List.append_assoc] at hlex
        obtain ⟨mid, hvalue, hkind⟩ := value_of_givenBy hgiven hlex
        exact reportedAs_of_value (hvalue.trans (members_of_unknownKind hx hopening hkind))
    | element =>
        obtain ⟨mid, hvalue, hkind⟩ := value_of_array hlex
        exact reportedAs_of_value (hvalue.trans (elements_of_unknownKind hx hopening hkind))

/-- A member given twice, its first value null and its second name spelled with an escape; a member
named by a pair of surrogates; and the name of a kind in upper case, in an object in an array. -/
theorem ofDocument_of_wrongName_escaped :
    GivenBy false ⟨none, some none⟩ (Member.booleanLiterals.opening true ++ [.null])
    ∧ Given.Has ⟨none, some none⟩ .booleanLiterals
    ∧ ReportedAs "\x7b\"boolean_literals\":null, \"boolean\\u005fliterals\":1"
        "duplicate field `boolean_literals`"
    ∧ ReportedAs "\x7b\"\\ud83d\\ude00\""
        "unknown field `😀`, expected `kind` or `boolean_literals`"
    ∧ ReportedAs "[\x7b\"MySQ\\u004c\":]"
        "unknown variant `MySQL`, expected one of `postgres`, `sqlite`, `mysql`" := by
  have hgiven : GivenBy false ⟨none, some none⟩ (Member.booleanLiterals.opening true ++ [.null]) :=
    .style .nothing .null
  have hhas : Given.Has ⟨none, some none⟩ .booleanLiterals := by simp [Given.Has]
  refine ⟨hgiven, hhas, ?_, ?_, ?_⟩
  · have hlex : Lexes "\x7b\"boolean_literals\":null, \"boolean\\u005fliterals\":1".toList
        [.mark '{', .string "boolean_literals", .mark ':', .null, .mark ',',
          .string "boolean_literals"] [':', '1'] := by
      refine (lexes_mark_iff (by decide)).2 ⟨_, rfl, ?_⟩
      refine lexes_string_iff.2 ⟨_, ":null, \"boolean\\u005fliterals\":1".toList, rfl,
        by decide +kernel, ?_⟩
      refine (lexes_mark_iff (by decide)).2 ⟨_, rfl, ?_⟩
      refine lexes_null_iff.2 ⟨_, ", \"boolean\\u005fliterals\":1".toList, rfl,
        word_eq_ok_iff.2 rfl, ?_⟩
      refine (lexes_mark_iff (by decide)).2 ⟨_, rfl, lexes_string_iff.2 ⟨_, _, rfl, ?_, .nil _⟩⟩
      decide +kernel
    exact ((ofDocument_of_wrongName _ "boolean_literals" [':', '1']).1 _ _ _ hgiven hlex).2 _ rfl hhas
  · refine ((ofDocument_of_wrongName _ "😀" []).1 _ _ _ .nothing ?_).1 fun m => by cases m <;> decide
    refine (lexes_mark_iff (by decide)).2 ⟨_, rfl, lexes_string_iff.2 ⟨_, _, rfl, ?_, .nil _⟩⟩
    decide +kernel
  · refine (ofDocument_of_wrongName _ "MySQL" [':', ']']).2 _ [.mark '{'] .element
      (by simp [choiceOpenings]) ?_ fun kind => by cases kind <;> decide
    refine (lexes_mark_iff (by decide)).2 ⟨_, rfl, (lexes_mark_iff (by decide)).2 ⟨_, rfl, ?_⟩⟩
    refine lexes_string_iff.2 ⟨_, _, rfl, ?_, .nil _⟩
    decide +kernel

end QueryTerms.Dialect
