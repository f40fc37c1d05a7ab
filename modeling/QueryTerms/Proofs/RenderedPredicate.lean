/-
QueryTerms.Proofs.RenderedPredicate — what the rendering command prints.

The predicate is one fixed term but for the parameter in it, so its text is known in advance but for the
parameter (`spelled_predicate`), and writing it never fails. A rendering therefore fails only where the
text of the parameter is no word for a value, and else prints three lines (`renderReport`).

  §1  words for a value
  §2  the predicate in writing
  §3  the lines
-/
import QueryTerms.CommandLine.Run
import QueryTerms.Proofs.UniqueReading

namespace QueryTerms.CommandLine

/-! ## 1. Words for a value -/

/-- The words that give a parameter a value, in lower case. -/
def parameterWords : List String :=
  ["true", "t", "1", "false", "f", "0", "null"]

/-- The text is such a word, in letters of either case. -/
def IsParameterWord (text : String) : Prop :=
  String.ofList (text.toList.map Char.toLower) ∈ parameterWords

theorem parameterValue?_eq_none_iff {text : String} :
    parameterValue? text = none ↔ ¬ IsParameterWord text := by
  unfold parameterValue? IsParameterWord parameterWords
  split <;> simp_all

/-! ## 2. The predicate in writing -/

/-- The predicate is written to its end, whatever the parameter. -/
theorem run_predicate (p : Parameter .boolean) (d : Dialect) :
    ((predicate p).serialize Renderer.sink {}).run.run { dialect := d }
      = (.ok (), ⟨d, ((predicate p).stream {}).spelled d.style⟩) := by
  have hwritten := (Term.single (predicate p)).serializeInto_renderer {} d ""
  rw [String.empty_append] at hwritten
  exact hwritten

/-- The parameter as the predicate shows it. -/
def shown (d : Dialect) (p : Parameter .boolean) : String :=
  if p.isNull then "NULL" else d.booleanLiteral p.value

/-- The texts of the predicate in front of the parameter. -/
def predicateFront : List String :=
  ["(", "(", "users", ".", "active", " ", "AND", " ", "(", "NOT", " ", "users", ".", "banned", ")", ")",
    " ", "OR", " "]

/-- The predicate in writing; only the parameter is not fixed. -/
theorem spelled_predicate (p : Parameter .boolean) (d : Dialect) :
    ((predicate p).stream {}).spelled d.style
      = "((users.active AND (NOT users.banned)) OR " ++ shown d p ++ ")" := by
  have htoken : (if p.isNull then Token.null else Token.ofNative p.value).spelling d.style
      = shown d p := by
    rw [shown]
    split <;> rfl
  have hstream : (predicate p).stream {}
      = .texts predicateFront
        ++ (.one (if p.isNull then .null else .ofNative p.value) ++ .texts [")"]) := rfl
  have hfront : (TokenStream.texts predicateFront).spelled d.style
      = "((users.active AND (NOT users.banned)) OR " := by
    refine String.toList_injective ?_
    rw [TokenStream.toList_spelled_texts]
    decide
  have hone : ∀ t : Token, (TokenStream.one t).spelled d.style = t.spelling d.style := fun t => by
    simp [TokenStream.spelled, TokenStream.one]
  have hclose : (TokenStream.texts [")"]).spelled d.style = ")" := by
    refine String.toList_injective ?_
    rw [TokenStream.toList_spelled_texts]
    decide
  rw [hstream, TokenStream.spelled_append rfl, TokenStream.spelled_append rfl, hfront, hone, hclose,
    htoken, String.append_assoc]

/-! ## 3. The lines -/

/-- The lines that report a rendering: the dialect, the predicate with the parameter in it, and the
parameter on its own. -/
def renderReport (d : Dialect) (value : Option Bool) (trivialIsNull : Bool) : List String :=
  let p : Parameter .boolean := Parameter.setOption { trivialIsNull } value
  ["dialect:   " ++ d.kind.name,
    "predicate: " ++ ("((users.active AND (NOT users.banned)) OR " ++ shown d p ++ ")"),
    "parameter: " ++ parameterReport d p]

/-- A text that is no word for a value is what is wrong. -/
theorem renderLines_of_wordless (d : Dialect) {text : String} (h : ¬ IsParameterWord text)
    (trivialIsNull : Bool) : renderLines d text trivialIsNull = .error (.parameter text) := by
  simp only [renderLines, parameterValue?_eq_none_iff.2 h]

/-- The lines of a parameter that has a value. -/
theorem renderLines_of_parameterValue? (d : Dialect) {text : String} {value : Option Bool}
    (h : parameterValue? text = some value) (trivialIsNull : Bool) :
    renderLines d text trivialIsNull = .ok (renderReport d value trivialIsNull) := by
  simp only [renderLines, h, run_predicate, spelled_predicate]
  rfl

end QueryTerms.CommandLine
