/-
QueryTerms.Proofs.ParameterViews — the two views of a rendered parameter agree.

The rendering command shows its parameter twice. In the predicate an expression writes it through a
renderer, NULL while it is NULL; on its own it is reported by the reason why it is NULL, if it is, and
else by the dialect's literal. Whatever the text, the policy and the dialect, the two are NULL together
or the same literal (`ViewsAgree`), and the text alone decides which, by the words for a value.

  §1  the two views
  §2  runs of the command
-/
import QueryTerms.Proofs.ArgumentItems
import QueryTerms.Proofs.CommandRuns
import QueryTerms.Proofs.LetterCase
import QueryTerms.Proofs.OptionTransfer
import QueryTerms.Proofs.UniqueReading

namespace QueryTerms.CommandLine

/-! ## 1. The two views -/

/-- What the two views of a parameter have in common: the view in the predicate, and the view on its
own. They are NULL together, or the same literal of a value that the text names. They are NULL exactly
for a word for NULL, and for a word for false under the policy; the latter alone is marked. A literal
is read as the value that the text names. -/
structure ViewsAgree (d : Dialect) (text : String) (trivialIsNull : Bool) (x y : String) : Prop where
  null_or_literal : (x = "NULL" ∧ (y = "NULL" ∨ y = "NULL (trivial value)"))
    ∨ ∃ v, Among (valueWords (some v)) text ∧ x = d.booleanLiteral v ∧ y = x
  eq_null_iff : x = "NULL"
    ↔ Among (valueWords none) text ∨ (Among (valueWords (some false)) text ∧ trivialIsNull = true)
  marked_iff : "(trivial value)".toList <:+ y.toList
    ↔ Among (valueWords (some false)) text ∧ trivialIsNull = true
  decode_eq : x ≠ "NULL" → ∀ v, Among (valueWords (some v)) text → Domain.decode .boolean (utf8 x) = v

/-- A literal is not NULL, carries no mark, and is read as its value. -/
theorem booleanLiteral_facts (d : Dialect) (v : Bool) :
    d.booleanLiteral v ≠ "NULL"
    ∧ ¬ "(trivial value)".toList <:+ (d.booleanLiteral v).toList
    ∧ Domain.decode .boolean (utf8 (d.booleanLiteral v)) = v := by
  unfold Dialect.booleanLiteral
  cases d.style <;> cases v <;> decide +kernel

section Views

variable (d : Dialect) {text : String} (trivialIsNull : Bool)

theorem shown_of_isNull {p : Parameter .boolean} (h : p.nullState ≠ .notNull) : shown d p = "NULL" := by
  have hnull : p.isNull = true := by simp [Parameter.isNull, h]
  rw [shown, if_pos hnull]

theorem shown_of_notNull {p : Parameter .boolean} (h : p.nullState = .notNull) :
    shown d p = d.booleanLiteral p.value := by
  have hnull : ¬ p.isNull = true := by simp [Parameter.isNull, h]
  rw [shown, if_neg hnull]

/-- Whatever value the text names, the two views of the parameter agree. -/
theorem viewsAgree_of_parameterValue? {value : Option Bool} (h : parameterValue? text = some value) :
    let p : Parameter .boolean := Parameter.setOption { trivialIsNull } value
    ViewsAgree d text trivialIsNull (shown d p) (parameterReport d p) := by
  intro p
  have hnames : ∀ w, Among (valueWords w) text ↔ value = w := fun w => by
    rw [← parameterValue?_eq_some_iff, h, Option.some.injEq]
  cases value with
  | none =>
    have hstate : p.nullState = .forced := Parameter.nullState_setOption_none _
    have hreport : parameterReport d p = "NULL" := by rw [parameterReport, hstate]
    rw [shown_of_isNull d (by simp [hstate]), hreport]
    exact {
      null_or_literal := .inl ⟨rfl, .inl rfl⟩
      eq_null_iff := iff_of_true rfl (.inl ((hnames none).2 rfl))
      marked_iff := iff_of_false (by decide) fun hfalse => nomatch (hnames _).1 hfalse.1
      decode_eq := fun hnot => absurd rfl hnot }
  | some v =>
    have hpolicy := Parameter.nullState_setOption_some ({ trivialIsNull } : Parameter .boolean) v
    by_cases htrivial : trivialIsNull = true ∧ v = false
    · have hstate : p.nullState = .trivialAsNull := hpolicy.trans (if_pos htrivial)
      have hreport : parameterReport d p = "NULL (trivial value)" := by rw [parameterReport, hstate]
      have hfalse : Among (valueWords (some false)) text ∧ trivialIsNull = true :=
        ⟨(hnames _).2 (congrArg some htrivial.2), htrivial.1⟩
      rw [shown_of_isNull d (by simp [hstate]), hreport]
      exact {
        null_or_literal := .inl ⟨rfl, .inr rfl⟩
        eq_null_iff := iff_of_true rfl (.inr hfalse)
        marked_iff := iff_of_true (by decide) hfalse
        decode_eq := fun hnot => absurd rfl hnot }
    · have hstate : p.nullState = .notNull := hpolicy.trans (if_neg htrivial)
      have hreport : parameterReport d p = d.booleanLiteral v := by
        rw [parameterReport, hstate]
        rfl
      have hnot : ¬ (Among (valueWords (some false)) text ∧ trivialIsNull = true) := fun hfalse =>
        htrivial ⟨hfalse.2, Option.some.inj ((hnames _).1 hfalse.1)⟩
      obtain ⟨hne, hunmarked, hdecode⟩ := booleanLiteral_facts d v
      rw [shown_of_notNull d hstate, hreport]
      exact {
        null_or_literal := .inr ⟨v, (hnames _).2 rfl, rfl, rfl⟩
        eq_null_iff := iff_of_false hne (by
          rintro (hnull | hfalse)
          · exact nomatch (hnames none).1 hnull
          · exact hnot hfalse)
        marked_iff := iff_of_false hunmarked hnot
        decode_eq := fun _ w hw => by
          obtain rfl : v = w := Option.some.inj ((hnames _).1 hw)
          exact hdecode }

end Views

/-! ## 2. Runs of the command -/

section Rendering

variable {arguments : List String} {inv : Invocation}
  (hinv : Invocation.ofArguments? arguments = some inv) {text : String} {trivialIsNull : Bool}
  (hcommand : inv.command = .render text trivialIsNull) {files : String → Option ByteArray}

include hinv hcommand

/-- With a dialect and a value, a rendering prints its report. -/
theorem run_render_of_uses {d : Dialect} (hd : inv.Uses files d) {value : Option Bool}
    (hvalue : parameterValue? text = some value) :
    run arguments files = .success (renderReport d value trivialIsNull) := by
  have hwords : ∀ other, ¬ inv.Wordless other := by
    rintro other ⟨⟨_, hother⟩, hnot⟩
    rw [hcommand] at hother
    cases hother
    rw [parameterValue?_eq_none_iff.2 hnot] at hvalue
    cases hvalue
  have hanswer : inv.answer d = renderReport d value trivialIsNull := by
    rw [Invocation.answer, hcommand]
    simp only [hvalue, Option.join_some]
  rw [run_of_uses hinv hd hwords, hanswer]

/-- A rendering that succeeds has a dialect and a value. -/
theorem exists_of_run_render (h : (run arguments files).exitCode = 0) :
    ∃ d value, inv.Uses files d ∧ parameterValue? text = some value := by
  obtain ⟨d, hd, hwords, -⟩ := exists_answer_of_exitCode_eq_zero hinv files h
  cases hvalue : parameterValue? text with
  | none =>
    exact absurd ⟨⟨trivialIsNull, hcommand⟩, parameterValue?_eq_none_iff.1 hvalue⟩ (hwords text)
  | some value => exact ⟨d, value, hd, rfl⟩

end Rendering

/-- **The two views of a rendered parameter agree.** Any text, policy and file can be asked for, under
any name of any dialect. A run that is asked to render succeeds exactly if it has a dialect to render
for and the text names a value; it then prints three lines, the dialect's kind, the predicate with one
view of the parameter, and the other view, and the views agree. -/
theorem render_views_agree {inv : Invocation} {text : String} {trivialIsNull : Bool}
    (hcommand : inv.command = .render text trivialIsNull) :
    (∀ name, inv.config ≠ some "" → Among inv.dialect.userNames name →
      Invocation.ofArguments? (inv.arguments name) = some inv)
    ∧ ∀ (arguments : List String) (files : String → Option ByteArray),
      Invocation.ofArguments? arguments = some inv →
        ((run arguments files).exitCode = 0
          ↔ (∃ d, inv.Uses files d) ∧ ∃ value, Among (valueWords value) text)
        ∧ ((run arguments files).exitCode = 0 → ∃ d x y, inv.Uses files d
          ∧ (run arguments files).standardOutput
              = "dialect:   " ++ d.kind.name ++ "\n"
                ++ ("predicate: ((users.active AND (NOT users.banned)) OR " ++ x ++ ")\n")
                ++ ("parameter: " ++ y ++ "\n")
          ∧ ViewsAgree d text trivialIsNull x y) := by
  refine ⟨fun name hconfig hname => ?_, fun arguments files hinv => ⟨⟨fun h => ?_, ?_⟩, fun h => ?_⟩⟩
  · refine Invocation.ofArguments?_arguments (Dialect.Kind.ofUserName?_eq_some_iff.2 hname) hconfig ?_
    rw [hcommand]
    exact fun h => nomatch h
  · obtain ⟨d, value, hd, hvalue⟩ := exists_of_run_render hinv hcommand h
    exact ⟨⟨d, hd⟩, value, parameterValue?_eq_some_iff.1 hvalue⟩
  · rintro ⟨⟨d, hd⟩, value, hvalue⟩
    rw [run_render_of_uses hinv hcommand hd (parameterValue?_eq_some_iff.2 hvalue)]
    rfl
  · obtain ⟨d, value, hd, hvalue⟩ := exists_of_run_render hinv hcommand h
    refine ⟨d, _, _, hd, ?_, viewsAgree_of_parameterValue? d trivialIsNull hvalue⟩
    have hfront : "predicate: ((users.active AND (NOT users.banned)) OR "
        = "predicate: " ++ "((users.active AND (NOT users.banned)) OR " := by decide
    have hclose : ")\n" = ")" ++ "\n" := by decide
    rw [run_render_of_uses hinv hcommand hd hvalue, hfront, hclose]
    simp only [Outcome.standardOutput, renderReport, List.map_cons, List.map_nil, String.join_cons,
      String.join_nil, String.append_assoc, String.append_empty]

/-- A word for false in a capital letter, under the policy, for a described dialect whose spelling is
not its kind's own. -/
theorem render_views_agree_trivial :
    let arguments := ["render", "--trivial-is-null", "-pF", "--config", "d.json"]
    let inv : Invocation :=
      { dialect := .postgres, config := some "d.json", debug := false, command := .render "F" true }
    let files : String → Option ByteArray := fun _ => some "[\"sqlite\",\"keyword\"]".toUTF8
    Invocation.ofArguments? arguments = some inv
    ∧ (run arguments files).exitCode = 0
    ∧ (run arguments files).standardOutput
        = "dialect:   sqlite\n"
          ++ "predicate: ((users.active AND (NOT users.banned)) OR NULL)\n"
          ++ "parameter: NULL (trivial value)\n" := by
  intro arguments inv files
  have hinv : Invocation.ofArguments? arguments = some inv := by decide +kernel
  have hfile : Dialect.ofFile (files "d.json") = .ok ⟨.sqlite, some .keyword⟩ := by decide +kernel
  have hfalse : Among (valueWords (some false)) "F" := ⟨"f", by decide, by decide +kernel⟩
  have hcommand : inv.command = .render "F" true := rfl
  obtain ⟨-, hruns⟩ := render_views_agree hcommand
  obtain ⟨hexit, hprints⟩ := hruns arguments files hinv
  have hzero := hexit.2 ⟨⟨_, .inr ⟨"d.json", rfl, hfile⟩⟩, _, hfalse⟩
  obtain ⟨d, x, y, hd, hprinted, hviews⟩ := hprints hzero
  obtain rfl : x = "NULL" := hviews.eq_null_iff.2 (.inr ⟨hfalse, rfl⟩)
  obtain rfl : d = ⟨.sqlite, some .keyword⟩ := by
    rcases hd with ⟨⟨⟩, -⟩ | ⟨path, hpath, hload⟩
    obtain rfl : "d.json" = path := Option.some.inj hpath
    exact Except.ok.inj (hload.symm.trans hfile)
  have hmarked := hviews.marked_iff.2 ⟨hfalse, rfl⟩
  refine ⟨hinv, hzero, ?_⟩
  rcases hviews.null_or_literal with ⟨-, rfl | rfl⟩ | ⟨v, -, hliteral, -⟩
  · exact absurd hmarked (by decide)
  · exact hprinted.trans (by decide)
  · exact absurd hliteral.symm (booleanLiteral_facts _ v).1

end QueryTerms.CommandLine
