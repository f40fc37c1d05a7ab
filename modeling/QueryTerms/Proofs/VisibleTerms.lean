/-
QueryTerms.Proofs.VisibleTerms — a term is written as it is seen.

What a term shows of itself (`Term.view`) holds no storage and no history. Its text depends on even
less, on the gist of the view: of a parameter written as its value nothing but the value, of one that
may be written as NULL also whether it is NULL, of a field the value or the refusal to show it. The
stream of a term is a function of the gist (`Term.stream_eq_gist`), and every sink is handed the
stream, so two terms with one gist are written alike into every sink, failures included, from whatever
workspaces they come.

  §1  the gist of a view
  §2  the stream of a gist is the stream of the term
  §3  which leaves have one gist
  §4  the main statement
-/
import QueryTerms.Proofs.SessionEffects
import QueryTerms.Proofs.TokenStream

namespace QueryTerms

/-! ## 1. The gist of a view -/

/-- What is left of the view of a term without all that its text does not depend on. -/
inductive Gist where
  | literal (v : Value)
  | column (table name : String)
  | parameter (v : Value)
  | orNull (v : Value) (isNull : Bool)
  | field (answer : Except AccessError Value)
  | binary (op : BooleanOperator) (left right : Gist)
  | not (operand : Gist)
  | list (items : List Gist)

mutual

/-- The gist of a view. -/
def TermView.gist : TermView → Gist
  | .literal v => .literal v
  | .column table name => .column table name
  | .parameter v => .parameter ⟨v.domain, v.value⟩
  | .orNull v => .orNull ⟨v.domain, v.value⟩ v.isNull
  | .field v => .field (v.value.map fun native => ⟨v.domain, native⟩)
  | .binary op left right => .binary op left.gist right.gist
  | .not operand => .not operand.gist
  | .list items => .list (TermView.gistOfAll items)

/-- The gists of several views. -/
def TermView.gistOfAll : List TermView → List Gist
  | [] => []
  | v :: vs => v.gist :: TermView.gistOfAll vs

end

/-! ## 2. The stream of a gist is the stream of the term -/

mutual

/-- The stream of every term that has this gist. -/
def Gist.stream : Gist → TokenStream
  | .literal v => .one (.ofNative v.native)
  | .column table name => .texts [table, ".", name]
  | .parameter v => .one (.ofNative v.native)
  | .orNull v isNull => .one (if isNull then .null else .ofNative v.native)
  | .field (.ok v) => .one (.ofNative v.native)
  | .field (.error e) => { failure := some e }
  | .binary op left right =>
    .texts ["("] ++ (left.stream ++ (.texts [" ", op.word, " "] ++ (right.stream ++ .texts [")"])))
  | .not operand => .texts ["(", negationWord, " "] ++ (operand.stream ++ .texts [")"])
  | .list items => Gist.streamOfItems false items

/-- The stream of the items of a list; once an item stands before them, each has a separator before
it. -/
def Gist.streamOfItems : Bool → List Gist → TokenStream
  | _, [] => {}
  | follows, item :: items =>
    .texts (if follows then [", "] else []) ++ (item.stream ++ Gist.streamOfItems true items)

end

theorem Expr.stream_eq_gist (s : Store) {d : Domain} (e : Expr d) :
    e.stream s = (e.view s).gist.stream := by
  induction e with
  | literal v => simp [Expr.stream, Expr.view, TermView.gist, Gist.stream]
  | column table name => simp [Expr.stream, Expr.view, TermView.gist, Gist.stream]
  | parameter p => simp [Expr.stream, Expr.view, TermView.gist, Gist.stream, Parameter.view]
  | orNull p => simp [Expr.stream, Expr.view, TermView.gist, Gist.stream, Parameter.view]
  | field f =>
      have hvalue : (f.view s).value = f.value? s := rfl
      rw [Expr.stream, Field.stream, Expr.view, TermView.gist, hvalue]
      cases f.value? s with
      | ok v => rfl
      | error e => rfl
  | binary op left right ihl ihr =>
      simp [Expr.stream, Expr.view, TermView.gist, Gist.stream, ihl, ihr]
  | not operand ih => simp [Expr.stream, Expr.view, TermView.gist, Gist.stream, ih]

mutual

/-- The stream of a term depends on the gist of its view alone. -/
theorem Term.stream_eq_gist {d : Domain} (s : Store) :
    ∀ t : Term d, t.stream s = (t.view s).gist.stream
  | .single e => by rw [Term.stream, Term.view, e.stream_eq_gist]
  | .list items => by
      rw [Term.stream, Term.view, TermView.gist, Gist.stream, Term.streamOfItems_eq_gist]

theorem Term.streamOfItems_eq_gist {d : Domain} (s : Store) :
    ∀ (follows : Bool) (items : List (Term d)), Term.streamOfItems s follows items
      = Gist.streamOfItems follows (TermView.gistOfAll (Term.viewAll s items))
  | _, [] => by rw [Term.streamOfItems, Term.viewAll, TermView.gistOfAll, Gist.streamOfItems]
  | follows, item :: items => by
      rw [Term.streamOfItems, Term.viewAll, TermView.gistOfAll, Gist.streamOfItems,
        item.stream_eq_gist s, Term.streamOfItems_eq_gist s true items]

end

/-- Terms of one gist are written alike into every sink. -/
theorem Term.serializeInto_congr {d d' : Domain} {s s' : Store} {t : Term d} {t' : Term d'}
    (h : (t'.view s').gist = (t.view s).gist) {σ : Type} (k : Sink σ) (x : σ) :
    t'.serializeInto k s' x = t.serializeInto k s x := by
  rw [t.serializeInto_eq_play, t'.serializeInto_eq_play, t.stream_eq_gist, t'.stream_eq_gist, h]

theorem Expr.serializeInto_congr {d d' : Domain} {s s' : Store} {e : Expr d} {e' : Expr d'}
    (h : (e'.view s').gist = (e.view s).gist) {σ : Type} (k : Sink σ) (x : σ) :
    (Term.single e').serializeInto k s' x = (Term.single e).serializeInto k s x :=
  Term.serializeInto_congr (by rwa [Term.view, Term.view]) k x

/-- And so they are into every target of a session. -/
theorem Workspace.renderTo_congr {d d' : Domain} {s s' : Store} {t : Term d} {t' : Term d'}
    (h : (t'.view s').gist = (t.view s).gist) (target : Target) :
    renderTo s' t' target = renderTo s t target := by
  cases target with
  | dialect c => simp only [renderTo, Term.serializeInto_congr h]
  | plain => simp only [renderTo, Term.serializeInto_congr h]
  | tagged => simp only [renderTo, Term.serializeInto_congr h]
  | limited room => simp only [renderTo, Term.serializeInto_congr h]

/-! ## 3. Which leaves have one gist -/

/-- Of a parameter written as its value, the value counts. -/
theorem Expr.gist_parameter_eq_iff {d : Domain} (p q : Parameter d) (s s' : Store) :
    ((Expr.parameter q).view s').gist = ((Expr.parameter p).view s).gist ↔ q.value = p.value := by
  simp [Expr.view, TermView.gist, Parameter.view]

/-- Of a parameter that may be written as NULL, the value counts, and whether it is NULL. -/
theorem Expr.gist_orNull_eq_iff {d : Domain} (p q : Parameter d) (s s' : Store) :
    ((Expr.orNull q).view s').gist = ((Expr.orNull p).view s).gist
      ↔ q.value = p.value ∧ q.isNull = p.isNull := by
  simp [Expr.view, TermView.gist, Parameter.view]

theorem Field.value_view (f : Field) (s : Store) :
    (f.view s).value.map (fun native => (⟨f.domain, native⟩ : Value))
      = if f.isValid then .ok ⟨f.domain, (s.get f.slot).value⟩
        else .error (.nonExistentRow .value) := by
  simp only [Field.view, Field.value?, Field.cell?]
  split <;> rfl

/-- Of a field, validity and the stored value count. -/
theorem Expr.gist_field_eq {f g : Field} {s s' : Store} (hvalid : g.isValid = f.isValid)
    (hvalue : (⟨g.domain, (s'.get g.slot).value⟩ : Value) = ⟨f.domain, (s.get f.slot).value⟩) :
    ((Expr.field g).view s').gist = ((Expr.field f).view s).gist := by
  have hf := f.value_view s
  have hg := g.value_view s'
  rw [hvalue, hvalid] at hg
  exact congrArg Gist.field (hg.trans hf.symm)

/-! ## 4. The main statement -/

namespace Workspace

theorem run_showTerm_eq_some {description : TermDescription} {w w' : Workspace} {answer : Answer} :
    (perform (.showTerm description)).run w = some (answer, w')
      ↔ ∃ t, (makeTerm description).run w = some (t, w') ∧ answer = .term (t.term.view w'.store) := by
  rw [perform, showTerm, run_bind_eq_some]
  constructor
  · intro h
    obtain ⟨t, w₁, hterm, hanswer⟩ := h
    obtain ⟨rfl, rfl⟩ := run_pure_eq_some.1 hanswer
    exact ⟨t, hterm, rfl⟩
  · intro h
    obtain ⟨t, hterm, rfl⟩ := h
    exact ⟨t, w', hterm, rfl⟩

/-- A term that can be made can be rendered. -/
theorem run_render {description : TermDescription} {w w' : Workspace} {t : AnyTerm}
    (h : (makeTerm description).run w = some (t, w')) (target : Target) :
    (perform (.render description target)).run w
      = some (.rendered (renderTo w'.store t.term target).1 (renderTo w'.store t.term target).2
          t.domain t.term.isSingle, w') := by
  rw [perform, render, run_bind_eq_some]
  exact ⟨t, w', h, rfl⟩

/-- **What the accessors show of a term determines how it is written.** Two terms with the same view,
in whatever stores, are written with the same text and the same result into every sink, also where that
fails; it is enough that the gists of the views agree. So terms that two sessions show alike are
rendered alike by both, into any target. Of a parameter the value alone counts where it is written as
its value, and the value and whether it is NULL where it may be written as NULL, but not its policy nor
why it is NULL; of a field validity and the stored value count, but not whether it is NULL. -/
theorem rendered_as_seen :
    (∀ {d d' : Domain} (s s' : Store) (t : Term d) (t' : Term d'),
        t'.view s' = t.view s ∨ (t'.view s').gist = (t.view s).gist →
          ∀ {σ : Type} (k : Sink σ) (x : σ), t'.serializeInto k s' x = t.serializeInto k s x)
    ∧ (∀ description description' w w' v w₁ w₁',
        (perform (.showTerm description)).run w = some (.term v, w₁) →
        (perform (.showTerm description')).run w' = some (.term v, w₁') →
          ∀ target, ∃ result text d d' single single',
            (perform (.render description target)).run w
                = some (.rendered result text d single, w₁)
            ∧ (perform (.render description' target)).run w'
                = some (.rendered result text d' single', w₁'))
    ∧ (∀ {d : Domain} (p q : Parameter d) (s s' : Store) {σ : Type} (k : Sink σ) (x : σ),
        q.value = p.value →
          (Term.single (.parameter q)).serializeInto k s' x
              = (Term.single (.parameter p)).serializeInto k s x
          ∧ (q.isNull = p.isNull → (Term.single (.orNull q)).serializeInto k s' x
              = (Term.single (.orNull p)).serializeInto k s x))
    ∧ ∀ (f g : Field) (s s' : Store) {σ : Type} (k : Sink σ) (x : σ), g.isValid = f.isValid →
        (⟨g.domain, (s'.get g.slot).value⟩ : Value) = ⟨f.domain, (s.get f.slot).value⟩ →
          (Term.single (.field g)).serializeInto k s' x
            = (Term.single (.field f)).serializeInto k s x := by
  refine ⟨fun s s' t t' h σ k x => ?_, ?_, fun p q s s' σ k x hvalue => ⟨?_, fun hnull => ?_⟩,
    fun f g s s' σ k x hvalid hvalue =>
      Expr.serializeInto_congr (Expr.gist_field_eq hvalid hvalue) k x⟩
  · exact Term.serializeInto_congr (h.elim (congrArg TermView.gist) id) k x
  · intro description description' w w' v w₁ w₁' h h' target
    obtain ⟨t, hterm, hview⟩ := run_showTerm_eq_some.1 h
    obtain ⟨t', hterm', hview'⟩ := run_showTerm_eq_some.1 h'
    have hsame : t'.term.view w₁'.store = t.term.view w₁.store :=
      Answer.term.inj (hview'.symm.trans hview)
    have hrender := run_render hterm' target
    rw [renderTo_congr (congrArg TermView.gist hsame)] at hrender
    exact ⟨_, _, _, _, _, _, run_render hterm target, hrender⟩
  · exact Expr.serializeInto_congr ((Expr.gist_parameter_eq_iff p q s s').2 hvalue) k x
  · exact Expr.serializeInto_congr ((Expr.gist_orNull_eq_iff p q s s').2 ⟨hvalue, hnull⟩) k x

/-- Two terms in stores that have no slot in common: a parameter is NULL by force or by policy, a field
that reads true is NULL or not, and a field without a row has something stored behind it or not. They
are cut short alike. And a field is made and shown in two workspaces. -/
theorem rendered_as_seen_apart :
    let p : Parameter .boolean := { forcedNull := true }
    let q : Parameter .boolean := { trivialIsNull := true }
    let s : Store := ({} : Store).put ⟨.boolean, 0⟩ ⟨true, true⟩
    let s' : Store := (({} : Store).set ⟨.boolean, 3⟩ true).set ⟨.boolean, 4⟩ true
    let t : Term .boolean := .list [.single (.binary .or (.orNull p) (.field ⟨⟨.boolean, 0⟩, true⟩)),
      .single (.field ⟨⟨.boolean, 1⟩, false⟩)]
    let t' : Term .boolean := .list [.single (.binary .or (.orNull q) (.field ⟨⟨.boolean, 3⟩, true⟩)),
      .single (.field ⟨⟨.boolean, 4⟩, false⟩)]
    (t'.view s').gist = (t.view s).gist
    ∧ t'.serializeInto Renderer.sink s' { dialect := {} }
        = t.serializeInto Renderer.sink s { dialect := {} }
    ∧ t.serializeInto Renderer.sink s { dialect := {} }
        = (.error (.access (.nonExistentRow .value)), { dialect := {}, text := "(NULL OR true), " })
    ∧ (Term.single (.parameter q)).serializeInto Sink.plain s' ""
        = (Term.single (.parameter p)).serializeInto Sink.plain s ""
    ∧ (Term.single (.orNull q)).serializeInto Sink.plain s' ""
        = (Term.single (.orNull p)).serializeInto Sink.plain s ""
    ∧ (Term.single (.field ⟨⟨.boolean, 3⟩, true⟩)).serializeInto Sink.plain s' ""
        = (Term.single (.field ⟨⟨.boolean, 0⟩, true⟩)).serializeInto Sink.plain s ""
    ∧ ∃ v w₁ w₁', (perform (.showTerm (.not (.decoded none)))).run {} = some (.term v, w₁)
      ∧ (perform (.showTerm (.not (.decoded none)))).run { store := s' } = some (.term v, w₁')
      ∧ ∃ result text d d' single single',
        (perform (.render (.not (.decoded none)) .tagged)).run {}
            = some (.rendered result text d single, w₁)
        ∧ (perform (.render (.not (.decoded none)) .tagged)).run { store := s' }
            = some (.rendered result text d' single', w₁') := by
  intro p q s s' t t'
  obtain ⟨hterms, hshown, hparameters, hfields⟩ := rendered_as_seen
  have hgist : (t'.view s').gist = (t.view s).gist := rfl
  have hparameter := hparameters p q s s' Sink.plain "" rfl
  have hshow : (perform (.showTerm (.not (.decoded none)))).run {} = some (.term _, _) := rfl
  have hshow' : (perform (.showTerm (.not (.decoded none)))).run { store := s' }
    = some (.term _, _) := rfl
  exact ⟨hgist, hterms s s' t t' (Or.inr hgist) _ _, rfl, hparameter.1, hparameter.2 rfl,
    hfields _ _ s s' Sink.plain "" rfl rfl, _, _, _, hshow, hshow',
    hshown _ _ _ _ _ _ _ hshow hshow' .tagged⟩

end Workspace

end QueryTerms
