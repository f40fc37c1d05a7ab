/-
QueryTerms.Proofs.Frames — terms with places left open.

A frame is a term in which any number of places are left open for an expression of one domain, inside
expressions and lists of any depth. Filling the places puts the same expression into each. How a term
is written depends on the gist of its view, which is made up from the gists of its parts; so
expressions of one gist can stand in for each other in every frame, and in every context the outcome
is the same (`Term.Frame.serializeInto_fill`). The two may even belong to different stores, as long as
the fields of the frame itself show the same in both.
-/
import QueryTerms.Proofs.VisibleTerms

namespace QueryTerms

/-! ## 1. Terms with places left open -/

/-- An expression with any number of places left open for an expression of a domain. -/
inductive Expr.Frame (d : Domain) : Domain → Type where
  | place : Expr.Frame d d
  | closed {e : Domain} (expr : Expr e) : Expr.Frame d e
  | binary (op : BooleanOperator) (left right : Expr.Frame d .boolean) : Expr.Frame d .boolean
  | not (operand : Expr.Frame d .boolean) : Expr.Frame d .boolean

/-- A term with any number of places left open, through lists of any depth. -/
inductive Term.Frame (d e : Domain) where
  | single (frame : Expr.Frame d e)
  | list (items : List (Term.Frame d e))

section

variable {d : Domain}

/-- Puts an expression into every place. -/
def Expr.Frame.fill (x : Expr d) : {e : Domain} → Expr.Frame d e → Expr e
  | _, .place => x
  | _, .closed expr => expr
  | _, .binary op left right => .binary op (left.fill x) (right.fill x)
  | _, .not operand => .not (operand.fill x)

/-- The fields that are in a frame already. -/
def Expr.Frame.fields : {e : Domain} → Expr.Frame d e → List Field
  | _, .place => []
  | _, .closed expr => expr.fields
  | _, .binary _ left right => left.fields ++ right.fields
  | _, .not operand => operand.fields

mutual

/-- Puts an expression into every place. -/
def Term.Frame.fill {e : Domain} (x : Expr d) : Term.Frame d e → Term e
  | .single frame => .single (frame.fill x)
  | .list items => .list (Term.Frame.fillAll x items)

/-- Puts an expression into every place of several frames. -/
def Term.Frame.fillAll {e : Domain} (x : Expr d) : List (Term.Frame d e) → List (Term e)
  | [] => []
  | item :: items => item.fill x :: Term.Frame.fillAll x items

end

mutual

/-- The fields that are in a frame already. -/
def Term.Frame.fields {e : Domain} : Term.Frame d e → List Field
  | .single frame => frame.fields
  | .list items => Term.Frame.fieldsOfAll items

/-- The fields that are in several frames already. -/
def Term.Frame.fieldsOfAll {e : Domain} : List (Term.Frame d e) → List Field
  | [] => []
  | item :: items => item.fields ++ Term.Frame.fieldsOfAll items

end

end

/-! ## 2. What fills the places -/

/-- What an expression shows depends on what its fields show. -/
theorem Expr.view_congr {s t : Store} {e : Domain} (expr : Expr e)
    (h : ∀ f ∈ expr.fields, f.view t = f.view s) : expr.view t = expr.view s := by
  induction expr with
  | literal v => rfl
  | column table name => rfl
  | parameter p => rfl
  | orNull p => rfl
  | field f => rw [Expr.view, Expr.view, h f (by simp [Expr.fields])]
  | binary op left right ihl ihr =>
      rw [Expr.fields, List.forall_mem_append] at h
      rw [Expr.view, Expr.view, ihl h.1, ihr h.2]
  | not operand ih => rw [Expr.view, Expr.view, ih h]

section

variable {d : Domain} {s t : Store} {x y : Expr d}

/-- The gist of a filled frame depends on the gist of what fills it, and on what the frame's own fields
show. -/
theorem Expr.Frame.gist_fill (hxy : (y.view t).gist = (x.view s).gist) {e : Domain}
    (frame : Expr.Frame d e) (h : ∀ f ∈ frame.fields, f.view t = f.view s) :
    ((frame.fill y).view t).gist = ((frame.fill x).view s).gist := by
  induction frame with
  | place => exact hxy
  | closed expr => exact congrArg TermView.gist (expr.view_congr h)
  | binary op left right ihl ihr =>
      rw [Expr.Frame.fields, List.forall_mem_append] at h
      rw [fill, fill, Expr.view, Expr.view, TermView.gist, TermView.gist, ihl h.1, ihr h.2]
  | not operand ih =>
      rw [fill, fill, Expr.view, Expr.view, TermView.gist, TermView.gist, ih h]

mutual

theorem Term.Frame.gist_fill (hxy : (y.view t).gist = (x.view s).gist) {e : Domain} :
    ∀ frame : Term.Frame d e, (∀ f ∈ frame.fields, f.view t = f.view s) →
      ((frame.fill y).view t).gist = ((frame.fill x).view s).gist
  | .single frame, h => by
      rw [Term.Frame.fields] at h
      rw [Term.Frame.fill, Term.Frame.fill, Term.view, Term.view, frame.gist_fill hxy h]
  | .list items, h => by
      rw [Term.Frame.fields] at h
      rw [Term.Frame.fill, Term.Frame.fill, Term.view, Term.view, TermView.gist, TermView.gist,
        Term.Frame.gistOfAll_fillAll hxy items h]

theorem Term.Frame.gistOfAll_fillAll (hxy : (y.view t).gist = (x.view s).gist) {e : Domain} :
    ∀ items : List (Term.Frame d e), (∀ f ∈ Term.Frame.fieldsOfAll items, f.view t = f.view s) →
      TermView.gistOfAll (Term.viewAll t (Term.Frame.fillAll y items))
        = TermView.gistOfAll (Term.viewAll s (Term.Frame.fillAll x items))
  | [], _ => by rw [Term.Frame.fillAll, Term.Frame.fillAll, Term.viewAll, Term.viewAll]
  | item :: items, h => by
      rw [Term.Frame.fieldsOfAll, List.forall_mem_append] at h
      rw [Term.Frame.fillAll, Term.Frame.fillAll, Term.viewAll, Term.viewAll, TermView.gistOfAll,
        TermView.gistOfAll, item.gist_fill hxy h.1, Term.Frame.gistOfAll_fillAll hxy items h.2]

end

/-- **Expressions of one gist can stand in for each other.** Whatever term is built around them, it is
written alike into every sink, to the same end. -/
theorem Term.Frame.serializeInto_fill (hxy : (y.view t).gist = (x.view s).gist) {e : Domain}
    (frame : Term.Frame d e) (h : ∀ f ∈ frame.fields, f.view t = f.view s) {σ : Type} (k : Sink σ)
    (state : σ) : (frame.fill y).serializeInto k t state = (frame.fill x).serializeInto k s state :=
  Term.serializeInto_congr (frame.gist_fill hxy h) k state

end

end QueryTerms
