/-
QueryTerms.Expr — typed expressions, and lists of them.

An expression yields one value of its domain; only expressions of truth values can be operands. A term
is an expression or a list of terms of one domain, nested to any depth. A list yields several values,
so it is no operand.

Serializing a term hands its tokens to a sink from left to right and stops at the first failure: of the
sink, or of a field that holds no row.
-/
import QueryTerms.Parameter
import QueryTerms.Field

namespace QueryTerms

/-! ## 1. Trees -/

/-- The operators between two truth values. -/
inductive BooleanOperator where
  | and
  | or
  deriving DecidableEq, Repr

/-- The word an operator is written with. -/
def BooleanOperator.word : BooleanOperator → String
  | .and => "AND"
  | .or => "OR"

/-- The word that negates a truth value. -/
def negationWord : String := "NOT"

/-- An expression that yields one value of a domain. -/
inductive Expr : Domain → Type where
  | literal {d : Domain} (v : d.Native) : Expr d
  | column {d : Domain} (table name : String) : Expr d
  /-- A parameter, written as its value even when it is NULL. -/
  | parameter {d : Domain} (p : Parameter d) : Expr d
  /-- A parameter, written as NULL while it is NULL. -/
  | orNull {d : Domain} (p : Parameter d) : Expr d
  | field (f : Field) : Expr f.slot.domain
  | binary (op : BooleanOperator) (left right : Expr .boolean) : Expr .boolean
  | not (operand : Expr .boolean) : Expr .boolean

/-- An expression, or a list of terms of one domain. -/
inductive Term (d : Domain) where
  | single (e : Expr d)
  | list (items : List (Term d))

/-- Whether a term yields exactly one value. -/
def Term.isSingle {d : Domain} : Term d → Bool
  | .single _ => true
  | .list _ => false

/-! ## 2. Serializing -/

/-- Why serializing stopped. -/
inductive SerializeError where
  /-- The sink did not take a token. -/
  | sinkFailed
  | access (e : AccessError)
  deriving DecidableEq, Repr

/-- What a user is told about a serialization that failed. -/
def SerializeError.message : SerializeError → String
  | .sinkFailed => "Failed to write to output sink"
  | .access e => e.message

/-- Writing into a sink of state `σ`: what was written before a failure stays. -/
abbrev Writing (σ : Type) := ExceptT SerializeError (StateM σ)

/-- Hands one token to a sink; a token not taken stops the writing. -/
def Sink.put {σ : Type} (k : Sink σ) (t : Token) : Writing σ Unit := do
  if ← k.write t then pure () else throw .sinkFailed

/-- Writes the value of a field. -/
def Field.serialize {σ : Type} (k : Sink σ) (s : Store) (f : Field) : Writing σ Unit :=
  match f.value? s with
  | .ok v => k.put (.ofNative v)
  | .error e => throw (.access e)

/-- Writes an expression; every operator stands in parentheses of its own. -/
def Expr.serialize {σ : Type} (k : Sink σ) (s : Store) : {d : Domain} → Expr d → Writing σ Unit
  | _, .literal v => k.put (.ofNative v)
  | _, .column table name => do
    k.put (.text table)
    k.put (.text ".")
    k.put (.text name)
  | _, .parameter p => k.put (.ofNative p.value)
  | _, .orNull p => if p.isNull then k.put .null else k.put (.ofNative p.value)
  | _, .field f => f.serialize k s
  | _, .binary op left right => do
    k.put (.text "(")
    left.serialize k s
    k.put (.text " ")
    k.put (.text op.word)
    k.put (.text " ")
    right.serialize k s
    k.put (.text ")")
  | _, .not operand => do
    k.put (.text "(")
    k.put (.text negationWord)
    k.put (.text " ")
    operand.serialize k s
    k.put (.text ")")

mutual

/-- Writes a term. -/
def Term.serialize {σ : Type} {d : Domain} (k : Sink σ) (s : Store) : Term d → Writing σ Unit
  | .single e => e.serialize k s
  | .list items => Term.serializeItems k s false items

/-- Writes the items of a list; once an item stands before them, each has a separator before it. -/
def Term.serializeItems {σ : Type} {d : Domain} (k : Sink σ) (s : Store) :
    Bool → List (Term d) → Writing σ Unit
  | _, [] => pure ()
  | follows, item :: items => do
    if follows then k.put (.text ", ")
    item.serialize k s
    Term.serializeItems k s true items

end

/-- The outcome of serializing a term into a sink, and the sink's state afterwards. -/
def Term.serializeInto {σ : Type} {d : Domain} (k : Sink σ) (s : Store) (t : Term d) (state : σ) :
    Except SerializeError Unit × σ :=
  (t.serialize k s).run.run state

/-! ## 3. Terms of either domain -/

/-- A term of either domain. -/
structure AnyTerm where
  domain : Domain
  term : Term domain

namespace AnyTerm

/-- An expression as a term. -/
def single {d : Domain} (e : Expr d) : AnyTerm :=
  ⟨d, .single e⟩

/-- The term, if it is of the domain asked for. -/
def as? (t : AnyTerm) (d : Domain) : Option (Term d) :=
  if h : t.domain = d then some (h ▸ t.term) else none

/-- The expression, if the term may be an operand. -/
def operand? (t : AnyTerm) : Option (Expr .boolean) := do
  match ← t.as? .boolean with
  | .single e => some e
  | .list _ => none

/-- The list of these terms; all are of one domain, which must be given if there are none. -/
def list? (d : Option Domain) (items : List AnyTerm) : Option AnyTerm := do
  let d ← (items.head?.map AnyTerm.domain).or d
  pure ⟨d, .list (← items.mapM (·.as? d))⟩

end AnyTerm

end QueryTerms
