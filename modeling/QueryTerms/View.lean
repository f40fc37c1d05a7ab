/-
QueryTerms.View — what parameters, storage, rows and terms show of themselves.

A view holds every answer that an object gives, and nothing else: no storage and no history. Two
objects with equal views cannot be told apart by asking them.
-/
import QueryTerms.Cursor
import QueryTerms.Expr

namespace QueryTerms

/-! ## 1. Parameters and storage -/

/-- The answers of a parameter. -/
structure ParameterView where
  domain : Domain
  value : domain.Native
  isNull : Bool
  nullState : NullState
  trivialIsNull : Bool
  option : Option domain.Native

/-- The answers of a parameter. -/
def Parameter.view {d : Domain} (p : Parameter d) : ParameterView :=
  { domain := d
    value := p.value
    isNull := p.isNull
    nullState := p.nullState
    trivialIsNull := p.trivialIsNull
    option := p.asOption }

/-- A cell and the domain of its value. -/
structure CellView where
  domain : Domain
  cell : Cell domain

/-- The cell of a slot, as stored. -/
def Slot.view (slot : Slot) (s : Store) : CellView :=
  ⟨slot.domain, s.get slot⟩

/-! ## 2. Fields and rows -/

/-- The answers of a field. -/
structure FieldView where
  domain : Domain
  isValid : Bool
  value : Except AccessError domain.Native
  isNull : Except AccessError Bool
  option : Except AccessError (Option domain.Native)
  display : Option String

/-- The answers of a field. -/
def Field.view (f : Field) (s : Store) : FieldView :=
  { domain := f.domain
    isValid := f.isValid
    value := f.value? s
    isNull := f.isNull? s
    option := f.asOption? s
    display := f.display? s }

/-- The answers of every field of a row. -/
inductive RowView where
  | field (v : FieldView)
  | tuple (members : List RowView)

mutual

/-- The answers of every field of a row. -/
def Row.view (s : Store) : Row → RowView
  | .field f => .field (f.view s)
  | .tuple members => .tuple (Row.viewAll s members)

/-- The views of several rows. -/
def Row.viewAll (s : Store) : List Row → List RowView
  | [] => []
  | row :: rows => row.view s :: Row.viewAll s rows

end

/-! ## 3. Buffers and cursors -/

/-- The answers of a row buffer. -/
structure BufferView where
  remaining : Nat
  fetched : Nat
  bound : Nat
  deriving DecidableEq

/-- The answers of a row buffer. -/
def RowBuffer.view (b : RowBuffer) : BufferView :=
  ⟨b.remaining, b.fetched, b.boundColumns⟩

/-- The answers of a cursor. -/
structure CursorView where
  rowsFetched : Nat
  exhausted : Bool
  row : RowView

/-- The answers of a cursor. -/
def Cursor.view (c : Cursor) (s : Store) : CursorView :=
  ⟨c.rowsFetched, c.exhausted, c.row.view s⟩

/-! ## 4. Terms -/

/-- A term as its parts show themselves. -/
inductive TermView where
  | literal (v : Value)
  | column (table name : String)
  | parameter (v : ParameterView)
  | orNull (v : ParameterView)
  | field (v : FieldView)
  | binary (op : BooleanOperator) (left right : TermView)
  | not (operand : TermView)
  | list (items : List TermView)

/-- An expression as its parts show themselves. -/
def Expr.view (s : Store) : {d : Domain} → Expr d → TermView
  | d, .literal v => .literal ⟨d, v⟩
  | _, .column table name => .column table name
  | _, .parameter p => .parameter p.view
  | _, .orNull p => .orNull p.view
  | _, .field f => .field (f.view s)
  | _, .binary op left right => .binary op (left.view s) (right.view s)
  | _, .not operand => .not (operand.view s)

mutual

/-- A term as its parts show themselves. -/
def Term.view {d : Domain} (s : Store) : Term d → TermView
  | .single e => e.view s
  | .list items => .list (Term.viewAll s items)

/-- The views of several terms. -/
def Term.viewAll {d : Domain} (s : Store) : List (Term d) → List TermView
  | [] => []
  | t :: ts => t.view s :: Term.viewAll s ts

end

end QueryTerms
