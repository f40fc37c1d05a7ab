/-
QueryTerms.Workspace.Description — rows and terms described by the names of what they are made of.

A description is untyped: it may name what does not exist, or mix domains. Terms may also be described
in postfix order, which says the same as the nested description that `ofPostfix?` gives.
-/
import QueryTerms.Expr
import QueryTerms.RowBuffer

namespace QueryTerms

/-- Where a row stands: a name, and the indices into nested tuples. -/
structure Path where
  name : String
  indices : List Nat := []
  deriving DecidableEq, Repr

/-- How to make a row. -/
inductive RowDescription where
  /-- A new field without a row. -/
  | fresh (d : Domain)
  /-- A field decoded from a column. -/
  | decoded (d : Domain) (raw : RawColumn)
  /-- The row of a name, which has no name afterwards. -/
  | take (name : String)
  | tuple (members : List RowDescription)

/-- How to make a term. -/
inductive TermDescription where
  | literal (v : Value)
  | column (d : Domain) (table name : String)
  | parameter (name : String)
  | orNull (name : String)
  | field (path : Path)
  /-- A field of truth values made for this term: decoded from a column, or without a row. -/
  | decoded (raw : Option RawColumn)
  | binary (op : BooleanOperator) (left right : TermDescription)
  | not (operand : TermDescription)
  /-- A list; the domain is needed only if there are no items. -/
  | list (d : Option Domain) (items : List TermDescription)

/-- A token of a description in postfix order. -/
inductive PostfixToken where
  | operand (t : TermDescription)
  | binary (op : BooleanOperator)
  | not

/-- Takes one token to a stack, the top first: operands are pushed, operators replace what they are
applied to. -/
def PostfixToken.push? (stack : List TermDescription) : PostfixToken → Option (List TermDescription)
  | .operand t => some (t :: stack)
  | .binary op =>
    match stack with
    | right :: left :: rest => some (.binary op left right :: rest)
    | _ => none
  | .not =>
    match stack with
    | t :: rest => some (.not t :: rest)
    | _ => none

/-- The term that tokens in postfix order describe: the last one pushed. -/
def TermDescription.ofPostfix? (tokens : List PostfixToken) : Option TermDescription := do
  (← tokens.foldlM PostfixToken.push? []).head?

end QueryTerms
