/-
QueryTerms.Dialect — dialects, and how each spells truth values.

A dialect has a kind and may override the kind's own spelling of truth values. Keywords are written in
lower case, so that rendered truth values decode to themselves.
-/
import QueryTerms.Domain

namespace QueryTerms

/-- How truth values are spelled. -/
inductive BooleanStyle where
  /-- Spelled `1` and `0`. -/
  | numeric
  /-- Spelled `true` and `false`. -/
  | keyword
  deriving DecidableEq, Repr

namespace BooleanStyle

/-- The spelling of a truth value. -/
def literal : BooleanStyle → Bool → String
  | .numeric, true => "1"
  | .numeric, false => "0"
  | .keyword, true => "true"
  | .keyword, false => "false"

/-- The name of a style, as documents write it. -/
def name : BooleanStyle → String
  | .numeric => "numeric"
  | .keyword => "keyword"

end BooleanStyle

namespace Dialect

/-- The dialects whose literals are known. -/
inductive Kind where
  | postgres
  | sqlite
  | mysql
  deriving DecidableEq, Repr

namespace Kind

/-- The name of a kind, as documents and reports write it. -/
def name : Kind → String
  | .postgres => "postgres"
  | .sqlite => "sqlite"
  | .mysql => "mysql"

/-- The spelling of truth values that a kind uses unless told otherwise. -/
def defaultStyle : Kind → BooleanStyle
  | .postgres => .keyword
  | .sqlite | .mysql => .numeric

/-- The kind that a user names: ASCII letters of either case, and `postgresql` too. -/
def ofUserName? (s : String) : Option Kind :=
  match String.ofList (s.toList.map Char.toLower) with
  | "postgres" | "postgresql" => some .postgres
  | "sqlite" => some .sqlite
  | "mysql" => some .mysql
  | _ => none

/-- What a user is told about a name that no kind has. -/
def unknownMessage (s : String) : String :=
  "Unknown dialect: " ++ s

end Kind

end Dialect

/-- A kind of dialect, and the spelling of truth values where it differs from the kind's own. -/
structure Dialect where
  kind : Dialect.Kind := .postgres
  styleOverride : Option BooleanStyle := none
  deriving DecidableEq, Repr

namespace Dialect

/-- The spelling in effect. -/
def style (d : Dialect) : BooleanStyle :=
  d.styleOverride.getD d.kind.defaultStyle

/-- A truth value as the dialect spells it. -/
def booleanLiteral (d : Dialect) (b : Bool) : String :=
  d.style.literal b

/-- The shortest document that reads back as the dialect; an absent override is left out. -/
def toDocument (d : Dialect) : String :=
  "\x7b\"kind\":\"" ++ d.kind.name ++ "\"" ++
    (match d.styleOverride with
    | some style => ",\"boolean_literals\":\"" ++ style.name ++ "\""
    | none => "") ++ "\x7d"

end Dialect

end QueryTerms
