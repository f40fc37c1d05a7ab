/-
QueryTerms.CommandLine.Run — what the two commands print.

Rendering shows the predicate `(users.active AND (NOT users.banned)) OR parameter` in the chosen
dialect, and the parameter on its own. Decoding puts the values into the rows of a buffer with one
column, walks a cursor over it, and reports each row; at the end it reports that no row is left.

A run prints all of its answer or nothing: whatever fails fails before the first line.
-/
import QueryTerms.CommandLine.Arguments
import QueryTerms.Cursor
import QueryTerms.Dialect.Document
import QueryTerms.Expr
import QueryTerms.Renderer

namespace QueryTerms.CommandLine

/-! ## 1. Outcomes -/

/-- Why a command failed. -/
inductive Failure where
  | config (path : String)
  | parameter (text : String)
  | rendering
  | row (e : ColumnOutOfRange)
  | access (e : AccessError)
  deriving DecidableEq

/-- What a user is told about a failure. -/
def Failure.message : Failure → String
  | .config path => "Failed to load dialect config " ++ path
  | .parameter text =>
    "Invalid parameter value: " ++ text ++ " (expected true, false or null)"
  | .rendering => "Failed to render predicate"
  | .row e => e.message
  | .access e => e.message

/-- How a run ends. -/
inductive Outcome where
  /-- The lines to print. -/
  | success (lines : List String)
  | failure (f : Failure)
  /-- The arguments break a rule. -/
  | usage
  deriving DecidableEq

namespace Outcome

/-- The exit code. -/
def exitCode : Outcome → UInt8
  | .success _ => 0
  | .failure _ => 1
  | .usage => 2

/-- What is printed: each line with its end, nothing unless the run succeeds. -/
def standardOutput : Outcome → String
  | .success lines => String.join (lines.map (· ++ "\n"))
  | .failure _ | .usage => ""

/-- What a user is told about a failed command. -/
def error? : Outcome → Option String
  | .failure f => some f.message
  | .success _ | .usage => none

end Outcome

/-! ## 2. Rendering -/

/-- The value that a parameter's text names: a truth value, or `some none` for NULL. Letters may be of
either case. -/
def parameterValue? (text : String) : Option (Option Bool) :=
  match String.ofList (text.toList.map Char.toLower) with
  | "true" | "t" | "1" => some (some true)
  | "false" | "f" | "0" => some (some false)
  | "null" => some none
  | _ => none

/-- The predicate that is rendered. -/
def predicate (p : Parameter .boolean) : Expr .boolean :=
  .binary .or
    (.binary .and (.column "users" "active") (.not (.column "users" "banned")))
    (.orNull p)

/-- The parameter as it is reported. -/
def parameterReport (d : Dialect) (p : Parameter .boolean) : String :=
  match p.nullState with
  | .notNull => d.booleanLiteral p.value
  | .trivialAsNull => "NULL (trivial value)"
  | .forced => "NULL"

/-- The lines of the rendering command. -/
def renderLines (d : Dialect) (text : String) (trivialIsNull : Bool) :
    Except Failure (List String) :=
  match parameterValue? text with
  | none => .error (.parameter text)
  | some value =>
    let p : Parameter .boolean := Parameter.setOption { trivialIsNull } value
    match ((predicate p).serialize Renderer.sink {}).run.run { dialect := d } with
    | (.error _, _) => .error .rendering
    | (.ok _, r) => .ok [
        "dialect:   " ++ d.kind.name,
        "predicate: " ++ r.text,
        "parameter: " ++ parameterReport d p]

/-! ## 3. Decoding -/

/-- A value as a column of text: NULL for the word `null` in letters of either case, itself otherwise. -/
def columnOf (value : String) : Option String :=
  if value.toList.map Char.toLower = "null".toList then none else some value

/-- What a row reads: the value in words and whether it is NULL, of each field. -/
def readings (row : Row) (s : Store) : Except AccessError (List (String × Bool)) :=
  row.leaves.mapM fun f => do
    let v ← f.value? s
    let isNull ← f.isNull? s
    pure (Domain.describe v, isNull)

/-- The line that reports a row of one field. -/
def rowLine (number : Nat) (fields : List (String × Bool)) : String :=
  "row " ++ Numeral.ofNat number ++ ":" ++
    String.join (fields.map fun f =>
      " value=" ++ f.1 ++ " is_null=" ++ Domain.describe (d := .boolean) f.2)

/-- The lines that report the row of a cursor that has run dry. -/
def endLines (row : Row) (s : Store) : List String :=
  match readings row s with
  | .ok _ => []
  | .error e => ["after last row: " ++ e.message]

/-- The lines of the decoding command. -/
def decodeLines (values : List String) : Except Failure (List String) := do
  let source := RowBuffer.ofTextRows (values.map fun v => [columnOf v])
  let (f, s) := Field.new {} .boolean
  let (c, s) := Cursor.new (.field f) source s
  let (seen, c, s) ← (c.visitAll readings s).mapError .row
  let rows ← (seen.mapM id).mapError .access
  pure (rows.mapIdx (fun i fields => rowLine (i + 1) fields) ++ endLines c.row s)

/-! ## 4. Runs -/

/-- The dialect of an invocation: the described one if a file is named, else the named one. -/
def Invocation.dialect? (inv : Invocation) (files : String → Option ByteArray) :
    Except Failure Dialect :=
  match inv.config with
  | none => .ok { kind := inv.dialect }
  | some path => (Dialect.ofFile (files path)).mapError fun _ => .config path

/-- The lines that an invocation prints. The dialect is looked for first, whether or not the command
needs it. -/
def Invocation.lines (inv : Invocation) (files : String → Option ByteArray) :
    Except Failure (List String) := do
  let d ← inv.dialect? files
  match inv.command with
  | .render text trivialIsNull => renderLines d text trivialIsNull
  | .decode values => decodeLines values

/-- Runs the program on arguments, over files given by their bytes. -/
def run (arguments : List String) (files : String → Option ByteArray) : Outcome :=
  match Invocation.ofArguments? arguments with
  | none => .usage
  | some inv =>
    match inv.lines files with
    | .ok lines => .success lines
    | .error f => .failure f

end QueryTerms.CommandLine
