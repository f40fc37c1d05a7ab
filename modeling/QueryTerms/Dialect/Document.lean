/-
QueryTerms.Dialect.Document — dialects described by JSON documents.

A dialect is an object with the member `kind` and, if it overrides the spelling of truth values, the
member `boolean_literals`; or an array of the kind and, optionally, the spelling. Either value is a
name in a string, or an object whose only member has that name and the value null. A spelling may also
be null, which is the same as leaving it out. White space may stand around every token, and nothing else
may follow.

The document is read from left to right, and the first problem decides. A problem is a misfit when the
text read so far is JSON that describes no dialect; a misfit tells what was found.
-/
import QueryTerms.Dialect
import QueryTerms.Json.StringLiteral
import QueryTerms.Json.Number
import QueryTerms.Text.Quoted

namespace QueryTerms

/-- The style that a document names: lower case only. -/
def BooleanStyle.ofName? : String → Option BooleanStyle
  | "numeric" => some .numeric
  | "keyword" => some .keyword
  | _ => none

namespace Dialect

open Json

/-! ## 1. Misfits -/

/-- The members of a document. -/
inductive Member where
  | kind
  | booleanLiterals
  deriving DecidableEq, Repr

/-- The name of a member. -/
def Member.name : Member → String
  | .kind => "kind"
  | .booleanLiterals => "boolean_literals"

/-- The member of a name. -/
def Member.ofName? : String → Option Member
  | "kind" => some .kind
  | "boolean_literals" => some .booleanLiterals
  | _ => none

/-- The kind that a document names: lower case only. -/
def Kind.ofName? : String → Option Kind
  | "postgres" => some .postgres
  | "sqlite" => some .sqlite
  | "mysql" => some .mysql
  | _ => none

/-- A JSON value that stands where another kind of value is wanted. -/
inductive Found where
  | null
  | boolean (b : Bool)
  | number (n : Number)
  | string (s : String)
  | sequence
  | map
  deriving DecidableEq

/-- What is wanted instead. -/
inductive Wanted where
  | document
  | null
  deriving DecidableEq

/-- How a JSON text fails to describe a dialect. -/
inductive Misfit where
  | unknownMember (name : String)
  | duplicateMember (m : Member)
  | missingKind
  | emptySequence
  | unknownKind (name : String)
  | unknownStyle (name : String)
  | wrongValue (found : Found) (wanted : Wanted)
  deriving DecidableEq

/-- A value as a message shows it. -/
def Found.describe : Found → String
  | .null => "null"
  | .boolean b => "boolean `" ++ Domain.describe (d := .boolean) b ++ "`"
  | .number (.integer n) => "integer `" ++ Numeral.ofInt n ++ "`"
  | .number (.double bits) => "floating point `" ++ Number.doubleText bits ++ "`"
  | .string s => "string " ++ Text.quoted s
  | .sequence => "sequence"
  | .map => "map"

/-- What is wanted, as a message shows it. -/
def Wanted.describe : Wanted → String
  | .document => "struct DialectConfig"
  | .null => "unit"

/-- What a user is told about a misfit. -/
def Misfit.message : Misfit → String
  | .unknownMember name =>
    "unknown field `" ++ name ++ "`, expected `kind` or `boolean_literals`"
  | .duplicateMember m => "duplicate field `" ++ m.name ++ "`"
  | .missingKind => "missing field `kind`"
  | .emptySequence => "invalid length 0, expected struct DialectConfig with 2 elements"
  | .unknownKind name =>
    "unknown variant `" ++ name ++ "`, expected one of `postgres`, `sqlite`, `mysql`"
  | .unknownStyle name => "unknown variant `" ++ name ++ "`, expected `numeric` or `keyword`"
  | .wrongValue found wanted =>
    "invalid type: " ++ found.describe ++ ", expected " ++ wanted.describe

/-! ## 2. Values -/

/-- Reads documents. -/
abbrev DocumentReader := Reader Misfit

open Reader

/-- Tells what value starts with a character. Scalars are read to their end, so their own problems
come first. -/
def found (c : Char) : DocumentReader Found :=
  match c with
  | 'n' => do
    word ['u', 'l', 'l']
    pure .null
  | 't' => do
    word ['r', 'u', 'e']
    pure (.boolean true)
  | 'f' => do
    word ['a', 'l', 's', 'e']
    pure (.boolean false)
  | '"' => .string <$> StringLiteral.afterQuote
  | '[' => pure .sequence
  | '{' => pure .map
  | '-' => do .number <$> Number.afterDigit true (← next)
  | _ => if c.isDigit then .number <$> Number.afterDigit false c else throw .malformed

/-- Refuses the value that starts with a character, where another one is wanted. -/
def wrongValue {α : Type} (wanted : Wanted) (c : Char) : DocumentReader α := do
  let value ← found c
  throw (.misfit (.wrongValue value wanted))

theorem wrongValue_ne_ok {α : Type} {wanted : Wanted} {c : Char} {s : List Char}
    {x : α × List Char} : (wrongValue wanted c : DocumentReader α) s ≠ .ok x := by
  intro h
  obtain ⟨_, _, -, hthrow⟩ := bind_eq_ok_iff.1 h
  exact throw_ne_ok hthrow

/-- The value of a name, or the misfit that the name is. -/
def named {α : Type} (ofName? : String → Option α) (unknown : String → Misfit) (name : String) :
    DocumentReader α :=
  match ofName? name with
  | some a => pure a
  | none => throw (.misfit (unknown name))

/-- Takes one given character, behind white space. -/
def expect (c : Char) : DocumentReader Unit := do
  if (← token) = c then pure () else throw .malformed

/-- Reads a choice among names whose first character is given: a string, or an object whose only
member has the name and the value null. What stands where the member's name should is malformed unless
it is a string, whatever value it is. -/
def choice {α : Type} (ofName? : String → Option α) (unknown : String → Misfit) :
    Char → DocumentReader α
  | '"' => do named ofName? unknown (← StringLiteral.afterQuote)
  | '{' => do
    expect '"'
    let a ← named ofName? unknown (← StringLiteral.afterQuote)
    expect ':'
    let c ← token
    if c = 'n' then
      word ['u', 'l', 'l']
      expect '}'
      pure a
    else wrongValue .null c
  | _ => throw .malformed

/-- Reads a kind whose first character is given. -/
def kindFrom : Char → DocumentReader Kind :=
  choice Kind.ofName? .unknownKind

/-- Reads a style or null, whose first character is given. -/
def styleFrom (c : Char) : DocumentReader (Option BooleanStyle) :=
  if c = 'n' then do
    word ['u', 'l', 'l']
    pure none
  else some <$> choice BooleanStyle.ofName? .unknownStyle c

/-! ## 3. Objects -/

/-- The members given so far; a style given as null counts as given. -/
structure Given where
  kind : Option Kind := none
  style : Option (Option BooleanStyle) := none
  deriving DecidableEq

/-- The number of members not given yet. -/
def Given.open (g : Given) : Nat :=
  (if g.kind.isNone then 1 else 0) + (if g.style.isNone then 1 else 0)

/-- The dialect that the members describe; a kind must be among them. -/
def Given.dialect (g : Given) : DocumentReader Dialect :=
  match g.kind with
  | some kind => pure ⟨kind, g.style.join⟩
  | none => throw (.misfit .missingKind)

/-- Takes the opening quote of the next member's name; false at the end of the object. A member that
is not the first has a comma before it. -/
def nextMember (isFirst : Bool) : DocumentReader Bool := do
  let c ← token
  if c = '}' then pure false
  else if isFirst then
    if c = '"' then pure true else throw .malformed
  else if c = ',' then
    expect '"'
    pure true
  else throw .malformed

/-- The name of a member; an unknown one is a misfit at once. -/
def memberName : DocumentReader Member := do
  named Member.ofName? .unknownMember (← StringLiteral.afterQuote)

/-- Reads the members that are left and the end of the object. A member given twice is a misfit at
its second name. -/
def members (isFirst : Bool) (g : Given) : DocumentReader Dialect := do
  if ← nextMember isFirst then
    match ← memberName with
    | .kind =>
      if _ : g.kind = none then
        expect ':'
        let kind ← kindFrom (← token)
        members false { g with kind := some kind }
      else throw (.misfit (.duplicateMember .kind))
    | .booleanLiterals =>
      if _ : g.style = none then
        expect ':'
        let style ← styleFrom (← token)
        members false { g with style := some style }
      else throw (.misfit (.duplicateMember .booleanLiterals))
  else g.dialect
termination_by g.open
decreasing_by all_goals simp_all [Given.open]

/-! ## 4. Arrays -/

/-- Reads what is left of an array whose opening bracket has been taken. -/
def elements : DocumentReader Dialect := do
  let c ← token
  if c = ']' then throw (.misfit .emptySequence)
  let kind ← kindFrom c
  let c ← token
  if c = ']' then pure { kind }
  else if c = ',' then
    let c ← token
    if c = ']' then throw .malformed
    let style ← styleFrom c
    expect ']'
    pure ⟨kind, style⟩
  else throw .malformed

/-! ## 5. Documents -/

/-- Reads the value that describes a dialect. -/
def value : DocumentReader Dialect := do
  match ← token with
  | '{' => members true {}
  | '[' => elements
  | c => wrongValue .document c

/-- Why a document gives no dialect. -/
inductive LoadError where
  /-- The document cannot be had as text. -/
  | unreadable
  | problem (p : Problem Misfit)
  deriving DecidableEq

deriving instance DecidableEq for Except

/-- The dialect that a document describes. -/
def ofDocument (text : String) : Except LoadError Dialect :=
  (readAll value text.toList).mapError .problem

/-- The dialect that a file describes, given its bytes, or that there is no file. The bytes must be
well-formed UTF-8 as a whole before any of the text is read. -/
def ofFile (content : Option ByteArray) : Except LoadError Dialect :=
  match content.bind String.fromUTF8? with
  | some text => ofDocument text
  | none => .error .unreadable

end Dialect

end QueryTerms
