/-
QueryTerms.CommandLine.Arguments — how a list of arguments is understood.

An argument that starts with two hyphens is a long option, one that starts with a single hyphen and
has more is a short one, and everything else, a lone hyphen too, is a word. Options take their value
from behind an equals sign, from the rest of a short option, or from the next argument, which must then
not look like an option. Two hyphens alone end the options.

The first word names the command; before it only the options that every command has may stand, behind
it also the command's own. An option is given at most once before the command and at most once behind
it; behind it wins. Every breach of these rules is the same kind of error, so arguments that break one
simply have no invocation.
-/
import QueryTerms.Dialect

namespace QueryTerms.CommandLine

/-! ## 1. Options and commands -/

/-- The options. -/
inductive Setting where
  | dialect
  | config
  | debug
  | parameter
  | trivialIsNull
  deriving DecidableEq, Repr

namespace Setting

/-- The name behind two hyphens. -/
def longName : Setting → String
  | .dialect => "dialect"
  | .config => "config"
  | .debug => "debug"
  | .parameter => "param"
  | .trivialIsNull => "trivial-is-null"

/-- The letter behind one hyphen. -/
def letter? : Setting → Option Char
  | .dialect => some 'd'
  | .config => some 'c'
  | .parameter => some 'p'
  | .debug | .trivialIsNull => none

/-- Whether an option takes a value. -/
def takesValue : Setting → Bool
  | .dialect | .config | .parameter => true
  | .debug | .trivialIsNull => false

/-- The options that may stand anywhere. -/
def global : List Setting := [.dialect, .config, .debug]

end Setting

/-- The names of the commands. -/
inductive CommandName where
  | render
  | decode
  deriving DecidableEq, Repr

namespace CommandName

/-- The command of a name. -/
def ofName? : String → Option CommandName
  | "render" => some .render
  | "decode" => some .decode
  | _ => none

/-- The options that may stand behind a command. -/
def settings : CommandName → List Setting
  | .render => Setting.global ++ [.parameter, .trivialIsNull]
  | .decode => Setting.global

end CommandName

/-! ## 2. Single arguments -/

/-- How an option is named. -/
inductive OptionName where
  | long (name : String)
  | short (letter : Char)
  deriving DecidableEq

/-- What an argument looks like. -/
inductive Look where
  | word
  /-- An option, and the value attached to it. -/
  | option (name : OptionName) (attached : Option String)
  /-- The end of the options. -/
  | endOfOptions
  deriving DecidableEq

/-- What an argument looks like. A short option's value is all that follows its letter, less one
equals sign. -/
def look (argument : String) : Look :=
  match argument.toList with
  | ['-', '-'] => .endOfOptions
  | '-' :: '-' :: rest =>
    let name := String.ofList (rest.takeWhile (· ≠ '='))
    match rest.dropWhile (· ≠ '=') with
    | _ :: value => .option (.long name) (some (String.ofList value))
    | [] => .option (.long name) none
  | '-' :: letter :: rest =>
    match rest with
    | [] => .option (.short letter) none
    | '=' :: value => .option (.short letter) (some (String.ofList value))
    | value => .option (.short letter) (some (String.ofList value))
  | _ => .word

/-- Whether an option goes by a name. -/
def Setting.hasName (s : Setting) : OptionName → Bool
  | .long name => s.longName = name
  | .short letter => s.letter? = some letter

/-! ## 3. Lists of arguments -/

/-- One item of an argument list: an option with its value, empty if it takes none, or a word. -/
inductive Item where
  | setting (s : Setting) (value : String)
  | word (text : String)
  deriving DecidableEq

/-- The items behind a command, and the option that waits for its value in the next argument. -/
def itemsBehind (known : List Setting) : Option Setting → List String → Option (List Item)
  | none, [] => some []
  | some _, [] => none
  | some s, argument :: rest =>
    match look argument with
    | .word => (itemsBehind known none rest).map (.setting s argument :: ·)
    | _ => none
  | none, argument :: rest =>
    match look argument with
    | .word => (itemsBehind known none rest).map (.word argument :: ·)
    | .endOfOptions => some (rest.map .word)
    | .option name attached =>
      match known.find? (·.hasName name), attached with
      | none, _ => none
      | some s, some value =>
        if s.takesValue then (itemsBehind known none rest).map (.setting s value :: ·) else none
      | some s, none =>
        if s.takesValue then itemsBehind known (some s) rest
        else (itemsBehind known none rest).map (.setting s "" :: ·)

/-- A command with the items before its name, which are options, and behind it. -/
structure Split where
  before : List Item
  command : CommandName
  behind : List Item
  deriving DecidableEq

/-- Splits arguments at the command's name, the first word that is no option's value. -/
def split : Option Setting → List String → Option Split
  | _, [] => none
  | some s, argument :: rest =>
    match look argument with
    | .word => (split none rest).map fun p => { p with before := .setting s argument :: p.before }
    | _ => none
  | none, argument :: rest =>
    match look argument with
    | .word => do
      let command ← CommandName.ofName? argument
      let behind ← itemsBehind command.settings none rest
      some ⟨[], command, behind⟩
    | .endOfOptions => none
    | .option name attached =>
      match Setting.global.find? (·.hasName name), attached with
      | none, _ => none
      | some s, some value =>
        if s.takesValue then
          (split none rest).map fun p => { p with before := .setting s value :: p.before }
        else none
      | some s, none =>
        if s.takesValue then split (some s) rest
        else (split none rest).map fun p => { p with before := .setting s "" :: p.before }

/-! ## 4. Invocations -/

/-- The values given to an option. -/
def valuesOf (s : Setting) (items : List Item) : List String :=
  items.filterMap fun
    | .setting t value => if t = s then some value else none
    | .word _ => none

/-- The words among items. -/
def wordsOf (items : List Item) : List String :=
  items.filterMap fun
    | .word text => some text
    | .setting _ _ => none

/-- The value of an option that may be given once; `none` if it is given more often. -/
def once (s : Setting) (items : List Item) : Option (Option String) :=
  match valuesOf s items with
  | [] => some none
  | [value] => some (some value)
  | _ => none

/-- The value of an option that may be given once before and once behind the command; every value
must pass the check, and the one behind wins. -/
def Split.value? {α : Type} (p : Split) (s : Setting) (check : String → Option α) :
    Option (Option α) := do
  let before ← (← once s p.before).mapM check
  let behind ← (← once s p.behind).mapM check
  some (behind.or before)

/-- A command and what it works on. -/
inductive Command where
  | render (parameter : String) (trivialIsNull : Bool)
  | decode (values : List String)
  deriving DecidableEq

/-- All that the arguments ask for. -/
structure Invocation where
  dialect : Dialect.Kind
  /-- The file that describes the dialect; it takes the place of the named one. -/
  config : Option String
  debug : Bool
  command : Command
  deriving DecidableEq

/-- The command that a split asks for: rendering takes no words, decoding at least one. -/
def Split.command? (p : Split) : Option Command :=
  match p.command with
  | .render => do
    let parameter ← once .parameter p.behind
    let trivialIsNull ← once .trivialIsNull p.behind
    if (wordsOf p.behind).isEmpty then
      some (.render (parameter.getD "false") trivialIsNull.isSome)
    else none
  | .decode =>
    match wordsOf p.behind with
    | [] => none
    | values => some (.decode values)

/-- What arguments ask for, if they break no rule. A dialect must have a known name, and a file name
must not be empty. -/
def Invocation.ofArguments? (arguments : List String) : Option Invocation := do
  let p ← split none arguments
  let dialect ← p.value? .dialect Dialect.Kind.ofUserName?
  let config ← p.value? .config fun path => if path.isEmpty then none else some path
  let debug ← p.value? .debug some
  let command ← p.command?
  some { dialect := dialect.getD .postgres, config, debug := debug.isSome, command }

end QueryTerms.CommandLine
