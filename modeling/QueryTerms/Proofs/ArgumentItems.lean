/-
QueryTerms.Proofs.ArgumentItems — the arguments that give one option are one item.

An option is given by one argument or by two, the second one its value (`Gives`). Where an option may
stand, such arguments add one item and leave the reading of all others alone, before the command
(`split_gives`) as behind it (`itemsBehind_gives`); where a value is waited for they break a rule. So
arguments can be written for all that can be asked for, and they are understood as it
(`Invocation.ofArguments?_arguments`).

  §1  what an argument looks like
  §2  names of options
  §3  arguments that give an option
  §4  what a split asks for
  §5  arguments for an invocation
-/
import QueryTerms.CommandLine.Arguments

namespace QueryTerms.CommandLine

/-! ## 1. Looks -/

theorem look_eq_endOfOptions {a : String} (h : look a = .endOfOptions) : a = "--" := by
  unfold look at h
  split at h
  · next hlist => exact String.toList_injective hlist
  · split at h <;> simp at h
  · split at h <;> simp at h
  · simp at h

/-- Only a hyphen in front makes an argument something else than a word. -/
theorem look_eq_word {a : String} (h : a.toList.head? ≠ some '-') : look a = .word := by
  unfold look
  split
  · next hlist => simp [hlist] at h
  · next hlist => simp [hlist] at h
  · next hlist => simp [hlist] at h
  · rfl

/-- A long option with its value behind an equals sign. -/
theorem look_long_attached {name : String} (hname : '=' ∉ name.toList) (value : String) :
    look ("--" ++ name ++ "=" ++ value) = .option (.long name) (some value) := by
  have hlist : ("--" ++ name ++ "=" ++ value).toList
      = '-' :: '-' :: (name.toList ++ '=' :: value.toList) := by
    simp [String.toList_append]
  have hinside : ∀ c ∈ name.toList, decide (c ≠ '=') = true := fun c hc => by
    simpa using fun h : c = '=' => hname (h ▸ hc)
  have htake : (name.toList ++ '=' :: value.toList).takeWhile (· ≠ '=') = name.toList := by
    rw [List.takeWhile_append_of_pos hinside]
    simp
  have hdrop : (name.toList ++ '=' :: value.toList).dropWhile (· ≠ '=') = '=' :: value.toList := by
    rw [List.dropWhile_append_of_pos hinside]
    simp
  rw [look, hlist]
  split
  · next h => simp at h
  · next rest _ h =>
    obtain rfl : name.toList ++ '=' :: value.toList = rest := by simpa using h
    rw [htake, hdrop]
    simp
  · next hnot h => exact absurd (List.cons.inj (List.cons.inj h).2).1.symm hnot
  · next hnot => exact absurd rfl (hnot _ _)

/-! ## 2. Names -/

namespace Setting

theorem eq_of_longName {s t : Setting} : s.longName = t.longName → s = t := by
  cases s <;> cases t <;> decide

theorem eq_of_letter? {s t : Setting} : s.letter?.isSome = true → s.letter? = t.letter? → s = t := by
  cases s <;> cases t <;> decide

/-- No two options share a name. -/
theorem eq_of_hasName {s t : Setting} {name : OptionName} (hs : s.hasName name = true)
    (ht : t.hasName name = true) : s = t := by
  cases name with
  | long text =>
    simp only [hasName, decide_eq_true_eq] at hs ht
    exact eq_of_longName (hs.trans ht.symm)
  | short letter =>
    simp only [hasName, decide_eq_true_eq] at hs ht
    exact eq_of_letter? (by simp [hs]) (hs.trans ht.symm)

/-- An option is found by its names wherever it may stand. -/
theorem find?_hasName {s : Setting} {known : List Setting} (hmem : s ∈ known)
    {name : OptionName} (hname : s.hasName name = true) :
    known.find? (·.hasName name) = some s := by
  cases hfind : known.find? (·.hasName name) with
  | none => exact absurd hname (List.find?_eq_none.1 hfind s hmem)
  | some t =>
    have ht : t.hasName name = true := List.find?_some (p := fun t : Setting => t.hasName name) hfind
    rw [eq_of_hasName hname ht]

end Setting

/-- The options that may stand anywhere may stand behind every command. -/
theorem CommandName.mem_settings {s : Setting} (hmem : s ∈ Setting.global) (command : CommandName) :
    s ∈ command.settings := by
  cases command with
  | render => exact List.mem_append_left _ hmem
  | decode => exact hmem

/-! ## 3. Giving an option -/

/-- Arguments that give an option: with its value in the same argument or in the next one, which does
not look like an option, or an option without a value. -/
inductive Gives (s : Setting) : String → List String → Prop
  | attached {argument value : String} {name : OptionName} :
      look argument = .option name (some value) → s.hasName name = true → s.takesValue = true →
      Gives s value [argument]
  | apart {argument value : String} {name : OptionName} :
      look argument = .option name none → s.hasName name = true → s.takesValue = true →
      look value = .word → Gives s value [argument, value]
  | bare {argument : String} {name : OptionName} :
      look argument = .option name none → s.hasName name = true → s.takesValue = false →
      Gives s "" [argument]

section Items

variable {s : Setting} {value : String} {given : List String}

/-- Behind a command, arguments that give one of its options are one item. -/
theorem itemsBehind_gives {known : List Setting} (hmem : s ∈ known) (h : Gives s value given)
    (rest : List String) :
    itemsBehind known none (given ++ rest)
      = (itemsBehind known none rest).map (.setting s value :: ·) := by
  cases h with
  | attached hlook hname hvalue =>
    simp [itemsBehind, hlook, Setting.find?_hasName hmem hname, hvalue]
  | apart hlook hname hvalue hword =>
    simp [itemsBehind, hlook, Setting.find?_hasName hmem hname, hvalue, hword]
  | bare hlook hname hvalue =>
    simp [itemsBehind, hlook, Setting.find?_hasName hmem hname, hvalue]

/-- Where a value is waited for, arguments that give an option break a rule. -/
theorem itemsBehind_gives_waiting (known : List Setting) (h : Gives s value given) (t : Setting)
    (rest : List String) : itemsBehind known (some t) (given ++ rest) = none := by
  cases h with
  | attached hlook _ _ => simp [itemsBehind, hlook]
  | apart hlook _ _ _ => simp [itemsBehind, hlook]
  | bare hlook _ _ => simp [itemsBehind, hlook]

/-- Before the command, arguments that give an option that may stand anywhere are one item. -/
theorem split_gives (hmem : s ∈ Setting.global) (h : Gives s value given) (rest : List String) :
    split none (given ++ rest)
      = (split none rest).map fun p => { p with before := .setting s value :: p.before } := by
  cases h with
  | attached hlook hname hvalue =>
    simp [split, hlook, Setting.find?_hasName hmem hname, hvalue]
  | apart hlook hname hvalue hword =>
    simp [split, hlook, Setting.find?_hasName hmem hname, hvalue, hword]
  | bare hlook hname hvalue =>
    simp [split, hlook, Setting.find?_hasName hmem hname, hvalue]

/-- Where a value is waited for, arguments that give an option break a rule. -/
theorem split_gives_waiting (h : Gives s value given) (t : Setting) (rest : List String) :
    split (some t) (given ++ rest) = none := by
  cases h with
  | attached hlook _ _ => simp [split, hlook]
  | apart hlook _ _ _ => simp [split, hlook]
  | bare hlook _ _ => simp [split, hlook]

/-- A command's name ends the options before it. -/
theorem split_name {argument : String} {command : CommandName} (hlook : look argument = .word)
    (hname : CommandName.ofName? argument = some command) (rest : List String) :
    split none (argument :: rest)
      = (itemsBehind command.settings none rest).map fun behind => ⟨[], command, behind⟩ := by
  simp only [split, hlook, hname, Option.bind_eq_bind, Option.bind_some]
  cases itemsBehind command.settings none rest <;> rfl

end Items

/-! ## 4. What a split asks for -/

/-- What a split asks for. -/
def Split.invocation? (p : Split) : Option Invocation := do
  let dialect ← p.value? .dialect Dialect.Kind.ofUserName?
  let config ← p.value? .config fun path => if path.isEmpty then none else some path
  let debug ← p.value? .debug some
  let command ← p.command?
  some { dialect := dialect.getD .postgres, config, debug := debug.isSome, command }

theorem Invocation.ofArguments?_eq (arguments : List String) :
    ofArguments? arguments = (split none arguments).bind Split.invocation? :=
  rfl

/-! ## 5. Arguments for an invocation -/

/-- A long option with its value. -/
def Setting.argument (s : Setting) (value : String) : String :=
  "--" ++ s.longName ++ "=" ++ value

theorem Setting.gives_argument {s : Setting} (h : s.takesValue = true) (value : String) :
    Gives s value [s.argument value] := by
  have hname : '=' ∉ s.longName.toList := by cases s <;> decide
  exact .attached (look_long_attached hname value) (by simp [hasName]) h

/-- An option without a value, if it is given. -/
def Setting.flag (s : Setting) (isGiven : Bool) : List String :=
  if isGiven then ["--" ++ s.longName] else []

theorem Setting.gives_flag {s : Setting} (h : s.takesValue = false) :
    Gives s "" (s.flag true) := by
  have hlook : look ("--" ++ s.longName) = .option (.long s.longName) none := by
    cases s <;> decide +kernel
  exact .bare hlook (by simp [hasName]) h

namespace Command

/-- The name of a command. -/
def name : Command → CommandName
  | .render _ _ => .render
  | .decode _ => .decode

/-- The arguments behind the name. Values stand behind two hyphens, where none is taken for an option. -/
def arguments : Command → List String
  | .render parameter trivialIsNull =>
    "render" :: ([Setting.parameter.argument parameter] ++ Setting.trivialIsNull.flag trivialIsNull)
  | .decode values => "decode" :: "--" :: values

/-- The items behind the name. -/
def items : Command → List Item
  | .render parameter trivialIsNull =>
    .setting .parameter parameter
      :: if trivialIsNull then [.setting .trivialIsNull ""] else []
  | .decode values => values.map .word

theorem split_arguments (c : Command) : split none c.arguments = some ⟨[], c.name, c.items⟩ := by
  cases c with
  | render parameter trivialIsNull =>
    have hparameter : Setting.parameter ∈ CommandName.render.settings := by decide
    have htrivial : Setting.trivialIsNull ∈ CommandName.render.settings := by decide
    rw [arguments, split_name (by decide +kernel) rfl,
      itemsBehind_gives hparameter (Setting.gives_argument rfl parameter)]
    cases trivialIsNull with
    | true =>
      have hflag := itemsBehind_gives htrivial (Setting.gives_flag rfl) []
      rw [List.append_nil] at hflag
      rw [hflag]
      rfl
    | false => rfl
  | decode values =>
    rw [arguments, split_name (by decide +kernel) rfl]
    rfl

end Command

/-- Arguments that ask for an invocation, under a name for its dialect. -/
def Invocation.arguments (inv : Invocation) (name : String) : List String :=
  [Setting.dialect.argument name] ++ (inv.config.toList.map Setting.config.argument
    ++ (Setting.debug.flag inv.debug ++ inv.command.arguments))

/-- The items before the command. -/
def Invocation.items (inv : Invocation) (name : String) : List Item :=
  .setting .dialect name :: (inv.config.toList.map (.setting .config)
    ++ if inv.debug then [.setting .debug ""] else [])

theorem Invocation.split_arguments (inv : Invocation) (name : String) :
    split none (inv.arguments name)
      = some ⟨inv.items name, inv.command.name, inv.command.items⟩ := by
  obtain ⟨dialect, config, debug, command⟩ := inv
  have hdebug : split none (Setting.debug.flag debug ++ command.arguments)
      = some ⟨if debug then [.setting .debug ""] else [], command.name, command.items⟩ := by
    cases debug with
    | false => exact command.split_arguments
    | true =>
      rw [split_gives (by decide) (Setting.gives_flag rfl), command.split_arguments]
      rfl
  have hconfig : split none (config.toList.map Setting.config.argument
        ++ (Setting.debug.flag debug ++ command.arguments))
      = some ⟨config.toList.map (.setting .config) ++ if debug then [.setting .debug ""] else [],
          command.name, command.items⟩ := by
    cases config with
    | none => exact hdebug
    | some path =>
      refine (split_gives (by decide) (Setting.gives_argument rfl path) _).trans ?_
      rw [hdebug]
      rfl
  refine (split_gives (by decide) (Setting.gives_argument rfl name) _).trans ?_
  rw [hconfig]
  rfl

theorem wordsOf_words (texts : List String) : wordsOf (texts.map .word) = texts := by
  rw [wordsOf, List.filterMap_map]
  exact List.filterMap_some

theorem valuesOf_words (s : Setting) (texts : List String) : valuesOf s (texts.map .word) = [] := by
  rw [valuesOf, List.filterMap_map]
  exact List.filterMap_eq_nil_iff.2 fun _ _ => rfl

/-- Behind a command's name none of the options that may stand anywhere is written. -/
theorem Command.once_items {s : Setting} (hmem : s ∈ Setting.global) (c : Command) :
    once s c.items = some none := by
  have hvalues : valuesOf s c.items = [] := by
    cases c with
    | render parameter trivialIsNull =>
      simp only [Setting.global, List.mem_cons, List.not_mem_nil, or_false] at hmem
      rcases hmem with rfl | rfl | rfl <;> cases trivialIsNull <;> rfl
    | decode values => exact valuesOf_words s values
  rw [once, hvalues]

theorem Command.command?_items {c : Command} (hvalues : c ≠ .decode []) (before : List Item) :
    Split.command? ⟨before, c.name, c.items⟩ = some c := by
  cases c with
  | render parameter trivialIsNull => cases trivialIsNull <;> rfl
  | decode values =>
    cases values with
    | nil => exact absurd rfl hvalues
    | cons value values =>
      have hwords := wordsOf_words (value :: values)
      simp only [name, items, Split.command?, hwords]

/-- What is given before the command decides if nothing is given behind it. -/
theorem Split.value?_of_behind_none {α : Type} {p : Split} {s : Setting}
    (h : once s p.behind = some none) (check : String → Option α) :
    p.value? s check = (once s p.before).bind fun given => given.mapM check := by
  rw [value?, h]
  rcases once s p.before with _ | _ | v
  · rfl
  · rfl
  · cases hv : check v <;> simp [hv]

/-- **Whatever can be asked for can be asked for by arguments**, under any name for the dialect. Only a
file without a name and decoding no values cannot. -/
theorem Invocation.ofArguments?_arguments {inv : Invocation} {name : String}
    (hname : Dialect.Kind.ofUserName? name = some inv.dialect) (hconfig : inv.config ≠ some "")
    (hvalues : inv.command ≠ .decode []) : ofArguments? (inv.arguments name) = some inv := by
  rw [ofArguments?_eq, split_arguments, Option.bind_some]
  obtain ⟨dialect, config, debug, command⟩ := inv
  let p : Split := ⟨items ⟨dialect, config, debug, command⟩ name, command.name, command.items⟩
  have hbehind : ∀ s ∈ Setting.global, once s p.behind = some none :=
    fun _ hmem => command.once_items hmem
  have hdialect : p.value? .dialect Dialect.Kind.ofUserName? = some (some dialect) := by
    have hgiven : once .dialect p.before = some (some name) := by
      cases config <;> cases debug <;> rfl
    rw [Split.value?_of_behind_none (hbehind _ (by decide)), hgiven]
    simp [hname]
  have hpath : (p.value? .config fun path => if path.isEmpty then none else some path)
      = some config := by
    have hgiven : once .config p.before = some config := by
      cases config <;> cases debug <;> rfl
    rw [Split.value?_of_behind_none (hbehind _ (by decide)), hgiven]
    cases config with
    | none => rfl
    | some path =>
      have hpath : path ≠ "" := fun h => hconfig (congrArg some h)
      simp [hpath]
  have hdebug : p.value? .debug some = some (if debug then some "" else none) := by
    have hgiven : once .debug p.before = some (if debug then some "" else none) := by
      cases config <;> cases debug <;> rfl
    rw [Split.value?_of_behind_none (hbehind _ (by decide)), hgiven]
    cases debug <;> rfl
  show p.invocation? = _
  rw [Split.invocation?, hdialect, hpath, hdebug, Command.command?_items hvalues]
  cases debug <;> rfl

end QueryTerms.CommandLine
