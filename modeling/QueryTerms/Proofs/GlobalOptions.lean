/-
QueryTerms.Proofs.GlobalOptions — the options of every command may stand anywhere.

Move an option that every command has, together with its value, to another place in a list of
arguments, only not between an option and its value (`Moves`). If every such option is given at most
once, the list asks for the same as before, and the run ends in the same way over all files
(`global_options_anywhere`).

A list without two hyphens is read from left to right: an argument is taken for an item, for an option
that waits for its value or for the command's name, and only the command read so far and the option that
waits decide for which (`Progress`). So a reading with one more item somewhere goes on as the one without
it (`Progress.rel_foldlM`). Two places of one option are compared through the list without it. The
readings of both have the item more, and where it is, before the command or behind it, makes no
difference once the option is given nowhere else; that it is not is counted along the reading
(`Progress.timesSet_foldlM`).

  §1  reading arguments one by one
  §2  one item more
  §3  how often an option is given
  §4  what is asked for
  §5  moving an option
-/
import Mathlib.Data.List.Basic
import Mathlib.Logic.Relation
import QueryTerms.CommandLine.Run
import QueryTerms.Proofs.ArgumentItems

namespace QueryTerms.CommandLine

/-! ## 1. Reading -/

/-- What has been read of a list of arguments, and the option that waits for its value. -/
structure Progress where
  before : List Item
  command : Option CommandName
  behind : List Item
  waiting : Option Setting

/-- What one argument is taken for. -/
inductive Taken where
  | item (i : Item)
  /-- An option whose value is to come. -/
  | waits (s : Setting)
  | command (c : CommandName)

namespace Progress

def start : Progress := ⟨[], none, [], none⟩

/-- The options that may stand here. -/
def known (p : Progress) : List Setting :=
  match p.command with
  | none => Setting.global
  | some c => c.settings

/-- What an argument is taken for here, unless it breaks a rule. -/
def taken? (p : Progress) (argument : String) : Option Taken :=
  match p.waiting, look argument with
  | some s, .word => some (.item (.setting s argument))
  | some _, _ => none
  | none, .word =>
    match p.command with
    | none => (CommandName.ofName? argument).map .command
    | some _ => some (.item (.word argument))
  | none, .endOfOptions => none
  | none, .option name attached =>
    match p.known.find? (·.hasName name), attached with
    | none, _ => none
    | some s, some value => if s.takesValue then some (.item (.setting s value)) else none
    | some s, none => if s.takesValue then some (.waits s) else some (.item (.setting s ""))

/-- One item more, on the side of the command that is being read. -/
def push (p : Progress) (i : Item) : Progress :=
  match p.command with
  | none => { p with before := p.before ++ [i] }
  | some _ => { p with behind := p.behind ++ [i] }

def take (p : Progress) : Taken → Progress
  | .item i => { p.push i with waiting := none }
  | .waits s => { p with waiting := some s }
  | .command c => { p with command := some c }

/-- Reads one argument. -/
def step (p : Progress) (argument : String) : Option Progress :=
  (p.taken? argument).map p.take

/-- The split that has been read, if nothing is missing. -/
def finish? (p : Progress) : Option Split :=
  match p.command, p.waiting with
  | some c, none => some ⟨p.before, c, p.behind⟩
  | _, _ => none

/-- Behind a command, reading one by one gives the items behind it. -/
theorem foldlM_step_behind {args : List String} (hplain : "--" ∉ args) (c : CommandName)
    (before behind : List Item) (waiting : Option Setting) :
    (args.foldlM step ⟨before, some c, behind, waiting⟩).bind finish?
      = (itemsBehind c.settings waiting args).map fun items => ⟨before, c, behind ++ items⟩ := by
  induction args generalizing behind waiting with
  | nil => cases waiting <;> simp [finish?, itemsBehind]
  | cons a rest ih =>
    have hrest : "--" ∉ rest := fun h => hplain (List.mem_cons_of_mem a h)
    cases hlook : look a with
    | endOfOptions => exact absurd (look_eq_endOfOptions hlook ▸ List.mem_cons_self) hplain
    | word =>
      -- a value that is waited for, or a word on its own
      cases waiting <;>
        simp [step, taken?, take, push, itemsBehind, hlook, ih hrest, Function.comp_def]
    | option name attached =>
      cases waiting with
      | some s => simp [step, taken?, itemsBehind, hlook]
      | none =>
        cases hfind : c.settings.find? (·.hasName name) with
        | none => simp [step, taken?, known, itemsBehind, hlook, hfind]
        | some s =>
          cases attached <;> cases hvalue : s.takesValue <;>
            simp [step, taken?, known, take, push, itemsBehind, hlook, hfind, hvalue, ih hrest,
              Function.comp_def]

/-- Before a command, reading one by one splits the arguments. -/
theorem foldlM_step_before {args : List String} (hplain : "--" ∉ args)
    (before behind : List Item) (waiting : Option Setting) :
    (args.foldlM step ⟨before, none, behind, waiting⟩).bind finish?
      = (split waiting args).map fun p => ⟨before ++ p.before, p.command, behind ++ p.behind⟩ := by
  induction args generalizing before waiting with
  | nil => cases waiting <;> simp [finish?, split]
  | cons a rest ih =>
    have hrest : "--" ∉ rest := fun h => hplain (List.mem_cons_of_mem a h)
    cases hlook : look a with
    | endOfOptions => exact absurd (look_eq_endOfOptions hlook ▸ List.mem_cons_self) hplain
    | word =>
      cases waiting with
      | some s => simp [step, taken?, take, push, split, hlook, ih hrest, Function.comp_def]
      | none =>
        cases hname : CommandName.ofName? a with
        | none => simp [step, taken?, split, hlook, hname]
        | some c =>
          -- from here on everything is read behind the command
          rw [split_name hlook hname]
          simp [step, taken?, take, hlook, hname, foldlM_step_behind hrest, Function.comp_def]
    | option name attached =>
      cases waiting with
      | some s => simp [step, taken?, split, hlook]
      | none =>
        cases hfind : Setting.global.find? (·.hasName name) with
        | none => simp [step, taken?, known, split, hlook, hfind]
        | some s =>
          cases attached <;> cases hvalue : s.takesValue <;>
            simp [step, taken?, known, take, push, split, hlook, hfind, hvalue, ih hrest,
              Function.comp_def]

/-- What the arguments read so far ask for. -/
def invocation? (p : Progress) : Option Invocation :=
  p.finish?.bind Split.invocation?

/-- Arguments without two hyphens may be read one by one. -/
theorem ofArguments?_eq_foldlM {args : List String} (hplain : "--" ∉ args) :
    Invocation.ofArguments? args = (args.foldlM step start).bind invocation? := by
  have hsplit : split none args = (args.foldlM step start).bind finish? := by
    rw [start, foldlM_step_before hplain]
    simp
  rw [Invocation.ofArguments?_eq, hsplit, Option.bind_assoc]
  rfl

/-- All that an argument can be taken for, and what it looks like then. -/
inductive Takes (p : Progress) (argument : String) : Taken → Prop
  | value {s : Setting} : p.waiting = some s → look argument = .word →
      Takes p argument (.item (.setting s argument))
  | word : p.waiting = none → look argument = .word → Takes p argument (.item (.word argument))
  | command {c : CommandName} : p.waiting = none → look argument = .word →
      Takes p argument (.command c)
  | given {s : Setting} {name : OptionName} {attached : Option String} {value : String} :
      p.waiting = none → look argument = .option name attached → s.hasName name = true →
      Takes p argument (.item (.setting s value))
  | waits {s : Setting} {name : OptionName} : p.waiting = none → look argument = .option name none →
      s.hasName name = true → s.takesValue = true → Takes p argument (.waits s)

/-- The cases of what an argument may be taken for, told by what it looks like and by whether a value is
waited for. -/
theorem takes_of_taken? {p : Progress} {argument : String} {t : Taken}
    (h : p.taken? argument = some t) : p.Takes argument t := by
  cases hwaiting : p.waiting with
  | some s =>
    cases hlook : look argument <;> simp only [taken?, hwaiting, hlook, reduceCtorEq] at h
    obtain rfl := Option.some.inj h
    exact .value hwaiting hlook
  | none =>
    cases hlook : look argument with
    | endOfOptions => simp [taken?, hwaiting, hlook] at h
    | word =>
      simp only [taken?, hwaiting, hlook] at h
      split at h
      · obtain ⟨c, -, rfl⟩ := Option.map_eq_some_iff.1 h
        exact .command hwaiting hlook
      · obtain rfl := Option.some.inj h
        exact .word hwaiting hlook
    | option name attached =>
      simp only [taken?, hwaiting, hlook] at h
      cases hfind : p.known.find? (·.hasName name) with
      | none => simp [hfind] at h
      | some s =>
        have hname : s.hasName name = true :=
          List.find?_some (p := fun s : Setting => s.hasName name) hfind
        cases attached with
        | some value =>
          simp only [hfind, Option.ite_none_right_eq_some, Option.some.injEq] at h
          obtain ⟨-, rfl⟩ := h
          exact .given hwaiting hlook hname
        | none =>
          simp only [hfind] at h
          split at h
          · next hvalue =>
            obtain rfl := Option.some.inj h
            exact .waits hwaiting hlook hname hvalue
          · obtain rfl := Option.some.inj h
            exact .given hwaiting hlook hname

/-! ## 2. One item more -/

/-- Two readings that differ in one item, which only the second has. -/
inductive Adds (i : Item) : Progress → Progress → Prop
  | before (front rest : List Item) (command : Option CommandName) (behind : List Item)
      (waiting : Option Setting) :
      Adds i ⟨front ++ rest, command, behind, waiting⟩ ⟨front ++ i :: rest, command, behind, waiting⟩
  | behind (before : List Item) (command : Option CommandName) (front rest : List Item)
      (waiting : Option Setting) :
      Adds i ⟨before, command, front ++ rest, waiting⟩ ⟨before, command, front ++ i :: rest, waiting⟩

/-- Reading an item makes the difference. -/
theorem adds_push (p : Progress) (i : Item) : Adds i p (p.push i) := by
  obtain ⟨before, _ | c, behind, waiting⟩ := p
  · simpa [push] using Adds.before (i := i) before [] none behind waiting
  · simpa [push] using Adds.behind (i := i) before (some c) behind [] waiting

section Adds

variable {i : Item} {p q : Progress}

/-- An item more does not change what an argument is taken for. -/
theorem Adds.taken?_eq (h : Adds i p q) (argument : String) :
    q.taken? argument = p.taken? argument := by
  cases h <;> rfl

/-- Items only come at the end of a side, so the item that one reading has more stays where it is. -/
theorem Adds.take (h : Adds i p q) (t : Taken) : Adds i (p.take t) (q.take t) := by
  cases h with
  | before front rest command behind waiting =>
    cases t with
    | item j =>
      cases command with
      | none => simpa [Progress.take, push] using Adds.before front (rest ++ [j]) none behind none
      | some c => exact .before front rest (some c) (behind ++ [j]) none
    | waits s => exact .before front rest command behind (some s)
    | command c => exact .before front rest (some c) behind waiting
  | behind before command front rest waiting =>
    cases t with
    | item j =>
      cases command with
      | none => exact .behind (before ++ [j]) none front rest none
      | some c =>
        simpa [Progress.take, push] using Adds.behind before (some c) front (rest ++ [j]) none
    | waits s => exact .behind before command front rest (some s)
    | command c => exact .behind before (some c) front rest waiting

/-- Reading one argument keeps the difference. -/
theorem Adds.step (h : Adds i p q) (argument : String) :
    Option.Rel (Adds i) (p.step argument) (q.step argument) := by
  rw [Progress.step, Progress.step, h.taken?_eq]
  cases p.taken? argument with
  | none => exact .none
  | some t => exact .some (h.take t)

/-- Reading more arguments keeps the difference. -/
theorem rel_foldlM (h : Adds i p q) (args : List String) :
    Option.Rel (Adds i) (args.foldlM Progress.step p) (args.foldlM Progress.step q) := by
  induction args generalizing p q with
  | nil => exact .some h
  | cons a rest ih =>
    have hstep := h.step a
    rw [List.foldlM_cons, List.foldlM_cons]
    generalize p.step a = next, q.step a = next' at hstep
    cases hstep with
    | none => exact .none
    | some hnext => exact ih hnext

end Adds

section Gives

variable {s : Setting} {value : String} {given : List String}

/-- Before and behind every command, the global options may stand. -/
theorem mem_known (hmem : s ∈ Setting.global) (p : Progress) : s ∈ p.known := by
  obtain ⟨before, _ | c, behind, waiting⟩ := p
  · exact hmem
  · exact c.mem_settings hmem

/-- Where no value is waited for, arguments that give an option add one item. -/
theorem foldlM_step_gives (hmem : s ∈ Setting.global) (h : Gives s value given) {p : Progress}
    (hwaiting : p.waiting = none) : given.foldlM step p = some (p.push (.setting s value)) := by
  have hknown := mem_known hmem p
  obtain ⟨before, command, behind, waiting⟩ := p
  obtain rfl : waiting = none := hwaiting
  cases h with
  | attached hlook hname hvalue =>
    cases command <;>
      simp [step, taken?, take, push, hlook, Setting.find?_hasName hknown hname, hvalue]
  | apart hlook hname hvalue hword =>
    cases command <;>
      simp [step, taken?, take, push, hlook, Setting.find?_hasName hknown hname, hvalue, hword]
  | bare hlook hname hvalue =>
    cases command <;>
      simp [step, taken?, take, push, hlook, Setting.find?_hasName hknown hname, hvalue]

/-- Where a value is waited for, an option breaks a rule. -/
theorem waiting_eq_none_of_foldlM (h : Gives s value given) {p q : Progress}
    (hread : given.foldlM step p = some q) : p.waiting = none := by
  cases hwaiting : p.waiting with
  | none => rfl
  | some t =>
    cases h with
    | attached hlook _ _ => simp [step, taken?, hwaiting, hlook] at hread
    | apart hlook _ _ _ => simp [step, taken?, hwaiting, hlook] at hread
    | bare hlook _ _ => simp [step, taken?, hwaiting, hlook] at hread

/-- Arguments that give an option, put where no value is waited for, add one item to the whole
reading. -/
theorem rel_foldlM_insert (hmem : s ∈ Setting.global) (h : Gives s value given)
    {front : List String} {p : Progress} (hfront : front.foldlM step start = some p)
    (hwaiting : p.waiting = none) (behind : List String) :
    Option.Rel (Adds (.setting s value)) ((front ++ behind).foldlM step start)
      ((front ++ given ++ behind).foldlM step start) := by
  rw [List.append_assoc, List.foldlM_append, List.foldlM_append, hfront, Option.bind_eq_bind,
    Option.bind_some, Option.bind_some, List.foldlM_append, foldlM_step_gives hmem h hwaiting]
  exact rel_foldlM (adds_push p _) behind

end Gives

/-- What can be read can be read up to any place. -/
theorem exists_foldlM_of_append {front behind : List String} {p q : Progress}
    (h : (front ++ behind).foldlM step p = some q) :
    ∃ r, front.foldlM step p = some r ∧ behind.foldlM step r = some q := by
  rwa [List.foldlM_append, Option.bind_eq_bind, Option.bind_eq_some_iff] at h

end Progress

/-- An option that has its value in the next argument. -/
def Waits (argument : String) : Prop :=
  ∃ (name : OptionName) (s : Setting),
    look argument = .option name none ∧ s.hasName name = true ∧ s.takesValue = true

/-- A value is waited for only behind an option that has it in the next argument. -/
theorem Progress.waiting_eq_none {args : List String} {p : Progress}
    (hread : args.foldlM step start = some p)
    (hlast : ∀ a, args.getLast? = some a → ¬ Waits a) : p.waiting = none := by
  rcases args.eq_nil_or_concat' with rfl | ⟨init, a, rfl⟩
  · obtain rfl := Option.some.inj hread
    rfl
  · rw [List.foldlM_append, Option.bind_eq_bind, Option.bind_eq_some_iff] at hread
    obtain ⟨q, -, hstep⟩ := hread
    rw [List.foldlM_cons, Option.bind_eq_bind, Option.bind_eq_some_iff] at hstep
    obtain ⟨r, hstep, hend⟩ := hstep
    obtain rfl := Option.some.inj hend
    obtain ⟨t, ht, rfl⟩ := Option.map_eq_some_iff.1 hstep
    cases takes_of_taken? ht with
    | value _ _ => rfl
    | word _ _ => rfl
    | command hnone _ => exact hnone
    | given _ _ _ => rfl
    | waits _ hlook hname hvalue =>
      exact absurd ⟨_, _, hlook, hname, hvalue⟩ (hlast a (by simp))

/-! ## 3. How often an option is given -/

/-- Whether an argument is an option of this name. -/
def Setting.namedBy (s : Setting) (argument : String) : Bool :=
  match look argument with
  | .option name _ => s.hasName name
  | _ => false

/-- How often a list of arguments gives an option. -/
def timesGiven (s : Setting) (args : List String) : Nat :=
  args.countP s.namedBy

section Names

variable {s t : Setting} {argument : String}

theorem Setting.namedBy_of_word (h : look argument = .word) : s.namedBy argument = false := by
  rw [namedBy, h]

/-- An argument that is an option of one name is none of another. -/
theorem Setting.namedBy_eq {name : OptionName} {attached : Option String}
    (hlook : look argument = .option name attached) (hname : t.hasName name = true) :
    s.namedBy argument = decide (t = s) := by
  rw [namedBy, hlook, Bool.eq_iff_iff, decide_eq_true_iff]
  exact ⟨fun h => eq_of_hasName hname h, fun h => h ▸ hname⟩

end Names

theorem valuesOf_append (s : Setting) (items more : List Item) :
    valuesOf s (items ++ more) = valuesOf s items ++ valuesOf s more :=
  List.filterMap_append

theorem valuesOf_setting_cons (s : Setting) (value : String) (rest : List Item) :
    valuesOf s (.setting s value :: rest) = value :: valuesOf s rest := by
  simp [valuesOf]

theorem valuesOf_setting_cons_of_ne {s t : Setting} (h : t ≠ s) (value : String)
    (rest : List Item) : valuesOf s (.setting t value :: rest) = valuesOf s rest := by
  simp [valuesOf, h]

theorem length_valuesOf_setting (s t : Setting) (value : String) :
    (valuesOf s [.setting t value]).length = if t = s then 1 else 0 := by
  split
  · next h => rw [h, valuesOf_setting_cons]; rfl
  · next h => rw [valuesOf_setting_cons_of_ne h]; rfl

namespace Progress

/-- How often an option has been given so far, with the one that still waits for its value. -/
def timesSet (s : Setting) (p : Progress) : Nat :=
  (valuesOf s p.before).length + (valuesOf s p.behind).length
    + if p.waiting = some s then 1 else 0

/-- An item that gives the option counts, on either side of the command. -/
theorem timesSet_take_item (s : Setting) (p : Progress) (i : Item) :
    (p.take (.item i)).timesSet s
      = (valuesOf s p.before).length + (valuesOf s p.behind).length + (valuesOf s [i]).length := by
  obtain ⟨before, _ | c, behind, waiting⟩ := p
  · simp [timesSet, take, push, valuesOf_append]
    omega
  · simp [timesSet, take, push, valuesOf_append]
    omega

/-- Reading an argument counts it if it is the option. A value that was waited for has been counted with
its option. -/
theorem timesSet_step {p q : Progress} {argument : String} (h : p.step argument = some q)
    (s : Setting) :
    q.timesSet s = p.timesSet s + if s.namedBy argument = true then 1 else 0 := by
  obtain ⟨t, ht, rfl⟩ := Option.map_eq_some_iff.1 h
  cases takes_of_taken? ht with
  | @value u hwaiting hlook =>
    rw [timesSet_take_item, length_valuesOf_setting, timesSet, hwaiting,
      Setting.namedBy_of_word hlook]
    by_cases hu : u = s <;> simp [hu]
  | word hwaiting hlook =>
    rw [timesSet_take_item, timesSet, hwaiting, Setting.namedBy_of_word hlook]
    rfl
  | command hwaiting hlook =>
    rw [Setting.namedBy_of_word hlook]
    rfl
  | @given u _ _ _ hwaiting hlook hname =>
    rw [timesSet_take_item, length_valuesOf_setting, timesSet, hwaiting,
      Setting.namedBy_eq hlook hname]
    by_cases hu : u = s <;> simp [hu]
  | @waits u _ hwaiting hlook hname _ =>
    rw [timesSet, timesSet, take, hwaiting, Setting.namedBy_eq hlook hname]
    by_cases hu : u = s <;> simp [hu]

/-- Reading counts how often the option is given. -/
theorem timesSet_foldlM {args : List String} {p q : Progress}
    (h : args.foldlM step p = some q) (s : Setting) :
    q.timesSet s = p.timesSet s + timesGiven s args := by
  induction args generalizing p with
  | nil =>
    obtain rfl := Option.some.inj h
    rfl
  | cons a rest ih =>
    rw [List.foldlM_cons, Option.bind_eq_bind, Option.bind_eq_some_iff] at h
    obtain ⟨r, hstep, hrest⟩ := h
    rw [ih hrest, timesSet_step hstep, timesGiven, timesGiven, List.countP_cons]
    omega

/-- Whatever has an item more that gives an option has the option once more. -/
theorem Adds.timesSet_eq {s : Setting} {value : String} {p q : Progress}
    (h : Adds (.setting s value) p q) : q.timesSet s = p.timesSet s + 1 := by
  cases h with
  | before front rest command behind waiting =>
    simp only [timesSet, valuesOf_append, valuesOf_setting_cons, List.length_append, List.length_cons]
    omega
  | behind before command front rest waiting =>
    simp only [timesSet, valuesOf_append, valuesOf_setting_cons, List.length_append, List.length_cons]
    omega

end Progress

/-! ## 4. What is asked for -/

namespace Split

/-- What is asked for depends on the command and the values of the options that all commands have. -/
theorem invocation?_congr {p q : Split} (hcommand : p.command? = q.command?)
    (hvalues : ∀ t ∈ Setting.global, ∀ {α : Type} (check : String → Option α),
      p.value? t check = q.value? t check) : p.invocation? = q.invocation? := by
  rw [invocation?, invocation?, hcommand, hvalues _ (by decide), hvalues _ (by decide),
    hvalues _ (by decide)]

variable {s : Setting} {front rest : List Item}

/-- Among the items before the command the place makes no difference. -/
theorem invocation?_insert_before (hfront : valuesOf s front = []) (value : String) (c : CommandName)
    (behind : List Item) :
    invocation? ⟨front ++ .setting s value :: rest, c, behind⟩
      = invocation? ⟨.setting s value :: (front ++ rest), c, behind⟩ := by
  refine invocation?_congr rfl fun t _ _ check => ?_
  have hvalues : valuesOf t (front ++ .setting s value :: rest)
      = valuesOf t (.setting s value :: (front ++ rest)) := by
    by_cases h : s = t
    · subst h
      simp only [valuesOf_append, valuesOf_setting_cons, hfront, List.nil_append]
    · simp only [valuesOf_append, valuesOf_setting_cons_of_ne h]
  simp only [value?, once, hvalues]

/-- An option that all commands have is nothing to the command. -/
theorem command?_insert (hmem : s ∈ Setting.global) (value : String) (before before' : List Item)
    (c : CommandName) :
    command? ⟨before, c, front ++ .setting s value :: rest⟩ = command? ⟨before', c, front ++ rest⟩ := by
  have hparameter : s ≠ .parameter := by rintro rfl; exact absurd hmem (by decide)
  have htrivial : s ≠ .trivialIsNull := by rintro rfl; exact absurd hmem (by decide)
  have hwords : wordsOf (front ++ .setting s value :: rest) = wordsOf (front ++ rest) := by
    simp [wordsOf]
  simp only [command?, once, valuesOf_append, valuesOf_setting_cons_of_ne hparameter,
    valuesOf_setting_cons_of_ne htrivial, hwords]

/-- An option given behind the command only could as well be given before it. -/
theorem invocation?_insert_behind (hmem : s ∈ Setting.global) {before : List Item}
    (hbefore : valuesOf s before = []) (hfront : valuesOf s front = []) (hrest : valuesOf s rest = [])
    (value : String) (c : CommandName) :
    invocation? ⟨before, c, front ++ .setting s value :: rest⟩
      = invocation? ⟨.setting s value :: before, c, front ++ rest⟩ := by
  refine invocation?_congr (command?_insert hmem value ..) fun t _ _ check => ?_
  by_cases h : s = t
  · subst h
    simp only [value?, once, valuesOf_append, valuesOf_setting_cons, hbefore, hfront, hrest,
      List.nil_append]
    cases hcheck : check value <;> simp [hcheck]
  · simp only [value?, once, valuesOf_append, valuesOf_setting_cons_of_ne h]

end Split

/-- Wherever the one item stands that gives an option, the same is asked for as if it stood first. -/
theorem Progress.Adds.invocation?_eq {s : Setting} (hmem : s ∈ Setting.global) {value : String}
    {p q : Progress} (h : Adds (.setting s value) p q) (hnone : p.timesSet s = 0) :
    q.invocation? = Progress.invocation? { p with before := .setting s value :: p.before } := by
  cases h with
  | before front rest command behind waiting =>
    simp only [timesSet, valuesOf_append, List.length_append, Nat.add_eq_zero_iff,
      List.length_eq_zero_iff] at hnone
    obtain ⟨⟨⟨hfront, -⟩, -⟩, -⟩ := hnone
    cases command with
    | none => rfl
    | some c =>
      cases waiting with
      | some t => rfl
      | none => exact Split.invocation?_insert_before hfront value c behind
  | behind before command front rest waiting =>
    simp only [timesSet, valuesOf_append, List.length_append, Nat.add_eq_zero_iff,
      List.length_eq_zero_iff] at hnone
    obtain ⟨⟨hbefore, hfront, hrest⟩, -⟩ := hnone
    cases command with
    | none => rfl
    | some c =>
      cases waiting with
      | some t => rfl
      | none => exact Split.invocation?_insert_behind hmem hbefore hfront hrest value c

/-! ## 5. Moving an option -/

/-- Lists of arguments of which the second is the first with one option that may stand anywhere moved,
together with its value, to a place that is not between an option and its value. -/
inductive Moves : List String → List String → Prop
  | move {s : Setting} {value : String} {given front behind front' behind' : List String} :
      s ∈ Setting.global → Gives s value given → front ++ behind = front' ++ behind' →
      (∀ a, front'.getLast? = some a → ¬ Waits a) →
      Moves (front ++ given ++ behind) (front' ++ given ++ behind')

/-- A move loses no argument and adds none. -/
theorem Moves.perm {as bs : List String} (h : Moves as bs) : as.Perm bs := by
  cases h with
  | @move _ _ given front behind front' behind' _ _ hothers _ =>
    have hfirst : ∀ l r : List String, (l ++ given ++ r).Perm (given ++ (l ++ r)) := fun l r => by
      rw [← List.append_assoc]
      exact List.perm_append_comm.append_right r
    exact (hfirst front behind).trans (hothers ▸ (hfirst front' behind').symm)

/-- What is asked for stays under a move. -/
theorem Moves.ofArguments?_eq {as bs : List String} (h : Moves as bs) (hplain : "--" ∉ as)
    (honce : ∀ s ∈ Setting.global, timesGiven s as ≤ 1) {inv : Invocation}
    (hinv : Invocation.ofArguments? as = some inv) : Invocation.ofArguments? bs = some inv := by
  have hplain' : "--" ∉ bs := fun hmem => hplain (h.perm.mem_iff.2 hmem)
  rw [Progress.ofArguments?_eq_foldlM hplain] at hinv
  rw [Progress.ofArguments?_eq_foldlM hplain']
  cases h with
  | @move s value given front behind front' behind' hmem hgives hothers hlast =>
    obtain ⟨q, hread, hasked⟩ := Option.bind_eq_some_iff.1 hinv
    have hcount := Progress.timesSet_foldlM hread s
    -- where the option stood, no value was waited for
    obtain ⟨p, hfront, hgiven⟩ := Progress.exists_foldlM_of_append (List.append_assoc .. ▸ hread)
    obtain ⟨_, hgiven, -⟩ := Progress.exists_foldlM_of_append hgiven
    have hwaiting := Progress.waiting_eq_none_of_foldlM hgives hgiven
    have hold := Progress.rel_foldlM_insert hmem hgives hfront hwaiting behind
    rw [hread, hothers] at hold
    -- the list without the option, read up to the new place
    cases hwithout : (front' ++ behind').foldlM Progress.step .start with
    | none => rw [hwithout] at hold; cases hold
    | some r =>
      obtain ⟨p', hfront', -⟩ := Progress.exists_foldlM_of_append hwithout
      have hnew := Progress.rel_foldlM_insert hmem hgives hfront'
        (Progress.waiting_eq_none hfront' hlast) behind'
      rw [hwithout] at hold hnew
      cases hold with
      | some hold =>
        generalize (front' ++ given ++ behind').foldlM Progress.step .start = read at hnew ⊢
        cases hnew with
        | some hnew =>
          have hnone : r.timesSet s = 0 := by
            have hone := honce s hmem
            have hadds := hold.timesSet_eq
            have hstart : Progress.start.timesSet s = 0 := rfl
            omega
          rw [Option.bind_some, hnew.invocation?_eq hmem hnone,
            ← hold.invocation?_eq hmem hnone, hasked]

/-- **Global options may stand anywhere.** Take arguments that break no rule, have no two hyphens alone
and give each option that may stand anywhere at most once. However such options are moved, with their
values and never between an option and its value, the same is asked for, with the values in the same
order, and over all files the run ends in the same way. -/
theorem global_options_anywhere {as bs : List String} {inv : Invocation}
    (hinv : Invocation.ofArguments? as = some inv) (hplain : "--" ∉ as)
    (honce : ∀ s ∈ Setting.global, timesGiven s as ≤ 1) (h : Relation.ReflTransGen Moves as bs) :
    Invocation.ofArguments? bs = some inv ∧ ∀ files, run bs files = run as files := by
  have hkept : as.Perm bs ∧ Invocation.ofArguments? bs = some inv := by
    induction h with
    | refl => exact ⟨.refl as, hinv⟩
    | @tail bs cs _ hmove ih =>
      obtain ⟨hperm, hasked⟩ := ih
      refine ⟨hperm.trans hmove.perm, hmove.ofArguments?_eq ?_ (fun s hs => ?_) hasked⟩
      · exact fun hmem => hplain (hperm.mem_iff.2 hmem)
      · rw [timesGiven, ← hperm.countP_eq]
        exact honce s hs
  refine ⟨hkept.2, fun files => ?_⟩
  rw [run, run, hkept.2, hinv]

/-- A dialect from between the values to the front, and the debugging option from the front to between
the values. -/
theorem global_options_anywhere_between_values :
    let as := ["--debug", "decode", "true", "-d", "MySQL", "null"]
    let bs := ["-d", "MySQL", "decode", "true", "--debug", "null"]
    let inv : Invocation :=
      { dialect := .mysql, config := none, debug := true, command := .decode ["true", "null"] }
    Invocation.ofArguments? as = some inv
    ∧ "--" ∉ as
    ∧ (∀ s ∈ Setting.global, timesGiven s as ≤ 1)
    ∧ Relation.ReflTransGen Moves as bs
    ∧ Invocation.ofArguments? bs = some inv
    ∧ ∀ files, run bs files = run as files := by
  intro as bs inv
  have hinv : Invocation.ofArguments? as = some inv := by decide +kernel
  have hplain : "--" ∉ as := by decide
  have honce : ∀ s ∈ Setting.global, timesGiven s as ≤ 1 := by decide +kernel
  have hletter : look "-d" = .option (.short 'd') none := by decide +kernel
  have hlong : look "--debug" = .option (.long "debug") none := by decide +kernel
  have hword : look "true" = .word := by decide +kernel
  have hdialect : Gives .dialect "MySQL" ["-d", "MySQL"] :=
    .apart hletter (by decide) rfl (by decide +kernel)
  have hdebug : Gives .debug "" ["--debug"] := .bare hlong (by decide) rfl
  have hfirst : Moves as ["-d", "MySQL", "--debug", "decode", "true", "null"] :=
    @Moves.move _ _ _ ["--debug", "decode", "true"] ["null"] [] _ (by decide) hdialect rfl
      (by simp)
  have hsecond : Moves ["-d", "MySQL", "--debug", "decode", "true", "null"] bs := by
    refine @Moves.move _ _ _ ["-d", "MySQL"] ["decode", "true", "null"]
      ["-d", "MySQL", "decode", "true"] ["null"] (by decide) hdebug rfl ?_
    rintro a ha ⟨name, s, hlook, -⟩
    obtain rfl := Option.some.inj ha
    cases hword.symm.trans hlook
  have hmoves := (Relation.ReflTransGen.single hfirst).tail hsecond
  exact ⟨hinv, hplain, honce, hmoves, global_options_anywhere hinv hplain honce hmoves⟩

end QueryTerms.CommandLine
