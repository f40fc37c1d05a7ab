/-
QueryTerms.Proofs.DialectArguments — naming another dialect changes nothing else in what arguments ask
for.

Exchange the names of dialects in a list of arguments for other names that are known, in any of the
ways in which an option takes its value. Then the list breaks a rule as before or breaks none as before,
and asks for the same but for the dialect (`Invocation.map_leveled_ofArguments?`). A name of a
dialect never looks like an option, so the exchange does not change how the arguments behind it are
taken; behind two hyphens an argument is a word whatever it looks like, so nothing may be exchanged
there.

The items of the two lists become equal once one fixed name stands for every known one
(`Item.leveled`). That is shown along the exchange, for the items behind a command and then for a
whole list (§2); all that is made of the items then does not see the difference (§3).
-/
import QueryTerms.Proofs.ArgumentItems

namespace QueryTerms.CommandLine

/-! ## 1. Arguments that differ in dialects -/

/-- The name of a dialect is never taken for an option. -/
theorem look_of_ofUserName? {v : String} (h : (Dialect.Kind.ofUserName? v).isSome) :
    look v = .word := by
  refine look_eq_word fun hhead => ?_
  obtain ⟨rest, hv⟩ : ∃ rest, v.toList = '-' :: rest := by
    cases hlist : v.toList with
    | nil => simp [hlist] at hhead
    | cons c rest => exact ⟨rest, by simpa [hlist] using hhead⟩
  have hhyphen : ∀ name : String, String.ofList (v.toList.map Char.toLower) = name →
      name.toList.head? = some '-' := by
    rintro name rfl
    rw [String.toList_ofList, hv]
    rfl
  unfold Dialect.Kind.ofUserName? at h
  split at h
  · next hname => exact absurd (hhyphen _ hname) (by decide)
  · next hname => exact absurd (hhyphen _ hname) (by decide)
  · next hname => exact absurd (hhyphen _ hname) (by decide)
  · next hname => exact absurd (hhyphen _ hname) (by decide)
  · simp at h

/-- A known name can be given in the next argument. -/
theorem Gives.dialect_apart {argument v : String} {name : OptionName}
    (hlook : look argument = .option name none) (hname : Setting.dialect.hasName name = true)
    (hv : (Dialect.Kind.ofUserName? v).isSome) : Gives .dialect v [argument, v] :=
  .apart hlook hname rfl (look_of_ofUserName? hv)

/-- Lists of arguments that are the same, except that they name different dialects. -/
inductive SameButDialect : List String → List String → Prop
  | nil : SameButDialect [] []
  /-- Behind two hyphens nothing names a dialect. -/
  | endOfOptions (rest : List String) : SameButDialect ("--" :: rest) ("--" :: rest)
  | same {as bs : List String} {a : String} : a ≠ "--" → SameButDialect as bs →
      SameButDialect (a :: as) (a :: bs)
  | dialect {as bs given given' : List String} {v w : String} :
      Gives .dialect v given → (Dialect.Kind.ofUserName? v).isSome →
      Gives .dialect w given' → (Dialect.Kind.ofUserName? w).isSome →
      SameButDialect as bs → SameButDialect (given ++ as) (given' ++ bs)

/-! ## 2. Items -/

/-- One fixed name for all the names of dialects. -/
def leveledName (v : String) : String :=
  if (Dialect.Kind.ofUserName? v).isSome then "postgres" else v

/-- The fixed name is known exactly if the name is. -/
theorem isSome_ofUserName?_leveledName (v : String) :
    (Dialect.Kind.ofUserName? (leveledName v)).isSome = (Dialect.Kind.ofUserName? v).isSome := by
  unfold leveledName
  split
  · next h => rw [h]; decide
  · rfl

/-- The item with one fixed name in the place of a dialect's. -/
def Item.leveled : Item → Item
  | .setting .dialect v => .setting .dialect (leveledName v)
  | item => item

/-- All known names are leveled to the same item. -/
theorem Item.leveled_dialect {v : String} (h : (Dialect.Kind.ofUserName? v).isSome) :
    (Item.setting .dialect v).leveled = .setting .dialect "postgres" := by
  rw [leveled, leveledName, if_pos h]

/-- Putting one item in front is seen by leveling on its own. -/
theorem map_leveled_map_cons (item : Item) (o : Option (List Item)) :
    (o.map (item :: ·)).map (List.map Item.leveled)
      = (o.map (List.map Item.leveled)).map (item.leveled :: ·) := by
  cases o <;> rfl

/-- Behind a command, the items of lists that differ in dialects differ in dialects. -/
theorem itemsBehind_sameButDialect {known : List Setting} (hknown : .dialect ∈ known)
    {as bs : List String} (h : SameButDialect as bs) : ∀ waiting : Option Setting,
      (itemsBehind known waiting as).map (List.map Item.leveled)
        = (itemsBehind known waiting bs).map (List.map Item.leveled) := by
  induction h with
  | nil => exact fun _ => rfl
  | endOfOptions rest => exact fun _ => rfl
  | @same as bs a ha _ ih =>
    intro waiting
    cases hlook : look a with
    | endOfOptions => exact absurd (look_eq_endOfOptions hlook) ha
    | word =>
      cases waiting with
      | none => simp only [itemsBehind, hlook, map_leveled_map_cons, ih none]
      | some s => simp only [itemsBehind, hlook, map_leveled_map_cons, ih none]
    | option name attached =>
      cases waiting with
      | some s => simp only [itemsBehind, hlook]
      | none =>
        simp only [itemsBehind, hlook]
        cases known.find? (·.hasName name) with
        | none => rfl
        | some s =>
          cases attached with
          | none =>
            by_cases hvalue : s.takesValue = true
            · simp only [hvalue, if_true, ih (some s)]
            · simp only [hvalue, Bool.false_eq_true, if_false, map_leveled_map_cons, ih none]
          | some value =>
            by_cases hvalue : s.takesValue = true
            · simp only [hvalue, if_true, map_leveled_map_cons, ih none]
            · simp only [hvalue, Bool.false_eq_true, if_false]
  | dialect hgiven hv hgiven' hw _ ih =>
    -- either list gives one item here, of a known name, or breaks the rule that an option has a value
    intro waiting
    cases waiting with
    | none =>
      rw [itemsBehind_gives hknown hgiven, itemsBehind_gives hknown hgiven', map_leveled_map_cons,
        map_leveled_map_cons, ih none, Item.leveled_dialect hv,
        Item.leveled_dialect hw]
    | some s =>
      rw [itemsBehind_gives_waiting known hgiven, itemsBehind_gives_waiting known hgiven']

/-- The split with one fixed name in the place of every dialect's. -/
def Split.leveled (p : Split) : Split :=
  { p with before := p.before.map Item.leveled, behind := p.behind.map Item.leveled }

theorem map_leveled_map_before (item : Item) (o : Option Split) :
    (o.map fun p => { p with before := item :: p.before }).map Split.leveled
      = (o.map Split.leveled).map fun p => { p with before := item.leveled :: p.before } := by
  cases o <;> rfl

theorem map_leveled_bind_behind (command : CommandName) (o : Option (List Item)) :
    (o.bind fun items => some (Split.mk [] command items)).map Split.leveled
      = (o.map (List.map Item.leveled)).bind fun items => some (Split.mk [] command items) := by
  cases o <;> rfl

/-- The splits of lists that differ in dialects differ in dialects. -/
theorem split_sameButDialect {as bs : List String} (h : SameButDialect as bs) :
    ∀ waiting : Option Setting,
      (split waiting as).map Split.leveled = (split waiting bs).map Split.leveled := by
  induction h with
  | nil =>
    intro waiting
    cases waiting <;> rfl
  | endOfOptions rest =>
    intro waiting
    cases waiting <;> rfl
  | @same as bs a ha hrest ih =>
    intro waiting
    cases hlook : look a with
    | endOfOptions => exact absurd (look_eq_endOfOptions hlook) ha
    | word =>
      cases waiting with
      | some s => simp only [split, hlook, map_leveled_map_before, ih none]
      | none =>
        simp only [split, hlook]
        cases CommandName.ofName? a with
        | none => rfl
        | some command =>
          -- the rest stands behind the command, and every command knows the dialect
          have hknown : Setting.dialect ∈ command.settings := command.mem_settings (by decide)
          have hbehind := itemsBehind_sameButDialect hknown hrest none
          simp only [Option.bind_eq_bind, Option.bind_some, map_leveled_bind_behind, hbehind]
    | option name attached =>
      cases waiting with
      | some s => simp only [split, hlook]
      | none =>
        simp only [split, hlook]
        cases Setting.global.find? (·.hasName name) with
        | none => rfl
        | some s =>
          cases attached with
          | none =>
            by_cases hvalue : s.takesValue = true
            · simp only [hvalue, if_true, ih (some s)]
            · simp only [hvalue, Bool.false_eq_true, if_false, map_leveled_map_before, ih none]
          | some value =>
            by_cases hvalue : s.takesValue = true
            · simp only [hvalue, if_true, map_leveled_map_before, ih none]
            · simp only [hvalue, Bool.false_eq_true, if_false]
  | dialect hgiven hv hgiven' hw _ ih =>
    intro waiting
    cases waiting with
    | none =>
      rw [split_gives (by decide) hgiven, split_gives (by decide) hgiven', map_leveled_map_before,
        map_leveled_map_before, ih none, Item.leveled_dialect hv, Item.leveled_dialect hw]
    | some s =>
      rw [split_gives_waiting hgiven, split_gives_waiting hgiven']

/-! ## 3. Invocations -/

/-- The values of any other option are not leveled. -/
theorem valuesOf_leveled {s : Setting} (h : s ≠ .dialect) (items : List Item) :
    valuesOf s (items.map Item.leveled) = valuesOf s items := by
  rw [valuesOf, List.filterMap_map, valuesOf]
  congr 1
  funext item
  cases item with
  | word text => rfl
  | setting t v =>
    cases t with
    | dialect => simp [Item.leveled, h.symm]
    | _ => rfl

/-- The dialects given are leveled one by one. -/
theorem valuesOf_dialect_leveled (items : List Item) :
    valuesOf .dialect (items.map Item.leveled) = (valuesOf .dialect items).map leveledName := by
  rw [valuesOf, List.filterMap_map, valuesOf, List.map_filterMap]
  congr 1
  funext item
  cases item with
  | word text => rfl
  | setting t v => cases t <;> rfl

/-- The words are not leveled, even those that are names of dialects. -/
theorem wordsOf_leveled (items : List Item) : wordsOf (items.map Item.leveled) = wordsOf items := by
  rw [wordsOf, List.filterMap_map, wordsOf]
  congr 1
  funext item
  cases item with
  | word text => rfl
  | setting t v => cases t <;> rfl

/-- Whether another option is given too often, and its value, stay. -/
theorem once_leveled {s : Setting} (h : s ≠ .dialect) (items : List Item) :
    once s (items.map Item.leveled) = once s items := by
  rw [once, valuesOf_leveled h, once]

/-- So does whether the dialect is given too often. -/
theorem once_dialect_leveled (items : List Item) :
    once .dialect (items.map Item.leveled) = (once .dialect items).map (Option.map leveledName) := by
  rw [once, valuesOf_dialect_leveled, once]
  rcases valuesOf .dialect items with _ | ⟨v, _ | ⟨w, rest⟩⟩ <;> rfl

namespace Split

theorem value?_leveled {α : Type} {s : Setting} (h : s ≠ .dialect) (p : Split)
    (check : String → Option α) : p.leveled.value? s check = p.value? s check := by
  simp only [value?, leveled, once_leveled h]

theorem command?_leveled (p : Split) : p.leveled.command? = p.command? := by
  have hparameter : Setting.parameter ≠ .dialect := by decide
  have htrivial : Setting.trivialIsNull ≠ .dialect := by decide
  simp only [command?, leveled, once_leveled hparameter, once_leveled htrivial, wordsOf_leveled]

/-- An option has a value or none, if it is given often enough and every value passes the check. -/
theorem isSome_value? {α : Type} (p : Split) (s : Setting) (check : String → Option α) :
    (p.value? s check).isSome
      = ((once s p.before).any (·.all fun v => (check v).isSome)
        && (once s p.behind).any (·.all fun v => (check v).isSome)) := by
  rw [value?]
  rcases once s p.before with _ | _ | v
  · rfl
  · rcases once s p.behind with _ | _ | w
    · rfl
    · rfl
    · cases hw : check w <;> simp [hw]
  · cases hv : check v
    · simp [hv]
    · rcases once s p.behind with _ | _ | w
      · simp [hv]
      · simp [hv]
      · cases hw : check w <;> simp [hv, hw]

/-- Leveling keeps whether the dialects pass their check. -/
theorem isSome_value?_dialect_leveled (p : Split) :
    (p.leveled.value? .dialect Dialect.Kind.ofUserName?).isSome
      = (p.value? .dialect Dialect.Kind.ofUserName?).isSome := by
  simp only [isSome_value?, leveled, once_dialect_leveled, Option.any_map, Option.all_map,
    isSome_ofUserName?_leveledName]

end Split

namespace Invocation

/-- The invocation, of one fixed dialect. -/
def leveled (inv : Invocation) : Invocation :=
  { inv with dialect := .postgres }

/-- Of a leveled split nothing but the dialect can be different. -/
theorem map_leveled_invocation? (p : Split) :
    p.leveled.invocation?.map leveled = p.invocation?.map leveled := by
  have hdialect := p.isSome_value?_dialect_leveled
  have hconfig : Setting.config ≠ .dialect := by decide
  have hdebug : Setting.debug ≠ .dialect := by decide
  rw [Split.invocation?, Split.invocation?, p.value?_leveled hconfig, p.value?_leveled hdebug,
    p.command?_leveled]
  cases hold : p.value? .dialect Dialect.Kind.ofUserName? with
  | none =>
    rw [hold] at hdialect
    rw [Option.isNone_iff_eq_none.1 (Option.isSome_eq_false_iff.1 hdialect)]
  | some kind =>
    rw [hold, Option.isSome_some, Option.isSome_iff_exists] at hdialect
    obtain ⟨kind', hnew⟩ := hdialect
    rw [hnew]
    cases p.value? .config fun path => if path.isEmpty then none else some path with
    | none => rfl
    | some config =>
      cases p.value? .debug some with
      | none => rfl
      | some debug => cases p.command? <;> rfl

/-- **Other names of dialects change nothing else.** Lists of arguments that differ only in the known
names of dialects that they give break a rule both or neither, and ask for the same but for the
dialect. -/
theorem map_leveled_ofArguments? {as bs : List String} (h : SameButDialect as bs) :
    (ofArguments? as).map leveled = (ofArguments? bs).map leveled := by
  have hsplit := split_sameButDialect h none
  rw [ofArguments?_eq, ofArguments?_eq]
  cases ha : split none as with
  | none =>
    rw [ha, Option.map_none] at hsplit
    rw [Option.map_eq_none_iff.1 hsplit.symm]
  | some p =>
    rw [ha, Option.map_some] at hsplit
    obtain ⟨q, hb, hleveled⟩ := Option.map_eq_some_iff.1 hsplit.symm
    rw [hb, Option.bind_some, Option.bind_some, ← map_leveled_invocation? p,
      ← map_leveled_invocation? q, hleveled]

end Invocation

end QueryTerms.CommandLine
