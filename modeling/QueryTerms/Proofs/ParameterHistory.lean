/-
QueryTerms.Proofs.ParameterHistory — a parameter is what its policy and its last call make of it.

A parameter is made, with or without a policy and a value, and then bound over and over; it may be
copied at any time, and the copy goes its own way with the history that it has so far. Each call
writes everything that a call can write (`Parameter.update_eq`), so nothing is left of a history but
the policy and the last call (`Parameter.History.parameter_eq`). A parameter that was not called yet
holds the value it was made with, as if that had been bound.

In a session the histories of the named parameters are read off the steps alone (`histories`); that
the named parameters are those with these histories is an invariant of every session.

  §1  what is left of a history
  §2  what a parameter answers
  §3  the histories of a session
  §4  parameters that cannot be told apart
-/
import QueryTerms.Proofs.SessionValues

namespace QueryTerms

namespace Parameter

variable {d : Domain}

/-! ## 1. What is left of a history -/

/-- The value that a call binds, or none if it binds NULL. -/
def Update.bound? : Update d → Option d.Native
  | .set v => some v
  | .setNull => none
  | .setOption v => v

/-- All that happened to a parameter: what it was made with, and the calls since. -/
structure History (d : Domain) where
  /-- The policy, if one was given. -/
  givenPolicy : Option Bool := none
  /-- The value, if one was given. -/
  givenValue : Option d.Native := none
  updates : List (Update d) := []

namespace History

/-- The policy that holds: without one, the trivial value is not NULL. -/
def policy (h : History d) : Bool :=
  h.givenPolicy.getD false

/-- The value at first: the trivial one, unless another is given. -/
def initialValue (h : History d) : d.Native :=
  h.givenValue.getD d.trivialValue

/-- The parameter that has this history. -/
def parameter (h : History d) : Parameter d :=
  updateAll { value := h.initialValue, trivialIsNull := h.policy } h.updates

/-- The history with more calls behind it. -/
def add (h : History d) (us : List (Update d)) : History d :=
  { h with updates := h.updates ++ us }

/-- The last call. If there was none, the value at first counts as bound. -/
def lastCall (h : History d) : Update d :=
  h.updates.getLast?.getD (.set h.initialValue)

theorem parameter_add (h : History d) (us : List (Update d)) :
    (h.add us).parameter = h.parameter.updateAll us := by
  simp only [add, parameter, updateAll, List.foldl_append]
  rfl

end History

/-- A call keeps the policy and overwrites all else. -/
theorem update_eq (p : Parameter d) (u : Update d) :
    p.update u =
      { value := u.bound?.getD d.trivialValue
        trivialIsNull := p.trivialIsNull
        forcedNull := u.bound?.isNone } := by
  cases u with
  | set v => rfl
  | setNull => rfl
  | setOption v => cases v <;> rfl

theorem trivialIsNull_updateAll (p : Parameter d) (us : List (Update d)) :
    (p.updateAll us).trivialIsNull = p.trivialIsNull := by
  unfold updateAll
  induction us generalizing p with
  | nil => rfl
  | cons u us ih => rw [List.foldl_cons, ih, update_eq]

/-- Nothing is left of a history but the policy and what the last call binds. -/
theorem History.parameter_eq (h : History d) :
    h.parameter =
      { value := h.lastCall.bound?.getD d.trivialValue
        trivialIsNull := h.policy
        forcedNull := h.lastCall.bound?.isNone } := by
  unfold parameter lastCall
  cases hlast : h.updates.getLast? with
  | none =>
      rw [List.getLast?_eq_none_iff.1 hlast]
      rfl
  | some u =>
      obtain ⟨before, hupdates⟩ := List.getLast?_eq_some_iff.1 hlast
      rw [hupdates, updateAll, List.foldl_append]
      show update (updateAll _ before) u = _
      rw [update_eq, trivialIsNull_updateAll]
      rfl

/-- Histories with the same policy that end with binding the same have the same parameter. -/
theorem History.parameter_congr {h h' : History d} (hpolicy : h'.policy = h.policy)
    (hbound : h'.lastCall.bound? = h.lastCall.bound?) : h'.parameter = h.parameter := by
  rw [h.parameter_eq, h'.parameter_eq, hpolicy, hbound]

/-! ## 2. What a parameter answers -/

theorem isTrivial_eq_true_iff (v : d.Native) : Domain.isTrivial v = true ↔ v = d.trivialValue :=
  decide_eq_true_iff

theorem isNull_eq_true_iff (p : Parameter d) : p.isNull = true ↔ p.nullState ≠ .notNull :=
  decide_eq_true_iff

theorem nullState_eq_forced_iff (p : Parameter d) : p.nullState = .forced ↔ p.forcedNull = true := by
  unfold nullState
  split
  · next h => simp [h]
  · next h => split <;> simp [h]

theorem nullState_eq_trivialAsNull_iff (p : Parameter d) :
    p.nullState = .trivialAsNull
      ↔ p.nullState ≠ .forced ∧ p.trivialIsNull = true ∧ p.value = d.trivialValue := by
  rw [Ne, nullState_eq_forced_iff, ← isTrivial_eq_true_iff]
  unfold nullState
  split
  · next h => simp [h]
  · next h => split <;> simp_all

theorem asOption_eq (p : Parameter d) :
    p.asOption = if p.nullState = .notNull then some p.value else none := by
  unfold asOption isNull
  by_cases h : p.nullState = .notNull <;> simp [h]

/-- What binding NULL forces is that the value is trivial; the policy asks for that anyway. -/
theorem value_of_isNull {p : Parameter d} (hforced : p.forcedNull = true → p.value = d.trivialValue)
    (h : p.isNull = true) : p.value = d.trivialValue := by
  cases hstate : p.nullState with
  | notNull => exact absurd hstate (p.isNull_eq_true_iff.1 h)
  | trivialAsNull => exact (p.nullState_eq_trivialAsNull_iff.1 hstate).2.2
  | forced => exact hforced (p.nullState_eq_forced_iff.1 hstate)

/-- What a parameter with this history answers, whatever came before the last call. -/
structure History.Explains (h : History d) (p : Parameter d) : Prop where
  policy_eq : p.trivialIsNull = h.policy
  value_eq : p.value = h.lastCall.bound?.getD d.trivialValue
  forced_iff : p.nullState = .forced ↔ h.lastCall = .setNull ∨ h.lastCall = .setOption none
  trivialAsNull_iff : p.nullState = .trivialAsNull
    ↔ p.nullState ≠ .forced ∧ h.policy = true ∧ p.value = d.trivialValue
  notNull_iff : p.nullState = .notNull
    ↔ p.nullState ≠ .forced ∧ ¬ (h.policy = true ∧ p.value = d.trivialValue)
  isNull_iff : p.isNull = true ↔ p.nullState ≠ .notNull
  asOption_eq : p.asOption = if p.nullState = .notNull then some p.value else none
  value_of_isNull : p.isNull = true → p.value = d.trivialValue

theorem Update.bound?_eq_none_iff {u : Update d} :
    u.bound? = none ↔ u = .setNull ∨ u = .setOption none := by
  cases u with
  | set v => simp [bound?]
  | setNull => simp [bound?]
  | setOption v => simp [bound?]

theorem History.explains (h : History d) : h.Explains h.parameter := by
  have hparameter := h.parameter_eq
  have hpolicy : h.parameter.trivialIsNull = h.policy := by rw [hparameter]
  have hvalue : h.parameter.value = h.lastCall.bound?.getD d.trivialValue := by rw [hparameter]
  have hforced : h.parameter.forcedNull = true ↔ h.lastCall.bound? = none := by
    rw [hparameter, Option.isNone_iff_eq_none]
  have htrivial := h.parameter.nullState_eq_trivialAsNull_iff
  rw [hpolicy] at htrivial
  exact {
    policy_eq := hpolicy
    value_eq := hvalue
    forced_iff := by
      rw [nullState_eq_forced_iff, hforced, Update.bound?_eq_none_iff]
    trivialAsNull_iff := htrivial
    notNull_iff := by
      cases hstate : h.parameter.nullState with
      | notNull => simp_all
      | trivialAsNull => simp_all
      | forced => simp
    isNull_iff := h.parameter.isNull_eq_true_iff
    asOption_eq := h.parameter.asOption_eq
    value_of_isNull := by
      refine Parameter.value_of_isNull fun hnull => ?_
      rw [hvalue, hforced.1 hnull]
      rfl }

end Parameter

/-! ## 3. The histories of a session -/

/-- The history of a parameter of either domain. -/
structure AnyHistory where
  domain : Domain
  history : Parameter.History domain

/-- The parameter that has this history. -/
def AnyHistory.parameter (h : AnyHistory) : AnyParameter :=
  ⟨h.domain, h.history.parameter⟩

/-- The name that a step registers a parameter under, and that parameter's history. -/
def Step.history? (hs : Registry AnyHistory) : Step → Option (String × AnyHistory)
  | .makeParameter name d trivialIsNull value => do
    let givenValue ← value.mapM (·.as? d)
    some (name, ⟨d, { givenPolicy := trivialIsNull, givenValue }⟩)
  | .callParameter name calls => do
    let h ← hs.get? name
    let updates ← calls.mapM (ParameterCall.update? h.domain)
    some (name, ⟨h.domain, h.history.add updates⟩)
  | .copyParameter name source => do
    let h ← hs.get? source
    some (name, h)
  | _ => none

/-- The histories after one more step. -/
def Step.record (hs : Registry AnyHistory) (e : Step) : Registry AnyHistory :=
  match e.history? hs with
  | some (name, h) => hs.insert name h
  | none => hs

/-- The histories of the parameters that are named after these steps. -/
def histories (steps : List Step) : Registry AnyHistory :=
  steps.foldl Step.record {}

namespace Workspace

/-- The named parameters are those with the histories. -/
def Remembers (w : Workspace) (hs : Registry AnyHistory) : Prop :=
  w.parameters = hs.map AnyHistory.parameter

theorem Remembers.get?_eq {w : Workspace} {hs : Registry AnyHistory} (hw : w.Remembers hs)
    (name : String) : w.parameters.get? name = (hs.get? name).map AnyHistory.parameter := by
  rw [show w.parameters = hs.map AnyHistory.parameter from hw, Registry.get?_map]

/-- A parameter that is found has a history. -/
theorem Remembers.exists_history {w : Workspace} {hs : Registry AnyHistory} (hw : w.Remembers hs)
    {name : String} {d : Domain} {p : Parameter d} (hp : w.parameters.get? name = some ⟨d, p⟩) :
    ∃ past : Parameter.History d, hs.get? name = some ⟨d, past⟩ ∧ p = past.parameter := by
  rw [hw.get?_eq, Option.map_eq_some_iff] at hp
  obtain ⟨past, hpast, hparameter⟩ := hp
  cases hparameter
  exact ⟨past.history, hpast, rfl⟩

/-- A step registers a parameter, and what is recorded is its history. -/
theorem Remembers.insert {w w' : Workspace} {hs : Registry AnyHistory} (hw : w.Remembers hs)
    {e : Step} {name : String} {past : AnyHistory} (hhistory : e.history? hs = some (name, past))
    (hparameters : w'.parameters = w.parameters.insert name past.parameter) :
    w'.Remembers (e.record hs) := by
  have hw : w.parameters = hs.map AnyHistory.parameter := hw
  rw [Step.record, hhistory, Remembers, Registry.map_insert, hparameters, hw]

/-- A step registers no parameter, and nothing is recorded. -/
theorem Remembers.keep {w w' : Workspace} {hs : Registry AnyHistory} (hw : w.Remembers hs)
    {e : Step} (hhistory : e.history? hs = none) (hparameters : w'.parameters = w.parameters) :
    w'.Remembers (e.record hs) := by
  rw [Step.record, hhistory, Remembers, hparameters]
  exact hw

/-- One step leaves the parameters with the histories that it records. -/
theorem remembers_perform {e : Step} {w w' : Workspace} {answer : Answer}
    {hs : Registry AnyHistory} (h : (perform e).run w = some (answer, w')) (hw : w.Remembers hs) :
    w'.Remembers (e.record hs) := by
  cases e with
  | makeParameter name d trivialIsNull value =>
      obtain ⟨given, hgiven, rfl⟩ := run_makeParameter_eq_some h
      have hhistory : Step.history? hs (.makeParameter name d trivialIsNull value)
          = some (name, ⟨d, { givenPolicy := trivialIsNull, givenValue := given }⟩) := by
        simp [Step.history?, hgiven]
      exact hw.insert hhistory rfl
  | callParameter name calls =>
      obtain ⟨d, p, updates, hp, hupdates, rfl⟩ := run_callParameter_eq_some h
      obtain ⟨past, hpast, rfl⟩ := hw.exists_history hp
      have hhistory : Step.history? hs (.callParameter name calls)
          = some (name, ⟨d, past.add updates⟩) := by
        simp [Step.history?, hpast, hupdates]
      refine hw.insert hhistory ?_
      simp [AnyHistory.parameter, past.parameter_add]
  | copyParameter name source =>
      obtain ⟨d, p, hp, rfl⟩ := run_copyParameter_eq_some h
      obtain ⟨past, hpast, rfl⟩ := hw.exists_history hp
      have hhistory : Step.history? hs (.copyParameter name source) = some (name, ⟨d, past⟩) := by
        simp [Step.history?, hpast]
      exact hw.insert hhistory rfl
  | _ => exact hw.keep rfl (parameters_perform (by simp [Step.parts]) h)

/-- So does a whole session. -/
theorem remembers_performAll {steps : List Step} {w w' : Workspace} {answers : List Answer}
    {hs : Registry AnyHistory} (h : (performAll steps).run w = some (answers, w'))
    (hw : w.Remembers hs) : w'.Remembers (steps.foldl Step.record hs) := by
  induction steps generalizing w answers hs with
  | nil =>
      obtain ⟨-, rfl⟩ := run_performAll_nil.1 h
      exact hw
  | cons e steps ih =>
      obtain ⟨answer, rest, w₁, rfl, hfirst, hrest⟩ := run_performAll_cons.1 h
      exact ih hrest (remembers_perform hfirst hw)

/-! ## 4. Parameters that cannot be told apart -/

theorem run_compareParameters {w : Workspace} {a b : String} {d : Domain} {p q : Parameter d}
    (hp : w.parameters.get? a = some ⟨d, p⟩) (hq : w.parameters.get? b = some ⟨d, q⟩) :
    (perform (.compareParameters a b)).run w = some (.truth (p = q), w) := by
  refine run_bind_eq_some.2 ⟨_, w, run_find_eq_some.2 ⟨hp, rfl⟩, ?_⟩
  refine run_bind_eq_some.2 ⟨_, w, run_find_eq_some.2 ⟨hq, rfl⟩, ?_⟩
  simp

theorem run_parameterNative {w : Workspace} {name : String} {p : AnyParameter}
    (hp : w.parameters.get? name = some p) :
    (perform (.parameterNative name)).run w = some (.native ⟨p.domain, p.parameter.value⟩, w) :=
  run_bind_eq_some.2 ⟨p, w, run_find_eq_some.2 ⟨hp, rfl⟩, rfl⟩

/-- **The whole history of a parameter collapses to its policy and its last call.** In every state of
every session the named parameters are those with the recorded histories: made, called and copied in
any order. Each answers as its policy and its last call explain, the conversion to a native value
included, whatever came before. Two parameters of one domain with the same policy whose last calls bind
the same, as the same call does, compare equal, and every sink is written the same for both, by value
and with NULL. -/
theorem parameters_collapse {steps : List Step} {answers : List Answer} {w : Workspace}
    (h : (performAll steps).run {} = some (answers, w)) :
    (∀ name, w.parameters.get? name = ((histories steps).get? name).map AnyHistory.parameter)
    ∧ (∀ name d (past : Parameter.History d), (histories steps).get? name = some ⟨d, past⟩ →
        past.Explains past.parameter
        ∧ (perform (.parameterNative name)).run w = some (.native ⟨d, past.parameter.value⟩, w))
    ∧ ∀ a b d (past past' : Parameter.History d), (histories steps).get? a = some ⟨d, past⟩ →
        (histories steps).get? b = some ⟨d, past'⟩ → past'.policy = past.policy →
        past'.lastCall.bound? = past.lastCall.bound? →
          (perform (.compareParameters a b)).run w = some (.truth true, w)
          ∧ ∀ {σ : Type} (k : Sink σ) (s : Store) (x : σ),
              (Term.single (.parameter past'.parameter)).serializeInto k s x
                  = (Term.single (.parameter past.parameter)).serializeInto k s x
              ∧ (Term.single (.orNull past'.parameter)).serializeInto k s x
                  = (Term.single (.orNull past.parameter)).serializeInto k s x := by
  have hw : w.Remembers (histories steps) := remembers_performAll h rfl
  refine ⟨hw.get?_eq, fun name d past hpast => ⟨past.explains, ?_⟩, ?_⟩
  · have hp : w.parameters.get? name = some ⟨d, past.parameter⟩ := by
      rw [hw.get?_eq, hpast]
      rfl
    exact run_parameterNative hp
  · intro a b d past past' hpast hpast' hpolicy hbound
    have hp : w.parameters.get? a = some ⟨d, past.parameter⟩ := by
      rw [hw.get?_eq, hpast]
      rfl
    have hp' : w.parameters.get? b = some ⟨d, past'.parameter⟩ := by
      rw [hw.get?_eq, hpast']
      rfl
    have heq : past'.parameter = past.parameter := Parameter.History.parameter_congr hpolicy hbound
    have hcompare := run_compareParameters hp hp'
    rw [heq] at hcompare ⊢
    exact ⟨by simpa using hcompare, fun k s x => ⟨rfl, rfl⟩⟩

/-- A parameter is made under a policy, copied and called, and so is the copy. -/
def calledTwice : List Step :=
  [.makeParameter "first" .integral (some true) (some ⟨.integral, 7⟩),
    .copyParameter "second" "first",
    .callParameter "first" [.setNull, .set ⟨.integral, 0⟩],
    .callParameter "second" [.setOption (some ⟨.integral, 5⟩), .setOption none],
    .callParameter "second" [.setNull, .setOption (some ⟨.integral, 0⟩)]]

/-- Both end with zero, which the policy reads as NULL. -/
theorem parameters_collapse_calledTwice :
    ∃ answers w, (performAll calledTwice).run {} = some (answers, w)
      ∧ ∃ past past' : Parameter.History .integral,
        (histories calledTwice).get? "first" = some ⟨.integral, past⟩
        ∧ (histories calledTwice).get? "second" = some ⟨.integral, past'⟩
        ∧ past'.policy = past.policy
        ∧ past'.lastCall.bound? = past.lastCall.bound?
        ∧ past.parameter.nullState = .trivialAsNull
        ∧ past.Explains past.parameter
        ∧ (perform (.parameterNative "first")).run w = some (.native ⟨.integral, 0⟩, w)
        ∧ (perform (.compareParameters "first" "second")).run w = some (.truth true, w) := by
  have hanswered : ((performAll calledTwice).run {}).isSome = true := rfl
  have hrun : (performAll calledTwice).run {} = some (_, _) := (Option.some_get hanswered).symm
  have hfirst : (histories calledTwice).get? "first" = some ⟨.integral, _⟩ := rfl
  have hsecond : (histories calledTwice).get? "second" = some ⟨.integral, _⟩ := rfl
  obtain ⟨-, hexplains, hequal⟩ := parameters_collapse hrun
  obtain ⟨hpast, hnative⟩ := hexplains "first" .integral _ hfirst
  obtain ⟨hcompare, -⟩ := hequal "first" "second" .integral _ _ hfirst hsecond rfl rfl
  exact ⟨_, _, hrun, _, _, hfirst, hsecond, rfl, rfl, rfl, hpast, hnative, hcompare⟩

end Workspace

end QueryTerms
