/-
QueryTerms.Proofs.OptionTransfer — passing a value on through its option form.

An option is what parameters and fields have in common: a value, or none for NULL. It forgets why a
parameter is NULL and what it holds meanwhile, and a parameter that is given it reads it under a
policy of its own. What survives is settled by two facts. Binding an option and asking for it again
gives it back, unless the policy of the receiver takes the value for NULL
(`Parameter.asOption_setOption`). And in every parameter that has come about by calls, NULL goes with
the trivial value, so its option still tells its value (`Parameter.value_eq_getD_asOption`).

A parameter that may be written as NULL writes nothing but its option, and a field shows nothing but
its own; so the same two facts carry a column over into a parameter.

  §1  binding an option
  §2  what writes and shows nothing but an option
  §3  one parameter in another's place
  §4  the transfer
-/
import QueryTerms.Proofs.Frames
import QueryTerms.Proofs.ParameterHistory

namespace QueryTerms

namespace Parameter

variable {d : Domain}

/-! ## 1. Binding an option -/

theorem setOption_eq (q : Parameter d) (o : Option d.Native) :
    q.setOption o =
      { value := o.getD d.trivialValue
        trivialIsNull := q.trivialIsNull
        forcedNull := o.isNone } :=
  q.update_eq (.setOption o)

/-- Of two options bound one after the other, the first one leaves nothing. -/
theorem setOption_setOption (q : Parameter d) (o o' : Option d.Native) :
    (q.setOption o).setOption o' = q.setOption o' := by
  rw [setOption_eq, setOption_eq, setOption_eq]

theorem nullState_setOption_none (q : Parameter d) : (q.setOption none).nullState = .forced := by
  rw [nullState_eq_forced_iff, setOption_eq]
  rfl

/-- A value that is bound is NULL only by the policy. -/
theorem nullState_setOption_some (q : Parameter d) (v : d.Native) :
    (q.setOption (some v)).nullState =
      if q.trivialIsNull = true ∧ v = d.trivialValue then .trivialAsNull else .notNull := by
  rw [setOption_eq]
  simp [nullState, isTrivial_eq_true_iff]

/-- An option that was bound is given back, except a value that the policy takes for NULL. -/
theorem asOption_setOption (q : Parameter d) (o : Option d.Native) :
    (q.setOption o).asOption =
      if q.trivialIsNull = true ∧ o = some d.trivialValue then none else o := by
  cases o with
  | none => simp [asOption_eq, nullState_setOption_none]
  | some v =>
      rw [asOption_eq, nullState_setOption_some, setOption_eq]
      by_cases h : q.trivialIsNull = true ∧ v = d.trivialValue <;> simp [h]

/-- So the option stays what it was exactly if the policy does not take it for NULL. -/
theorem asOption_setOption_eq_iff (q : Parameter d) (o : Option d.Native) :
    (q.setOption o).asOption = o ↔ ¬ (q.trivialIsNull = true ∧ o = some d.trivialValue) := by
  rw [asOption_setOption]
  split
  · next h => simp [h]
  · next h => simp [h]

/-- Where NULL goes with the trivial value, the option tells the value. -/
theorem value_eq_getD_asOption {p : Parameter d}
    (hnull : p.isNull = true → p.value = d.trivialValue) :
    p.asOption.getD d.trivialValue = p.value := by
  unfold asOption
  split
  · next h => exact (hnull h).symm
  · rfl

end Parameter

/-! ## 2. What writes and shows nothing but an option -/

/-- The token of a value, or of NULL. -/
def Token.ofOption {d : Domain} : Option d.Native → Token
  | some v => .ofNative v
  | none => .null

/-- A parameter that may be written as NULL writes its option into plain text, in the default spelling. -/
theorem Term.serializeInto_plain_orNull (s : Store) {d : Domain} (p : Parameter d) (text : String) :
    (Term.single (.orNull p)).serializeInto Sink.plain s text
      = (.ok (), text ++ (Token.ofOption p.asOption).plainText) := by
  have hstream : (Term.single (.orNull p)).stream s = .one (.ofOption p.asOption) := by
    rw [Term.stream, Expr.stream, Parameter.asOption]
    split <;> rfl
  rw [Term.serializeInto_plain, hstream, ← Token.spelling_numeric]
  simp [TokenStream.ending, TokenStream.spelled, TokenStream.one]

namespace Field

variable (f : Field) (s : Store)

theorem asOption?_eq :
    f.asOption? s =
      if f.isValid then .ok (s.get f.slot).asOption else .error (.nonExistentRow .value) := by
  unfold asOption? cell?
  split <;> rfl

/-- A field with a row shows its option in the default spelling, and one without a row nothing. -/
theorem display?_eq :
    f.display? s =
      if f.isValid then some (Token.ofOption (s.get f.slot).asOption).plainText else none := by
  unfold display? cell? Cell.asOption
  by_cases hvalid : f.isValid
  · by_cases hnull : (s.get f.slot).isNull <;> simp [hvalid, hnull, Token.ofOption]
  · simp [hvalid]

theorem display?_eq_none_iff : f.display? s = none ↔ f.isValid = false := by
  rw [display?_eq]
  split
  · next h => simp [h]
  · next h => simp [h]

end Field

/-! ## 3. One parameter in another's place -/

namespace Parameter

variable {d : Domain}

/-- The parameters hold the same, are NULL or not alike, and are written alike wherever they stand in a
term and into whatever sink, as their value and as NULL where they are. -/
structure StandsFor (p' p : Parameter d) : Prop where
  value_eq : p'.value = p.value
  isNull_eq : p'.isNull = p.isNull
  asOption_eq : p'.asOption = p.asOption
  writes_eq : ∀ {e : Domain} (frame : Term.Frame d e) {σ : Type} (k : Sink σ) (s : Store) (x : σ),
    (frame.fill (.parameter p')).serializeInto k s x
      = (frame.fill (.parameter p)).serializeInto k s x
  writesOrNull_eq : ∀ {e : Domain} (frame : Term.Frame d e) {σ : Type} (k : Sink σ) (s : Store)
    (x : σ), (frame.fill (.orNull p')).serializeInto k s x
      = (frame.fill (.orNull p)).serializeInto k s x

theorem isNull_eq_isNone_asOption (p : Parameter d) : p.isNull = p.asOption.isNone := by
  unfold asOption
  cases p.isNull <;> rfl

/-- A parameter shows and writes nothing but its value and its option. -/
theorem StandsFor.of_eq {p' p : Parameter d} (hvalue : p'.value = p.value)
    (hoption : p'.asOption = p.asOption) : p'.StandsFor p := by
  have hisNull : p'.isNull = p.isNull := by
    rw [isNull_eq_isNone_asOption, hoption, ← isNull_eq_isNone_asOption]
  refine ⟨hvalue, hisNull, hoption, ?_, ?_⟩
  · intro e frame σ k s x
    have hgist := (Expr.gist_parameter_eq_iff p p' s s).2 hvalue
    exact frame.serializeInto_fill hgist (fun _ _ => rfl) k x
  · intro e frame σ k s x
    have hgist := (Expr.gist_orNull_eq_iff p p' s s).2 ⟨hvalue, hisNull⟩
    exact frame.serializeInto_fill hgist (fun _ _ => rfl) k x

/-- Under its own policy, no parameter has the trivial value as its option. -/
theorem asOption_ne_trivialValue {p : Parameter d} (hpolicy : p.trivialIsNull = true) :
    p.asOption ≠ some d.trivialValue := by
  intro h
  rw [asOption_eq] at h
  split at h
  · next hstate =>
      have hvalue : p.value = d.trivialValue := by simpa using h
      have htrivial : p.nullState = .trivialAsNull :=
        p.nullState_eq_trivialAsNull_iff.2 ⟨by simp [hstate], hpolicy, hvalue⟩
      simp [hstate] at htrivial
  · simp at h

section Self

variable {p : Parameter d} (hnull : p.isNull = true → p.value = d.trivialValue)
include hnull

/-- A parameter that is given its own option keeps all but the reason why it is NULL. -/
theorem setOption_asOption_self : p.setOption p.asOption = { p with forcedNull := p.isNull } := by
  rw [setOption_eq, value_eq_getD_asOption hnull, isNull_eq_isNone_asOption]

/-- And it stands for what it was. -/
theorem standsFor_self : (p.setOption p.asOption).StandsFor p := by
  refine .of_eq ?_ ?_
  · rw [setOption_asOption_self hnull]
  · rw [asOption_setOption, if_neg]
    intro h
    exact asOption_ne_trivialValue h.1 h.2

/-- Only a NULL that came from the policy changes: it is forced from then on. -/
theorem setOption_asOption_self_eq :
    p.setOption p.asOption =
      if p.nullState = .trivialAsNull then { p with forcedNull := true } else p := by
  rw [setOption_asOption_self hnull]
  cases hstate : p.nullState with
  | notNull =>
      have hisNull : p.isNull = false := by simp [isNull, hstate]
      have hforced : p.forcedNull = false := by
        rw [← Bool.not_eq_true, ← nullState_eq_forced_iff, hstate]
        simp
      rw [hisNull, ← hforced]
      rfl
  | trivialAsNull =>
      have hisNull : p.isNull = true := by simp [isNull, hstate]
      rw [hisNull]
      rfl
  | forced =>
      have hisNull : p.isNull = true := by simp [isNull, hstate]
      rw [hisNull, ← p.nullState_eq_forced_iff.1 hstate]
      rfl

/-- A second time changes nothing. -/
theorem setOption_asOption_idem :
    (p.setOption p.asOption).setOption (p.setOption p.asOption).asOption = p.setOption p.asOption := by
  rw [(standsFor_self hnull).asOption_eq, setOption_setOption]

theorem nullState_setOption_asOption_self (hstate : p.nullState = .trivialAsNull) :
    (p.setOption p.asOption).nullState = .forced := by
  rw [nullState_eq_forced_iff, setOption_asOption_self_eq hnull, if_pos hstate]

end Self

end Parameter

/-! ## 4. The transfer -/

/-- A parameter without a policy that is given the option of a field with a row is written into plain
text as the field shows itself. -/
theorem Field.display?_eq_written {f : Field} (hvalid : f.isValid = true) (s : Store)
    {q : Parameter f.domain} (hpolicy : q.trivialIsNull = false) :
    ∃ option text, f.asOption? s = .ok option ∧ f.display? s = some text
      ∧ ∀ s' : Store, (Term.single (.orNull (q.setOption option))).serializeInto Sink.plain s' ""
          = (.ok (), text) := by
  refine ⟨(s.get f.slot).asOption, (Token.ofOption (s.get f.slot).asOption).plainText, ?_, ?_, ?_⟩
  · rw [f.asOption?_eq, if_pos hvalid]
  · rw [f.display?_eq, if_pos hvalid]
  · intro s'
    have hkept : (q.setOption (s.get f.slot).asOption).asOption = (s.get f.slot).asOption := by
      rw [Parameter.asOption_setOption_eq_iff, hpolicy]
      simp
    rw [Term.serializeInto_plain_orNull, hkept, String.empty_append]

/-- **Passing a value on through its option keeps it.** Let any parameter be given the option of one
that has come about by calls. It has the same option from then on, except exactly where its policy is
set and the option is the trivial value: then it is NULL by the policy. It has the same value in
either case. A parameter that is given its own option stands for what it was, and stays so if that is
repeated; nothing changes but that a NULL by the policy is forced. And a parameter without a policy
that is given the option of a valid field is written into plain text as the field shows itself; a
field shows nothing exactly if it is not valid. -/
theorem Parameter.option_transfers {d : Domain} (past : History d) :
    let p := past.parameter
    (∀ q : Parameter d,
      ((q.setOption p.asOption).asOption = p.asOption
        ↔ ¬ (q.trivialIsNull = true ∧ p.asOption = some d.trivialValue))
      ∧ (q.trivialIsNull = true → p.asOption = some d.trivialValue →
          (q.setOption p.asOption).nullState = .trivialAsNull)
      ∧ (q.setOption p.asOption).value = p.value)
    ∧ (let p' := p.setOption p.asOption
      p'.StandsFor p
      ∧ p'.setOption p'.asOption = p'
      ∧ p' = (if p.nullState = .trivialAsNull then { p with forcedNull := true } else p)
      ∧ (p.nullState = .trivialAsNull → p'.nullState = .forced))
    ∧ ∀ (f : Field) (s : Store),
        (f.display? s = none ↔ f.isValid = false)
        ∧ (f.isValid = true → ∀ q : Parameter f.domain, q.trivialIsNull = false →
            ∃ option text, f.asOption? s = .ok option ∧ f.display? s = some text
              ∧ ∀ s' : Store, (Term.single (.orNull (q.setOption option))).serializeInto
                  Sink.plain s' "" = (.ok (), text)) := by
  intro p
  have hnull : p.isNull = true → p.value = d.trivialValue := past.explains.value_of_isNull
  refine ⟨?_, ?_, fun f s => ⟨f.display?_eq_none_iff s, ?_⟩⟩
  · intro q
    refine ⟨asOption_setOption_eq_iff q p.asOption, ?_, ?_⟩
    · intro hpolicy hoption
      rw [hoption, nullState_setOption_some, if_pos ⟨hpolicy, rfl⟩]
    · rw [setOption_eq]
      exact value_eq_getD_asOption hnull
  · exact ⟨standsFor_self hnull, setOption_asOption_idem hnull, setOption_asOption_self_eq hnull,
      nullState_setOption_asOption_self hnull⟩
  · intro hvalid q hpolicy
    exact Field.display?_eq_written hvalid s hpolicy

/-- A zero from a parameter without a policy to one with it; a NULL by the policy to itself; and a
field that holds a row. -/
theorem Parameter.option_transfers_zero :
    let zero := ({} : History .integral).parameter
    let absent := ({ givenPolicy := some true } : History .integral).parameter
    let q : Parameter .integral := { value := 7, trivialIsNull := true }
    let f : Field := ⟨⟨.integral, 0⟩, true⟩
    let s : Store := ({} : Store).set ⟨.integral, 0⟩ (-3 : Int64)
    q.trivialIsNull = true ∧ zero.asOption = some 0
    ∧ (q.setOption zero.asOption).nullState = .trivialAsNull
    ∧ absent.nullState = .trivialAsNull ∧ (absent.setOption absent.asOption).nullState = .forced
    ∧ f.isValid = true
    ∧ ∃ option text, f.asOption? s = .ok option ∧ f.display? s = some text
        ∧ ∀ s' : Store, (Term.single (.orNull (zero.setOption option))).serializeInto
            Sink.plain s' "" = (.ok (), text) := by
  intro zero absent q f s
  have hzero := Parameter.option_transfers ({} : History .integral)
  have habsent := Parameter.option_transfers ({ givenPolicy := some true } : History .integral)
  exact ⟨rfl, rfl, (hzero.1 q).2.1 rfl rfl, rfl, habsent.2.1.2.2.2 rfl, rfl,
    (hzero.2.2 f s).2 rfl zero rfl⟩

end QueryTerms
