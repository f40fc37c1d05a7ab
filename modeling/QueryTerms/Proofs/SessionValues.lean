/-
QueryTerms.Proofs.SessionValues — what the steps of a session do to its parameters and renderers.

Slots, rows, buffers and cursors share storage. Parameters and renderers do not: they are values, and a
copy has nothing in common with what it was copied from. So the named parameters and renderers are
changed by the few steps that are about them (`Step.parts`), and each of these registers or removes one
object, told here for each step with its answer.

  §1  registries, object by object
  §2  the steps on parameters, and those on renderers
  §3  the other steps
-/
import QueryTerms.Proofs.SessionEffects

namespace QueryTerms

/-! ## 1. Registries, object by object -/

namespace Registry

variable {α β : Type}

/-- The registry with every object replaced. -/
def map (g : α → β) (r : Registry α) : Registry β :=
  ⟨r.entries.map fun e => (e.1, g e.2)⟩

theorem get?_map (g : α → β) (r : Registry α) (name : String) :
    (r.map g).get? name = (r.get? name).map g := by
  simp only [get?, map]
  induction r.entries with
  | nil => rfl
  | cons e rest ih =>
      obtain ⟨other, a⟩ := e
      by_cases h : name = other
      · simp [h]
      · simp [List.lookup_cons, beq_eq_false_iff_ne.2 h, ih]

theorem map_erase (g : α → β) (r : Registry α) (name : String) :
    (r.erase name).map g = (r.map g).erase name := by
  simp [map, erase, List.filter_map, Function.comp_def]

theorem map_insert (g : α → β) (r : Registry α) (name : String) (a : α) :
    (r.insert name a).map g = (r.map g).insert name (g a) := by
  have herase := congrArg entries (map_erase g r name)
  simp only [map] at herase
  simp [map, insert, herase]

end Registry

namespace Workspace

/-! ## 2. The steps on parameters, and those on renderers -/

theorem run_putParameter_eq_some {d : Domain} {name : String} {p : Parameter d} {w w' : Workspace}
    {answer : Answer} : (putParameter name p).run w = some (answer, w')
      ↔ answer = .parameter p.view
        ∧ w' = { w with parameters := w.parameters.insert name ⟨d, p⟩ } :=
  run_pure_eq_some

/-- A new parameter holds the value that is given, which must be of its domain, or else the trivial one. -/
theorem run_makeParameter_eq_some {name : String} {d : Domain} {trivialIsNull : Option Bool}
    {value : Option Value} {w w' : Workspace} {answer : Answer}
    (h : (makeParameter name d trivialIsNull value).run w = some (answer, w')) :
    ∃ given : Option d.Native, value.mapM (·.as? d) = some given
      ∧ w' = { w with
          parameters := w.parameters.insert name
            ⟨d, { value := given.getD d.trivialValue, trivialIsNull := trivialIsNull.getD false }⟩ } := by
  cases value with
  | none => exact ⟨none, rfl, (run_putParameter_eq_some.1 h).2⟩
  | some v =>
      obtain ⟨native, w₁, hlift, hput⟩ := run_bind_eq_some.1 h
      obtain ⟨hnative, rfl⟩ := run_lift_eq_some.1 hlift
      refine ⟨some native, ?_, (run_putParameter_eq_some.1 hput).2⟩
      simp [hnative]

/-- Calls on a parameter are all understood, or none is made. -/
theorem run_callParameter_eq_some {name : String} {calls : List ParameterCall} {w w' : Workspace}
    {answer : Answer} (h : (callParameter name calls).run w = some (answer, w')) :
    ∃ (d : Domain) (p : Parameter d) (updates : List (Parameter.Update d)),
      w.parameters.get? name = some ⟨d, p⟩
      ∧ calls.mapM (ParameterCall.update? d) = some updates
      ∧ w' = { w with parameters := w.parameters.insert name ⟨d, p.updateAll updates⟩ } := by
  obtain ⟨⟨d, p⟩, w₁, hfind, hrest⟩ := run_bind_eq_some.1 h
  obtain ⟨updates, w₂, hlift, hput⟩ := run_bind_eq_some.1 hrest
  obtain ⟨hp, rfl⟩ := run_find_eq_some.1 hfind
  obtain ⟨hupdates, rfl⟩ := run_lift_eq_some.1 hlift
  exact ⟨d, p, updates, hp, hupdates, (run_putParameter_eq_some.1 hput).2⟩

/-- The copy has its own name and all that the source holds. -/
theorem run_copyParameter_eq_some {name source : String} {w w' : Workspace} {answer : Answer}
    (h : (copyParameter name source).run w = some (answer, w')) :
    ∃ (d : Domain) (p : Parameter d), w.parameters.get? source = some ⟨d, p⟩
      ∧ w' = { w with parameters := w.parameters.insert name ⟨d, p⟩ } := by
  obtain ⟨⟨d, p⟩, w₁, hfind, hput⟩ := run_bind_eq_some.1 h
  obtain ⟨hp, rfl⟩ := run_find_eq_some.1 hfind
  exact ⟨d, p, hp, (run_putParameter_eq_some.1 hput).2⟩

theorem run_startRenderer_eq_some {name : String} {r : Renderer} {w w' : Workspace}
    {answer : Answer} : (startRenderer name r).run w = some (answer, w')
      ↔ answer = .renderer r.dialect.kind r.text
        ∧ w' = { w with renderers := w.renderers.insert name r } :=
  run_pure_eq_some

/-- Writing asks for nothing but the renderer, and registers what became of it. -/
theorem run_writeInto_eq_some {name : String} {writing : Writing Renderer Unit} {w w' : Workspace}
    {answer : Answer} : (writeInto name writing).run w = some (answer, w')
      ↔ ∃ r, w.renderers.get? name = some r
        ∧ answer = .wrote (writing.run.run r).1 (writing.run.run r).2.text
        ∧ w' = { w with renderers := w.renderers.insert name (writing.run.run r).2 } := by
  unfold writeInto
  rw [run_bind_eq_some]
  constructor
  · intro h
    obtain ⟨r, w₁, hfind, h⟩ := h
    obtain ⟨hr, rfl⟩ := run_find_eq_some.1 hfind
    exact ⟨r, hr, run_pure_eq_some.1 h⟩
  · intro h
    obtain ⟨r, hr, h⟩ := h
    exact ⟨r, w, run_find_eq_some.2 ⟨hr, rfl⟩, run_pure_eq_some.2 h⟩

/-- A renderer that is finished gives its text and is gone. -/
theorem run_finish_eq_some {name : String} {w w' : Workspace} {answer : Answer} :
    (finish name).run w = some (answer, w')
      ↔ ∃ r, w.renderers.get? name = some r ∧ answer = .finished r.text
        ∧ w' = { w with renderers := w.renderers.erase name } := by
  unfold finish
  rw [run_bind_eq_some]
  constructor
  · intro h
    obtain ⟨r, w₁, hfind, h⟩ := h
    obtain ⟨hr, rfl⟩ := run_find_eq_some.1 hfind
    exact ⟨r, hr, run_pure_eq_some.1 h⟩
  · intro h
    obtain ⟨r, hr, h⟩ := h
    exact ⟨r, w, run_find_eq_some.2 ⟨hr, rfl⟩, run_pure_eq_some.2 h⟩

/-- Emitting a term makes it, and writes into a renderer what it is in the store at that time. -/
theorem run_emit_eq_some {name : String} {term : TermDescription} {w w' : Workspace} {answer : Answer} :
    (perform (.emit name term)).run w = some (answer, w')
      ↔ ∃ t w₁, (makeTerm term).run w = some (t, w₁)
        ∧ (writeInto name (t.term.serialize Renderer.sink w₁.store)).run w₁ = some (answer, w') := by
  rw [perform, run_bind_eq_some]
  rfl

/-- The copy goes on from the text that the source has written so far. -/
theorem run_copyRenderer_eq_some {name source : String} {w w' : Workspace} {answer : Answer} :
    (perform (.copyRenderer name source)).run w = some (answer, w')
      ↔ ∃ r, w.renderers.get? source = some r ∧ answer = .renderer r.dialect.kind r.text
        ∧ w' = { w with renderers := w.renderers.insert name r } := by
  rw [perform, run_bind_eq_some]
  constructor
  · intro h
    obtain ⟨r, w₁, hfind, h⟩ := h
    obtain ⟨hr, rfl⟩ := run_find_eq_some.1 hfind
    exact ⟨r, hr, run_startRenderer_eq_some.1 h⟩
  · intro h
    obtain ⟨r, hr, h⟩ := h
    exact ⟨r, w, run_find_eq_some.2 ⟨hr, rfl⟩, run_startRenderer_eq_some.2 h⟩

/-! ## 3. The other steps -/

theorem parameters_perform {e : Step} (he : .parameters ∉ e.parts) {w w' : Workspace}
    {answer : Answer} (h : (perform e).run w = some (answer, w')) : w'.parameters = w.parameters :=
  ((touches_perform e).sameBut h).part_eq .parameters he

theorem renderers_perform {e : Step} (he : .renderers ∉ e.parts) {w w' : Workspace}
    {answer : Answer} (h : (perform e).run w = some (answer, w')) : w'.renderers = w.renderers :=
  ((touches_perform e).sameBut h).part_eq .renderers he

/-- Nor does making a term change a renderer. -/
theorem renderers_makeTerm {term : TermDescription} {w w' : Workspace} {t : AnyTerm}
    (h : (makeTerm term).run w = some (t, w')) : w'.renderers = w.renderers := by
  have htouches : Touches [] (makeTerm term) := touches_makeTerm term
  exact (htouches.sameBut h).part_eq .renderers List.not_mem_nil

end Workspace

end QueryTerms
