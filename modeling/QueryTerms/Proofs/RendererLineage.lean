/-
QueryTerms.Proofs.RendererLineage — renderers only ever add text, each by itself.

A renderer takes every token and looks at none that it took before (`TokenStream.play_of_taken`), so an
operation on it ends as it would in a new renderer of the same dialect, and adds the text that it would
write there, whether it fails or not (`Renderer.Operation.run_writing`). A copy starts from the text so
far. So the text of a renderer is told by its lineage: the operations on it, and before them those on
the renderers that it was copied from. In a session the lineages are followed beside the steps
(`lineages`), and the named renderers are those with these lineages, at any time.

  §1  one operation
  §2  lineages
  §3  the lineages of a session
  §4  what stays written
  §5  the main statement
-/
import QueryTerms.Proofs.SessionValues
import QueryTerms.Proofs.TokenStream

namespace QueryTerms

namespace Renderer

/-! ## 1. One operation -/

/-- Something written into a renderer: a term as it is in a store, or a single token. -/
inductive Operation where
  | serialize (t : AnyTerm) (s : Store)
  | write (t : Token)

namespace Operation

/-- The work that the operation is. -/
def writing : Operation → Writing Renderer Unit
  | .serialize t s => t.term.serialize sink s
  | .write t => sink.put t

/-- How the operation ends in a new renderer of the dialect, and all that it writes there. -/
def alone (c : Dialect) (o : Operation) : WriteResult × String :=
  let (result, r) := o.writing.run.run { dialect := c }
  (result, r.text)

/-- The tokens that the operation hands over. -/
def stream : Operation → TokenStream
  | .serialize t s => t.term.stream s
  | .write t => .one t

theorem plays_writing : ∀ o : Operation, Plays sink o.writing o.stream
  | .serialize t s => t.term.plays_serialize s
  | .write t => plays_put t

/-- An operation does not see what was written before it: it ends as in a new renderer, and adds what
it writes there. -/
theorem run_writing (o : Operation) (r : Renderer) :
    o.writing.run.run r = ((o.alone r.dialect).1, r.append (o.alone r.dialect).2) := by
  have hplay (text : String) : o.writing.run.run ⟨r.dialect, text⟩
      = (o.stream.ending, ⟨r.dialect, text ++ o.stream.spelled r.dialect.style⟩) := by
    rw [o.plays_writing]
    exact TokenStream.play_of_taken (sink_write r.dialect) _ text
  have halone : o.alone r.dialect = (o.stream.ending, o.stream.spelled r.dialect.style) := by
    rw [alone, hplay ""]
    simp
  rw [halone]
  exact hplay r.text

end Operation

/-! ## 2. Lineages -/

/-- All that was ever written into a renderer: the operations on it, behind those on the renderers
that it was copied from. -/
structure Lineage where
  dialect : Dialect
  operations : List Operation := []

namespace Lineage

/-- What the operations write, each of them alone, one behind the other. -/
def text (l : Lineage) : String :=
  String.join (l.operations.map fun o => (o.alone l.dialect).2)

/-- The renderer that has this lineage. -/
def renderer (l : Lineage) : Renderer :=
  ⟨l.dialect, l.text⟩

/-- The lineage with one more operation. -/
def add (l : Lineage) (o : Operation) : Lineage :=
  { l with operations := l.operations ++ [o] }

theorem renderer_add (l : Lineage) (o : Operation) :
    (l.add o).renderer = l.renderer.append (o.alone l.dialect).2 := by
  simp [renderer, add, text, append]

end Lineage

end Renderer

open Renderer (Operation Lineage)

/-! ## 3. The lineages of a session -/

/-- The operation that a step is, and the name of the renderer that it is on. -/
def Step.operation? (w : Workspace) : Step → Option (String × Operation)
  | .emit name term =>
    ((Workspace.makeTerm term).run w).map fun (t, w₁) => (name, .serialize t w₁.store)
  | .write name token => some (name, .write token)
  | _ => none

/-- The name that a step registers a renderer under, and that renderer's lineage. -/
def Step.lineage? (w : Workspace) (ls : Registry Lineage) : Step → Option (String × Lineage)
  | .makeRenderer name c => some (name, { dialect := c })
  | .copyRenderer name source => do
    let l ← ls.get? source
    some (name, l)
  | e => do
    let (name, o) ← e.operation? w
    let l ← ls.get? name
    some (name, l.add o)

/-- The step writes into the renderer of this name. -/
def Step.writesTo (name : String) : Step → Bool
  | .emit other _ => other = name
  | .write other _ => other = name
  | _ => false

/-- The step puts another renderer in the place of the one of this name, or ends it. -/
def Step.replaces (name : String) : Step → Bool
  | .makeRenderer other _ => other = name
  | .copyRenderer other _ => other = name
  | .finish other => other = name
  | _ => false

/-- The lineages after one more step. -/
def Step.trace (w : Workspace) (ls : Registry Lineage) (e : Step) : Registry Lineage :=
  match e with
  | .finish name => ls.erase name
  | e =>
    match e.lineage? w ls with
    | some (name, l) => ls.insert name l
    | none => ls

/-- The lineages of the named renderers after more steps. -/
def lineagesFrom (w : Workspace) (ls : Registry Lineage) : List Step → Registry Lineage
  | [] => ls
  | e :: steps =>
    match (Workspace.perform e).run w with
    | some (_, w') => lineagesFrom w' (e.trace w ls) steps
    | none => ls

/-- The lineages of the renderers that are named after a session. -/
def lineages (steps : List Step) : Registry Lineage :=
  lineagesFrom {} {} steps

namespace Workspace

/-- The named renderers are those with the lineages. -/
def Follows (w : Workspace) (ls : Registry Lineage) : Prop :=
  w.renderers = ls.map Lineage.renderer

variable {w w' : Workspace} {ls : Registry Lineage} {answer : Answer}

theorem Follows.get?_eq (hw : w.Follows ls) (name : String) :
    w.renderers.get? name = (ls.get? name).map Lineage.renderer := by
  rw [show w.renderers = ls.map Lineage.renderer from hw, Registry.get?_map]

/-- A renderer that is found has a lineage. -/
theorem Follows.exists_lineage (hw : w.Follows ls) {name : String} {r : Renderer}
    (hr : w.renderers.get? name = some r) : ∃ l, ls.get? name = some l ∧ r = l.renderer := by
  rw [hw.get?_eq, Option.map_eq_some_iff] at hr
  obtain ⟨l, hl, rfl⟩ := hr
  exact ⟨l, hl, rfl⟩

theorem Follows.insert (hw : w.Follows ls) {name : String} {l : Lineage}
    (hrenderers : w'.renderers = w.renderers.insert name l.renderer) :
    w'.Follows (ls.insert name l) := by
  have hw : w.renderers = ls.map Lineage.renderer := hw
  rw [Follows, Registry.map_insert, hrenderers, hw]

/-- An operation on a renderer that is there ends as it does alone, and adds what it writes alone. -/
theorem run_operation {e : Step} {name : String} {o : Operation} {r : Renderer}
    (ho : e.operation? w = some (name, o)) (hr : w.renderers.get? name = some r) :
    ∃ w', (perform e).run w
        = some (.wrote (o.alone r.dialect).1 (r.text ++ (o.alone r.dialect).2), w')
      ∧ w'.renderers = w.renderers.insert name (r.append (o.alone r.dialect).2) := by
  have hwrite (v : Workspace) (hv : v.renderers = w.renderers) :
      (writeInto name o.writing).run v =
        some (.wrote (o.alone r.dialect).1 (r.text ++ (o.alone r.dialect).2),
          { v with renderers := w.renderers.insert name (r.append (o.alone r.dialect).2) }) := by
    refine run_writeInto_eq_some.2 ⟨r, by rw [hv, hr], ?_⟩
    rw [o.run_writing, hv]
    exact ⟨rfl, rfl⟩
  cases e with
  | emit other term =>
      obtain ⟨⟨t, w₁⟩, hterm, hsame⟩ := Option.map_eq_some_iff.1 ho
      cases hsame
      exact ⟨_, run_emit_eq_some.2 ⟨t, w₁, hterm, hwrite w₁ (renderers_makeTerm hterm)⟩, rfl⟩
  | write other token =>
      cases ho
      exact ⟨_, hwrite w rfl, rfl⟩
  | _ => cases ho

/-- A step that writes is an operation on a renderer that is there, if it has an answer. -/
theorem exists_operation {e : Step} {name : String} (he : e.writesTo name = true)
    (h : (perform e).run w = some (answer, w')) :
    ∃ o r, e.operation? w = some (name, o) ∧ w.renderers.get? name = some r := by
  cases e with
  | emit other term =>
      obtain rfl : other = name := by simpa [Step.writesTo] using he
      obtain ⟨t, w₁, hterm, hwrite⟩ := run_emit_eq_some.1 h
      obtain ⟨r, hr, -, -⟩ := run_writeInto_eq_some.1 hwrite
      refine ⟨.serialize t w₁.store, r, ?_, renderers_makeTerm hterm ▸ hr⟩
      simp [Step.operation?, hterm]
  | write other token =>
      obtain rfl : other = name := by simpa [Step.writesTo] using he
      obtain ⟨r, hr, -, -⟩ := run_writeInto_eq_some.1 h
      exact ⟨.write token, r, rfl, hr⟩
  | _ => cases he

/-- What a step that writes leaves. -/
theorem renderers_of_writesTo {e : Step} {name : String} (he : e.writesTo name = true)
    (h : (perform e).run w = some (answer, w')) :
    ∃ o r, e.operation? w = some (name, o) ∧ w.renderers.get? name = some r
      ∧ w'.renderers = w.renderers.insert name (r.append (o.alone r.dialect).2) := by
  obtain ⟨o, r, ho, hr⟩ := exists_operation he h
  obtain ⟨w₁, hrun, hrenderers⟩ := run_operation ho hr
  cases hrun.symm.trans h
  exact ⟨o, r, ho, hr, hrenderers⟩

theorem trace_of_operation {e : Step} {name : String} {o : Operation} {l : Lineage}
    (ho : e.operation? w = some (name, o)) (hl : ls.get? name = some l) :
    e.trace w ls = ls.insert name (l.add o) := by
  cases e with
  | emit other term => simp [Step.trace, Step.lineage?, ho, hl]
  | write other token => simp [Step.trace, Step.lineage?, ho, hl]
  | _ => cases ho

theorem Follows.of_writesTo (hw : w.Follows ls) {e : Step} {name : String}
    (he : e.writesTo name = true) (h : (perform e).run w = some (answer, w')) :
    w'.Follows (e.trace w ls) := by
  obtain ⟨o, r, ho, hr, hrenderers⟩ := renderers_of_writesTo he h
  obtain ⟨l, hl, rfl⟩ := hw.exists_lineage hr
  rw [trace_of_operation ho hl]
  refine hw.insert ?_
  rw [hrenderers, l.renderer_add]
  rfl

/-- One step leaves the renderers with the lineages that it is followed to. -/
theorem follows_perform {e : Step} (h : (perform e).run w = some (answer, w')) (hw : w.Follows ls) :
    w'.Follows (e.trace w ls) := by
  have hkeep (hnone : .renderers ∉ e.parts) : w'.Follows ls := by
    rw [Follows, renderers_perform hnone h]
    exact hw
  cases e with
  | makeRenderer name c =>
      obtain ⟨-, rfl⟩ := run_startRenderer_eq_some.1 h
      exact hw.insert rfl
  | copyRenderer name source =>
      obtain ⟨r, hr, -, rfl⟩ := run_copyRenderer_eq_some.1 h
      obtain ⟨l, hl, rfl⟩ := hw.exists_lineage hr
      have htrace : Step.trace w ls (.copyRenderer name source) = ls.insert name l := by
        simp [Step.trace, Step.lineage?, hl]
      rw [htrace]
      exact hw.insert rfl
  | emit name term =>
      have hwrites : (Step.emit name term).writesTo name = true := by simp [Step.writesTo]
      exact hw.of_writesTo hwrites h
  | write name token =>
      have hwrites : (Step.write name token).writesTo name = true := by simp [Step.writesTo]
      exact hw.of_writesTo hwrites h
  | finish name =>
      obtain ⟨r, hr, -, rfl⟩ := run_finish_eq_some.1 h
      rw [Step.trace, Follows, Registry.map_erase, ← show w.renderers = ls.map _ from hw]
  | _ => exact hkeep (by simp [Step.parts])

/-- So does a whole session. -/
theorem follows_performAll {steps : List Step} {answers : List Answer}
    (h : (performAll steps).run w = some (answers, w')) (hw : w.Follows ls) :
    w'.Follows (lineagesFrom w ls steps) := by
  induction steps generalizing w answers ls with
  | nil =>
      obtain ⟨-, rfl⟩ := run_performAll_nil.1 h
      exact hw
  | cons e steps ih =>
      obtain ⟨answer, rest, w₁, rfl, hfirst, hrest⟩ := run_performAll_cons.1 h
      rw [lineagesFrom, hfirst]
      exact ih hrest (follows_perform hfirst hw)

/-! ## 4. What stays written -/

/-- A step leaves what was written into a renderer, unless it puts another one in its place or ends it,
and adds nothing unless it writes into this one. -/
theorem get?_renderers_perform {e : Step} {name : String} {r : Renderer}
    (h : (perform e).run w = some (answer, w')) (hr : w.renderers.get? name = some r)
    (hkeep : e.replaces name = false) :
    ∃ more, w'.renderers.get? name = some (r.append more) ∧ (e.writesTo name = false → more = "") := by
  have hsame (hget : w'.renderers.get? name = w.renderers.get? name) :
      ∃ more, w'.renderers.get? name = some (r.append more)
        ∧ (e.writesTo name = false → more = "") :=
    ⟨"", by rw [hget, hr]; simp [Renderer.append], fun _ => rfl⟩
  by_cases hwrites : ∃ other, e.writesTo other = true
  · obtain ⟨other, hwrites⟩ := hwrites
    obtain ⟨o, r', -, hr', hrenderers⟩ := renderers_of_writesTo hwrites h
    by_cases hname : name = other
    · subst hname
      cases hr.symm.trans hr'
      refine ⟨(o.alone r.dialect).2, ?_, fun hnot => ?_⟩
      · rw [hrenderers, Registry.get?_insert, if_pos rfl]
      · cases hwrites.symm.trans hnot
    · refine hsame ?_
      rw [hrenderers, Registry.get?_insert, if_neg hname]
  · cases e with
    | makeRenderer other c =>
        have hne : name ≠ other := by simpa [Step.replaces, eq_comm] using hkeep
        obtain ⟨-, rfl⟩ := run_startRenderer_eq_some.1 h
        exact hsame (by rw [Registry.get?_insert, if_neg hne])
    | copyRenderer other source =>
        have hne : name ≠ other := by simpa [Step.replaces, eq_comm] using hkeep
        obtain ⟨r', -, -, rfl⟩ := run_copyRenderer_eq_some.1 h
        exact hsame (by rw [Registry.get?_insert, if_neg hne])
    | finish other =>
        have hne : name ≠ other := by simpa [Step.replaces, eq_comm] using hkeep
        obtain ⟨r', -, -, rfl⟩ := run_finish_eq_some.1 h
        exact hsame (by rw [Registry.get?_erase, if_neg hne])
    | emit other term => exact absurd ⟨other, by simp [Step.writesTo]⟩ hwrites
    | write other token => exact absurd ⟨other, by simp [Step.writesTo]⟩ hwrites
    | _ => exact hsame (by rw [renderers_perform (by simp [Step.parts]) h])

/-- So do many steps. -/
theorem get?_renderers_performAll {steps : List Step} {answers : List Answer} {name : String}
    {r : Renderer} (h : (performAll steps).run w = some (answers, w'))
    (hr : w.renderers.get? name = some r) (hkeep : ∀ e ∈ steps, e.replaces name = false) :
    ∃ more, w'.renderers.get? name = some (r.append more)
      ∧ ((∀ e ∈ steps, e.writesTo name = false) → more = "") := by
  induction steps generalizing w answers r with
  | nil =>
      obtain ⟨-, rfl⟩ := run_performAll_nil.1 h
      exact ⟨"", by rw [hr]; simp [Renderer.append], fun _ => rfl⟩
  | cons e steps ih =>
      obtain ⟨answer, rest, w₁, rfl, hfirst, hrest⟩ := run_performAll_cons.1 h
      simp only [List.forall_mem_cons] at hkeep ⊢
      obtain ⟨first, hr₁, hfirst_empty⟩ := get?_renderers_perform hfirst hr hkeep.1
      obtain ⟨more, hr₂, hmore_empty⟩ := ih hrest hr₁ hkeep.2
      refine ⟨first ++ more, ?_, fun hquiet => ?_⟩
      · rw [hr₂]
        simp [Renderer.append, String.append_assoc]
      · rw [hfirst_empty hquiet.1, hmore_empty hquiet.2]
        rfl

/-! ## 5. The main statement -/

/-- **Renderers accumulate, and copies are independent.** In every state of every session the text of a
named renderer is what the operations of its lineage write, each alone in a new renderer of its dialect,
one behind the other. The next operation on it is answered with the result that it has alone, and its
text, that of a failed one too, is added; a copy starts from the text so far, and finishing answers with
it. What was written stays, whatever is done until the renderer is replaced or ended, and nothing is
added to it by what is done to others, copies included. -/
theorem renderers_accumulate {steps : List Step} {answers : List Answer} {w : Workspace}
    (h : (performAll steps).run {} = some (answers, w)) :
    (∀ name, w.renderers.get? name = ((lineages steps).get? name).map Lineage.renderer)
    ∧ (∀ name l, (lineages steps).get? name = some l →
        (∀ e o, e.operation? w = some (name, o) →
          ∃ w', (perform e).run w
            = some (.wrote (o.alone l.dialect).1 (l.text ++ (o.alone l.dialect).2), w'))
        ∧ (∀ copy, ∃ w', (perform (.copyRenderer copy name)).run w
            = some (.renderer l.dialect.kind l.text, w') ∧ w'.renderers.get? copy = some l.renderer)
        ∧ ∃ w', (perform (.finish name)).run w = some (.finished l.text, w'))
    ∧ ∀ name r later answers' w', w.renderers.get? name = some r →
        (performAll later).run w = some (answers', w') → (∀ e ∈ later, e.replaces name = false) →
          ∃ more, w'.renderers.get? name = some (r.append more)
            ∧ ((∀ e ∈ later, e.writesTo name = false) → more = "") := by
  have hw : w.Follows (lineages steps) := follows_performAll h rfl
  refine ⟨hw.get?_eq, fun name l hl => ?_, fun name r later answers' w' hr hrun hkeep =>
    get?_renderers_performAll hrun hr hkeep⟩
  have hr : w.renderers.get? name = some l.renderer := by
    rw [hw.get?_eq, hl]
    rfl
  refine ⟨fun e o ho => ?_, fun copy => ?_, ?_⟩
  · obtain ⟨w', hrun, -⟩ := run_operation ho hr
    exact ⟨w', hrun⟩
  · refine ⟨_, run_copyRenderer_eq_some.2 ⟨l.renderer, hr, rfl, rfl⟩, ?_⟩
    rw [Registry.get?_insert, if_pos rfl]
  · exact ⟨_, run_finish_eq_some.2 ⟨l.renderer, hr, rfl, rfl⟩⟩

/-- A renderer is copied between two texts, and a term that fails is emitted into the copy. -/
def copiedBetween : List Step :=
  [.makeRenderer "first" { kind := .sqlite }, .write "first" (.boolean true),
    .copyRenderer "second" "first", .emit "second" (.not (.decoded none)), .write "first" .null]

/-- The copy keeps what was written up to the failure; the next number is added to it, and to nothing
else. -/
theorem renderers_accumulate_copiedBetween :
    ∃ answers w, (performAll copiedBetween).run {} = some (answers, w)
      ∧ ∃ l l' : Lineage, (lineages copiedBetween).get? "first" = some l
        ∧ (lineages copiedBetween).get? "second" = some l'
        ∧ w.renderers.get? "first" = some ⟨{ kind := .sqlite }, "1NULL"⟩
        ∧ w.renderers.get? "second" = some ⟨{ kind := .sqlite }, "1(NOT "⟩
        ∧ ∃ w', (perform (.write "second" (.integral 5))).run w
            = some (.wrote (.ok ()) "1(NOT 5", w')
          ∧ ∃ more, w'.renderers.get? "first" = some ⟨{ kind := .sqlite }, "1NULL" ++ more⟩
            ∧ more = "" := by
  have hanswered : ((performAll copiedBetween).run {}).isSome = true := rfl
  obtain ⟨⟨answers, w⟩, hrun⟩ := Option.isSome_iff_exists.1 hanswered
  have hfirst : ((lineages copiedBetween).get? "first").map Lineage.renderer
    = some ⟨{ kind := .sqlite }, "1NULL"⟩ := rfl
  have hsecond : ((lineages copiedBetween).get? "second").map Lineage.renderer
    = some ⟨{ kind := .sqlite }, "1(NOT "⟩ := rfl
  obtain ⟨l, hl, -⟩ := Option.map_eq_some_iff.1 hfirst
  obtain ⟨l', hl', hrenderer⟩ := Option.map_eq_some_iff.1 hsecond
  obtain ⟨hdialect, htext⟩ := Renderer.mk.inj hrenderer
  obtain ⟨hget, hnext, hstays⟩ := renderers_accumulate hrun
  have hr := (hget "first").trans hfirst
  obtain ⟨w', hanswer⟩ := (hnext "second" l' hl').1 (.write "second" (.integral 5)) _ rfl
  have hlater := run_performAll_cons.2 ⟨_, [], w', rfl, hanswer, run_performAll_nil.2 ⟨rfl, rfl⟩⟩
  obtain ⟨more, hmore, hempty⟩ := hstays "first" _ _ _ w' hr hlater (by simp [Step.replaces])
  rw [hdialect, htext] at hanswer
  exact ⟨answers, w, hrun, l, l', hl, hl', hr, (hget "second").trans hsecond, w', hanswer, more, hmore,
    hempty (by simp [Step.writesTo])⟩

end Workspace

end QueryTerms
