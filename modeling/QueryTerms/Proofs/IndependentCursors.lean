/-
QueryTerms.Proofs.IndependentCursors — cursors without common storage do not influence each other.

Any number of cursors stand over one store, and calls are made on them in turns. Cursors are
independent if their footprints have no slot in common. Then nothing that can be told from a cursor
depends on how its calls are mixed with those of the others: not the report on any of its calls, nor
the cursor and its buffer in the end, nor any cell.

## How the proof goes

Each cursor is compared with itself being called alone (`Shared.alone`). A turn of its own is the same
call there; a turn of another cursor is no call there, and changes no cell of its footprint. So two
ways of taking turns that make the same calls on each cursor are compared through the same lonely runs
(`Shared.run_congr`), and one way is to make all calls on the first cursor before those on the second.
-/
import Mathlib.Logic.Function.Basic
import QueryTerms.Proofs.CursorReports

namespace QueryTerms.Cursor

/-! ## 1. Taking turns -/

/-- The reports on calls, one after another. -/
def Use.reports : Use → List Call → List Report
  | _, [] => []
  | u, c :: calls => (u.step c.event).report :: reports (u.step c.event) calls

/-- Cursors over one store. -/
structure Shared (ι : Type) where
  cursors : ι → Cursor
  store : Store

namespace Shared

variable {ι : Type} [DecidableEq ι]

/-- One of the cursors, as it is used from here on. -/
def use (x : Shared ι) (i : ι) : Use :=
  { cursor := x.cursors i, store := x.store }

/-- A call on one of the cursors. -/
def step (x : Shared ι) (turn : ι × Call) : Shared ι :=
  let u := (x.use turn.1).step turn.2.event
  { cursors := Function.update x.cursors turn.1 u.cursor, store := u.store }

/-- Calls on the cursors, in turns. -/
def run (x : Shared ι) (turns : List (ι × Call)) : Shared ι :=
  turns.foldl step x

/-- The calls on one of the cursors. -/
def callsOn (i : ι) (turns : List (ι × Call)) : List Call :=
  (turns.filter fun turn => turn.1 = i).map Prod.snd

/-- The reports on the calls on one of the cursors. -/
def reports (i : ι) : Shared ι → List (ι × Call) → List Report
  | _, [] => []
  | x, turn :: turns =>
    if turn.1 = i then
      ((x.use i).step turn.2.event).report :: reports i (x.step turn) turns
    else reports i (x.step turn) turns

/-- No slot is in the footprints of two cursors. -/
def Independent (x : Shared ι) : Prop :=
  ∀ i j, i ≠ j → ∀ a ∈ (x.cursors i).footprint, a ∉ (x.cursors j).footprint

/-! ## 2. One turn -/

theorem callsOn_cons_self (i : ι) (c : Call) (turns : List (ι × Call)) :
    callsOn i ((i, c) :: turns) = c :: callsOn i turns := by
  simp [callsOn]

theorem callsOn_cons_of_ne {i j : ι} (h : j ≠ i) (c : Call) (turns : List (ι × Call)) :
    callsOn i ((j, c) :: turns) = callsOn i turns := by
  simp [callsOn, h]

theorem callsOn_append (i : ι) (turns turns' : List (ι × Call)) :
    callsOn i (turns ++ turns') = callsOn i turns ++ callsOn i turns' := by
  simp [callsOn]

theorem callsOn_map_self (i : ι) (calls : List Call) :
    callsOn i (calls.map fun c => (i, c)) = calls := by
  induction calls with
  | nil => rfl
  | cons c calls ih => simp [callsOn_cons_self, ih]

theorem callsOn_map_of_ne {i j : ι} (h : j ≠ i) (calls : List Call) :
    callsOn i (calls.map fun c => (j, c)) = [] := by
  induction calls with
  | nil => rfl
  | cons c calls ih => simp [callsOn_cons_of_ne h, ih]

theorem use_step_self (x : Shared ι) (i : ι) (c : Call) :
    ((x.step (i, c)).use i).cursor = ((x.use i).step c.event).cursor
    ∧ ((x.step (i, c)).use i).store = ((x.use i).step c.event).store := by
  simp [step, use]

theorem cursors_step_of_ne (x : Shared ι) {i j : ι} (h : j ≠ i) (c : Call) :
    (x.step (j, c)).cursors i = x.cursors i := by
  simp [step, Ne.symm h]

theorem footprint_cursors_step (x : Shared ι) (turn : ι × Call) (i : ι) :
    ((x.step turn).cursors i).footprint = (x.cursors i).footprint := by
  obtain ⟨j, c⟩ := turn
  by_cases h : j = i
  · subst h
    have hfootprint := (x.use j).footprint_step c.event
    rw [← (use_step_self x j c).1] at hfootprint
    exact hfootprint
  · rw [cursors_step_of_ne x h]

theorem Independent.step {x : Shared ι} (h : x.Independent) (turn : ι × Call) :
    (x.step turn).Independent := by
  intro i j hij
  rw [footprint_cursors_step, footprint_cursors_step]
  exact h i j hij

/-- A turn changes no cell outside the footprint of the cursor that is called. -/
theorem get_step (x : Shared ι) {a : Slot} {i : ι} (h : a ∉ (x.cursors i).footprint) (c : Call) :
    (x.step (i, c)).store.get a = x.store.get a :=
  Use.get_step_of_not_footprint (u := x.use i) h c

/-! ## 3. Each cursor by itself -/

/-- A cursor among others gives the reports that it gives when called alone, and agrees with itself
being called alone afterwards. -/
theorem alone {i : ι} {x : Shared ι} (hx : x.Independent) {u : Use} (hu : u.Agree (x.use i))
    (turns : List (ι × Call)) :
    x.reports i turns = u.reports (callsOn i turns)
    ∧ (u.run ((callsOn i turns).map Call.event)).Agree ((x.run turns).use i) := by
  induction turns generalizing x u with
  | nil => exact ⟨rfl, hu⟩
  | cons turn turns ih =>
      obtain ⟨j, c⟩ := turn
      by_cases h : j = i
      · subst h
        obtain ⟨hagree, hreport⟩ := hu.step c
        obtain ⟨hcursor, hstore⟩ := use_step_self x j c
        have hnext : (u.step c.event).Agree ((x.step (j, c)).use j) := by
          refine ⟨hcursor.trans hagree.cursor_eq, ?_⟩
          rw [hstore]
          exact hagree.reads
        obtain ⟨hreports, hend⟩ := ih (hx.step (j, c)) hnext
        rw [callsOn_cons_self, reports, if_pos rfl, hreport, hreports]
        exact ⟨rfl, hend⟩
      · -- another cursor is called, and its footprint is elsewhere
        have hsame : u.Agree ((x.step (j, c)).use i) := by
          refine ⟨(cursors_step_of_ne x h c).trans hu.cursor_eq, fun a ha => ?_⟩
          have hown : a ∈ (x.cursors i).footprint := by
            rw [show x.cursors i = u.cursor from hu.cursor_eq]
            exact ha
          have hother : a ∉ (x.cursors j).footprint := fun hmem => hx j i h a hmem hown
          exact (get_step x hother c).trans (hu.reads a ha)
        obtain ⟨hreports, hend⟩ := ih (hx.step (j, c)) hsame
        rw [callsOn_cons_of_ne h, reports, if_neg h, hreports]
        exact ⟨rfl, hend⟩

/-- Turns change no cell outside all footprints. -/
theorem get_run {x : Shared ι} {a : Slot} (h : ∀ i, a ∉ (x.cursors i).footprint)
    (turns : List (ι × Call)) : (x.run turns).store.get a = x.store.get a := by
  induction turns generalizing x with
  | nil => rfl
  | cons turn turns ih =>
      have hstep : ∀ i, a ∉ ((x.step turn).cursors i).footprint := by
        intro i
        rw [footprint_cursors_step]
        exact h i
      exact (ih hstep).trans (get_step x (h turn.1) turn.2)

/-- Independent cursors do not see in which order others are called: with the same calls on each of
them, all reports, cursors and cells are the same. -/
theorem run_congr {x : Shared ι} (hx : x.Independent) {turns turns' : List (ι × Call)}
    (h : ∀ i, callsOn i turns' = callsOn i turns) :
    (∀ i, x.reports i turns' = x.reports i turns)
    ∧ (∀ i, (x.run turns').cursors i = (x.run turns).cursors i)
    ∧ ∀ a, (x.run turns').store.get a = (x.run turns).store.get a := by
  have hself (i : ι) : (x.use i).Agree (x.use i) := ⟨rfl, fun _ _ => rfl⟩
  refine ⟨fun i => ?_, fun i => ?_, fun a => ?_⟩
  · rw [(alone hx (hself i) turns').1, (alone hx (hself i) turns).1, h i]
  · have hleft := (alone hx (hself i) turns').2.cursor_eq
    have hright := (alone hx (hself i) turns).2.cursor_eq
    rw [h i] at hleft
    exact hleft.trans hright.symm
  · by_cases hfootprint : ∃ i, a ∈ (x.cursors i).footprint
    · obtain ⟨i, hi⟩ := hfootprint
      have hleft := (alone hx (hself i) turns').2
      have hright := (alone hx (hself i) turns).2
      rw [h i] at hleft
      have ha : a ∈ ((x.use i).run ((callsOn i turns).map Call.event)).cursor.footprint := by
        rw [Use.footprint_run]
        exact hi
      exact (hleft.reads a ha).trans (hright.reads a ha).symm
    · have hout : ∀ i, a ∉ (x.cursors i).footprint := fun i hi => hfootprint ⟨i, hi⟩
      rw [get_run hout, get_run hout]

/-! ## 4. Two cursors -/

/-- Which of two cursors. -/
inductive Side where
  | first
  | second
  deriving DecidableEq

/-- Two cursors over one store. -/
def pair (c d : Cursor) (s : Store) : Shared Side :=
  { cursors := fun
      | .first => c
      | .second => d
    store := s }

/-- The turns mix two sequences of calls, those on the first cursor and those on the second. -/
structure Mixes (turns : List (Side × Call)) (calls calls' : List Call) : Prop where
  first : callsOn .first turns = calls
  second : callsOn .second turns = calls'

/-- All calls on the first cursor, and then all calls on the second. -/
def inSequence (calls calls' : List Call) : List (Side × Call) :=
  calls.map (fun c => (.first, c)) ++ calls'.map fun c => (.second, c)

theorem mixes_inSequence (calls calls' : List Call) :
    Mixes (inSequence calls calls') calls calls' where
  first := by simp [inSequence, callsOn_append, callsOn_map_self, callsOn_map_of_ne]
  second := by simp [inSequence, callsOn_append, callsOn_map_self, callsOn_map_of_ne]

theorem Mixes.callsOn_eq {turns turns' : List (Side × Call)} {calls calls' : List Call}
    (h : Mixes turns calls calls') (h' : Mixes turns' calls calls') :
    ∀ side, callsOn side turns' = callsOn side turns
  | .first => h'.first.trans h.first.symm
  | .second => h'.second.trans h.second.symm

theorem independent_pair {c d : Cursor} (h : ∀ a ∈ c.footprint, a ∉ d.footprint) (s : Store) :
    (pair c d s).Independent
  | .first, .first, hne => absurd rfl hne
  | .first, .second, _ => h
  | .second, .first, _ => fun a ha hmem => h a hmem ha
  | .second, .second, hne => absurd rfl hne

/-- **Independent cursors do not influence each other, whatever the order.** Let no slot be
within reach of both cursors, as the storage of a leaf or by any binding of the buffer. However a
sequence of calls on one of them is mixed with a sequence of calls on the other, every call is reported
as if all calls on the first cursor had been made before those on the second, and the same cursors,
buffers and cells are left. -/
theorem mixed_eq_inSequence {c d : Cursor} (hapart : ∀ a ∈ c.footprint, a ∉ d.footprint) (s : Store)
    {calls calls' : List Call} {turns : List (Side × Call)} (hmix : Mixes turns calls calls') :
    let x := pair c d s
    let y := x.run (inSequence calls calls')
    (∀ side, x.reports side turns = x.reports side (inSequence calls calls'))
    ∧ (∀ side, (x.run turns).cursors side = y.cursors side)
    ∧ ∀ a, (x.run turns).store.get a = y.store.get a :=
  run_congr (independent_pair hapart s) ((mixes_inSequence calls calls').callsOn_eq hmix)

/-- Two cursors of which the first has a leftover binding: one takes a row and is reset, the other runs
dry, in turns. -/
theorem mixed_eq_inSequence_leftover :
    let c := (Cursor.new (.field { slot := ⟨.boolean, 0⟩ })
      { rows := [[some [116], some [55]], [none]], bindings := [(1, ⟨.integral, 2⟩)] } {}).1
    let d := (Cursor.new (.tuple [.field { slot := ⟨.integral, 1⟩ }]) (.ofRows [[some [56]]]) {}).1
    let turns : List (Side × Call) :=
      [(.second, .next), (.first, .next), (.second, .next), (.first, .reset), (.first, .next)]
    (∀ a ∈ c.footprint, a ∉ d.footprint)
    ∧ Mixes turns [.next, .reset, .next] [.next, .next]
    ∧ (∀ side, (pair c d {}).reports side turns
        = (pair c d {}).reports side (inSequence [.next, .reset, .next] [.next, .next]))
    ∧ ((pair c d {}).reports .first turns).map Report.answer
        = [some (.ok true), none, some (.error ⟨1, 1⟩)] := by
  intro c d turns
  have hapart : ∀ a ∈ c.footprint, a ∉ d.footprint := by decide
  have hmix : Mixes turns [.next, .reset, .next] [.next, .next] := ⟨rfl, rfl⟩
  exact ⟨hapart, hmix, (mixed_eq_inSequence hapart {} hmix).1, rfl⟩

end Shared

end QueryTerms.Cursor
