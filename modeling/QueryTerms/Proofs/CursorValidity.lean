/-
QueryTerms.Proofs.CursorValidity — when the row of a cursor may be read, and what is left of old rows.

Three kinds of events happen around a cursor: calls of `next`, calls of `reset`, and writes through
other handles, to the slots of its own row or to others. A run is any list of them.

Whether the row may be read is decided by the calls alone. The invariant (`Use.Stands`) is an equation
for the whole row: it is the row that the cursor was made of, validated if the latest call took a row
and dropped if not. It would not be kept by itself, for a cursor that has run dry answers `next`
without touching its row; so the invariant also says that such a cursor stands on no row. What the
leaves refuse follows from the flag (`Field.refuses_of_invalid`), whatever is in the store.

The storage is a matter of what was written last. A call that drops the row writes NULL everywhere
(`Use.get_step_of_drops`), and every event keeps the NULL of a slot, unless it takes a row or writes
that slot (`Use.get_step_of_not_fills`).
-/
import QueryTerms.Expr
import QueryTerms.Proofs.CursorSteps

namespace QueryTerms

/-! ## 1. Refusing to be read -/

/-- The answer is an access error that names this reading. -/
def RefusedAs {α : Type} (answer : Except AccessError α) (name : String) : Prop :=
  ∃ accessor : Accessor, accessor.name = name ∧ answer = .error (.nonExistentRow accessor)

/-- Every reading of the field is refused. It is not displayed, and serializing it hands nothing to
the sink. -/
structure Field.Refuses (f : Field) (s : Store) : Prop where
  value : RefusedAs (f.value? s) "value"
  isNull : RefusedAs (f.isNull? s) "is_null"
  asOption : RefusedAs (f.asOption? s) "value"
  display : f.display? s = none
  serialize : ∀ {σ : Type} (k : Sink σ) (state : σ),
    Term.serializeInto k s (.single (.field f)) state =
      (.error (.access (.nonExistentRow .value)), state)

theorem Field.refuses_of_invalid {f : Field} (h : f.isValid = false) (s : Store) : f.Refuses s := by
  have hcell : ∀ accessor, f.cell? s accessor = .error (.nonExistentRow accessor) := by
    intro accessor
    rw [cell?, h]
    rfl
  have hvalue : f.value? s = .error (.nonExistentRow .value) := by
    rw [value?, hcell]
    rfl
  have hoption : f.asOption? s = .error (.nonExistentRow .value) := by
    rw [asOption?, hcell]
    rfl
  have hisNull : f.isNull? s = .error (.nonExistentRow .isNull) := by
    rw [isNull?, hcell]
    rfl
  refine ⟨⟨.value, rfl, hvalue⟩, ⟨.isNull, rfl, hisNull⟩, ⟨.value, rfl, hoption⟩, ?_, ?_⟩
  · rw [display?, hcell]
  · intro σ k state
    show (f.serialize k s).run.run state = _
    rw [serialize, hvalue]
    rfl

namespace Cursor

/-! ## 2. Runs -/

/-- What happens around a cursor: a call on it, or a write through another handle. -/
inductive Event where
  | next
  | reset
  | write (a : Slot) (cell : Cell a.domain)

/-- A cursor and the store, and the answer of the latest call, if that was a call of `next`. -/
structure Use where
  cursor : Cursor
  store : Store
  latest : Option (Except ColumnOutOfRange Bool) := none

namespace Use

/-- A cursor that has just been made. -/
def start (row : Row) (b : RowBuffer) (s : Store) : Use :=
  { cursor := (Cursor.new row b s).1, store := (Cursor.new row b s).2 }

/-- One event. -/
def step (u : Use) : Event → Use
  | .next =>
    let (answer, cursor, store) := u.cursor.next u.store
    { cursor, store, latest := some answer }
  | .reset =>
    let (cursor, store) := u.cursor.reset u.store
    { cursor, store, latest := none }
  | .write a cell => { u with store := u.store.put a cell }

/-- Events one after another. -/
def run (u : Use) (es : List Event) : Use :=
  es.foldl step u

/-- The latest call was a `next` that took a row. -/
def onRow (u : Use) : Bool :=
  match u.latest with
  | some (.ok taken) => taken
  | _ => false

/-- The event drops the row: a reset, a `next` that fails, or the `next` that finds no row left. -/
def Drops (u : Use) : Event → Prop
  | .next =>
    (∃ e, (u.cursor.next u.store).1 = .error e)
      ∨ (u.cursor.exhausted = false ∧ (u.cursor.next u.store).1 = .ok false)
  | .reset => True
  | .write _ _ => False

/-- The event may fill a slot: a `next` that takes a row, or a write to the slot. -/
def Fills (u : Use) (a : Slot) : Event → Prop
  | .next => (u.cursor.next u.store).1 = .ok true
  | .reset => False
  | .write b _ => b = a

/-- No event of the run fills the slot. -/
def Quiet (a : Slot) : Use → List Event → Prop
  | _, [] => True
  | u, e :: es => ¬ u.Fills a e ∧ Quiet a (u.step e) es

/-- The row is dropped at the end of the run: nothing has happened since it was bound, or the last
event drops it. -/
def EndsDropped (u : Use) (es : List Event) : Prop :=
  es = [] ∨ ∃ before e, es = before ++ [e] ∧ (u.run before).Drops e

/-! ## 3. The row -/

/-- The row is the one that the cursor was made of, valid exactly if the latest call took a row. -/
structure Stands (row : Row) (u : Use) : Prop where
  row_eq : u.cursor.row = if u.onRow then row.validate else row.dropped
  dry : u.cursor.exhausted = true → u.onRow = false

theorem stands_start (row : Row) (b : RowBuffer) (s : Store) : (start row b s).Stands row where
  row_eq := by
    rw [start, new_eq]
    rfl
  dry := fun _ => rfl

theorem Stands.dropped_eq {row : Row} {u : Use} (h : u.Stands row) :
    u.cursor.row.dropped = row.dropped := by
  rw [h.row_eq]
  split <;> simp

theorem Stands.validate_eq {row : Row} {u : Use} (h : u.Stands row) :
    u.cursor.row.validate = row.validate := by
  rw [h.row_eq]
  split <;> simp

/-- Every event keeps the row what it was made of. -/
theorem stands_step {row : Row} {u : Use} (h : u.Stands row) : ∀ e, (u.step e).Stands row
  | .write a cell => ⟨h.row_eq, h.dry⟩
  | .reset => ⟨h.dropped_eq, fun _ => rfl⟩
  | .next => by
      rcases u.cursor.next_cases u.store with ⟨hdry, hnext⟩ | ⟨raw, rest, -, -, -, hnext⟩
        | ⟨-, -, hnext⟩ | ⟨raw, rest, m, -, -, -, -, hnext⟩
      · -- Nothing is touched, so the row must have been dropped before.
        have hrow := h.row_eq
        rw [h.dry hdry] at hrow
        rw [step, hnext]
        exact ⟨hrow, fun _ => rfl⟩
      · rw [step, hnext]
        exact ⟨h.validate_eq, fun hdry => by simp at hdry⟩
      · rw [step, hnext]
        exact ⟨h.dropped_eq, fun _ => rfl⟩
      · rw [step, hnext]
        exact ⟨h.dropped_eq, fun _ => rfl⟩

theorem stands_run {row : Row} {u : Use} (h : u.Stands row) (es : List Event) :
    (u.run es).Stands row := by
  induction es generalizing u with
  | nil => exact h
  | cons e es ih => exact ih (stands_step h e)

theorem Stands.slots_eq {row : Row} {u : Use} (h : u.Stands row) : u.cursor.row.slots = row.slots := by
  rw [h.row_eq]
  split <;> simp

theorem Stands.isValid_eq {row : Row} {u : Use} (h : u.Stands row) {f : Field}
    (hf : f ∈ u.cursor.row.leaves) : f.isValid = u.onRow := by
  rw [h.row_eq] at hf
  cases hon : u.onRow with
  | true =>
      rw [hon] at hf
      exact Row.isValid_of_mem_validate hf
  | false =>
      rw [hon] at hf
      exact Row.isValid_of_mem_dropped hf

/-! ## 4. The storage -/

theorem get_start {row : Row} {a : Slot} (ha : a ∈ row.slots) (b : RowBuffer) (s : Store) :
    (start row b s).store.get a = .null := by
  simp [start, new_eq, Store.get_clear, ha]

/-- An event that drops the row leaves NULL in every leaf. -/
theorem get_step_of_drops {u : Use} {a : Slot} (ha : a ∈ u.cursor.row.slots) :
    ∀ {e}, u.Drops e → (u.step e).store.get a = .null
  | .reset, _ => by simp [step, reset_eq, Store.get_clear, ha]
  | .next, h => by
      rcases u.cursor.next_cases u.store with ⟨hdry, hnext⟩ | ⟨raw, rest, -, -, -, hnext⟩
        | ⟨-, -, hnext⟩ | ⟨raw, rest, m, -, -, -, -, hnext⟩
      · simp [Drops, hnext, hdry] at h
      · simp [Drops, hnext] at h
      · simp [step, hnext, Store.get_clear, ha]
      · simp [step, hnext, Store.get_clear, ha]

/-- An event that does not fill a leaf that is NULL leaves it NULL. -/
theorem get_step_of_not_fills {u : Use} {a : Slot} (ha : a ∈ u.cursor.row.slots)
    (hnull : u.store.get a = .null) : ∀ {e}, ¬ u.Fills a e → (u.step e).store.get a = .null
  | .reset, _ => by simp [step, reset_eq, Store.get_clear, ha]
  | .write b cell, h => by
      have hne : b ≠ a := h
      rw [step, Store.get_put_of_ne _ hne, hnull]
  | .next, h => by
      rcases u.cursor.next_cases u.store with ⟨-, hnext⟩ | ⟨raw, rest, -, -, -, hnext⟩
        | ⟨-, -, hnext⟩ | ⟨raw, rest, m, -, -, -, -, hnext⟩
      · simp [step, hnext, hnull]
      · simp [Fills, hnext] at h
      · simp [step, hnext, Store.get_clear, ha]
      · simp [step, hnext, Store.get_clear, ha]

theorem get_run_of_quiet {row : Row} {a : Slot} (ha : a ∈ row.slots) {u : Use} (h : u.Stands row)
    (hnull : u.store.get a = .null) {es : List Event} (hquiet : Quiet a u es) :
    (u.run es).store.get a = .null := by
  have ha' : a ∈ u.cursor.row.slots := by
    rw [h.slots_eq]
    exact ha
  induction es generalizing u with
  | nil => exact hnull
  | cons e es ih =>
      obtain ⟨hfirst, hrest⟩ := hquiet
      have hstep := stands_step h e
      exact ih hstep (get_step_of_not_fills ha' hnull hfirst) hrest (hstep.slots_eq ▸ ha)

theorem get_run_of_endsDropped {row : Row} {a : Slot} (ha : a ∈ row.slots) (b : RowBuffer) (s : Store)
    {es : List Event} (h : (start row b s).EndsDropped es) :
    ((start row b s).run es).store.get a = .null := by
  rcases h with rfl | ⟨before, e, rfl, hdrops⟩
  · exact get_start ha b s
  · have hstands := stands_run (stands_start row b s) before
    rw [run, List.foldl_append]
    exact get_step_of_drops (hstands.slots_eq ▸ ha) hdrops

/-- **The row of a cursor is valid exactly while the cursor stands on a row.** After any run of calls
and of writes through other handles the leaves have the storage that they had at first; all of them are
valid if the latest call was a `next` that took a row, and none of them otherwise. Then every reading
of a leaf is refused. Where a run ends with the row dropped, every leaf is NULL, and it is so after any
further events, as long as none of them takes a row or writes the leaf. -/
theorem valid_exactly_on_row (row : Row) (b : RowBuffer) (s : Store) (es : List Event) :
    let u := (start row b s).run es
    u.cursor.row.slots = row.slots
    ∧ (∀ f ∈ u.cursor.row.leaves, f.isValid = u.onRow)
    ∧ (u.onRow = false → ∀ f ∈ u.cursor.row.leaves, f.Refuses u.store)
    ∧ ((start row b s).EndsDropped es → ∀ a ∈ row.slots, ∀ later, Quiet a u later →
        (u.run later).store.get a = .null) := by
  intro u
  have hstands : u.Stands row := stands_run (stands_start row b s) es
  refine ⟨hstands.slots_eq, fun f hf => hstands.isValid_eq hf, ?_, ?_⟩
  · intro hon f hf
    have hinvalid : f.isValid = false := (hstands.isValid_eq hf).trans hon
    exact Field.refuses_of_invalid hinvalid u.store
  · intro hdropped a ha later hquiet
    exact get_run_of_quiet ha hstands (get_run_of_endsDropped ha b s hdropped) hquiet

/-- A nested row of two leaves: a row is taken, the first leaf is written, and a row without the second
column is refused. Only the first leaf is written after that. -/
theorem valid_exactly_on_row_of_refused :
    let row : Row := .tuple [.field { slot := ⟨.boolean, 0⟩ }, .tuple [.field { slot := ⟨.integral, 1⟩ }]]
    let b : RowBuffer := .ofRows [[some [116], some [55]], [some [116]]]
    let write : Event := .write ⟨.boolean, 0⟩ (.nonNull true)
    let u := (start row b {}).run [.next, write, .next]
    u.onRow = false
    ∧ (∀ f ∈ u.cursor.row.leaves, f.isValid = false ∧ f.Refuses u.store)
    ∧ (u.run [.next, write]).store.get ⟨.integral, 1⟩ = .null := by
  intro row b write u
  have hon : u.onRow = false := rfl
  have hdropped : (start row b {}).EndsDropped [.next, write, .next] :=
    Or.inr ⟨[.next, write], .next, rfl, Or.inl ⟨⟨1, 1⟩, rfl⟩⟩
  obtain ⟨-, hvalid, hrefuses, hnull⟩ := valid_exactly_on_row row b {} [.next, write, .next]
  refine ⟨hon, fun f hf => ⟨(hvalid f hf).trans hon, hrefuses hon f hf⟩, ?_⟩
  refine hnull hdropped ⟨.integral, 1⟩ (by decide) _ ⟨?_, ?_, trivial⟩
  · intro htaken
    have hanswer : (u.cursor.next u.store).1 = .error ⟨1, 1⟩ := rfl
    exact absurd (hanswer.symm.trans htaken) (by simp)
  · show (⟨.boolean, 0⟩ : Slot) ≠ ⟨.integral, 1⟩
    decide

end Use

end Cursor

end QueryTerms
