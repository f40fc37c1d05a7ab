/-
QueryTerms.Proofs.CursorReports — what can be told from a cursor after a call, and what it depends on.

After a call one has its answer, the buffer, and the view of the cursor with all readings of its row
(`Cursor.Report`). Two facts are behind every comparison of runs. The view of a row depends on the
cells of its valid leaves only (`Row.view_congr`). And a call reads nothing that is stored: its answer
and the cursor it leaves are decided by the cursor alone, and so is what it writes, which goes to the
slots of the row and to those that are bound, the footprint of the cursor. So equal cursors over stores
that agree on their footprint go on alike (`Use.Agree.step`), and all other slots stay as they are
(`Use.get_step_of_not_footprint`).
-/
import QueryTerms.View
import QueryTerms.Proofs.CursorValidity

namespace QueryTerms

/-! ## 1. Views and the storage -/

/-- The view of a field depends on its cell, and only while the field is valid. -/
theorem Field.view_congr {f : Field} {s t : Store}
    (h : f.isValid = true → t.get f.slot = s.get f.slot) : f.view t = f.view s := by
  have hcell : ∀ accessor, f.cell? t accessor = f.cell? s accessor := by
    intro accessor
    unfold cell?
    split
    · next hvalid => rw [h hvalid]
    · rfl
  simp [view, value?, isNull?, asOption?, display?, hcell]

mutual

/-- The view of a row depends on the views of its leaves. -/
theorem Row.view_congr {s t : Store} : ∀ row : Row,
    (∀ f ∈ row.leaves, f.view t = f.view s) → row.view t = row.view s
  | .field f, h => by simp [Row.view, h f (by simp [leaves])]
  | .tuple members, h => by
      simp only [Row.view]
      rw [Row.viewAll_congr members h]

/-- The views of several rows depend on the views of their leaves. -/
theorem Row.viewAll_congr {s t : Store} : ∀ rows : List Row,
    (∀ f ∈ Row.leavesOfAll rows, f.view t = f.view s) → Row.viewAll t rows = Row.viewAll s rows
  | [], _ => rfl
  | row :: rows, h => by
      have hrow := Row.view_congr row fun f hf => h f (by simp [Row.leavesOfAll, hf])
      have hrows := Row.viewAll_congr rows fun f hf => h f (by simp [Row.leavesOfAll, hf])
      simp only [Row.viewAll]
      rw [hrow, hrows]

end

theorem Row.mem_slots {row : Row} {f : Field} (h : f ∈ row.leaves) : f.slot ∈ row.slots :=
  List.mem_map_of_mem h

/-! ## 2. Reports -/

namespace Cursor

/-- What can be told after a call: its answer, if it was a `next`, the buffer, and the view of the
cursor. -/
structure Report where
  answer : Option (Except ColumnOutOfRange Bool)
  source : RowBuffer
  view : CursorView

/-- A call on a cursor. -/
inductive Call where
  | next
  | reset
  deriving DecidableEq

/-- The call among all that can happen around a cursor. -/
def Call.event : Call → Event
  | .next => .next
  | .reset => .reset

/-- The slots within reach of a cursor: those of its row, and those bound to its buffer. -/
def footprint (c : Cursor) : List Slot :=
  c.row.slots ++ c.source.bindings.map Prod.snd

theorem mem_footprint_of_slots {c : Cursor} {a : Slot} (h : a ∈ c.row.slots) : a ∈ c.footprint :=
  List.mem_append_left _ h

namespace Use

/-- The report on the latest call. -/
def report (u : Use) : Report :=
  ⟨u.latest, u.cursor.source, u.cursor.view u.store⟩

/-- Reports are equal if answers and cursors are, and valid leaves have equal cells. -/
theorem report_congr {u v : Use} (hlatest : v.latest = u.latest) (hcursor : v.cursor = u.cursor)
    (hreads : ∀ f ∈ u.cursor.row.leaves, f.isValid = true →
      v.store.get f.slot = u.store.get f.slot) : v.report = u.report := by
  have hview : u.cursor.row.view v.store = u.cursor.row.view u.store :=
    Row.view_congr _ fun f hf => Field.view_congr (hreads f hf)
  simp [report, Cursor.view, hlatest, hcursor, hview]

/-! ## 3. What a call depends on -/

/-- Nothing that happens changes the slots of the row, nor what is bound. -/
theorem slots_bindings_step (u : Use) : ∀ e,
    (u.step e).cursor.row.slots = u.cursor.row.slots
    ∧ (u.step e).cursor.source.bindings = u.cursor.source.bindings
  | .write a cell => ⟨rfl, rfl⟩
  | .reset => by simp [step, reset_eq]
  | .next => by
      rcases u.cursor.next_cases u.store with ⟨-, hnext⟩ | ⟨raw, rest, -, -, -, hnext⟩
        | ⟨-, -, hnext⟩ | ⟨raw, rest, m, -, -, -, -, hnext⟩
      · simp [step, hnext]
      · simp [step, hnext]
      · simp [step, hnext]
      · simp [step, hnext]

theorem footprint_step (u : Use) (e : Event) : (u.step e).cursor.footprint = u.cursor.footprint := by
  obtain ⟨hslots, hbindings⟩ := u.slots_bindings_step e
  rw [footprint, hslots, hbindings, footprint]

theorem slots_bindings_run (u : Use) (es : List Event) :
    (u.run es).cursor.row.slots = u.cursor.row.slots
    ∧ (u.run es).cursor.source.bindings = u.cursor.source.bindings := by
  induction es generalizing u with
  | nil => exact ⟨rfl, rfl⟩
  | cons e es ih =>
      obtain ⟨hslots, hbindings⟩ := u.slots_bindings_step e
      obtain ⟨hslots', hbindings'⟩ := ih (u.step e)
      exact ⟨hslots'.trans hslots, hbindings'.trans hbindings⟩

theorem footprint_run (u : Use) (es : List Event) :
    (u.run es).cursor.footprint = u.cursor.footprint := by
  obtain ⟨hslots, hbindings⟩ := u.slots_bindings_run es
  rw [footprint, hslots, hbindings, footprint]

/-- A delivery writes no slot outside the footprint. -/
theorem get_deliver_of_not_footprint {c : Cursor} {a : Slot} (h : a ∉ c.footprint) (raw : RawRow)
    (s : Store) : (RowBuffer.deliver c.source.bindings raw s).get a = s.get a := by
  have hunbound : a ∉ c.source.bindings.map Prod.snd := fun hmem => h (List.mem_append_right _ hmem)
  rw [RowBuffer.get_deliver, RowBuffer.lastColumn?_eq_none hunbound]

/-- Dropping the row writes no slot outside the footprint. -/
theorem get_clear_of_not_footprint {c : Cursor} {a : Slot} (h : a ∉ c.footprint) (s : Store) :
    (s.clear c.row.slots).get a = s.get a := by
  rw [Store.get_clear, if_neg fun hmem => h (mem_footprint_of_slots hmem)]

/-- A call writes no slot outside the footprint. -/
theorem get_step_of_not_footprint {u : Use} {a : Slot} (h : a ∉ u.cursor.footprint) : ∀ c : Call,
    (u.step c.event).store.get a = u.store.get a
  | .reset => get_clear_of_not_footprint h u.store
  | .next => by
      rcases u.cursor.next_cases u.store with ⟨-, hnext⟩ | ⟨raw, rest, -, -, -, hnext⟩
        | ⟨-, -, hnext⟩ | ⟨raw, rest, m, -, -, -, -, hnext⟩
      · simp [Call.event, step, hnext]
      · simp [Call.event, step, hnext, get_deliver_of_not_footprint h]
      · simp [Call.event, step, hnext, get_clear_of_not_footprint h]
      · simp [Call.event, step, hnext, get_clear_of_not_footprint h]

/-- Calls on equal cursors have the same answer and leave equal cursors, whatever is stored; a slot
that has the same cell in both stores has the same cell afterwards. -/
theorem step_congr {u v : Use} (h : v.cursor = u.cursor) : ∀ c : Call,
    (v.step c.event).latest = (u.step c.event).latest
    ∧ (v.step c.event).cursor = (u.step c.event).cursor
    ∧ ∀ a, v.store.get a = u.store.get a →
        (v.step c.event).store.get a = (u.step c.event).store.get a
  | .reset => by
      refine ⟨rfl, ?_, fun a ha => ?_⟩
      · simp [Call.event, step, reset_eq, h]
      · simp [Call.event, step, reset_eq, h, Store.get_clear, ha]
  | .next => by
      rcases u.cursor.next_cases u.store with ⟨hdry, hnext⟩
        | ⟨raw, rest, hdry, hrows, hcovers, hnext⟩ | ⟨hdry, hrows, hnext⟩
        | ⟨raw, rest, m, hdry, hrows, hm, hle, hnext⟩
      · simp [Call.event, step, h, hnext, next_of_exhausted hdry]
      · simp only [Call.event, step, h, hnext, next_of_covers hdry hrows hcovers, true_and]
        intro a ha
        rw [RowBuffer.get_deliver, RowBuffer.get_deliver, ha]
      · simp only [Call.event, step, h, hnext, next_of_empty hdry hrows, true_and]
        intro a ha
        rw [Store.get_clear, Store.get_clear, ha]
      · simp only [Call.event, step, h, hnext, next_of_narrow hdry hrows hm hle, true_and]
        intro a ha
        rw [Store.get_clear, Store.get_clear, ha]

/-- The cursors are equal, and so are the cells of their footprint. -/
structure Agree (u v : Use) : Prop where
  cursor_eq : v.cursor = u.cursor
  reads : ∀ a ∈ u.cursor.footprint, v.store.get a = u.store.get a

/-- Cursors that agree give equal reports on a call, and agree afterwards. -/
theorem Agree.step {u v : Use} (h : u.Agree v) (c : Call) :
    (u.step c.event).Agree (v.step c.event)
    ∧ (v.step c.event).report = (u.step c.event).report := by
  obtain ⟨hlatest, hcursor, hget⟩ := step_congr h.cursor_eq c
  have hreads : ∀ a ∈ (u.step c.event).cursor.footprint,
      (v.step c.event).store.get a = (u.step c.event).store.get a := by
    intro a ha
    rw [footprint_step] at ha
    exact hget a (h.reads a ha)
  refine ⟨⟨hcursor, hreads⟩, report_congr hlatest hcursor fun f hf _ => ?_⟩
  exact hreads _ (mem_footprint_of_slots (Row.mem_slots hf))

end Use

end Cursor

end QueryTerms
