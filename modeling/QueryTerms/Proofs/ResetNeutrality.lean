/-
QueryTerms.Proofs.ResetNeutrality — a reset never skips, repeats or damages a row.

Between calls of `next` a cursor may be reset, and others may write. What is reported on each `next` is
the same as if there had been no resets: its answer, the buffer, the counters, and the view of every
leaf.

## How the proof goes

A run is compared with the run without the resets, which stands still where the first one is reset.
The two cursors differ at most in the validity of their rows, for a reset does nothing else to a
cursor (`Use.Alongside`). It does clear the storage of all leaves. But each leaf is bound, so its slot
is written again when a row is taken, and then holds the same in both runs (`get_deliver_of_bound`);
when none is taken, the row cannot be read in either run. The next call of `next` therefore makes the
two cursors equal again.
-/
import QueryTerms.Proofs.BindingHistory
import QueryTerms.Proofs.CursorIteration
import QueryTerms.Proofs.CursorReports

namespace QueryTerms

/-- What a delivery leaves in a slot that is bound does not depend on what was there. -/
theorem RowBuffer.get_deliver_of_bound {bindings : List (Nat × Slot)} {i : Nat} {a : Slot}
    (h : (i, a) ∈ bindings) (row : RawRow) (s t : Store) :
    (deliver bindings row t).get a = (deliver bindings row s).get a := by
  have hbound : lastColumn? bindings a ≠ none := fun hnone => lastColumn?_eq_none_iff.1 hnone i h
  rw [get_deliver, get_deliver]
  cases hlast : lastColumn? bindings a with
  | none => exact absurd hlast hbound
  | some j => rfl

namespace Cursor.Use

/-! ## 1. The reports on `next` -/

/-- The reports on the calls of `next` among events. -/
def nextReports : Use → List Event → List Report
  | _, [] => []
  | u, .next :: es => (u.step .next).report :: nextReports (u.step .next) es
  | u, .reset :: es => nextReports (u.step .reset) es
  | u, .write a cell :: es => nextReports (u.step (.write a cell)) es

/-- The events without the resets. -/
def withoutResets : List Event → List Event
  | [] => []
  | .next :: es => .next :: withoutResets es
  | .reset :: es => withoutResets es
  | .write a cell :: es => .write a cell :: withoutResets es

/-! ## 2. Two cursors side by side -/

/-- Cursors over the same row that differ at most in what their rows hold. -/
structure Alongside (row : Row) (u v : Use) : Prop where
  left : u.Stands row
  right : v.Stands row
  cursor_eq : v.cursor = { u.cursor with row := v.cursor.row }
  /-- The storage of every leaf is bound. -/
  bound : ∀ a ∈ row.slots, ∃ i, (i, a) ∈ u.cursor.source.bindings

theorem Alongside.refl {row : Row} {u : Use} (h : u.Stands row)
    (hbound : ∀ a ∈ row.slots, ∃ i, (i, a) ∈ u.cursor.source.bindings) : Alongside row u u :=
  ⟨h, h, rfl, hbound⟩

theorem Alongside.bound_step {row : Row} {u v : Use} (h : Alongside row u v) (e : Event) :
    ∀ a ∈ row.slots, ∃ i, (i, a) ∈ (u.step e).cursor.source.bindings := by
  rw [(u.slots_bindings_step e).2]
  exact h.bound

/-- A reset of one of them leaves them side by side. -/
theorem Alongside.reset {row : Row} {u v : Use} (h : Alongside row u v) :
    Alongside row (u.step .reset) v where
  left := stands_step h.left .reset
  right := h.right
  cursor_eq := h.cursor_eq
  bound := h.bound_step .reset

theorem Alongside.write {row : Row} {u v : Use} (h : Alongside row u v) (a : Slot)
    (cell : Cell a.domain) : Alongside row (u.step (.write a cell)) (v.step (.write a cell)) where
  left := stands_step h.left _
  right := stands_step h.right _
  cursor_eq := h.cursor_eq
  bound := h.bound_step (.write a cell)

/-- A cursor that has run dry holds no row. -/
theorem Stands.row_of_exhausted {row : Row} {u : Use} (h : u.Stands row)
    (hdry : u.cursor.exhausted = true) : u.cursor.row = row.dropped := by
  have hrow := h.row_eq
  rw [h.dry hdry] at hrow
  exact hrow

/-- Where no leaf is valid, no cell has to be compared. -/
theorem reads_of_dropped {row : Row} {s t : Store} :
    ∀ f ∈ row.dropped.leaves, f.isValid = true → t.get f.slot = s.get f.slot := by
  intro f hf hvalid
  rw [Row.isValid_of_mem_dropped hf] at hvalid
  cases hvalid

/-- A `next` of both has the same answer and makes the cursors equal; leaves that are valid then have
equal cells. -/
theorem Alongside.next_eq {row : Row} {u v : Use} (h : Alongside row u v) :
    (v.step .next).latest = (u.step .next).latest
    ∧ (v.step .next).cursor = (u.step .next).cursor
    ∧ ∀ f ∈ (u.step .next).cursor.row.leaves, f.isValid = true →
        (v.step .next).store.get f.slot = (u.step .next).store.get f.slot := by
  have hvalidate : v.cursor.row.validate = u.cursor.row.validate :=
    h.right.validate_eq.trans h.left.validate_eq.symm
  have hdropped : v.cursor.row.dropped = u.cursor.row.dropped :=
    h.right.dropped_eq.trans h.left.dropped_eq.symm
  have hexhausted : v.cursor.exhausted = u.cursor.exhausted := by rw [h.cursor_eq]
  have hsource : v.cursor.source = u.cursor.source := by rw [h.cursor_eq]
  have hcount : v.cursor.rowsFetched = u.cursor.rowsFetched := by rw [h.cursor_eq]
  rcases u.cursor.next_cases u.store with ⟨hdry, hnext⟩
    | ⟨raw, rest, hdry, hrows, hcovers, hnext⟩ | ⟨hdry, hrows, hnext⟩
    | ⟨raw, rest, m, hdry, hrows, hm, hle, hnext⟩
  · have hdry' := hexhausted.trans hdry
    have hrow := h.left.row_of_exhausted hdry
    have hcursor : v.cursor = u.cursor := by
      rw [h.cursor_eq, h.right.row_of_exhausted hdry', ← hrow]
    simp only [step, hnext, next_of_exhausted hdry', true_and]
    refine ⟨hcursor, ?_⟩
    rw [hrow]
    exact reads_of_dropped
  · rw [← hsource] at hrows hcovers
    simp only [step, hnext, next_of_covers (hexhausted.trans hdry) hrows hcovers, true_and]
    refine ⟨?_, fun f hf _ => ?_⟩
    · rw [hvalidate, hsource, hcount]
    · have hslot : f.slot ∈ row.slots := by
        have hmem := Row.mem_slots hf
        rw [h.left.validate_eq, Row.slots_validate] at hmem
        exact hmem
      obtain ⟨i, hi⟩ := h.bound f.slot hslot
      rw [hsource]
      exact RowBuffer.get_deliver_of_bound hi raw u.store v.store
  · rw [← hsource] at hrows
    simp only [step, hnext, next_of_empty (hexhausted.trans hdry) hrows, true_and]
    refine ⟨?_, reads_of_dropped⟩
    rw [h.cursor_eq, hdropped]
  · rw [← hsource] at hrows hm
    simp only [step, hnext, next_of_narrow (hexhausted.trans hdry) hrows hm hle, true_and]
    refine ⟨?_, reads_of_dropped⟩
    rw [h.cursor_eq, hdropped]

/-- A `next` of both is reported in the same way and leaves them side by side. -/
theorem Alongside.next {row : Row} {u v : Use} (h : Alongside row u v) :
    (v.step .next).report = (u.step .next).report
    ∧ Alongside row (u.step .next) (v.step .next) := by
  obtain ⟨hlatest, hcursor, hreads⟩ := h.next_eq
  refine ⟨report_congr hlatest hcursor hreads, stands_step h.left .next, stands_step h.right .next,
    ?_, h.bound_step .next⟩
  rw [hcursor]

theorem Alongside.nextReports_eq {row : Row} {u v : Use} (h : Alongside row u v) (es : List Event) :
    v.nextReports (withoutResets es) = u.nextReports es := by
  induction es generalizing u v with
  | nil => rfl
  | cons e es ih =>
      cases e with
      | next =>
          obtain ⟨hreport, hnext⟩ := h.next
          rw [withoutResets, nextReports, nextReports, hreport, ih hnext]
      | reset =>
          rw [withoutResets, nextReports]
          exact ih h.reset
      | write a cell =>
          rw [withoutResets, nextReports, nextReports]
          exact ih (h.write a cell)

/-! ## 3. From construction on -/

/-- The storage of every leaf is bound, and stays so. -/
theorem bound_run (row : Row) (b : RowBuffer) (s : Store) (es : List Event) :
    ∀ a ∈ row.slots, ∃ i, (i, a) ∈ ((start row b s).run es).cursor.source.bindings := by
  intro a ha
  obtain ⟨i, hi⟩ := List.mem_iff_getElem?.1 ha
  rw [(slots_bindings_run _ es).2]
  exact ⟨i, row.mem_bindings_new b s hi⟩

/-- **A reset never skips, repeats or damages a row.** Take a cursor over a buffer with any bindings,
whatever has been done with it so far, and any further events. Every call of `next` has the answer,
leaves the buffer and the counters, and shows the values and NULLs of the row, that it would if all
resets were left out. -/
theorem nextReports_withoutResets (row : Row) (b : RowBuffer) (s : Store) (before es : List Event) :
    let u := (start row b s).run before
    u.nextReports (withoutResets es) = u.nextReports es := by
  intro u
  have hstands : u.Stands row := stands_run (stands_start row b s) before
  exact (Alongside.refl hstands (bound_run row b s before)).nextReports_eq es

end Cursor.Use

end QueryTerms
