/-
QueryTerms.Cursor — walks the rows of a buffer through one bound row.

The row is valid exactly while the cursor stands on a fetched row. Before the first fetch, after a
reset, after a failed fetch and once the buffer has run dry, every leaf is invalid and its storage
NULL. A cursor that has run dry does not ask its buffer again; one whose fetch failed does.
-/
import QueryTerms.Row
import QueryTerms.RowBuffer

namespace QueryTerms

/-- A row bound to a buffer. -/
structure Cursor where
  row : Row
  source : RowBuffer
  exhausted : Bool := false
  rowsFetched : Nat := 0

namespace Cursor

/-- Binds a row to a buffer from column 0 on; the row is invalid at first. -/
def new (row : Row) (source : RowBuffer) (s : Store) : Cursor × Store :=
  let (row, s) := row.invalidate s
  ({ row, source := (row.bindInto RowBuffer.bind source 0).1 }, s)

/-- Moves to the next row: whether there is one, or why fetching it failed. -/
def next (c : Cursor) (s : Store) : Except ColumnOutOfRange Bool × Cursor × Store :=
  if c.exhausted then (.ok false, c, s)
  else
    match c.source.fetch s with
    | (.ok true, source, s) =>
      (.ok true, { c with row := c.row.validate, source, rowsFetched := c.rowsFetched + 1 }, s)
    | (.ok false, source, s) =>
      let (row, s) := c.row.invalidate s
      (.ok false, { c with row, source, exhausted := true }, s)
    | (.error e, source, s) =>
      let (row, s) := c.row.invalidate s
      (.error e, { c with row, source }, s)

/-- Drops the current row without fetching. -/
def reset (c : Cursor) (s : Store) : Cursor × Store :=
  let (row, s) := c.row.invalidate s
  ({ c with row }, s)

/-! ## Walking to the end -/

/-- Moving to a row leaves fewer rows queued. -/
theorem rows_length_of_next {c c' : Cursor} {s s' : Store} (h : c.next s = (.ok true, c', s')) :
    c'.source.rows.length < c.source.rows.length := by
  unfold next at h
  split at h
  · simp at h
  · split at h
    · next source t hf =>
      cases h
      unfold RowBuffer.fetch at hf
      split at hf
      · simp at hf
      · next row rest hr =>
        split at hf
        · simp at hf
        · cases hf
          simp [hr]
    · simp at h
    · simp at h

/-- Visits every row that is left; answers what was seen and the cursor that has run dry, or the first
failure. -/
def visitAll {α : Type} (visit : Row → Store → α) (c : Cursor) (s : Store) :
    Except ColumnOutOfRange (List α × Cursor × Store) :=
  match h : c.next s with
  | (.ok true, c', s') =>
    have := rows_length_of_next h
    match visitAll visit c' s' with
    | .ok (seen, last) => .ok (visit c'.row s' :: seen, last)
    | .error e => .error e
  | (.ok false, c', s') => .ok ([], c', s')
  | (.error e, _, _) => .error e
termination_by c.source.rows.length

end Cursor

end QueryTerms
