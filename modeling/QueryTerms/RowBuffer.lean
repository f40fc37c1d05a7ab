/-
QueryTerms.RowBuffer — rows in memory, delivered one by one into bound storage.

A buffer is a queue of raw rows and, for each bound column, the slot that the column is decoded into.
A fetch takes the front row and writes every bound column to its slot, in the order in which the
bindings were made, so of two bindings of one slot the later one decides. A row that lacks a bound
column is refused before anything is written, and stays at the front.
-/
import QueryTerms.Store

namespace QueryTerms

/-- The raw columns of a row. -/
abbrev RawRow := List RawColumn

/-- A bound column lies outside the row to be fetched. -/
structure ColumnOutOfRange where
  index : Nat
  width : Nat
  deriving DecidableEq, Repr

/-- What a user is told about a column that is out of range. -/
def ColumnOutOfRange.message (e : ColumnOutOfRange) : String :=
  "Column index " ++ Numeral.ofNat e.index ++ " out of bounds for row with " ++
    Numeral.ofNat e.width ++ " columns"

/-- Rows not fetched yet, the bindings in the order made, and the number of rows fetched. -/
structure RowBuffer where
  rows : List RawRow := []
  bindings : List (Nat × Slot) := []
  fetched : Nat := 0
  deriving DecidableEq

namespace RowBuffer

/-! ## 1. Filling and binding -/

/-- A buffer of rows, nothing bound. -/
def ofRows (rows : List RawRow) : RowBuffer :=
  { rows }

/-- A buffer of rows whose columns are texts, nothing bound. -/
def ofTextRows (rows : List (List (Option String))) : RowBuffer :=
  .ofRows (rows.map (·.map (·.map utf8)))

/-- Queues a row behind all others. -/
def push (b : RowBuffer) (row : RawRow) : RowBuffer :=
  { b with rows := b.rows ++ [row] }

/-- Binds a column to a slot; an earlier binding of the column is replaced. -/
def bind (b : RowBuffer) (index : Nat) (slot : Slot) : RowBuffer :=
  { b with bindings := b.bindings.filter (fun p => p.1 ≠ index) ++ [(index, slot)] }

/-- The number of rows not fetched yet. -/
def remaining (b : RowBuffer) : Nat :=
  b.rows.length

/-- The number of bound columns. -/
def boundColumns (b : RowBuffer) : Nat :=
  b.bindings.length

/-! ## 2. Fetching -/

/-- The largest bound column that a row of this width lacks. -/
def outOfRange? (b : RowBuffer) (width : Nat) : Option Nat :=
  ((b.bindings.map Prod.fst).filter (width ≤ ·)).max?

/-- The raw column at an index; NULL beyond the end. -/
def columnAt (row : RawRow) (index : Nat) : RawColumn :=
  row[index]?.join

/-- Decodes the bound columns of a row into their slots. -/
def deliver (bindings : List (Nat × Slot)) (row : RawRow) (s : Store) : Store :=
  bindings.foldl (fun s p => s.decodeInto p.2 (columnAt row p.1)) s

/-- Fetches the front row: whether there was one, or the column that it lacks. Only a success changes
the buffer or the store. -/
def fetch (b : RowBuffer) (s : Store) : Except ColumnOutOfRange Bool × RowBuffer × Store :=
  match b.rows with
  | [] => (.ok false, b, s)
  | row :: rest =>
    match b.outOfRange? row.length with
    | some index => (.error ⟨index, row.length⟩, b, s)
    | none => (.ok true, { b with rows := rest, fetched := b.fetched + 1 }, deliver b.bindings row s)

end RowBuffer

end QueryTerms
