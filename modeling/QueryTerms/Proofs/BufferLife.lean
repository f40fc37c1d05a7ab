/-
QueryTerms.Proofs.BufferLife — over its whole life a buffer loses no row, doubles none and reorders none.

A buffer is called by its owner, or moved into a cursor, walked there, and taken back; so it goes on for
as long as it likes, through cursors over rows of any shape, while others write to the storage. A life
records, beside the buffer, the rows that were put into it and the rows that successful fetches took
from it. The law is one equation: the rows taken, followed by the rows still queued, are the rows put.

## How the proof goes

A step either takes the front row and delivers it (`Life.Takes`), or takes no row, and then at most puts
one behind the others (`Life.Spares`); nothing else has to be known about a step. The law is kept by
both, and so by every run. For the last part, a cursor that has run dry must have an empty queue: it ran
dry on an empty queue, and nobody can put a row into a buffer while a cursor has it.
-/
import QueryTerms.Proofs.BindingHistory
import QueryTerms.Proofs.CursorValidity

namespace QueryTerms

/-! ## 1. Lives -/

/-- The ways to make a buffer of some rows: at once, from columns that are texts, or by pushing the rows
into an empty buffer. -/
inductive RowBuffer.MadeOf : RowBuffer → List RawRow → Prop
  | rows (rows : List RawRow) : MadeOf (.ofRows rows) rows
  | textRows (rows : List (List (Option String))) :
      MadeOf (.ofTextRows rows) (rows.map (·.map (·.map utf8)))
  | pushed (rows : List RawRow) : MadeOf (rows.foldl RowBuffer.push {}) rows

theorem RowBuffer.foldl_push (b : RowBuffer) (rows : List RawRow) :
    rows.foldl RowBuffer.push b = { b with rows := b.rows ++ rows } := by
  induction rows generalizing b with
  | nil => rw [List.foldl_nil, List.append_nil]
  | cons row rest ih => simp [ih, RowBuffer.push]

/-- However it was made, a buffer is the queue of its rows. -/
theorem RowBuffer.MadeOf.eq_ofRows {b : RowBuffer} {rows : List RawRow} (h : b.MadeOf rows) :
    b = .ofRows rows := by
  cases h with
  | rows => rfl
  | textRows => rfl
  | pushed => exact RowBuffer.foldl_push {} rows

/-- Who has a buffer: its owner, or a cursor that it was moved into. -/
inductive Holder where
  | owner (b : RowBuffer)
  | cursor (c : Cursor)

/-- The buffer, whoever has it. -/
def Holder.buffer : Holder → RowBuffer
  | .owner b => b
  | .cursor c => c.source

/-- A buffer and the storage, and what has gone through the buffer. -/
structure Life where
  holder : Holder
  store : Store
  /-- The rows put into the buffer, those that it was made of first. -/
  put : List RawRow
  /-- The rows that successful fetches took, in order. -/
  taken : List RawRow := []
  /-- The number of successful fetches. -/
  successes : Nat := 0

/-! ## 2. Requests -/

/-- What a request for a row leaves behind: either the front row is taken, and its columns are written to
the storage bound to them, or the buffer stays as it was. -/
def RowBuffer.Requested (b : RowBuffer) (s : Store) :
    Except ColumnOutOfRange Bool → RowBuffer → Store → Prop
  | .ok true, b', s' => ∃ row rest, b.rows = row :: rest
      ∧ b' = { b with rows := rest, fetched := b.fetched + 1 }
      ∧ s' = RowBuffer.deliver b.bindings row s
  | _, b', _ => b' = b

theorem RowBuffer.requested_fetch (b : RowBuffer) (s : Store) :
    b.Requested s (b.fetch s).1 (b.fetch s).2.1 (b.fetch s).2.2 := by
  rcases b.fetch_cases s with ⟨-, hfetch⟩ | ⟨row, rest, hrows, -, hfetch⟩
    | ⟨row, rest, m, -, -, -, hfetch⟩
  · simp [Requested, hfetch]
  · simp [Requested, hfetch, hrows]
  · simp [Requested, hfetch]

theorem Cursor.requested_next (c : Cursor) (s : Store) :
    c.source.Requested s (c.next s).1 (c.next s).2.1.source (c.next s).2.2 := by
  rcases c.next_cases s with ⟨-, hnext⟩ | ⟨row, rest, -, hrows, -, hnext⟩ | ⟨-, -, hnext⟩
    | ⟨row, rest, m, -, -, -, -, hnext⟩
  · simp [RowBuffer.Requested, hnext]
  · simp [RowBuffer.Requested, hnext, hrows]
  · simp [RowBuffer.Requested, hnext]
  · simp [RowBuffer.Requested, hnext]

/-- A cursor that runs dry does so on an empty queue. -/
theorem Cursor.rows_of_exhausted_next {c : Cursor} {s : Store}
    (h : c.exhausted = true → c.source.rows = []) (hdry : (c.next s).2.1.exhausted = true) :
    (c.next s).2.1.source.rows = [] := by
  rcases c.next_cases s with ⟨hbefore, hnext⟩ | ⟨row, rest, -, -, -, hnext⟩ | ⟨-, hrows, hnext⟩
    | ⟨row, rest, m, hbefore, -, -, -, hnext⟩
  · simpa [hnext] using h hbefore
  · simp [hnext] at hdry
  · simpa [hnext] using hrows
  · simp [hnext, hbefore] at hdry

/-! ## 3. Steps -/

namespace Life

/-- What happens in the life of a buffer. -/
inductive Step where
  /-- The owner calls the buffer, or someone writes to a slot. -/
  | call (c : RowBuffer.Call)
  /-- The owner moves the buffer into a cursor over a row. -/
  | enter (row : Row)
  /-- The cursor is called, or someone writes to a slot. -/
  | event (e : Cursor.Event)
  /-- The cursor ends, and the owner has the buffer back. -/
  | leave

namespace Step

/-- What a step leaves of the buffer and the storage. A step that is not open to the one who has the
buffer leaves everything as it was. -/
def move : Step → Holder → Store → Holder × Store
  | .call c, .owner b, s =>
    let (b, s) := c.perform (b, s)
    (.owner b, s)
  | .enter row, .owner b, s =>
    let (c, s) := Cursor.new row b s
    (.cursor c, s)
  | .event e, .cursor c, s =>
    let u := Cursor.Use.step { cursor := c, store := s } e
    (.cursor u.cursor, u.store)
  | .leave, .cursor c, s => (.owner c.source, s)
  | _, holder, s => (holder, s)

/-- The answer of a step, which only a fetch gives, by the owner or by the cursor. -/
def answer? : Step → Holder → Store → Option (Except ColumnOutOfRange Bool)
  | .call c, .owner b, s => c.answer? (b, s)
  | .event .next, .cursor c, s => some (c.next s).1
  | _, _, _ => none

/-- The row that a step puts into the buffer. -/
def puts : Step → Holder → List RawRow
  | .call (.push row), .owner _ => [row]
  | _, _ => []

end Step

/-- The buffer, whoever has it. -/
def buffer (x : Life) : RowBuffer :=
  x.holder.buffer

/-- Whether the step is a fetch that answers that there is a row. -/
def serves (x : Life) (e : Step) : Bool :=
  match e.answer? x.holder x.store with
  | some (.ok there) => there
  | _ => false

/-- One step; a successful fetch takes the row at the front. -/
def step (x : Life) (e : Step) : Life :=
  { holder := (e.move x.holder x.store).1
    store := (e.move x.holder x.store).2
    put := x.put ++ e.puts x.holder
    taken := x.taken ++ if x.serves e then x.buffer.rows.take 1 else []
    successes := x.successes + if x.serves e then 1 else 0 }

/-- Steps one after another. -/
def run (x : Life) (es : List Step) : Life :=
  es.foldl step x

/-- The life of a buffer that was made of some rows. -/
def start (b : RowBuffer) (rows : List RawRow) (s : Store) : Life :=
  { holder := .owner b, store := s, put := rows }

theorem run_cons (x : Life) (e : Step) (es : List Step) : x.run (e :: es) = (x.step e).run es := rfl

/-! ## 4. One step -/

/-- The step takes the front row, and writes its columns to the storage bound to them. -/
structure Takes (x : Life) (e : Step) (row : RawRow) : Prop where
  serves : x.serves e = true
  puts_eq : e.puts x.holder = []
  rows_eq : x.buffer.rows = row :: (x.step e).buffer.rows
  fetched_eq : (x.step e).buffer.fetched = x.buffer.fetched + 1
  store_eq : (x.step e).store = RowBuffer.deliver x.buffer.bindings row x.store

/-- The step takes no row; if it puts one, then behind the others. -/
structure Spares (x : Life) (e : Step) : Prop where
  serves : x.serves e = false
  rows_eq : (x.step e).buffer.rows = x.buffer.rows ++ e.puts x.holder
  fetched_eq : (x.step e).buffer.fetched = x.buffer.fetched

/-- A step that is no request spares the rows. -/
theorem spares_of_rows_eq {x : Life} {e : Step} (hanswer : e.answer? x.holder x.store = none)
    (hrows : (x.step e).buffer.rows = x.buffer.rows ++ e.puts x.holder)
    (hfetched : (x.step e).buffer.fetched = x.buffer.fetched) : x.Spares e :=
  ⟨by rw [serves, hanswer], hrows, hfetched⟩

/-- A request takes the front row or spares the rows. -/
theorem cases_of_requested {x : Life} {e : Step} {answer : Except ColumnOutOfRange Bool}
    (hanswer : e.answer? x.holder x.store = some answer) (hputs : e.puts x.holder = [])
    (h : x.buffer.Requested x.store answer (x.step e).buffer (x.step e).store) :
    (∃ row, x.Takes e row) ∨ x.Spares e := by
  have hspares (hserves : x.serves e = false) (hbuffer : (x.step e).buffer = x.buffer) : x.Spares e :=
    ⟨hserves, by rw [hbuffer, hputs, List.append_nil], by rw [hbuffer]⟩
  match answer, h with
  | .ok true, ⟨row, rest, hrows, hbuffer, hstore⟩ =>
      refine Or.inl ⟨row, ?_, hputs, ?_, ?_, hstore⟩
      · rw [serves, hanswer]
      · rw [hrows, hbuffer]
      · rw [hbuffer]
  | .ok false, hbuffer => exact Or.inr (hspares (by rw [serves, hanswer]) hbuffer)
  | .error _, hbuffer => exact Or.inr (hspares (by rw [serves, hanswer]) hbuffer)

/-- A step takes the front row or spares the rows. -/
theorem step_cases (x : Life) (e : Step) : (∃ row, x.Takes e row) ∨ x.Spares e := by
  obtain ⟨holder, s, put, taken, n⟩ := x
  have hidle : ∀ b : RowBuffer, b.rows = b.rows ++ [] := fun b => (List.append_nil _).symm
  cases holder with
  | owner b =>
      cases e with
      | call c =>
          cases c with
          | fetch => exact cases_of_requested rfl rfl (b.requested_fetch s)
          | push row => exact Or.inr (spares_of_rows_eq rfl rfl rfl)
          | bind i a => exact Or.inr (spares_of_rows_eq rfl (hidle b) rfl)
          | write a cell => exact Or.inr (spares_of_rows_eq rfl (hidle b) rfl)
      | enter row =>
          have hnew := Cursor.new_eq row b s
          refine Or.inr (spares_of_rows_eq rfl ?_ ?_)
          · show (Cursor.new row b s).1.source.rows = b.rows ++ []
            rw [hnew, List.append_nil]
          · show (Cursor.new row b s).1.source.fetched = b.fetched
            rw [hnew]
      | event e => cases e <;> exact Or.inr (spares_of_rows_eq rfl (hidle b) rfl)
      | leave => exact Or.inr (spares_of_rows_eq rfl (hidle b) rfl)
  | cursor c =>
      cases e with
      | call k => cases k <;> exact Or.inr (spares_of_rows_eq rfl (hidle c.source) rfl)
      | enter row => exact Or.inr (spares_of_rows_eq rfl (hidle c.source) rfl)
      | event e =>
          cases e with
          | next => exact cases_of_requested rfl rfl (c.requested_next s)
          | reset => exact Or.inr (spares_of_rows_eq rfl (hidle c.source) rfl)
          | write a cell => exact Or.inr (spares_of_rows_eq rfl (hidle c.source) rfl)
      | leave => exact Or.inr (spares_of_rows_eq rfl (hidle c.source) rfl)

/-! ## 5. The law -/

/-- No row has been lost, doubled or reordered so far, and the counter counts the successful fetches. -/
structure Conserved (x : Life) : Prop where
  rows_eq : x.taken ++ x.buffer.rows = x.put
  length_taken : x.taken.length = x.successes
  fetched_eq : x.buffer.fetched = x.successes

theorem conserved_start {b : RowBuffer} {rows : List RawRow} (h : b.MadeOf rows) (s : Store) :
    (start b rows s).Conserved := by
  rw [h.eq_ofRows]
  exact ⟨rfl, rfl, rfl⟩

theorem Takes.taken_eq {x : Life} {e : Step} {row : RawRow} (h : x.Takes e row) :
    (x.step e).taken = x.taken ++ [row] := by
  have hfront : x.buffer.rows.take 1 = [row] := by rw [h.rows_eq]; rfl
  simp [step, h.serves, hfront]

theorem Spares.taken_eq {x : Life} {e : Step} (h : x.Spares e) : (x.step e).taken = x.taken := by
  simp [step, h.serves]

theorem successes_step (x : Life) (e : Step) :
    (x.step e).successes = x.successes + if x.serves e then 1 else 0 := rfl

theorem put_step (x : Life) (e : Step) : (x.step e).put = x.put ++ e.puts x.holder := rfl

theorem Conserved.step {x : Life} (h : x.Conserved) (e : Step) : (x.step e).Conserved := by
  rcases x.step_cases e with ⟨row, htakes⟩ | hspares
  · refine ⟨?_, ?_, ?_⟩
    · rw [htakes.taken_eq, put_step, htakes.puts_eq, List.append_nil, ← h.rows_eq, htakes.rows_eq,
        List.append_assoc, List.singleton_append]
    · simp [htakes.taken_eq, successes_step, htakes.serves, h.length_taken]
    · simp [htakes.fetched_eq, successes_step, htakes.serves, h.fetched_eq]
  · refine ⟨?_, ?_, ?_⟩
    · rw [hspares.taken_eq, put_step, hspares.rows_eq, ← List.append_assoc, h.rows_eq]
    · simp [hspares.taken_eq, successes_step, hspares.serves, h.length_taken]
    · simp [hspares.fetched_eq, successes_step, hspares.serves, h.fetched_eq]

theorem Conserved.run {x : Life} (h : x.Conserved) (es : List Step) : (x.run es).Conserved := by
  induction es generalizing x with
  | nil => exact h
  | cons e es ih => exact ih (h.step e)

/-! ## 6. Running dry and going on -/

/-- There is nothing more to fetch: a fetch of the owner answers so, or the cursor that has the buffer
has run dry. -/
def Dry (x : Life) : Prop :=
  match x.holder with
  | .owner b => (b.fetch x.store).1 = .ok false
  | .cursor c => c.exhausted = true

/-- A cursor that has run dry has an empty queue. -/
def EmptyIfExhausted (x : Life) : Prop :=
  ∀ c, x.holder = .cursor c → c.exhausted = true → c.source.rows = []

theorem EmptyIfExhausted.step {x : Life} (h : x.EmptyIfExhausted) (e : Step) :
    (x.step e).EmptyIfExhausted := by
  obtain ⟨holder, s, put, taken, n⟩ := x
  cases holder with
  | owner b =>
      cases e with
      | enter row =>
          -- a new cursor has not run dry
          rintro _ ⟨⟩ hdry
          cases hdry
      | call k => rintro _ ⟨⟩
      | event e => cases e <;> exact h
      | leave => exact h
  | cursor c =>
      cases e with
      | leave => rintro _ ⟨⟩
      | call k => cases k <;> exact h
      | enter row => exact h
      | event e =>
          rintro _ ⟨⟩ hdry
          cases e with
          | next =>
              show (c.next s).2.1.source.rows = []
              exact Cursor.rows_of_exhausted_next (h c rfl) hdry
          | reset => exact h c rfl hdry
          | write a cell => exact h c rfl hdry

theorem EmptyIfExhausted.run {x : Life} (h : x.EmptyIfExhausted) (es : List Step) :
    (x.run es).EmptyIfExhausted := by
  induction es generalizing x with
  | nil => exact h
  | cons e es ih => exact ih (h.step e)

theorem Dry.rows_eq {x : Life} (hdry : x.Dry) (h : x.EmptyIfExhausted) : x.buffer.rows = [] := by
  obtain ⟨holder, s, put, taken, n⟩ := x
  cases holder with
  | owner b =>
      have hanswer : (b.fetch s).1 = .ok false := hdry
      rcases b.fetch_cases s with ⟨hrows, -⟩ | ⟨row, rest, -, -, hfetch⟩
        | ⟨row, rest, m, -, -, -, hfetch⟩
      · exact hrows
      · simp [hfetch] at hanswer
      · simp [hfetch] at hanswer
  | cursor c => exact h c rfl hdry

/-- The row at the front is taken if the step answers that there is one. -/
theorem taken_step {x : Life} {e : Step} {row : RawRow} {rest : List RawRow}
    (hanswer : e.answer? x.holder x.store = some (.ok true)) (hrows : x.buffer.rows = row :: rest) :
    (x.step e).taken = x.taken ++ [row] := by
  simp [step, serves, hanswer, hrows]

/-- Rows pushed by the owner stand behind the others. -/
theorem run_push {x : Life} {b : RowBuffer} (h : x.holder = .owner b) (more : List RawRow) :
    (x.run (more.map fun row => .call (.push row))).holder = .owner { b with rows := b.rows ++ more }
    ∧ (x.run (more.map fun row => .call (.push row))).taken = x.taken := by
  induction more generalizing x b with
  | nil => simp [run, h]
  | cons row more ih =>
      have hpush : (x.step (.call (.push row))).holder = .owner (b.push row)
          ∧ (x.step (.call (.push row))).taken = x.taken := by
        simp [step, serves, h, Step.move, Step.answer?, RowBuffer.Call.perform, RowBuffer.Call.answer?]
      obtain ⟨hholder, htaken⟩ := ih hpush.1
      rw [List.map_cons, run_cons, hholder, htaken, hpush.2]
      simp [RowBuffer.push]

theorem step_fetch {x : Life} {b : RowBuffer} {row : RawRow} {rest : List RawRow}
    (h : x.holder = .owner b) (hrows : b.rows = row :: rest) (hrow : b.Covers row) :
    (x.step (.call .fetch)).holder = .owner { b with rows := rest, fetched := b.fetched + 1 }
    ∧ (x.step (.call .fetch)).taken = x.taken ++ [row] := by
  have hfetch := RowBuffer.fetch_of_covers hrows hrow x.store
  refine ⟨?_, taken_step ?_ (?_ : x.buffer.rows = row :: rest)⟩
  · simp [step, Step.move, h, RowBuffer.Call.perform, hfetch]
  · simp [Step.answer?, h, RowBuffer.Call.answer?, hfetch]
  · simpa [buffer, Holder.buffer, h] using hrows

theorem step_next {x : Life} {c : Cursor} {row : RawRow} {rest : List RawRow}
    (h : x.holder = .cursor c) (hdry : c.exhausted = false) (hrows : c.source.rows = row :: rest)
    (hrow : c.source.Covers row) :
    (x.step (.event .next)).holder =
      .cursor
        { row := c.row.validate
          source := { c.source with rows := rest, fetched := c.source.fetched + 1 }
          exhausted := false
          rowsFetched := c.rowsFetched + 1 }
    ∧ (x.step (.event .next)).taken = x.taken ++ [row] := by
  have hnext := Cursor.next_of_covers hdry hrows hrow x.store
  refine ⟨?_, taken_step ?_ (?_ : x.buffer.rows = row :: rest)⟩
  · simp [step, Step.move, h, Cursor.Use.step, hnext]
  · simp [Step.answer?, h, hnext]
  · simpa [buffer, Holder.buffer, h] using hrows

/-- The owner fetches all rows that are queued, if they have every bound column. -/
theorem taken_run_fetch {x : Life} {b : RowBuffer} {more : List RawRow} (h : x.holder = .owner b)
    (hrows : b.rows = more) (hcovers : ∀ row ∈ more, b.Covers row) :
    (x.run (List.replicate more.length (.call .fetch))).taken = x.taken ++ more := by
  induction more generalizing x b with
  | nil => simp [run]
  | cons row more ih =>
      obtain ⟨hholder, htaken⟩ := step_fetch h hrows (hcovers row (by simp))
      have hrest := ih hholder rfl fun r hr => hcovers r (by simp [hr])
      rw [List.length_cons, List.replicate_succ, run_cons, hrest, htaken, List.append_assoc,
        List.singleton_append]

/-- A cursor takes all rows that are queued, if they have every bound column. -/
theorem taken_run_next {x : Life} {c : Cursor} {more : List RawRow} (h : x.holder = .cursor c)
    (hdry : c.exhausted = false) (hrows : c.source.rows = more)
    (hcovers : ∀ row ∈ more, c.source.Covers row) :
    (x.run (List.replicate more.length (.event .next))).taken = x.taken ++ more := by
  induction more generalizing x c with
  | nil => simp [run]
  | cons row more ih =>
      obtain ⟨hholder, htaken⟩ := step_next h hdry hrows (hcovers row (by simp))
      have hrest := ih hholder rfl rfl fun r hr => hcovers r (by simp [hr])
      rw [List.length_cons, List.replicate_succ, run_cons, hrest, htaken, List.append_assoc,
        List.singleton_append]

/-- The owner moves the buffer into a new cursor, and no row is taken. -/
theorem step_enter {x : Life} {b : RowBuffer} (h : x.holder = .owner b) (row : Row) :
    (x.step (.enter row)).holder = .cursor (Cursor.new row b x.store).1
    ∧ (x.step (.enter row)).taken = x.taken := by
  simp [step, serves, h, Step.move, Step.answer?]

/-- The owner has the buffer back; nothing else changes. -/
theorem step_leave (x : Life) :
    (x.step .leave).holder = .owner x.buffer ∧ (x.step .leave).taken = x.taken := by
  obtain ⟨holder, s, put, taken, n⟩ := x
  cases holder with
  | owner b => exact ⟨rfl, List.append_nil _⟩
  | cursor c => exact ⟨rfl, List.append_nil _⟩

/-- **No row is lost, doubled or reordered over the life of a buffer.** Let a buffer be made of some rows,
and let anything happen to it, by its owner or in cursors over rows of any shape. The rows that
successful fetches took, followed by the rows still queued, are the rows put into the buffer, in order;
the counter of the buffer counts the successful fetches. The row that a fetch takes is the one whose
columns it writes to the storage bound to them. And a buffer that has run dry goes on: rows pushed by
the owner are taken in order, by fetches of the owner and by every new cursor, if they have every
column that is bound then. -/
theorem rows_conserved {b : RowBuffer} {rows : List RawRow} (h : b.MadeOf rows) (s : Store)
    (es : List Step) :
    let x := (start b rows s).run es
    x.taken ++ x.buffer.rows = x.put
    ∧ x.buffer.fetched = x.successes
    ∧ x.buffer.fetched + x.buffer.remaining = x.put.length
    ∧ (∀ e, x.serves e = true → ∃ row, (x.step e).taken = x.taken ++ [row]
        ∧ (x.step e).store = RowBuffer.deliver x.buffer.bindings row x.store)
    ∧ (x.Dry → ∀ more : List RawRow,
        let y := (x.step .leave).run (more.map fun row => .call (.push row))
        ((∀ row ∈ more, y.buffer.Covers row) →
          (y.run (List.replicate more.length (.call .fetch))).taken = x.taken ++ more)
        ∧ ∀ shape : Row, (∀ row ∈ more, (y.step (.enter shape)).buffer.Covers row) →
          ((y.step (.enter shape)).run (List.replicate more.length (.event .next))).taken
            = x.taken ++ more) := by
  intro x
  have hlaw : x.Conserved := (conserved_start h s).run es
  have hempty : x.EmptyIfExhausted := by
    refine EmptyIfExhausted.run ?_ es
    rintro _ ⟨⟩
  refine ⟨hlaw.rows_eq, hlaw.fetched_eq, ?_, ?_, ?_⟩
  · have hlength : x.taken.length + x.buffer.rows.length = x.put.length := by
      rw [← hlaw.rows_eq, List.length_append]
    have htaken := hlaw.length_taken
    have hfetched := hlaw.fetched_eq
    have hqueued : x.buffer.remaining = x.buffer.rows.length := rfl
    omega
  · intro e hserves
    rcases x.step_cases e with ⟨row, htakes⟩ | hspares
    · exact ⟨row, htakes.taken_eq, htakes.store_eq⟩
    · exact absurd hserves (by simp [hspares.serves])
  · intro hdry more y
    obtain ⟨hleave, hsame⟩ := x.step_leave
    obtain ⟨hholder, htaken⟩ := run_push hleave more
    rw [hdry.rows_eq hempty, List.nil_append] at hholder
    have hbuffer : y.buffer = { x.buffer with rows := more } := congrArg Holder.buffer hholder
    have htaken' : y.taken = x.taken := htaken.trans hsame
    refine ⟨fun hcovers => ?_, fun shape hcovers => ?_⟩
    · rw [hbuffer] at hcovers
      rw [taken_run_fetch hholder rfl hcovers, htaken']
    · obtain ⟨hcursor, hentered⟩ := step_enter hholder shape
      have hsource : (y.step (.enter shape)).buffer
          = (Cursor.new shape { x.buffer with rows := more } y.store).1.source :=
        congrArg Holder.buffer hcursor
      have hrows : (Cursor.new shape { x.buffer with rows := more } y.store).1.source.rows = more := by
        rw [Cursor.new_eq]
      rw [hsource] at hcovers
      rw [taken_run_next hcursor rfl hrows hcovers, hentered, htaken']

/-- A row is fetched by the owner and another one in a cursor that runs dry; the owner pushes a third one,
which a new cursor takes. When the owner takes it, the slot that the cursor has bound holds its truth
value. -/
theorem rows_conserved_after_exhaustion :
    let shape : Row := .field { slot := ⟨.boolean, 0⟩ }
    let x := (start (.ofTextRows [[some "t"], [none]]) [[some (utf8 "t")], [none]] {}).run
      [.call .fetch, .call (.bind 0 ⟨.integral, 1⟩), .enter shape, .event .next, .event .next]
    let y := (x.step .leave).run [.call (.push [some (utf8 "1")])]
    let z := y.step (.call .fetch)
    x.taken ++ x.buffer.rows = [[some (utf8 "t")], [none]]
    ∧ x.buffer.fetched = x.successes
    ∧ x.Dry
    ∧ z.taken = [[some (utf8 "t")], [none], [some (utf8 "1")]]
    ∧ ((z.store.get ⟨.boolean, 0⟩).value = true ∧ (z.store.get ⟨.boolean, 0⟩).isNull = false)
    ∧ ((y.step (.enter shape)).run [.event .next]).taken
        = [[some (utf8 "t")], [none], [some (utf8 "1")]] := by
  intro shape x y z
  obtain ⟨hrows, hfetched, -, -, hrevived⟩ := rows_conserved (.textRows [[some "t"], [none]]) {}
    [.call .fetch, .call (.bind 0 ⟨.integral, 1⟩), .enter shape, .event .next, .event .next]
  have hdry : x.Dry := rfl
  obtain ⟨howner, hcursor⟩ := hrevived hdry [[some (utf8 "1")]]
  have hwide {b : RowBuffer} (h : b.largestColumn? = some 0) :
      ∀ row ∈ [[some (utf8 "1")]], b.Covers row := by
    intro row hrow
    rw [List.mem_singleton.1 hrow]
    exact (RowBuffer.covers_iff h _).2 (by decide)
  have hthree : z.taken = [[some (utf8 "t")], [none], [some (utf8 "1")]] := howner (hwide rfl)
  -- the whole life up to the third row, whose fetch delivers it
  obtain ⟨-, -, -, hdelivers, -⟩ := rows_conserved (.textRows [[some "t"], [none]]) {}
    [.call .fetch, .call (.bind 0 ⟨.integral, 1⟩), .enter shape, .event .next, .event .next, .leave,
      .call (.push [some (utf8 "1")])]
  obtain ⟨row, htaken, hstore⟩ := hdelivers (.call .fetch) rfl
  have hsplit : [[some (utf8 "t")], [none]] ++ [[some (utf8 "1")]]
      = [[some (utf8 "t")], [none]] ++ [row] := hthree.symm.trans htaken
  obtain rfl : [some (utf8 "1")] = row := (List.cons.inj (List.append_cancel_left hsplit)).1
  have hput : z.store = y.store.put ⟨.boolean, 0⟩ (.ofRaw (some (utf8 "1"))) := hstore
  refine ⟨hrows, hfetched, hdry, hthree, ?_, hcursor shape (hwide rfl)⟩
  rw [hput, Store.get_put_self]
  exact ⟨by decide, rfl⟩

end Life

end QueryTerms
