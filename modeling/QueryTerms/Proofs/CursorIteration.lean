/-
QueryTerms.Proofs.CursorIteration — walking a cursor is walking the list of queued rows.

Call `next` over and over, with nobody else writing. The calls are answered by the queued rows one
after another, and each time the leaves of the cursor's row read the columns of the queued row, each in
its own domain. So it goes up to the first row that lacks a bound column. If there is none, the
cursor runs dry behind the last row and stays so; if there is one, every further call is refused by it.

What the cursor is after it took `j` rows is one value (`Cursor.taken`), and a call is computed from it
by the lemmas about single calls. What the leaves read comes from the order of the bindings: a cursor's
own bindings stand behind all those that its buffer came with, so whatever else the slots of its row
were bound to is overwritten in every delivery.
-/
import QueryTerms.Proofs.CursorSteps

namespace QueryTerms

/-! ## 1. What a row reads -/

/-- A row stands in the field, and the field reads what the column stands for in its domain. -/
def Field.Reads (f : Field) (s : Store) (column : RawColumn) : Prop :=
  f.isValid = true
  ∧ f.value? s = .ok (column.elim f.domain.trivialValue f.domain.decode)
  ∧ f.isNull? s = .ok column.isNone

theorem Field.reads_of_get {f : Field} {s : Store} {column : RawColumn} (hvalid : f.isValid = true)
    (hget : s.get f.slot = .ofRaw column) : f.Reads s column := by
  refine ⟨hvalid, ?_, ?_⟩
  · rw [value?, cell?, hvalid, hget]
    cases column <;> rfl
  · rw [isNull?, cell?, hvalid, hget]
    cases column <;> rfl

/-- Every leaf reads the column of the raw row that stands at its own place. -/
def Row.Reads (row : Row) (s : Store) (raw : RawRow) : Prop :=
  ∀ (i : Nat) (f : Field), row.leaves[i]? = some f →
    ∃ column, raw[i]? = some column ∧ f.Reads s column

/-- The column of a leaf is not overwritten by another binding, if the slots of the row differ. -/
theorem Row.lastColumn?_new {row : Row} (hslots : row.slots.Nodup) (b : RowBuffer) (s : Store)
    {i : Nat} {a : Slot} (h : row.slots[i]? = some a) :
    RowBuffer.lastColumn? (Cursor.new row b s).1.source.bindings a = some i := by
  have hown := RowBuffer.lastColumn?_zipIdx 0 hslots h
  rw [Nat.zero_add] at hown
  simp [Cursor.new_eq, RowBuffer.lastColumn?_append, hown]

/-- The columns of the leaves are bound. -/
theorem Row.mem_bindings_new (row : Row) (b : RowBuffer) (s : Store) {i : Nat} {a : Slot}
    (h : row.slots[i]? = some a) : (i, a) ∈ (Cursor.new row b s).1.source.bindings := by
  rw [Cursor.new_eq]
  refine List.mem_append_right _ (List.mem_map.2 ⟨(a, i), ?_, rfl⟩)
  exact List.mem_zipIdx_iff_getElem?.2 h

/-- Delivering a row that is wide enough makes the leaves read it. -/
theorem Row.reads_deliver {row : Row} (hslots : row.slots.Nodup) (b : RowBuffer) (s s' : Store)
    {raw : RawRow} (hraw : (Cursor.new row b s).1.source.Covers raw) :
    row.validate.Reads
      (RowBuffer.deliver (Cursor.new row b s).1.source.bindings raw s') raw := by
  intro i f hf
  have hvalid : f.isValid = true := isValid_of_mem_validate (List.mem_of_getElem? hf)
  have hslot : row.slots[i]? = some f.slot := by
    rw [← slots_validate, slots, List.getElem?_map, hf]
    rfl
  have hbound := row.mem_bindings_new b s hslot
  obtain ⟨m, hm, hle⟩ := RowBuffer.exists_largestColumn? hbound
  have hi : i < raw.length := Nat.lt_of_le_of_lt hle ((RowBuffer.covers_iff hm raw).1 hraw)
  refine ⟨raw[i], List.getElem?_eq_getElem hi, Field.reads_of_get hvalid ?_⟩
  rw [RowBuffer.get_deliver, lastColumn?_new hslots b s hslot]
  simp [RowBuffer.columnAt, hi]

/-! ## 2. Many calls -/

namespace Cursor

/-- The cursor and the store after some calls of `next`. -/
def advance (c : Cursor) (s : Store) : Nat → Cursor × Store
  | 0 => (c, s)
  | j + 1 => ((c.advance s j).1.next (c.advance s j).2).2

/-- What the call of `next` behind `j` others answers. -/
def answer (c : Cursor) (s : Store) (j : Nat) : Except ColumnOutOfRange Bool :=
  ((c.advance s j).1.next (c.advance s j).2).1

theorem advance_add (c : Cursor) (s : Store) (i : Nat) : ∀ j,
    c.advance s (i + j) = (c.advance s i).1.advance (c.advance s i).2 j
  | 0 => rfl
  | j + 1 => by rw [Nat.add_succ, advance, advance_add c s i j, advance]

theorem answer_add (c : Cursor) (s : Store) (i j : Nat) :
    c.answer s (i + j) = (c.advance s i).1.answer (c.advance s i).2 j := by
  rw [answer, advance_add, answer]

/-- The cursor after it has taken `j` rows. -/
def taken (c : Cursor) (j : Nat) : Cursor :=
  { row := if j = 0 then c.row else c.row.validate
    source := { c.source with rows := c.source.rows.drop j, fetched := c.source.fetched + j }
    exhausted := false
    rowsFetched := c.rowsFetched + j }

theorem taken_zero {c : Cursor} (h : c.exhausted = false) : c.taken 0 = c := by
  simp [taken, ← h]

theorem rows_taken {c : Cursor} {j : Nat} {raw : RawRow} (hraw : c.source.rows[j]? = some raw) :
    (c.taken j).source.rows = raw :: c.source.rows.drop (j + 1) := by
  obtain ⟨hj, rfl⟩ := List.getElem?_eq_some_iff.1 hraw
  exact List.drop_eq_getElem_cons hj

theorem dropped_row_taken (c : Cursor) (j : Nat) : (c.taken j).row.dropped = c.row.dropped := by
  rw [taken]
  split <;> simp

/-- One more row is taken, if it has every bound column. -/
theorem next_taken {c : Cursor} {j : Nat} {raw : RawRow} (hraw : c.source.rows[j]? = some raw)
    (hcovers : c.source.Covers raw) (s : Store) :
    (c.taken j).next s = (.ok true, c.taken (j + 1), RowBuffer.deliver c.source.bindings raw s) := by
  rw [next_of_covers rfl (rows_taken hraw) hcovers]
  by_cases hzero : j = 0 <;> simp [taken, hzero, Nat.add_assoc]

/-- As long as the rows have every bound column, they are taken one after another. -/
theorem advance_of_covers {c : Cursor} (h : c.exhausted = false) (s : Store) : ∀ j,
    j ≤ c.source.rows.length →
    (∀ i raw, i < j → c.source.rows[i]? = some raw → c.source.Covers raw) →
      (c.advance s j).1 = c.taken j
  | 0, _, _ => (taken_zero h).symm
  | j + 1, hj, hcovers => by
      have hstate := advance_of_covers h s j (by omega) fun i raw hi => hcovers i raw (by omega)
      have hraw : c.source.rows[j]? = some c.source.rows[j] := List.getElem?_eq_getElem hj
      rw [advance, hstate, next_taken hraw (hcovers j _ (Nat.lt_succ_self j) hraw)]

/-- A cursor whose buffer has no row left runs dry in the next call, and stays so. -/
theorem advance_of_empty {c : Cursor} (h : c.exhausted = false) (hrows : c.source.rows = [])
    (s : Store) : ∀ j,
      (c.advance s (j + 1)).1 = { c with row := c.row.dropped, exhausted := true }
      ∧ c.answer s j = .ok false
  | 0 => by
      rw [advance, answer, advance, next_of_empty h hrows]
      exact ⟨rfl, rfl⟩
  | j + 1 => by
      obtain ⟨hstate, -⟩ := advance_of_empty h hrows s j
      have hdry : (c.advance s (j + 1)).1.exhausted = true := by rw [hstate]
      rw [advance, answer, next_of_exhausted hdry]
      exact ⟨hstate, rfl⟩

/-- A row that lacks a bound column is refused in every call, and stays at the front. -/
theorem advance_of_narrow {c : Cursor} (h : c.exhausted = false) {raw : RawRow} {rest : List RawRow}
    (hrows : c.source.rows = raw :: rest) {m : Nat} (hm : c.source.largestColumn? = some m)
    (hraw : raw.length ≤ m) (s : Store) : ∀ j,
      (c.advance s (j + 1)).1 = { c with row := c.row.dropped }
      ∧ c.answer s j = .error ⟨m, raw.length⟩
  | 0 => by
      rw [advance, answer, advance, next_of_narrow h hrows hm hraw]
      exact ⟨rfl, rfl⟩
  | j + 1 => by
      obtain ⟨hstate, -⟩ := advance_of_narrow h hrows hm hraw s j
      have hrefused := next_of_narrow (c := (c.advance s (j + 1)).1) (by rw [hstate]; exact h)
        (by rw [hstate]; exact hrows) (by rw [hstate]; exact hm) hraw (c.advance s (j + 1)).2
      rw [advance, answer, hrefused, hstate]
      simp

/-! ## 3. The rows that are wide enough -/

/-- The number of rows in front of the first one that lacks column `m`. -/
def reach (m : Nat) (rows : List RawRow) : Nat :=
  (rows.takeWhile fun raw => m < raw.length).length

theorem reach_le (m : Nat) (rows : List RawRow) : reach m rows ≤ rows.length :=
  (List.takeWhile_prefix _).length_le

theorem lt_length_of_lt_reach {m : Nat} : ∀ {rows : List RawRow} {j : Nat} {raw : RawRow},
    j < reach m rows → rows[j]? = some raw → m < raw.length
  | first :: rows, j, raw, hj, h => by
      by_cases hfirst : m < first.length
      · cases j with
        | zero =>
            obtain rfl : first = raw := by simpa using h
            exact hfirst
        | succ j =>
            have hj' : j < reach m rows := by simpa [reach, hfirst] using hj
            exact lt_length_of_lt_reach hj' (by simpa using h)
      · simp [reach, hfirst] at hj

theorem length_le_of_reach {m : Nat} : ∀ {rows : List RawRow} {raw : RawRow},
    rows[reach m rows]? = some raw → raw.length ≤ m
  | first :: rows, raw, h => by
      by_cases hfirst : m < first.length
      · have hrest : rows[reach m rows]? = some raw := by simpa [reach, hfirst] using h
        exact length_le_of_reach hrest
      · obtain rfl : first = raw := by simpa [reach, hfirst] using h
        omega

/-! ## 4. The whole walk -/

section Walk

variable {c : Cursor} {m : Nat}

theorem covers_of_lt_reach (hm : c.source.largestColumn? = some m) {j : Nat} {raw : RawRow}
    (hj : j < reach m c.source.rows) (hraw : c.source.rows[j]? = some raw) : c.source.Covers raw :=
  (RowBuffer.covers_iff hm raw).2 (lt_length_of_lt_reach hj hraw)

/-- Up to the first row that is too narrow, each call takes one row. -/
theorem advance_of_le_reach (h : c.exhausted = false) (hm : c.source.largestColumn? = some m)
    (s : Store) {j : Nat} (hj : j ≤ reach m c.source.rows) : (c.advance s j).1 = c.taken j :=
  advance_of_covers h s j (Nat.le_trans hj (reach_le m _))
    fun _ _ hi hraw => covers_of_lt_reach hm (Nat.lt_of_lt_of_le hi hj) hraw

/-- The call that takes a row answers so, and delivers it. -/
theorem answer_of_lt_reach (h : c.exhausted = false) (hm : c.source.largestColumn? = some m)
    (s : Store) {j : Nat} {raw : RawRow} (hj : j < reach m c.source.rows)
    (hraw : c.source.rows[j]? = some raw) :
    c.answer s j = .ok true
    ∧ (c.advance s (j + 1)).2 = RowBuffer.deliver c.source.bindings raw (c.advance s j).2 := by
  have hcovers := covers_of_lt_reach hm hj hraw
  rw [answer, advance, advance_of_le_reach h hm s (Nat.le_of_lt hj), next_taken hraw hcovers]
  exact ⟨rfl, rfl⟩

/-- If no row is too narrow, the calls behind the last row find the cursor dry. -/
theorem advance_of_dry (h : c.exhausted = false) (hm : c.source.largestColumn? = some m) (s : Store)
    (hend : reach m c.source.rows = c.source.rows.length) (j : Nat) :
    (c.advance s (reach m c.source.rows + (j + 1))).1 =
      { c.taken (reach m c.source.rows) with row := c.row.dropped, exhausted := true }
    ∧ c.answer s (reach m c.source.rows + j) = .ok false := by
  have hrows : (c.taken (reach m c.source.rows)).source.rows = [] := by
    rw [hend]
    exact List.drop_length
  rw [advance_add, answer_add, advance_of_le_reach h hm s (Nat.le_refl _), ← dropped_row_taken]
  exact advance_of_empty rfl hrows _ j

/-- If a row is too narrow, it refuses every call from its own on. -/
theorem advance_of_refused (h : c.exhausted = false) (hm : c.source.largestColumn? = some m)
    (s : Store) {raw : RawRow} (hraw : c.source.rows[reach m c.source.rows]? = some raw) (j : Nat) :
    (c.advance s (reach m c.source.rows + (j + 1))).1 =
      { c.taken (reach m c.source.rows) with row := c.row.dropped }
    ∧ c.answer s (reach m c.source.rows + j) = .error ⟨m, raw.length⟩ := by
  rw [advance_add, answer_add, advance_of_le_reach h hm s (Nat.le_refl _), ← dropped_row_taken]
  exact advance_of_narrow rfl (rows_taken hraw) hm (length_le_of_reach hraw) _ j

/-- After any number of calls the counters and the queue tell how many rows were taken. -/
theorem counts_advance (h : c.exhausted = false) (hm : c.source.largestColumn? = some m) (s : Store)
    (j : Nat) :
    (c.advance s j).1.rowsFetched = (c.taken (min j (reach m c.source.rows))).rowsFetched
    ∧ (c.advance s j).1.source = (c.taken (min j (reach m c.source.rows))).source := by
  rcases Nat.lt_or_ge (reach m c.source.rows) j with hj | hj
  · obtain ⟨i, rfl⟩ := Nat.exists_eq_add_of_lt hj
    rw [Nat.min_eq_right (Nat.le_of_lt hj), Nat.add_assoc]
    cases hraw : c.source.rows[reach m c.source.rows]? with
    | none =>
        have hend := Nat.le_antisymm (reach_le m _) (List.getElem?_eq_none_iff.1 hraw)
        rw [(advance_of_dry h hm s hend i).1]
        exact ⟨rfl, rfl⟩
    | some raw =>
        rw [(advance_of_refused h hm s hraw i).1]
        exact ⟨rfl, rfl⟩
  · rw [advance_of_le_reach h hm s hj, Nat.min_eq_left hj]
    exact ⟨rfl, rfl⟩

/-- If a row is too narrow, the cursor never runs dry. -/
theorem exhausted_advance (h : c.exhausted = false) (hm : c.source.largestColumn? = some m) (s : Store)
    (hlt : reach m c.source.rows < c.source.rows.length) (j : Nat) :
    (c.advance s j).1.exhausted = false := by
  rcases Nat.lt_or_ge (reach m c.source.rows) j with hj | hj
  · obtain ⟨i, rfl⟩ := Nat.exists_eq_add_of_lt hj
    have hrefused := (advance_of_refused h hm s (List.getElem?_eq_getElem hlt) i).1
    rw [Nat.add_assoc, hrefused]
    rfl
  · rw [advance_of_le_reach h hm s hj]
    rfl

end Walk

/-- A row with a leaf has a bound column in every cursor. -/
theorem largestColumn?_new {row : Row} (h : row.leaves ≠ []) (b : RowBuffer) (s : Store) :
    ∃ m, (Cursor.new row b s).1.source.largestColumn? = some m := by
  obtain ⟨f, fs, hfs⟩ := List.exists_cons_of_ne_nil h
  have hslot : row.slots[0]? = some f.slot := by simp [Row.slots, hfs]
  obtain ⟨m, hm, -⟩ := RowBuffer.exists_largestColumn? (row.mem_bindings_new b s hslot)
  exact ⟨m, hm⟩

/-- **Walking a cursor is walking a list.** Let a row be bound to a buffer, whatever was bound to it
before; every field has storage of its own, so the slots of the row differ. A row with a leaf has a
largest bound column `m`. Let `k` be the number of queued rows in front of the first one that lacks
column `m`. The first `k` calls of `next` are answered by the first `k` rows in order: the row is valid
and reads the queued one. If these are all rows, every later call answers that there is none, the
cursor has run dry and the row is dropped. If not, every later call is refused by the next row, the row
is dropped, and the cursor never runs dry. After any number of calls the counters and the queue say
that so many rows were taken, at most `k`. -/
theorem next_iterates_rows (row : Row) (b : RowBuffer) (s : Store) (hslots : row.slots.Nodup) :
    let c := (Cursor.new row b s).1
    let t := (Cursor.new row b s).2
    (row.leaves ≠ [] → ∃ m, c.source.largestColumn? = some m)
    ∧ ∀ m, c.source.largestColumn? = some m →
      let k := reach m b.rows
      (∀ j raw, j < k → b.rows[j]? = some raw →
        c.answer t j = .ok true
        ∧ (c.advance t (j + 1)).1.row = row.validate
        ∧ row.validate.Reads (c.advance t (j + 1)).2 raw)
      ∧ (k = b.rows.length → ∀ j, k ≤ j →
        c.answer t j = .ok false
        ∧ (c.advance t (j + 1)).1.exhausted = true
        ∧ (c.advance t (j + 1)).1.row = row.dropped)
      ∧ (∀ raw, b.rows[k]? = some raw → ∀ j, k ≤ j →
        c.answer t j = .error ⟨m, raw.length⟩
        ∧ (c.advance t (j + 1)).1.row = row.dropped)
      ∧ (k < b.rows.length → ∀ j, (c.advance t j).1.exhausted = false)
      ∧ ∀ j, (c.advance t j).1.rowsFetched = min j k
        ∧ (c.advance t j).1.source =
            { c.source with rows := b.rows.drop (min j k), fetched := b.fetched + min j k } := by
  intro c t
  refine ⟨fun h => largestColumn?_new h b s, fun m hm => ?_⟩
  have hc : c.exhausted = false := rfl
  have hrows : c.source.rows = b.rows := by simp [c, Cursor.new_eq]
  have hfetched : c.source.fetched = b.fetched := by simp [c, Cursor.new_eq]
  have hvalidate : c.row.validate = row.validate := row.validate_dropped
  have hdropped : c.row.dropped = row.dropped := row.dropped_dropped
  rw [← hrows, ← hfetched]
  intro k
  refine ⟨?_, ?_, ?_, ?_, ?_⟩
  · intro j raw hj hraw
    obtain ⟨hanswer, hstore⟩ := answer_of_lt_reach hc hm t hj hraw
    have hstate := advance_of_le_reach hc hm t hj
    refine ⟨hanswer, ?_, ?_⟩
    · rw [hstate]
      exact hvalidate
    · rw [hstore]
      exact Row.reads_deliver hslots b s _ (covers_of_lt_reach hm hj hraw)
  · intro hend j hj
    obtain ⟨i, rfl⟩ := Nat.exists_eq_add_of_le hj
    obtain ⟨hstate, hanswer⟩ := advance_of_dry hc hm t hend i
    rw [Nat.add_assoc, hstate]
    exact ⟨hanswer, rfl, hdropped⟩
  · intro raw hraw j hj
    obtain ⟨i, rfl⟩ := Nat.exists_eq_add_of_le hj
    obtain ⟨hstate, hanswer⟩ := advance_of_refused hc hm t hraw i
    rw [Nat.add_assoc, hstate]
    exact ⟨hanswer, hdropped⟩
  · exact exhausted_advance hc hm t
  · intro j
    obtain ⟨hcount, hsource⟩ := counts_advance hc hm t j
    refine ⟨?_, hsource⟩
    rw [hcount]
    exact Nat.zero_add _

/-- A nested row, and a buffer in which the storage of the row's first leaf is bound to column 2
already: two rows are taken, and the third one is refused for lack of that column. -/
theorem next_iterates_rows_aliased :
    let row : Row := .tuple [.field { slot := ⟨.boolean, 0⟩ }, .tuple [.field { slot := ⟨.integral, 1⟩ }]]
    let b : RowBuffer :=
      { rows := [[some [116], some [55], none], [none, some [56], some [116]], [some [116], none]]
        bindings := [(2, ⟨.boolean, 0⟩)] }
    let c := (Cursor.new row b {}).1
    let t := (Cursor.new row b {}).2
    row.slots.Nodup ∧ c.source.largestColumn? = some 2
    ∧ c.answer t 1 = .ok true
    ∧ row.validate.Reads (c.advance t 2).2 [none, some [56], some [116]]
    ∧ (∀ j, 2 ≤ j → c.answer t j = .error ⟨2, 2⟩)
    ∧ ∀ j, (c.advance t j).1.rowsFetched = min j 2 := by
  intro row b c t
  have hslots : row.slots.Nodup := by decide
  have hlargest : c.source.largestColumn? = some 2 := rfl
  obtain ⟨htaken, -, hrefused, -, hcount⟩ := (next_iterates_rows row b {} hslots).2 2 hlargest
  obtain ⟨hanswer, -, hreads⟩ := htaken 1 [none, some [56], some [116]] (by decide) rfl
  exact ⟨hslots, hlargest, hanswer, hreads, fun j hj => (hrefused [some [116], none] rfl j hj).1,
    fun j => (hcount j).1⟩

end Cursor

end QueryTerms
