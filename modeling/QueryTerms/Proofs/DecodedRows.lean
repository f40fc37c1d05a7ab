/-
QueryTerms.Proofs.DecodedRows — what the decoding command finds in its rows, and what it reports.

A walk to the end of a cursor sees the queued rows one by one, as long as every row has the columns
that are bound (`Cursor.visitAll_of_covers`). The rows of the decoding command have one column each and
the cursor's row has one field, so nothing that the command does can fail, and its lines are known in
advance (`decodeLines_eq`): one for each value, then one for the end. The line of a value tells the truth
value that the first byte of the text decides, and whether the text is the word for NULL (`reportLine`).

  §1  walking to the end
  §2  rows of one column
  §3  the line of a value
  §4  the lines of all values
-/
import QueryTerms.CommandLine.Run
import QueryTerms.Proofs.CursorSteps
import QueryTerms.Proofs.LetterCase

namespace QueryTerms

/-! ## 1. Walking to the end -/

namespace Cursor

variable {α : Type} {visit : Row → Store → α} {c c' : Cursor} {s s' : Store}

theorem visitAll_of_row (h : c.next s = (.ok true, c', s')) {seen : List α} {last : Cursor × Store}
    (hrest : c'.visitAll visit s' = .ok (seen, last)) :
    c.visitAll visit s = .ok (visit c'.row s' :: seen, last) := by
  rw [visitAll]
  split
  · next hnext =>
    obtain ⟨-, rfl, rfl⟩ : True ∧ c' = _ ∧ s' = _ := by simpa using h.symm.trans hnext
    rw [hrest]
  · next hnext => simp [h] at hnext
  · next hnext => simp [h] at hnext

theorem visitAll_of_end (h : c.next s = (.ok false, c', s')) :
    c.visitAll visit s = .ok ([], c', s') := by
  rw [visitAll]
  split
  · next hnext => simp [h] at hnext
  · next hnext => rw [h] at hnext; cases hnext; rfl
  · next hnext => simp [h] at hnext

/-- The ways of a walk to the end: no row is left, or one is seen and the walk goes on behind it. -/
theorem visitAll_eq_ok {seen : List α} {last : Cursor × Store}
    (h : c.visitAll visit s = .ok (seen, last)) :
    (c.next s = (.ok false, last) ∧ seen = [])
    ∨ ∃ c' s' rest, c.next s = (.ok true, c', s') ∧ seen = visit c'.row s' :: rest
        ∧ c'.visitAll visit s' = .ok (rest, last) := by
  rw [visitAll] at h
  split at h
  · next c' s' hnext =>
    split at h
    · next rest last' hrest =>
      cases h
      exact Or.inr ⟨c', s', rest, hnext, rfl, hrest⟩
    · cases h
  · next c' s' hnext =>
    cases h
    exact Or.inl ⟨hnext, rfl⟩
  · cases h

/-- A walk sees the queued rows in order, if all have every bound column, and ends with the row
dropped. What is seen of a row must not depend on what was stored before. -/
theorem visitAll_of_covers (visit : Row → Store → α) (see : RawRow → α) :
    ∀ {rows : List RawRow} {c : Cursor} (s : Store),
    c.exhausted = false → c.source.rows = rows → (∀ raw ∈ rows, c.source.Covers raw) →
    (∀ raw ∈ rows, ∀ t,
      visit c.row.validate (RowBuffer.deliver c.source.bindings raw t) = see raw) →
    ∃ last t, c.visitAll visit s = .ok (rows.map see, last, t) ∧ last.row = c.row.dropped
  | [], c, s, hdry, hrows, _, _ => ⟨_, _, visitAll_of_end (next_of_empty hdry hrows s), rfl⟩
  | raw :: rest, c, s, hdry, hrows, hcovers, hsee => by
    let c' : Cursor :=
      { row := c.row.validate
        source := { c.source with rows := rest, fetched := c.source.fetched + 1 }
        rowsFetched := c.rowsFetched + 1 }
    have hnext : c.next s = (.ok true, c', RowBuffer.deliver c.source.bindings raw s) :=
      next_of_covers hdry hrows (hcovers raw List.mem_cons_self) s
    have hsee' : ∀ other ∈ rest, ∀ t,
        visit c'.row.validate (RowBuffer.deliver c'.source.bindings other t) = see other := by
      intro other hother t
      rw [show c'.row.validate = c.row.validate from c.row.validate_validate]
      exact hsee other (List.mem_cons_of_mem raw hother) t
    obtain ⟨last, t, hrest, hlast⟩ := visitAll_of_covers visit see
      (RowBuffer.deliver c.source.bindings raw s) (rfl : c'.exhausted = false) rfl
      (fun other hother => hcovers other (List.mem_cons_of_mem raw hother)) hsee'
    refine ⟨last, t, ?_, hlast.trans c.row.dropped_validate⟩
    rw [visitAll_of_row hnext hrest, hsee raw List.mem_cons_self, List.map_cons]

end Cursor

/-! ## 2. Rows of one column -/

namespace CommandLine

/-- What a column of truth values reads. -/
def readingOf (column : RawColumn) : String × Bool :=
  let cell : Cell .boolean := .ofRaw column
  (Domain.describe cell.value, cell.isNull)

/-- What the row of a value reads, once it has been fetched. -/
def reading (value : String) : String × Bool :=
  readingOf ((columnOf value).map utf8)

/-- A row of one field that was just fetched reads its column. -/
theorem readings_deliver (i : Nat) (column : RawColumn) (s : Store) :
    readings (Row.field ⟨⟨.boolean, i⟩, false⟩).validate
        (RowBuffer.deliver [(0, ⟨.boolean, i⟩)] [column] s)
      = .ok [readingOf column] := by
  let f : Field := ⟨⟨.boolean, i⟩, true⟩
  have hget : (RowBuffer.deliver [(0, f.slot)] [column] s).get f.slot = .ofRaw column :=
    s.get_put_self f.slot (.ofRaw column)
  have hvalue : f.value? (RowBuffer.deliver [(0, f.slot)] [column] s)
      = .ok (Cell.ofRaw column).value := by
    rw [← hget]
    rfl
  have hnull : f.isNull? (RowBuffer.deliver [(0, f.slot)] [column] s)
      = .ok (Cell.ofRaw (d := .boolean) column).isNull := by
    rw [← hget]
    rfl
  show [f].mapM _ = _
  rw [List.mapM_cons, hvalue, hnull]
  rfl

/-- A row that is dropped reads nothing. -/
theorem endLines_dropped (f : Field) (s : Store) :
    endLines (Row.field f).dropped s = ["after last row: accessing value in non-existing row"] :=
  rfl

/-- The cursor that the decoding command walks, and the storage at the start. -/
def decodingCursor (values : List String) : Cursor × Store :=
  let (f, s) := Field.new {} .boolean
  Cursor.new (.field f) (RowBuffer.ofTextRows (values.map fun v => [columnOf v])) s

section DecodingCursor

variable (values : List String)

theorem row_decodingCursor :
    (decodingCursor values).1.row = .field ⟨⟨.boolean, 0⟩, false⟩ :=
  rfl

theorem rows_decodingCursor :
    (decodingCursor values).1.source.rows = values.map fun v => [(columnOf v).map utf8] :=
  List.map_map

theorem bindings_decodingCursor :
    (decodingCursor values).1.source.bindings = [(0, ⟨.boolean, 0⟩)] :=
  rfl

/-- A row of one column has the one that is bound. -/
theorem covers_decodingCursor (column : RawColumn) :
    (decodingCursor values).1.source.Covers [column] :=
  (RowBuffer.covers_iff rfl [column]).2 Nat.zero_lt_one

/-- The walk of the decoding command never fails: it reads every value, in order, and ends with the
row dropped. -/
theorem visitAll_decodingCursor :
    ∃ last t,
      (decodingCursor values).1.visitAll readings (decodingCursor values).2
        = .ok ((values.map fun v => [reading v]).map .ok, last, t)
      ∧ endLines last.row t = ["after last row: accessing value in non-existing row"] := by
  obtain ⟨last, t, hwalk, hlast⟩ := Cursor.visitAll_of_covers readings
    (fun raw => .ok [readingOf raw.head?.join]) (decodingCursor values).2 rfl
    (rows_decodingCursor values)
    (by
      intro raw hraw
      obtain ⟨v, -, rfl⟩ := List.mem_map.1 hraw
      exact covers_decodingCursor values _)
    (by
      intro raw hraw t
      obtain ⟨v, -, rfl⟩ := List.mem_map.1 hraw
      rw [row_decodingCursor, bindings_decodingCursor]
      exact readings_deliver 0 _ t)
  refine ⟨last, t, ?_, ?_⟩
  · rw [hwalk, List.map_map, List.map_map]
    rfl
  · rw [hlast, row_decodingCursor]
    exact endLines_dropped _ t

end DecodingCursor

/-! ## 3. The line of a value -/

/-- The first byte of the text is the small letter t or the digit one. -/
def StartsTrue (value : String) : Prop :=
  (utf8 value).head? = some 't'.toUInt8 ∨ (utf8 value).head? = some '1'.toUInt8

instance (value : String) : Decidable (StartsTrue value) :=
  inferInstanceAs (Decidable (_ ∨ _))

/-- The line that reports a value in the row of a number: NULL exactly for the word `null` in letters of
either case, and true exactly for what is not NULL and starts with a byte for true. -/
def reportLine (number : Nat) (value : String) : String :=
  "row " ++ Numeral.ofNat number
    ++ ": value=" ++ Domain.describe (d := .boolean)
        (decide (¬ SameLetters value "null" ∧ StartsTrue value))
    ++ " is_null=" ++ Domain.describe (d := .boolean) (decide (SameLetters value "null"))

theorem decodeBoolean_eq (value : String) :
    Domain.decodeBoolean (utf8 value) = decide (StartsTrue value) := by
  rw [Bool.eq_iff_iff, decide_eq_true_iff, StartsTrue]
  cases utf8 value with
  | nil => simp [Domain.decodeBoolean]
  | cons b rest => simp [Domain.decodeBoolean]

/-- What the row of a value reads. -/
theorem reading_eq (value : String) :
    reading value
      = (Domain.describe (d := .boolean) (decide (¬ SameLetters value "null" ∧ StartsTrue value)),
          decide (SameLetters value "null")) := by
  by_cases hnull : SameLetters value "null"
  · rw [reading, columnOf_eq_none_iff.2 hnull]
    simp only [hnull]
    rfl
  · rw [reading, columnOf_of_not_null hnull]
    simp only [hnull, not_false_eq_true, true_and, ← decodeBoolean_eq]
    rfl

/-- The row of a value is reported by the value's line. -/
theorem rowLine_reading (number : Nat) (value : String) :
    rowLine number [reading value] = reportLine number value := by
  have hpiece : ": value=" = ":" ++ " value=" := by decide
  rw [rowLine, reading_eq, reportLine, hpiece]
  simp only [List.map_cons, List.map_nil, String.append_assoc]
  rfl

/-! ## 4. The lines of all values -/

/-- The lines that report values: one for each in order, counted from one, and one for the end. -/
def reportLines (values : List String) : List String :=
  values.mapIdx (fun k value => reportLine (k + 1) value)
    ++ ["after last row: accessing value in non-existing row"]

/-- The lines of the rows that a walk over values reads. -/
theorem mapIdx_rowLine (values : List String) :
    (values.map fun v => [reading v]).mapIdx (fun i fields => rowLine (i + 1) fields)
      = values.mapIdx fun k value => reportLine (k + 1) value := by
  refine List.ext_getElem? fun i => ?_
  simp [Function.comp_def, rowLine_reading]

theorem length_reportLines (values : List String) :
    (reportLines values).length = values.length + 1 := by
  simp [reportLines]

theorem mapM_id_map_ok {ε α : Type} :
    ∀ l : List α, (l.map fun a => (Except.ok a : Except ε α)).mapM id = .ok l
  | [] => rfl
  | a :: l => by rw [List.map_cons, List.mapM_cons, mapM_id_map_ok l]; rfl

/-- The lines of a walk that reads every row. -/
theorem decodeLines_of_walk {values : List String} {rows : List (List (String × Bool))}
    {last : Cursor} {t : Store}
    (h : (decodingCursor values).1.visitAll readings (decodingCursor values).2
      = .ok (rows.map .ok, last, t)) :
    decodeLines values
      = .ok (rows.mapIdx (fun i fields => rowLine (i + 1) fields) ++ endLines last.row t) := by
  have hrun : decodeLines values
      = (((decodingCursor values).1.visitAll readings (decodingCursor values).2).mapError .row).bind
          fun x => ((x.1.mapM id).mapError .access).bind fun rows =>
            .ok (rows.mapIdx (fun i fields => rowLine (i + 1) fields) ++ endLines x.2.1.row x.2.2) :=
    rfl
  rw [hrun, h]
  show (((rows.map Except.ok).mapM id).mapError Failure.access).bind _ = _
  rw [mapM_id_map_ok]
  rfl

/-- The decoding command never fails: it reports every value in order, and then the end. -/
theorem decodeLines_eq (values : List String) : decodeLines values = .ok (reportLines values) := by
  obtain ⟨last, t, hwalk, hend⟩ := visitAll_decodingCursor values
  rw [decodeLines_of_walk hwalk, hend, mapIdx_rowLine]
  rfl

end CommandLine

end QueryTerms
