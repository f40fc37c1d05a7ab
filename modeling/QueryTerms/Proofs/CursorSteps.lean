/-
QueryTerms.Proofs.CursorSteps — what one call on a cursor does.

A cursor never changes the shape of its row, nor which slots its leaves have: all that a call changes
in the row is the validity of all leaves at once. So the row of a cursor is always the row it was made
of, validated (`Row.validate`) or dropped (`Row.dropped`), and the composition lemmas of §1 compute
which. `Cursor.next_cases` is the inversion of `next`: four ways, each with its answer and everything
it leaves behind. §2 says what the buffer's bindings are once a row is bound to it: the leaves have
the columns from the first one on, in order and behind all bindings that were there before.
-/
import QueryTerms.Cursor
import QueryTerms.Proofs.Delivery

namespace QueryTerms

/-! ## 1. Validating and dropping a row -/

namespace Row

/-- The row with every leaf invalid. -/
def dropped (row : Row) : Row :=
  row.mapLeaves fun f => { f with isValid := false }

/-- Invalidating drops every field of the row and clears its storage, leaf by leaf. -/
theorem invalidate_eq (row : Row) (s : Store) : row.invalidate s = (row.dropped, s.clear row.slots) :=
  rfl

mutual

theorem mapLeaves_mapLeaves (g h : Field → Field) :
    ∀ row : Row, (row.mapLeaves g).mapLeaves h = row.mapLeaves (h ∘ g)
  | .field f => by simp [mapLeaves]
  | .tuple members => by simp [mapLeaves, mapLeavesOfAll_mapLeavesOfAll g h members]

theorem mapLeavesOfAll_mapLeavesOfAll (g h : Field → Field) :
    ∀ rows : List Row, mapLeavesOfAll h (mapLeavesOfAll g rows) = mapLeavesOfAll (h ∘ g) rows
  | [] => by simp [mapLeavesOfAll]
  | row :: rows => by
      simp [mapLeavesOfAll, mapLeaves_mapLeaves g h row, mapLeavesOfAll_mapLeavesOfAll g h rows]

end

@[simp] theorem validate_dropped (row : Row) : row.dropped.validate = row.validate :=
  mapLeaves_mapLeaves _ _ row

@[simp] theorem validate_validate (row : Row) : row.validate.validate = row.validate :=
  mapLeaves_mapLeaves _ _ row

@[simp] theorem dropped_validate (row : Row) : row.validate.dropped = row.dropped :=
  mapLeaves_mapLeaves _ _ row

@[simp] theorem dropped_dropped (row : Row) : row.dropped.dropped = row.dropped :=
  mapLeaves_mapLeaves _ _ row

@[simp] theorem slots_validate (row : Row) : row.validate.slots = row.slots := by
  simp [validate, slots, Field.validate, Function.comp_def]

@[simp] theorem slots_dropped (row : Row) : row.dropped.slots = row.slots := by
  simp [dropped, slots, Function.comp_def]

theorem isValid_of_mem_validate {row : Row} {f : Field} (h : f ∈ row.validate.leaves) :
    f.isValid = true := by
  rw [validate, leaves_mapLeaves] at h
  obtain ⟨g, -, rfl⟩ := List.mem_map.1 h
  rfl

theorem isValid_of_mem_dropped {row : Row} {f : Field} (h : f ∈ row.dropped.leaves) :
    f.isValid = false := by
  rw [dropped, leaves_mapLeaves] at h
  obtain ⟨g, -, rfl⟩ := List.mem_map.1 h
  rfl

/-! ## 2. Binding a row to a buffer -/

/-- Binding slots to consecutive columns drops what was bound there and adds their bindings behind
all others. -/
theorem foldl_bind : ∀ (slots : List Slot) (b : RowBuffer) (first : Nat),
    (slots.zipIdx first).foldl (fun b p => b.bind p.2 p.1) b =
      { b with
        bindings := b.bindings.filter (fun p => p.1 < first ∨ first + slots.length ≤ p.1)
          ++ (slots.zipIdx first).map Prod.swap }
  | [], b, first => by
      have hall : b.bindings.filter (fun p => p.1 < first ∨ first ≤ p.1) = b.bindings :=
        List.filter_eq_self.2 fun p _ => by simpa using Nat.lt_or_ge p.1 first
      simp only [List.zipIdx_nil, List.foldl_nil, List.length_nil, Nat.add_zero, hall, List.map_nil,
        List.append_nil]
  | a :: slots, b, first => by
      have hkeep : ∀ p : Nat × Slot,
          (decide (p.1 < first + 1 ∨ first + 1 + slots.length ≤ p.1) && decide (p.1 ≠ first))
            = decide (p.1 < first ∨ first + (slots.length + 1) ≤ p.1) := by
        intro p
        rw [← Bool.decide_and]
        congr 1
        apply propext
        omega
      rw [List.zipIdx_cons, List.foldl_cons, foldl_bind slots]
      simp only [RowBuffer.bind, List.filter_append, List.filter_filter, hkeep, List.length_cons,
        List.map_cons, Prod.swap_prod_mk]
      simp

/-- The bindings of a buffer that a row was bound to. -/
theorem bindInto_bind (row : Row) (b : RowBuffer) (first : Nat) :
    (row.bindInto RowBuffer.bind b first).1 =
      { b with
        bindings := b.bindings.filter (fun p => p.1 < first ∨ first + row.slots.length ≤ p.1)
          ++ (row.slots.zipIdx first).map Prod.swap } := by
  rw [bindInto_eq_foldl]
  exact foldl_bind row.slots b first

end Row

/-- The last binding among numbered slots that differ is the only one. -/
theorem RowBuffer.lastColumn?_zipIdx : ∀ {slots : List Slot} (first : Nat) {i : Nat} {a : Slot},
    slots.Nodup → slots[i]? = some a →
      lastColumn? ((slots.zipIdx first).map Prod.swap) a = some (first + i)
  | b :: slots, first, 0, a, hnodup, h => by
      obtain rfl : b = a := by simpa using h
      have hother : b ∉ ((slots.zipIdx (first + 1)).map Prod.swap).map Prod.snd := by
        have hfst : Prod.snd ∘ Prod.swap = (Prod.fst : Slot × Nat → Slot) := rfl
        simpa [hfst] using (List.nodup_cons.1 hnodup).1
      simp [List.zipIdx_cons, lastColumn?, lastColumn?_eq_none hother]
  | b :: slots, first, i + 1, a, hnodup, h => by
      have hrest := lastColumn?_zipIdx (first + 1) (List.nodup_cons.1 hnodup).2
        (by simpa using h : slots[i]? = some a)
      simp [List.zipIdx_cons, lastColumn?, hrest]
      omega

/-! ## 3. Calls on a cursor -/

namespace Cursor

theorem new_eq (row : Row) (b : RowBuffer) (s : Store) :
    Cursor.new row b s =
      ({ row := row.dropped
         source := { b with
           bindings := b.bindings.filter (fun p => row.slots.length ≤ p.1)
             ++ row.slots.zipIdx.map Prod.swap } },
        s.clear row.slots) := by
  simp [Cursor.new, Row.invalidate_eq, Row.bindInto_bind]

theorem reset_eq (c : Cursor) (s : Store) :
    c.reset s = ({ c with row := c.row.dropped }, s.clear c.row.slots) :=
  rfl

/-- A cursor that has run dry stays as it is. -/
theorem next_of_exhausted {c : Cursor} (h : c.exhausted = true) (s : Store) :
    c.next s = (.ok false, c, s) := by
  simp [next, h]

/-- A row with all the bound columns is taken and delivered, and makes the fields valid. -/
theorem next_of_covers {c : Cursor} {row : RawRow} {rest : List RawRow} (h : c.exhausted = false)
    (hrows : c.source.rows = row :: rest) (hrow : c.source.Covers row) (s : Store) :
    c.next s =
      (.ok true,
        { row := c.row.validate
          source := { c.source with rows := rest, fetched := c.source.fetched + 1 }
          exhausted := false
          rowsFetched := c.rowsFetched + 1 },
        RowBuffer.deliver c.source.bindings row s) := by
  simp [next, h, RowBuffer.fetch_of_covers hrows hrow]

/-- With no row left, the cursor runs dry and its row is dropped. -/
theorem next_of_empty {c : Cursor} (h : c.exhausted = false) (hrows : c.source.rows = [])
    (s : Store) :
    c.next s =
      (.ok false, { c with row := c.row.dropped, exhausted := true }, s.clear c.row.slots) := by
  simp [next, h, RowBuffer.fetch_of_empty hrows, Row.invalidate_eq]

/-- A row without a bound column stays in front, and the row of the cursor is dropped. -/
theorem next_of_narrow {c : Cursor} {row : RawRow} {rest : List RawRow} {m : Nat}
    (h : c.exhausted = false) (hrows : c.source.rows = row :: rest)
    (hm : c.source.largestColumn? = some m) (hrow : row.length ≤ m) (s : Store) :
    c.next s =
      (.error ⟨m, row.length⟩, { c with row := c.row.dropped }, s.clear c.row.slots) := by
  simp [next, h, RowBuffer.fetch_of_narrow hrows hm hrow, Row.invalidate_eq]

/-- The ways of a call of `next`: the cursor had run dry before, a row is taken, no row is left, or
the front row is refused. -/
theorem next_cases (c : Cursor) (s : Store) :
    (c.exhausted = true ∧ c.next s = (.ok false, c, s))
    ∨ (∃ row rest, c.exhausted = false ∧ c.source.rows = row :: rest ∧ c.source.Covers row
        ∧ c.next s =
          (.ok true,
            { row := c.row.validate
              source := { c.source with rows := rest, fetched := c.source.fetched + 1 }
              exhausted := false
              rowsFetched := c.rowsFetched + 1 },
            RowBuffer.deliver c.source.bindings row s))
    ∨ (c.exhausted = false ∧ c.source.rows = []
        ∧ c.next s =
          (.ok false, { c with row := c.row.dropped, exhausted := true }, s.clear c.row.slots))
    ∨ (∃ row rest m, c.exhausted = false ∧ c.source.rows = row :: rest
        ∧ c.source.largestColumn? = some m ∧ row.length ≤ m
        ∧ c.next s =
          (.error ⟨m, row.length⟩, { c with row := c.row.dropped }, s.clear c.row.slots)) := by
  rcases Bool.eq_false_or_eq_true c.exhausted with h | h
  · exact Or.inl ⟨h, next_of_exhausted h s⟩
  · rcases c.source.fetch_cases s with ⟨hrows, -⟩ | ⟨row, rest, hrows, hrow, -⟩
      | ⟨row, rest, m, hrows, hm, hrow, -⟩
    · exact Or.inr (Or.inr (Or.inl ⟨h, hrows, next_of_empty h hrows s⟩))
    · exact Or.inr (Or.inl ⟨row, rest, h, hrows, hrow, next_of_covers h hrows hrow s⟩)
    · exact Or.inr (Or.inr (Or.inr
        ⟨row, rest, m, h, hrows, hm, hrow, next_of_narrow h hrows hm hrow s⟩))

end Cursor

end QueryTerms
