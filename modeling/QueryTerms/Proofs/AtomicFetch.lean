/-
QueryTerms.Proofs.AtomicFetch — a fetch that fails has changed nothing, and one that succeeds stayed in
range.

A fetch decides whether to refuse its row before the first write. That this is the right decision is seen
by delivering once more with every access to a column checked (`deliver?`): the checked delivery gets
through exactly if the row has every bound column (`deliver?_eq`), by recursion on the bindings, and that
is when the fetch does not refuse the row. So a delivery never has to stop half-way, and a row that could
have been delivered is never refused. The column that a refusal names is the greatest of all that were
ever bound, since a column that was bound once stays bound.
-/
import Mathlib.Order.Bounds.Defs
import QueryTerms.Proofs.NarrowRows
import QueryTerms.Proofs.UnboundColumns

namespace QueryTerms.RowBuffer

/-! ## 1. Checked deliveries -/

/-- A delivery in which every access to a column is checked: it stops at the first column that the row
lacks, with some slots written already. -/
def deliver? : List (Nat × Slot) → RawRow → Store → Option Store
  | [], _, s => some s
  | (i, a) :: rest, row, s =>
    match row[i]? with
    | some column => deliver? rest row (s.decodeInto a column)
    | none => none

/-- A checked delivery gets through if the row has every bound column, and only then; what it writes is
what the delivery writes. -/
theorem deliver?_eq {bindings : List (Nat × Slot)} {row : RawRow} (s : Store) :
    deliver? bindings row s =
      if ∀ i ∈ bindings.map Prod.fst, i < row.length then some (deliver bindings row s) else none := by
  induction bindings generalizing s with
  | nil => simp [deliver?, deliver]
  | cons p rest ih =>
      obtain ⟨i, a⟩ := p
      by_cases hi : i < row.length
      · have hcolumn : row[i]? = some (columnAt row i) := by simp [columnAt, hi]
        have hrest : (∀ j ∈ ((i, a) :: rest).map Prod.fst, j < row.length)
            ↔ ∀ j ∈ rest.map Prod.fst, j < row.length := by simp [hi]
        rw [deliver?, hcolumn, if_congr hrest rfl rfl]
        exact ih (s.decodeInto a (columnAt row i))
      · have hcolumn : row[i]? = none := List.getElem?_eq_none (Nat.le_of_not_lt hi)
        have hstops : ¬ ∀ j ∈ ((i, a) :: rest).map Prod.fst, j < row.length :=
          fun hall => hi (hall i (by simp))
        rw [deliver?, hcolumn, if_neg hstops]

theorem deliver?_of_covers {b : RowBuffer} {row : RawRow} (h : b.Covers row) (s : Store) :
    deliver? b.bindings row s = some (deliver b.bindings row s) := by
  rw [deliver?_eq, if_pos (covers_iff_forall.1 h)]

/-! ## 2. What a refusal names -/

/-- The largest bound column is the greatest of the bound columns. -/
theorem largestColumn?_eq_some_iff_isGreatest {b : RowBuffer} {m : Nat} :
    b.largestColumn? = some m ↔ IsGreatest {i | i ∈ b.bindings.map Prod.fst} m :=
  largestColumn?_eq_some

/-- The bound columns are those that were ever bound. -/
theorem Reached.mem_fst_bindings {x : RowBuffer × Store} {h : History} (hx : Reached x h) {i : Nat} :
    i ∈ x.1.bindings.map Prod.fst ↔ i ∈ h.map Prod.fst := by
  rw [hx.bindings_eq, mem_fst_kept_iff]

/-- A buffer refuses its front row if the row lacks any bound column, and only then. -/
theorem exists_refuses_iff {b : RowBuffer} :
    (∃ i w, b.Refuses i w) ↔
      ∃ row rest, b.rows = row :: rest ∧ ∃ i ∈ b.bindings.map Prod.fst, row.length ≤ i := by
  constructor
  · rintro ⟨m, w, ⟨row, rest, hrows, rfl⟩, hm, hnarrow⟩
    exact ⟨row, rest, hrows, m, (largestColumn?_eq_some.1 hm).1, hnarrow⟩
  · rintro ⟨row, rest, hrows, i, hi, hnarrow⟩
    obtain ⟨p, hp, rfl⟩ := List.mem_map.1 hi
    obtain ⟨m, hm, hle⟩ := exists_largestColumn? hp
    exact ⟨m, row.length, ⟨row, rest, hrows, rfl⟩, hm, Nat.le_trans hnarrow hle⟩

/-! ## 3. All or nothing -/

/-- **A fetch writes all of its row or nothing.** It fails if there is a row at the front that lacks some
bound column, and only then. The failure then names the greatest bound column, which is the greatest that
was ever bound, in whatever order, and the width of the front row; the buffer and all storage are what
they were. If it takes a row, every access to a column was in range: the delivery gets through with each
of them checked. -/
theorem fetch_atomic (b : RowBuffer) (s : Store) :
    ((∃ e, (b.fetch s).1 = .error e) ↔
      ∃ row rest, b.rows = row :: rest ∧ ∃ i ∈ b.bindings.map Prod.fst, row.length ≤ i)
    ∧ (∀ e x, b.fetch s = (.error e, x) →
        x = (b, s)
        ∧ IsGreatest {i | i ∈ b.bindings.map Prod.fst} e.index
        ∧ (∃ row rest, b.rows = row :: rest ∧ e.width = row.length)
        ∧ ∀ h, Reached (b, s) h → IsGreatest {i | i ∈ h.map Prod.fst} e.index)
    ∧ ∀ x, b.fetch s = (.ok true, x) →
        ∃ row, b.rows = row :: x.1.rows ∧ deliver? b.bindings row s = some x.2 := by
  refine ⟨?_, ?_, ?_⟩
  · rw [← exists_refuses_iff]
    constructor
    · rintro ⟨e, he⟩
      have hfetch : b.fetch s = (.error ⟨e.index, e.width⟩, (b.fetch s).2) := Prod.ext he rfl
      exact ⟨e.index, e.width, (refuses_of_fetch hfetch).1⟩
    · rintro ⟨i, w, hrefuses⟩
      exact ⟨⟨i, w⟩, by rw [hrefuses.fetch_eq]⟩
  · intro e x hfetch
    obtain ⟨hrefuses, hsame⟩ := refuses_of_fetch hfetch
    obtain ⟨row, rest, hrows, hwidth⟩ := hrefuses.front
    have hgreatest := largestColumn?_eq_some_iff_isGreatest.1 hrefuses.largest
    refine ⟨hsame, hgreatest, ⟨row, rest, hrows, hwidth.symm⟩, fun h hx => ?_⟩
    simpa only [hx.mem_fst_bindings] using hgreatest
  · intro x hfetch
    rcases b.fetch_cases s with ⟨-, h⟩ | ⟨row, rest, hrows, hcovers, h⟩ | ⟨row, rest, m, -, -, -, h⟩
    · rw [h] at hfetch
      cases hfetch
    · rw [h] at hfetch
      cases hfetch
      exact ⟨row, hrows, deliver?_of_covers hcovers s⟩
    · rw [h] at hfetch
      cases hfetch

/-- Columns 4, 0 and 3 are bound in this order, one slot to two of them; the front row has no column, and
is refused for column 4. A row of five columns is taken with every access in range. -/
theorem fetch_atomic_aliased :
    let calls : List Call :=
      [.bind 4 ⟨.boolean, 0⟩, .bind 0 ⟨.integral, 1⟩, .bind 3 ⟨.boolean, 0⟩, .write ⟨.boolean, 0⟩ ⟨true, false⟩]
    let x := run calls (ofRows [[], [none]], {})
    let y := run calls (ofRows [[some [55], none, none, some [116], none]], {})
    x.1.fetch x.2 = (.error ⟨4, 0⟩, x)
    ∧ IsGreatest {i | i ∈ [4, 0, 3]} 4
    ∧ (∃ row rest, x.1.rows = row :: rest ∧ ∃ i ∈ x.1.bindings.map Prod.fst, row.length ≤ i)
    ∧ (y.1.fetch y.2).1 = .ok true
    ∧ ∃ row, y.1.rows = row :: (y.1.fetch y.2).2.1.rows
        ∧ deliver? y.1.bindings row y.2 = some (y.1.fetch y.2).2.2 := by
  intro calls x y
  have hx : Reached x [(4, ⟨.boolean, 0⟩), (0, ⟨.integral, 1⟩), (3, ⟨.boolean, 0⟩)] :=
    (Reached.start [[], [none]] {}).run calls
  have hrefused : x.1.fetch x.2 = (.error ⟨4, 0⟩, x) := rfl
  have htaken : y.1.fetch y.2 = (.ok true, (y.1.fetch y.2).2) := rfl
  obtain ⟨hfails, hnamed, -⟩ := fetch_atomic x.1 x.2
  obtain ⟨-, -, -, hever⟩ := hnamed ⟨4, 0⟩ x hrefused
  obtain ⟨-, -, hinRange⟩ := fetch_atomic y.1 y.2
  exact ⟨hrefused, hever _ hx, hfails.1 ⟨⟨4, 0⟩, rfl⟩, rfl, hinRange _ htaken⟩

end QueryTerms.RowBuffer
