/-
QueryTerms.Proofs.UnboundColumns — columns that nobody bound have no influence.

Two buffers are told apart by what is in their rows only where they look (`RowBuffer.SameWhereBound`):
at a bound column, and at the width of a row that lacks one. If they have the same bindings and agree
there, row by row, then the same calls have the same answers on both and write the same to the
storage, whatever else the rows contain, and however wide they are beyond the last bound column.

## How the proof goes

This is kept by every fetch (`SameWhereBound.fetch`): either both buffers are empty, or both take their
front rows, and deliver the same columns, or both refuse them for the same column and width. A call of
`next` is a fetch together with what the cursor does to its own row, so the two cursors never differ in
anything but their buffers (`Cursor.Use.SameButSource`).
-/
import Mathlib.Data.List.Forall2
import QueryTerms.Proofs.BindingHistory
import QueryTerms.Proofs.CursorReports

namespace QueryTerms

/-! ## 1. Where a buffer looks -/

namespace RowBuffer

/-- The rows have the same columns where both have a bound one, and they have the same width unless
both have all that are bound. -/
structure RowsSame (bindings : List (Nat × Slot)) (row row' : RawRow) : Prop where
  columns : ∀ i ∈ bindings.map Prod.fst, i < row.length → i < row'.length → row'[i]? = row[i]?
  width : row'.length = row.length
    ∨ ∀ i ∈ bindings.map Prod.fst, i < row.length ∧ i < row'.length

/-- The buffers have the same bindings, and their queues are of one length and the same row by row
where the bindings look. -/
structure SameWhereBound (b b' : RowBuffer) : Prop where
  bindings_eq : b'.bindings = b.bindings
  rows : List.Forall₂ (RowsSame b.bindings) b.rows b'.rows

theorem RowsSame.refl (bindings : List (Nat × Slot)) (row : RawRow) : RowsSame bindings row row :=
  ⟨fun _ _ _ _ => rfl, Or.inl rfl⟩

/-- A row has every bound column if it has each of them. -/
theorem covers_iff_forall {b : RowBuffer} {row : RawRow} :
    b.Covers row ↔ ∀ i ∈ b.bindings.map Prod.fst, i < row.length := by
  constructor
  · intro h i hi
    obtain ⟨p, hp, rfl⟩ := List.mem_map.1 hi
    obtain ⟨m, hm, hle⟩ := exists_largestColumn? hp
    exact Nat.lt_of_le_of_lt hle (h m hm)
  · intro h m hm
    exact h m (largestColumn?_eq_some.1 hm).1

/-- Of two rows that are the same where the bindings look, both have every bound column or none has. -/
theorem RowsSame.covers {b b' : RowBuffer} {row row' : RawRow} (h : RowsSame b.bindings row row')
    (hbindings : b'.bindings = b.bindings) (hrow : b.Covers row) : b'.Covers row' := by
  rw [covers_iff_forall] at hrow
  rw [covers_iff_forall, hbindings]
  intro i hi
  rcases h.width with hwidth | hwide
  · rw [hwidth]
    exact hrow i hi
  · exact (hwide i hi).2

/-- A delivery depends on the bound columns only. -/
theorem deliver_congr {bindings : List (Nat × Slot)} {row row' : RawRow} (s : Store)
    (h : ∀ i ∈ bindings.map Prod.fst, columnAt row' i = columnAt row i) :
    deliver bindings row' s = deliver bindings row s := by
  unfold deliver
  induction bindings generalizing s with
  | nil => rfl
  | cons p rest ih =>
      have hfirst : columnAt row' p.1 = columnAt row p.1 := h p.1 (by simp)
      have hrest : ∀ i ∈ rest.map Prod.fst, columnAt row' i = columnAt row i :=
        fun i hi => h i (List.mem_cons_of_mem _ hi)
      rw [List.foldl_cons, List.foldl_cons, hfirst, ih _ hrest]

/-! ## 2. Calls -/

/-- A fetch has the same answer and leaves the same storage, and the buffers remain the same where the
bindings look. -/
theorem SameWhereBound.fetch {b b' : RowBuffer} (h : b.SameWhereBound b') (s : Store) :
    (b'.fetch s).1 = (b.fetch s).1
    ∧ (b'.fetch s).2.2 = (b.fetch s).2.2
    ∧ (b.fetch s).2.1.SameWhereBound (b'.fetch s).2.1 := by
  have hlargest : b'.largestColumn? = b.largestColumn? := by
    rw [largestColumn?, h.bindings_eq, largestColumn?]
  have hqueues := h.rows
  rcases b.fetch_cases s with ⟨hrows, hfetch⟩ | ⟨row, rest, hrows, hcovers, hfetch⟩
    | ⟨row, rest, m, hrows, hm, hle, hfetch⟩
  · rw [hrows] at hqueues
    have hrows' : b'.rows = [] := List.forall₂_nil_left_iff.1 hqueues
    rw [hfetch, fetch_of_empty hrows']
    exact ⟨rfl, rfl, h⟩
  · rw [hrows] at hqueues
    obtain ⟨row', rest', hrow, hrest, hrows'⟩ := List.forall₂_cons_left_iff.1 hqueues
    have hcovers' : b'.Covers row' := hrow.covers h.bindings_eq hcovers
    rw [hfetch, fetch_of_covers hrows' hcovers']
    refine ⟨rfl, ?_, h.bindings_eq, hrest⟩
    rw [h.bindings_eq]
    refine deliver_congr s fun i hi => ?_
    have hi' : i ∈ b'.bindings.map Prod.fst := by
      rw [h.bindings_eq]
      exact hi
    rw [columnAt, hrow.columns i hi (covers_iff_forall.1 hcovers i hi)
      (covers_iff_forall.1 hcovers' i hi'), columnAt]
  · rw [hrows] at hqueues
    obtain ⟨row', rest', hrow, hrest, hrows'⟩ := List.forall₂_cons_left_iff.1 hqueues
    have hwidth : row'.length = row.length := by
      rcases hrow.width with hwidth | hwide
      · exact hwidth
      · have := (hwide m (largestColumn?_eq_some.1 hm).1).1
        omega
    rw [hfetch, fetch_of_narrow hrows' (hlargest.trans hm) (by omega), hwidth]
    exact ⟨rfl, rfl, h⟩

/-- So does every other call that binds nothing. -/
theorem SameWhereBound.call {b b' : RowBuffer} (h : b.SameWhereBound b') (s : Store) {c : Call}
    (hc : c.binds = []) :
    c.answer? (b', s) = c.answer? (b, s)
    ∧ (c.perform (b', s)).2 = (c.perform (b, s)).2
    ∧ (c.perform (b, s)).1.SameWhereBound (c.perform (b', s)).1 := by
  cases c with
  | bind index slot => simp [Call.binds] at hc
  | push row =>
      refine ⟨rfl, rfl, h.bindings_eq, ?_⟩
      exact List.rel_append h.rows (.cons (RowsSame.refl b.bindings row) .nil)
  | fetch =>
      obtain ⟨hanswer, hstore, hsame⟩ := h.fetch s
      exact ⟨congrArg some hanswer, hstore, hsame⟩
  | write slot cell => exact ⟨rfl, rfl, h⟩

theorem SameWhereBound.run {b b' : RowBuffer} (h : b.SameWhereBound b') (s : Store)
    {calls : List Call} (hcalls : ∀ c ∈ calls, c.binds = []) :
    answers calls (b', s) = answers calls (b, s)
    ∧ (RowBuffer.run calls (b', s)).2 = (RowBuffer.run calls (b, s)).2 := by
  induction calls generalizing b b' s with
  | nil => exact ⟨rfl, rfl⟩
  | cons c calls ih =>
      obtain ⟨hanswer, hstore, hsame⟩ := h.call s (hcalls c (by simp))
      obtain ⟨hanswers, hrun⟩ := ih hsame (c.perform (b, s)).2 fun d hd => hcalls d (by simp [hd])
      have hleft : c.perform (b', s) = ((c.perform (b', s)).1, (c.perform (b, s)).2) :=
        Prod.ext rfl hstore
      rw [answers, answers, hanswer, hleft, hanswers]
      refine ⟨rfl, ?_⟩
      rw [RowBuffer.run, List.foldl_cons, hleft]
      exact hrun

end RowBuffer

/-! ## 3. In cursors -/

namespace Cursor

/-- The cursors are the same but for what their buffers hold where the bindings do not look. -/
structure SameButSource (c d : Cursor) : Prop where
  source : c.source.SameWhereBound d.source
  cursor_eq : d = { c with source := d.source }

/-- A call of `next` has the same answer, and leaves the same storage and cursors that are the same but
for their buffers. -/
theorem SameButSource.next {c d : Cursor} (h : c.SameButSource d) (s : Store) :
    (d.next s).1 = (c.next s).1
    ∧ (d.next s).2.2 = (c.next s).2.2
    ∧ (c.next s).2.1.SameButSource (d.next s).2.1 := by
  obtain ⟨hsource, hcursor⟩ := h
  obtain ⟨hanswer, hstore, hsame⟩ := hsource.fetch s
  rw [hcursor]
  unfold Cursor.next
  split
  · exact ⟨rfl, rfl, hsource, rfl⟩
  · -- what the fetches leave is all that the calls depend on
    generalize c.source.fetch s = r at *
    generalize d.source.fetch s = r' at *
    obtain ⟨answer, source, t⟩ := r
    obtain ⟨answer', source', t'⟩ := r'
    obtain rfl : answer' = answer := hanswer
    obtain rfl : t' = t := hstore
    cases answer' with
    | error e => exact ⟨rfl, rfl, hsame, rfl⟩
    | ok there => cases there <;> exact ⟨rfl, rfl, hsame, rfl⟩

namespace Use

/-- Two runs that nobody can tell apart without looking into the buffers. -/
structure SameButSource (u v : Use) : Prop where
  cursor : u.cursor.SameButSource v.cursor
  store_eq : v.store = u.store
  latest_eq : v.latest = u.latest

theorem SameButSource.step {u v : Use} (h : u.SameButSource v) : ∀ e,
    (u.step e).SameButSource (v.step e)
  | .write a cell => ⟨h.cursor, congrArg (·.put a cell) h.store_eq, h.latest_eq⟩
  | .reset => by
      obtain ⟨⟨hsource, hcursor⟩, hstore, -⟩ := h
      simp only [Use.step, reset_eq]
      refine ⟨⟨hsource, ?_⟩, ?_, rfl⟩
      · rw [hcursor]
      · rw [hcursor, hstore]
  | .next => by
      obtain ⟨hanswer, hstore, hcursor⟩ := h.cursor.next u.store
      simp only [Use.step, h.store_eq]
      exact ⟨hcursor, hstore, congrArg some hanswer⟩

theorem SameButSource.run {u v : Use} (h : u.SameButSource v) (es : List Event) :
    (u.run es).SameButSource (v.run es) := by
  induction es generalizing u v with
  | nil => exact h
  | cons e es ih => exact ih (h.step e)

theorem sameButSource_start {row : Row} {b b' : RowBuffer} {s : Store}
    (h : (Cursor.new row b s).1.source.SameWhereBound (Cursor.new row b' s).1.source) :
    (start row b s).SameButSource (start row b' s) :=
  ⟨⟨h, rfl⟩, rfl, rfl⟩

end Use

end Cursor

/-- **Columns that nobody bound have no influence.** Let two buffers have the same bindings, and queues
of one length that are the same row by row where the bindings look. Then any calls that bind nothing,
fetches among them, have the same answers on both and leave the same storage. And if the buffers are so
once the same row is bound to both of them, then after any calls of the two cursors, and any writes of
others, the latest answer, the views of the cursors and the storage are the same. -/
theorem RowBuffer.unbound_columns_unseen :
    (∀ {b b' : RowBuffer}, b.SameWhereBound b' → ∀ (s : Store) {calls : List Call},
      (∀ c ∈ calls, c.binds = []) →
        answers calls (b', s) = answers calls (b, s)
        ∧ (run calls (b', s)).2 = (run calls (b, s)).2)
    ∧ ∀ {row : Row} {b b' : RowBuffer} {s : Store},
      (Cursor.new row b s).1.source.SameWhereBound (Cursor.new row b' s).1.source →
        ∀ es : List Cursor.Event,
          let u := (Cursor.Use.start row b s).run es
          let v := (Cursor.Use.start row b' s).run es
          v.latest = u.latest
          ∧ v.cursor.view v.store = u.cursor.view u.store
          ∧ v.store = u.store := by
  refine ⟨fun h s _ hcalls => h.run s hcalls, ?_⟩
  intro row b b' s h es u v
  obtain ⟨⟨-, hcursor⟩, hstore, hlatest⟩ := (Cursor.Use.sameButSource_start h).run es
  refine ⟨hlatest, ?_, hstore⟩
  rw [hcursor, hstore]
  rfl

/-- Columns 0 and 2 are bound. The buffers differ in column 1 of both rows, and the first row of one of
them has a column more; the second rows are refused. -/
theorem RowBuffer.unbound_columns_unseen_wider :
    let bindings : List (Nat × Slot) := [(0, ⟨.boolean, 0⟩), (2, ⟨.integral, 1⟩)]
    let b : RowBuffer :=
      { rows := [[some [116], some [55], some [56]], [none, some [55]]], bindings }
    let b' : RowBuffer :=
      { rows := [[some [116], none, some [56], some [49]], [none, none]], bindings }
    let row : Row := .field { slot := ⟨.boolean, 2⟩ }
    let u := (Cursor.Use.start row b {}).run [.next, .next]
    let v := (Cursor.Use.start row b' {}).run [.next, .next]
    b.SameWhereBound b'
    ∧ answers [.fetch, .fetch] (b', {}) = [.ok true, .error ⟨2, 2⟩]
    ∧ (run [.fetch] (b', {})).2 = (run [.fetch] (b, {})).2
    ∧ v.latest = u.latest
    ∧ v.store = u.store := by
  intro bindings b b' row u v
  have hsame {l : List (Nat × Slot)} (hl : l.map Prod.fst = [0, 2] ∨ l.map Prod.fst = [2, 0]) :
      List.Forall₂ (RowsSame l) b.rows b'.rows := by
    have hmem : ∀ i ∈ l.map Prod.fst, i = 0 ∨ i = 2 := by
      intro i hi
      rcases hl with hl | hl
      · simpa [hl] using hi
      · simpa [hl, or_comm] using hi
    refine .cons ⟨fun i hi _ _ => ?_, Or.inr fun i hi => ?_⟩
      (.cons ⟨fun i hi _ _ => ?_, Or.inl rfl⟩ .nil)
    · rcases hmem i hi with rfl | rfl <;> rfl
    · rcases hmem i hi with rfl | rfl <;> decide
    · rcases hmem i hi with rfl | rfl <;> rfl
  have hfetches : ∀ c ∈ [Call.fetch, Call.fetch], c.binds = [] := by
    intro c hc
    simp at hc
    rw [hc]
    rfl
  have hboth : b.SameWhereBound b' := ⟨rfl, hsame (Or.inl rfl)⟩
  have hbound : (Cursor.new row b {}).1.source.SameWhereBound (Cursor.new row b' {}).1.source :=
    ⟨rfl, hsame (Or.inr rfl)⟩
  obtain ⟨hfetch, hcursor⟩ := unbound_columns_unseen
  obtain ⟨hanswers, -⟩ := hfetch hboth {} hfetches
  have hone : ∀ c ∈ [Call.fetch], c.binds = [] := fun c hc => hfetches c (.tail _ hc)
  obtain ⟨-, hstored⟩ := hfetch hboth {} hone
  obtain ⟨hlatest, -, hstore⟩ := hcursor hbound [.next, .next]
  exact ⟨hboth, hanswers, hstored, hlatest, hstore⟩

end QueryTerms
