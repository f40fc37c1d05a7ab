/-
QueryTerms.Proofs.NarrowRows — a row that is too narrow blocks its buffer for good, and harms nothing.

A buffer refuses its front row if the row lacks the largest bound column (`RowBuffer.Refuses`). That can
never end. A push goes behind the front row; binding a column again replaces its slot but leaves it
bound, so the largest bound column never gets smaller (`largestColumn?_bind`); and a fetch that is
refused changes nothing at all. So the refusal is kept by every call, with the same width and with an
index that can only grow. In a cursor nobody binds or pushes, so the index stays too, and all that a call
of `next` still does is what `reset` does.
-/
import QueryTerms.Proofs.BindingHistory
import QueryTerms.Proofs.CursorValidity

namespace QueryTerms

/-! ## 1. Refusing the front row -/

namespace RowBuffer

/-- The front row has this width, and lacks the largest bound column. -/
structure Refuses (b : RowBuffer) (index width : Nat) : Prop where
  front : ∃ row rest, b.rows = row :: rest ∧ row.length = width
  largest : b.largestColumn? = some index
  narrow : width ≤ index

theorem Refuses.fetch_eq {b : RowBuffer} {i w : Nat} (h : b.Refuses i w) (s : Store) :
    b.fetch s = (.error ⟨i, w⟩, b, s) := by
  obtain ⟨row, rest, hrows, rfl⟩ := h.front
  exact fetch_of_narrow hrows h.largest h.narrow s

/-- A fetch fails only by refusing the front row, and leaves buffer and storage as they were. -/
theorem refuses_of_fetch {b : RowBuffer} {s : Store} {i w : Nat} {x : RowBuffer × Store}
    (h : b.fetch s = (.error ⟨i, w⟩, x)) : b.Refuses i w ∧ x = (b, s) := by
  rcases b.fetch_cases s with ⟨-, hfetch⟩ | ⟨row, rest, -, -, hfetch⟩
    | ⟨row, rest, m, hrows, hm, hle, hfetch⟩
  · rw [hfetch] at h
    cases h
  · rw [hfetch] at h
    cases h
  · rw [hfetch] at h
    cases h
    exact ⟨⟨⟨row, rest, hrows, rfl⟩, hm, hle⟩, rfl⟩

/-! ## 2. Calls keep it refused -/

/-- A column that is bound stays bound. -/
theorem mem_fst_bind {b : RowBuffer} {i j : Nat} {a : Slot} :
    j ∈ (b.bind i a).bindings.map Prod.fst ↔ j = i ∨ j ∈ b.bindings.map Prod.fst := by
  by_cases hij : j = i
  · simp [bind, hij]
  · simp [bind, hij]

/-- Binding never makes the largest bound column smaller. -/
theorem largestColumn?_bind {b : RowBuffer} {m : Nat} (h : b.largestColumn? = some m) (i : Nat)
    (a : Slot) : (b.bind i a).largestColumn? = some (max m i) := by
  obtain ⟨hm, hle⟩ := largestColumn?_eq_some.1 h
  refine largestColumn?_eq_some.2 ⟨?_, fun j hj => ?_⟩
  · rw [mem_fst_bind]
    rcases Nat.le_total m i with hmi | him
    · exact Or.inl (Nat.max_eq_right hmi)
    · rw [Nat.max_eq_left him]
      exact Or.inr hm
  · rcases mem_fst_bind.1 hj with rfl | hj
    · exact Nat.le_max_right m j
    · exact Nat.le_trans (hle j hj) (Nat.le_max_left m i)

theorem Refuses.bind {b : RowBuffer} {m w : Nat} (h : b.Refuses m w) (i : Nat) (a : Slot) :
    (b.bind i a).Refuses (max m i) w :=
  ⟨h.front, largestColumn?_bind h.largest i a, Nat.le_trans h.narrow (Nat.le_max_left m i)⟩

theorem Refuses.push {b : RowBuffer} {m w : Nat} (h : b.Refuses m w) (row : RawRow) :
    (b.push row).Refuses m w := by
  obtain ⟨front, rest, hrows, hwidth⟩ := h.front
  exact ⟨⟨front, rest ++ [row], by simp [RowBuffer.push, hrows], hwidth⟩, h.largest, h.narrow⟩

/-- Later a buffer refuses a row of the same width, for a column that is no smaller; no row has been
fetched meanwhile, and none is gone. -/
structure Later (b b' : RowBuffer) (m w : Nat) : Prop where
  refuses : ∃ n, m ≤ n ∧ b'.Refuses n w
  fetched_eq : b'.fetched = b.fetched
  remaining_le : b.remaining ≤ b'.remaining

theorem Refuses.call {b : RowBuffer} {m w : Nat} (h : b.Refuses m w) (s : Store) (c : Call) :
    b.Later (c.perform (b, s)).1 m w := by
  cases c with
  | bind i a => exact ⟨⟨max m i, Nat.le_max_left m i, h.bind i a⟩, rfl, Nat.le_refl _⟩
  | push row =>
      have hlonger : b.remaining ≤ (b.push row).remaining := by simp [remaining, RowBuffer.push]
      exact ⟨⟨m, Nat.le_refl m, h.push row⟩, rfl, hlonger⟩
  | fetch =>
      have hsame : (Call.fetch.perform (b, s)).1 = b := by
        show (b.fetch s).2.1 = b
        rw [h.fetch_eq]
      rw [hsame]
      exact ⟨⟨m, Nat.le_refl m, h⟩, rfl, Nat.le_refl _⟩
  | write a c => exact ⟨⟨m, Nat.le_refl m, h⟩, rfl, Nat.le_refl _⟩

theorem Refuses.run {x : RowBuffer × Store} {m w : Nat} (h : x.1.Refuses m w) (calls : List Call) :
    x.1.Later (run calls x).1 m w := by
  induction calls generalizing x m with
  | nil => exact ⟨⟨m, Nat.le_refl m, h⟩, rfl, Nat.le_refl _⟩
  | cons c rest ih =>
      obtain ⟨⟨n, hmn, hrefuses⟩, hfetched, hremaining⟩ := h.call x.2 c
      obtain ⟨⟨k, hnk, hlast⟩, hfetched', hremaining'⟩ := ih hrefuses
      exact ⟨⟨k, Nat.le_trans hmn hnk, hlast⟩, hfetched'.trans hfetched,
        Nat.le_trans hremaining hremaining'⟩

/-- Binding a row keeps the refusal too. -/
theorem Refuses.bindInto {b : RowBuffer} {m w : Nat} (h : b.Refuses m w) (row : Row) (first : Nat) :
    ∃ n, m ≤ n ∧ (row.bindInto RowBuffer.bind b first).1.Refuses n w := by
  rw [Row.bindInto_eq_foldl]
  induction row.slots.zipIdx first generalizing b m with
  | nil => exact ⟨m, Nat.le_refl m, h⟩
  | cons p rest ih =>
      obtain ⟨n, hmn, hlast⟩ := ih (h.bind p.2 p.1)
      exact ⟨n, Nat.le_trans (Nat.le_max_left m p.2) hmn, hlast⟩

end RowBuffer

/-! ## 3. Inside a cursor -/

namespace Cursor

/-- A refused call of `next` does what a reset does. -/
theorem next_of_refuses {c : Cursor} {i w : Nat} (hdry : c.exhausted = false)
    (h : c.source.Refuses i w) (s : Store) : c.next s = (.error ⟨i, w⟩, c.reset s) := by
  obtain ⟨row, rest, hrows, rfl⟩ := h.front
  rw [next_of_narrow hdry hrows h.largest h.narrow, reset_eq]

/-- A call of `next` fails only by refusing the front row. -/
theorem refuses_of_next {c : Cursor} {s : Store} {i w : Nat} {x : Cursor × Store}
    (h : c.next s = (.error ⟨i, w⟩, x)) : c.exhausted = false ∧ c.source.Refuses i w := by
  rcases c.next_cases s with ⟨-, hnext⟩ | ⟨row, rest, -, -, -, hnext⟩ | ⟨-, -, hnext⟩
    | ⟨row, rest, m, hdry, hrows, hm, hle, hnext⟩
  · rw [hnext] at h
    cases h
  · rw [hnext] at h
    cases h
  · rw [hnext] at h
    cases h
  · rw [hnext] at h
    cases h
    exact ⟨hdry, ⟨row, rest, hrows, rfl⟩, hm, hle⟩

namespace Use

/-- The cursor has not run dry, and its buffer refuses the front row. -/
structure Blocked (u : Use) (i w : Nat) : Prop where
  exhausted_eq : u.cursor.exhausted = false
  refuses : u.cursor.source.Refuses i w

/-- The cursor has not moved; at most the validity of its row has changed. -/
structure Unmoved (u v : Use) : Prop where
  source_eq : v.cursor.source = u.cursor.source
  rowsFetched_eq : v.cursor.rowsFetched = u.cursor.rowsFetched
  slots_eq : v.cursor.row.slots = u.cursor.row.slots

theorem Blocked.step {u : Use} {i w : Nat} (h : u.Blocked i w) : ∀ e,
    (u.step e).Blocked i w ∧ u.Unmoved (u.step e)
  | .write a cell => ⟨⟨h.exhausted_eq, h.refuses⟩, rfl, rfl, rfl⟩
  | .reset => ⟨⟨h.exhausted_eq, h.refuses⟩, rfl, rfl, u.cursor.row.slots_dropped⟩
  | .next => by
      have hnext := next_of_refuses h.exhausted_eq h.refuses u.store
      rw [Use.step, hnext, reset_eq]
      exact ⟨⟨h.exhausted_eq, h.refuses⟩, rfl, rfl, u.cursor.row.slots_dropped⟩

theorem Blocked.run {u : Use} {i w : Nat} (h : u.Blocked i w) (es : List Event) :
    (u.run es).Blocked i w ∧ u.Unmoved (u.run es) := by
  induction es generalizing u with
  | nil => exact ⟨h, rfl, rfl, rfl⟩
  | cons e es ih =>
      obtain ⟨hstep, hsource, hcount, hslots⟩ := h.step e
      obtain ⟨hrun, hsource', hcount', hslots'⟩ := ih hstep
      exact ⟨hrun, hsource'.trans hsource, hcount'.trans hcount, hslots'.trans hslots⟩

/-- A call of a blocked cursor writes NULL to the leaves, and nothing else. -/
theorem Blocked.get_step {u : Use} {i w : Nat} (h : u.Blocked i w) {e : Event}
    (he : e = .next ∨ e = .reset) (a : Slot) :
    (u.step e).store.get a = if a ∈ u.cursor.row.slots then .null else u.store.get a := by
  rcases he with rfl | rfl
  · rw [Use.step, next_of_refuses h.exhausted_eq h.refuses, reset_eq]
    exact Store.get_clear _ _ _
  · exact Store.get_clear _ _ _

/-- Once the leaves are NULL, the calls of a blocked cursor change nothing that is stored. -/
theorem Blocked.get_run {u : Use} {i w : Nat} (h : u.Blocked i w)
    (hnull : ∀ a ∈ u.cursor.row.slots, u.store.get a = .null) {es : List Event}
    (hes : ∀ e ∈ es, e = .next ∨ e = .reset) (a : Slot) :
    (u.run es).store.get a = u.store.get a := by
  induction es generalizing u with
  | nil => rfl
  | cons e es ih =>
      obtain ⟨hstep, hunmoved⟩ := h.step e
      have hsame : ∀ b, (u.step e).store.get b = u.store.get b := by
        intro b
        rw [h.get_step (hes e (by simp))]
        split
        · next hb => rw [hnull b hb]
        · rfl
      have hnull' : ∀ b ∈ (u.step e).cursor.row.slots, (u.step e).store.get b = .null := by
        intro b hb
        rw [hsame b]
        exact hnull b (hunmoved.slots_eq ▸ hb)
      exact (ih hstep hnull' fun f hf => hes f (by simp [hf])).trans (hsame a)

end Use

end Cursor

/-! ## 4. For good -/

/-- **A row that is too narrow blocks its buffer for good, and harms nothing.** After a fetch that was
refused let any calls follow, and more calls later. At either point a fetch is refused for the same
width and changes neither the buffer nor the storage; its index is at least the first one, and no
smaller later than before. No row has been fetched meanwhile, and the queue has not become shorter. A
cursor that the buffer is moved into is refused too. In a cursor that was refused, whatever its calls
and the writes of others are, the next call of `next` is refused for the same index and width, and does
to the cursor and the storage what a reset does; the counters and the buffer stay. Unless others write,
nothing that is stored changes any more. -/
theorem RowBuffer.refused_for_good :
    (∀ {b : RowBuffer} {s : Store} {i w : Nat} {x : RowBuffer × Store},
      b.fetch s = (.error ⟨i, w⟩, x) → ∀ calls later : List Call,
        let y := run calls x
        let z := run later y
        ∃ j k, i ≤ j ∧ j ≤ k
          ∧ y.1.fetch y.2 = (.error ⟨j, w⟩, y)
          ∧ z.1.fetch z.2 = (.error ⟨k, w⟩, z)
          ∧ y.1.fetched = b.fetched
          ∧ y.1.remaining ≤ z.1.remaining
          ∧ ∀ row : Row, ∃ n, j ≤ n
            ∧ ((Cursor.new row y.1 y.2).1.next (Cursor.new row y.1 y.2).2).1 = .error ⟨n, w⟩)
    ∧ ∀ {c : Cursor} {s : Store} {i w : Nat} {x : Cursor × Store},
      c.next s = (.error ⟨i, w⟩, x) → ∀ es : List Cursor.Event,
        let u := Cursor.Use.run { cursor := x.1, store := x.2 } es
        u.cursor.next u.store = (.error ⟨i, w⟩, u.cursor.reset u.store)
        ∧ u.cursor.rowsFetched = c.rowsFetched
        ∧ u.cursor.source = c.source
        ∧ ((∀ e ∈ es, e = .next ∨ e = .reset) → ∀ a, u.store.get a = x.2.get a) := by
  refine ⟨?_, ?_⟩
  · intro b s i w x h calls later y z
    obtain ⟨hrefuses, rfl⟩ := refuses_of_fetch h
    obtain ⟨⟨j, hij, hy⟩, hfetched, -⟩ := hrefuses.run (x := (b, s)) calls
    obtain ⟨⟨k, hjk, hz⟩, -, hremaining⟩ := hy.run later
    refine ⟨j, k, hij, hjk, hy.fetch_eq y.2, hz.fetch_eq z.2, hfetched, hremaining, fun row => ?_⟩
    obtain ⟨n, hjn, hnew⟩ := hy.bindInto row.dropped 0
    refine ⟨n, hjn, ?_⟩
    rw [Cursor.next_of_refuses (i := n) (w := w) rfl hnew]
  · intro c s i w x h es u
    obtain ⟨hdry, hrefuses⟩ := Cursor.refuses_of_next h
    rw [Cursor.next_of_refuses hdry hrefuses, Cursor.reset_eq] at h
    cases h
    have hblocked : Cursor.Use.Blocked
        { cursor := { c with row := c.row.dropped }, store := s.clear c.row.slots } i w :=
      ⟨hdry, hrefuses⟩
    obtain ⟨hrun, hunmoved⟩ := hblocked.run es
    refine ⟨Cursor.next_of_refuses hrun.exhausted_eq hrun.refuses _, hunmoved.rowsFetched_eq,
      hunmoved.source_eq, fun hes a => hblocked.get_run (fun b hb => ?_) hes a⟩
    rw [Row.slots_dropped] at hb
    rw [Store.get_clear, if_pos hb]

/-- A row of one column is refused for column 1; binding that column to a slot of the other domain, or
pushing a wide row, does not help, nor do reset and another call of `next` in a cursor. -/
theorem RowBuffer.refused_for_good_rebound :
    let b : RowBuffer := { rows := [[some [116]]], bindings := [(1, ⟨.boolean, 0⟩)] }
    let y := run [.bind 1 ⟨.integral, 2⟩, .push [none, none], .fetch] (b, {})
    let c := Cursor.new (.field { slot := ⟨.boolean, 0⟩ }) b {}
    let u := Cursor.Use.run { cursor := (c.1.next c.2).2.1, store := (c.1.next c.2).2.2 }
      [.reset, .next]
    (b.fetch {}).1 = .error ⟨1, 1⟩
    ∧ (∃ j, 1 ≤ j ∧ y.1.fetch y.2 = (.error ⟨j, 1⟩, y))
    ∧ (c.1.next c.2).1 = .error ⟨1, 1⟩
    ∧ u.cursor.next u.store = (.error ⟨1, 1⟩, u.cursor.reset u.store)
    ∧ u.cursor.rowsFetched = 0 := by
  intro b y c u
  have hfetch : b.fetch {} = (.error ⟨1, 1⟩, b, {}) := rfl
  have hnext : c.1.next c.2 = (.error ⟨1, 1⟩, (c.1.next c.2).2) := rfl
  obtain ⟨j, -, hj, -, hagain, -⟩ := refused_for_good.1 hfetch
    [.bind 1 ⟨.integral, 2⟩, .push [none, none], .fetch] []
  obtain ⟨hrefused, hcount, -⟩ := refused_for_good.2 hnext [.reset, .next]
  exact ⟨rfl, ⟨j, hj, hagain⟩, rfl, hrefused, hcount⟩

end QueryTerms
