/-
QueryTerms.Proofs.Delivery — what a fetch writes, and when it refuses.

Bindings are written in the order in which they were made, so what a slot reads after a fetch is
decided by the last of its bindings: `get_deliver` says so for all slots at once, those that nothing
is bound to included. Whether a row is refused depends on the largest bound column alone, and so does
the error: `fetch_cases` lists the three ways in which a fetch can go, each with everything it leaves
behind, so that nobody has to open `fetch` again.
-/
import QueryTerms.RowBuffer

namespace QueryTerms.RowBuffer

/-! ## 1. What is written -/

/-- The column of the last binding of a slot, if the slot is bound. -/
def lastColumn? : List (Nat × Slot) → Slot → Option Nat
  | [], _ => none
  | (i, b) :: rest, a => (lastColumn? rest a).or (if b = a then some i else none)

theorem lastColumn?_append (l m : List (Nat × Slot)) (a : Slot) :
    lastColumn? (l ++ m) a = (lastColumn? m a).or (lastColumn? l a) := by
  induction l with
  | nil => simp [lastColumn?]
  | cons p rest ih => rw [List.cons_append, lastColumn?, ih, lastColumn?, Option.or_assoc]

theorem lastColumn?_eq_none {l : List (Nat × Slot)} {a : Slot} (h : a ∉ l.map Prod.snd) :
    lastColumn? l a = none := by
  induction l with
  | nil => rfl
  | cons p rest ih =>
      simp only [List.map_cons, List.mem_cons, not_or] at h
      simp [lastColumn?, ih h.2, Ne.symm h.1]

/-- After a delivery a slot reads the column of its last binding; a slot that is not bound reads what
it read before. -/
theorem get_deliver (row : RawRow) (a : Slot) : ∀ (bindings : List (Nat × Slot)) (s : Store),
    (deliver bindings row s).get a =
      match lastColumn? bindings a with
      | some i => .ofRaw (columnAt row i)
      | none => s.get a
  | [], s => rfl
  | (i, b) :: rest, s => by
      have hrest := get_deliver row a rest (s.decodeInto b (columnAt row i))
      have hcons : deliver ((i, b) :: rest) row s
          = deliver rest row (s.decodeInto b (columnAt row i)) := rfl
      rw [hcons, hrest, lastColumn?]
      cases lastColumn? rest a with
      | some j => rfl
      | none =>
          by_cases hab : b = a
          · subst hab
            simp [Store.decodeInto]
          · simp [hab, Store.decodeInto, Store.get_put_of_ne s hab]

/-! ## 2. When a row is refused -/

/-- The largest bound column, if there is one. -/
def largestColumn? (b : RowBuffer) : Option Nat :=
  (b.bindings.map Prod.fst).max?

theorem largestColumn?_eq_some {b : RowBuffer} {m : Nat} :
    b.largestColumn? = some m
      ↔ m ∈ b.bindings.map Prod.fst ∧ ∀ i ∈ b.bindings.map Prod.fst, i ≤ m :=
  List.max?_eq_some_iff

/-- A bound column is at most the largest. -/
theorem exists_largestColumn? {b : RowBuffer} {i : Nat} {a : Slot} (h : (i, a) ∈ b.bindings) :
    ∃ m, b.largestColumn? = some m ∧ i ≤ m := by
  have hi : i ∈ b.bindings.map Prod.fst := List.mem_map_of_mem h
  cases hm : b.largestColumn? with
  | none =>
      have hnil : b.bindings.map Prod.fst = [] := List.max?_eq_none_iff.1 hm
      simp [hnil] at hi
  | some m => exact ⟨m, rfl, (largestColumn?_eq_some.1 hm).2 i hi⟩

/-- A row is refused by the largest bound column, if by any. -/
theorem outOfRange?_eq (b : RowBuffer) (width : Nat) :
    b.outOfRange? width = b.largestColumn?.filter (width ≤ ·) := by
  cases h : b.largestColumn? with
  | none =>
      have hnil : b.bindings.map Prod.fst = [] := List.max?_eq_none_iff.1 h
      simp [outOfRange?, hnil]
  | some m =>
      obtain ⟨hm, hle⟩ := largestColumn?_eq_some.1 h
      by_cases hwidth : width ≤ m
      · rw [Option.filter_some_pos (by simpa using hwidth)]
        refine List.max?_eq_some_iff.2 ⟨List.mem_filter.2 ⟨hm, by simpa using hwidth⟩, ?_⟩
        exact fun i hi => hle i (List.mem_filter.1 hi).1
      · have hnone : ∀ i ∈ b.bindings.map Prod.fst, ¬ width ≤ i := by
          intro i hi
          have := hle i hi
          omega
        rw [Option.filter_some_neg (by simpa using hwidth), outOfRange?, List.max?_eq_none_iff]
        exact List.filter_eq_nil_iff.2 (by simpa using hnone)

/-- The row has every bound column. -/
def Covers (b : RowBuffer) (row : RawRow) : Prop :=
  ∀ i ∈ b.largestColumn?, i < row.length

theorem covers_iff {b : RowBuffer} {m : Nat} (h : b.largestColumn? = some m) (row : RawRow) :
    b.Covers row ↔ m < row.length := by
  simp [Covers, h]

/-! ## 3. Fetching -/

theorem fetch_of_empty {b : RowBuffer} (h : b.rows = []) (s : Store) :
    b.fetch s = (.ok false, b, s) := by
  simp [fetch, h]

theorem fetch_of_covers {b : RowBuffer} {row : RawRow} {rest : List RawRow}
    (h : b.rows = row :: rest) (hrow : b.Covers row) (s : Store) :
    b.fetch s = (.ok true, { b with rows := rest, fetched := b.fetched + 1 },
      deliver b.bindings row s) := by
  have hnone : b.outOfRange? row.length = none := by
    rw [outOfRange?_eq, Option.filter_eq_none_iff]
    intro i hi
    have := hrow i hi
    simpa using this
  simp [fetch, h, hnone]

theorem fetch_of_narrow {b : RowBuffer} {row : RawRow} {rest : List RawRow} {m : Nat}
    (h : b.rows = row :: rest) (hm : b.largestColumn? = some m) (hrow : row.length ≤ m) (s : Store) :
    b.fetch s = (.error ⟨m, row.length⟩, b, s) := by
  have hsome : b.outOfRange? row.length = some m := by
    rw [outOfRange?_eq, hm, Option.filter_some_pos (by simpa using hrow)]
  simp [fetch, h, hsome]

/-- The ways of a fetch: no row is left, the front row is taken, or it is refused. -/
theorem fetch_cases (b : RowBuffer) (s : Store) :
    (b.rows = [] ∧ b.fetch s = (.ok false, b, s))
    ∨ (∃ row rest, b.rows = row :: rest ∧ b.Covers row
        ∧ b.fetch s = (.ok true, { b with rows := rest, fetched := b.fetched + 1 },
            deliver b.bindings row s))
    ∨ (∃ row rest m, b.rows = row :: rest ∧ b.largestColumn? = some m ∧ row.length ≤ m
        ∧ b.fetch s = (.error ⟨m, row.length⟩, b, s)) := by
  cases h : b.rows with
  | nil => exact Or.inl ⟨rfl, fetch_of_empty h s⟩
  | cons row rest =>
      cases hm : b.largestColumn? with
      | none =>
          have hrow : b.Covers row := by simp [Covers, hm]
          exact Or.inr (Or.inl ⟨row, rest, rfl, hrow, fetch_of_covers h hrow s⟩)
      | some m =>
          rcases Nat.lt_or_ge m row.length with hlt | hle
          · have hrow : b.Covers row := (covers_iff hm row).2 hlt
            exact Or.inr (Or.inl ⟨row, rest, rfl, hrow, fetch_of_covers h hrow s⟩)
          · exact Or.inr (Or.inr ⟨row, rest, m, rfl, rfl, hle, fetch_of_narrow h hm hle s⟩)

end QueryTerms.RowBuffer
