/-
QueryTerms.Proofs.BindingHistory — what the history of its bindings tells about a buffer.

A column may be bound again and again, and a slot may be bound to several columns. The buffer keeps the
last binding of each column. A fetch writes to each slot the column of the last binding of the slot that
is kept, and to no other slot (`fetch_of_reached`). As long as no slot has two bindings that are kept,
the order in which different columns were bound cannot be told from any fetch.

## How the proof goes

The bindings of a buffer are a function of the history, by recursion on the history from its front:
a binding is dropped if its column comes again (`kept`). One more binding at the end does to this list
what the buffer does (`kept_append_bind`), which is the step of the induction over the calls; no other
call touches the bindings. What a delivery leaves in a slot is known (`get_deliver`), and so the last
binding in the list is compared with the last one kept, again by recursion on the history.

For the order, two buffers are run side by side. Each call keeps them alike (`Alike.call`): the histories
agree column by column, so the same bindings are kept, and where slots are separate the last binding of
a slot is its only one.
-/
import Mathlib.Data.Finset.Card
import QueryTerms.Proofs.Delivery

namespace QueryTerms.RowBuffer

/-! ## 1. Histories -/

/-- The bindings made on a buffer, the first one first. -/
abbrev History := List (Nat × Slot)

/-- The column was bound to the slot, and has not been bound again. -/
def Keeps (h : History) (i : Nat) (slot : Slot) : Prop :=
  ∃ before after, h = before ++ (i, slot) :: after ∧ i ∉ after.map Prod.fst

/-- The last binding of the slot that is kept is that of the column. -/
def KeepsLast (h : History) (i : Nat) (slot : Slot) : Prop :=
  ∃ before after, h = before ++ (i, slot) :: after ∧ i ∉ after.map Prod.fst ∧
    ∀ j, ¬ Keeps after j slot

/-- No slot has two bindings that are kept. -/
def Separate (h : History) : Prop :=
  ∀ i j slot, Keeps h i slot → Keeps h j slot → i = j

/-- The histories differ at most in the order of bindings of different columns. -/
def Reordered (h h' : History) : Prop :=
  ∀ i, h.filter (fun p => p.1 = i) = h'.filter (fun p => p.1 = i)

/-- The bindings whose column does not come again. -/
def kept : History → List (Nat × Slot)
  | [] => []
  | p :: rest => if p.1 ∈ rest.map Prod.fst then kept rest else p :: kept rest

/-- Nothing is kept where nothing was bound. -/
theorem not_keeps_nil (i : Nat) (slot : Slot) : ¬ Keeps [] i slot := by
  rintro ⟨before, after, h, -⟩
  simp at h

/-- What a history keeps, by recursion from its front: the first binding if its column does not come
again, and what the rest keeps. -/
theorem keeps_cons_iff {p : Nat × Slot} {rest : History} {i : Nat} {slot : Slot} :
    Keeps (p :: rest) i slot ↔
      (p = (i, slot) ∧ i ∉ rest.map Prod.fst) ∨ Keeps rest i slot := by
  constructor
  · rintro ⟨before, after, h, hafter⟩
    cases before with
    | nil =>
        obtain ⟨rfl, rfl⟩ := List.cons.inj h
        exact Or.inl ⟨rfl, hafter⟩
    | cons q before =>
        obtain ⟨-, rfl⟩ := List.cons.inj h
        exact Or.inr ⟨before, after, rfl, hafter⟩
  · rintro (⟨rfl, hrest⟩ | ⟨before, after, rfl, hafter⟩)
    · exact ⟨[], rest, rfl, hrest⟩
    · exact ⟨p :: before, after, rfl, hafter⟩

/-- The first binding is the last one of its slot only if the rest keeps none of the slot. -/
theorem keepsLast_cons_iff {p : Nat × Slot} {rest : History} {i : Nat} {slot : Slot} :
    KeepsLast (p :: rest) i slot ↔
      (p = (i, slot) ∧ i ∉ rest.map Prod.fst ∧ ∀ j, ¬ Keeps rest j slot) ∨
        KeepsLast rest i slot := by
  constructor
  · rintro ⟨before, after, h, hafter⟩
    cases before with
    | nil =>
        obtain ⟨rfl, rfl⟩ := List.cons.inj h
        exact Or.inl ⟨rfl, hafter⟩
    | cons q before =>
        obtain ⟨-, rfl⟩ := List.cons.inj h
        exact Or.inr ⟨before, after, rfl, hafter⟩
  · rintro (⟨rfl, hrest⟩ | ⟨before, after, rfl, hafter⟩)
    · exact ⟨[], rest, rfl, hrest⟩
    · exact ⟨p :: before, after, rfl, hafter⟩

/-- The last binding of a slot that is kept is kept. -/
theorem KeepsLast.keeps {h : History} {i : Nat} {slot : Slot} (hlast : KeepsLast h i slot) :
    Keeps h i slot := by
  obtain ⟨before, after, hsplit, hafter, -⟩ := hlast
  exact ⟨before, after, hsplit, hafter⟩

/-! ## 2. The bindings that are kept -/

/-- The list has the bindings that the history keeps. -/
theorem mem_kept_iff {h : History} {i : Nat} {slot : Slot} :
    (i, slot) ∈ kept h ↔ Keeps h i slot := by
  induction h with
  | nil => simp [kept, not_keeps_nil]
  | cons p rest ih =>
      rw [kept, keeps_cons_iff]
      split
      · next hagain =>
          rw [ih]
          constructor
          · exact Or.inr
          · rintro (⟨rfl, hrest⟩ | hkeeps)
            · exact absurd hagain hrest
            · exact hkeeps
      · next hagain =>
          rw [List.mem_cons, ih]
          constructor
          · rintro (rfl | hkeeps)
            · exact Or.inl ⟨rfl, hagain⟩
            · exact Or.inr hkeeps
          · rintro (⟨rfl, -⟩ | hkeeps)
            · exact Or.inl rfl
            · exact Or.inr hkeeps

/-- One more binding replaces the one that its column had. -/
theorem kept_append_bind (h : History) (i : Nat) (slot : Slot) :
    kept (h ++ [(i, slot)]) = (kept h).filter (fun p => p.1 ≠ i) ++ [(i, slot)] := by
  induction h with
  | nil => simp [kept]
  | cons p rest ih =>
      rw [List.cons_append, kept, kept]
      by_cases hp : p.1 = i
      · -- the new binding is what makes the column of p come again
        have hagain : p.1 ∈ (rest ++ [(i, slot)]).map Prod.fst := by simp [hp]
        rw [if_pos hagain, ih]
        split
        · rfl
        · rw [List.filter_cons_of_neg (by simpa using hp)]
      · have hagain : p.1 ∈ (rest ++ [(i, slot)]).map Prod.fst ↔ p.1 ∈ rest.map Prod.fst := by
          simp [hp]
        simp only [hagain]
        split
        · exact ih
        · rw [ih, List.filter_cons_of_pos (by simpa using hp), List.cons_append]

/-- No column is lost: the last of its bindings stays. -/
theorem mem_fst_kept_iff {h : History} {i : Nat} :
    i ∈ (kept h).map Prod.fst ↔ i ∈ h.map Prod.fst := by
  induction h with
  | nil => rfl
  | cons p rest ih =>
      rw [kept]
      split
      · next hagain =>
          rw [ih, List.map_cons, List.mem_cons]
          constructor
          · exact Or.inr
          · rintro (rfl | hi)
            · exact hagain
            · exact hi
      · rw [List.map_cons, List.mem_cons, ih, List.map_cons, List.mem_cons]

/-- No column is kept twice. -/
theorem nodup_fst_kept (h : History) : ((kept h).map Prod.fst).Nodup := by
  induction h with
  | nil => simp [kept]
  | cons p rest ih =>
      rw [kept]
      split
      · exact ih
      · next hagain =>
          rw [List.map_cons, List.nodup_cons, mem_fst_kept_iff]
          exact ⟨hagain, ih⟩

/-- As many bindings are kept as there are different columns in the history. -/
theorem length_kept (h : History) : (kept h).length = (h.map Prod.fst).toFinset.card := by
  have hsame : ((kept h).map Prod.fst).toFinset = (h.map Prod.fst).toFinset := by
    ext i
    rw [List.mem_toFinset, List.mem_toFinset, mem_fst_kept_iff]
  rw [← hsame, List.toFinset_card_of_nodup (nodup_fst_kept h), List.length_map]

/-- A slot has no last column exactly if no column is bound to it. -/
theorem lastColumn?_eq_none_iff {l : List (Nat × Slot)} {a : Slot} :
    lastColumn? l a = none ↔ ∀ i, (i, a) ∉ l := by
  induction l with
  | nil => simp [lastColumn?]
  | cons p rest ih =>
      obtain ⟨i, b⟩ := p
      rw [lastColumn?, Option.or_eq_none_iff, ih]
      by_cases hb : b = a
      · subst hb
        simp only [if_true, reduceCtorEq, and_false, false_iff, not_forall, not_not]
        exact ⟨i, List.mem_cons_self⟩
      · simp [hb, Ne.symm hb]

/-- Among the bindings that are kept, none is of the slot. -/
theorem lastColumn?_kept_eq_none_iff {h : History} {slot : Slot} :
    lastColumn? (kept h) slot = none ↔ ∀ i, ¬ Keeps h i slot := by
  simp only [lastColumn?_eq_none_iff, mem_kept_iff]

/-- What a delivery writes to a slot is the column of its last binding that is kept. The order of the
list is that of the history, so both are found by one recursion. -/
theorem lastColumn?_kept_eq_some_iff {h : History} {i : Nat} {slot : Slot} :
    lastColumn? (kept h) slot = some i ↔ KeepsLast h i slot := by
  induction h with
  | nil =>
      have hnot : ¬ KeepsLast [] i slot := fun hlast => not_keeps_nil i slot hlast.keeps
      simp [kept, lastColumn?, hnot]
  | cons p rest ih =>
      obtain ⟨j, b⟩ := p
      rw [kept, keepsLast_cons_iff]
      split
      · next hagain =>
          rw [ih]
          constructor
          · exact Or.inr
          · rintro (⟨hp, hrest, -⟩ | hlast)
            · cases hp
              exact absurd hagain hrest
            · exact hlast
      · next hagain =>
          rw [lastColumn?, Option.or_eq_some_iff, ih, lastColumn?_kept_eq_none_iff, or_comm]
          refine or_congr_left ?_
          constructor
          · rintro ⟨hnone, hb⟩
            split at hb
            · next hslot =>
                cases hb
                exact ⟨by rw [hslot], hagain, hnone⟩
            · cases hb
          · rintro ⟨hp, -, hnone⟩
            cases hp
            exact ⟨hnone, if_pos rfl⟩

/-! ## 3. Reordered histories -/

/-- What is kept for a column can be read off the bindings of that column alone, which is why the order
of different columns has no part in it. -/
theorem keeps_iff_getLast? {h : History} {i : Nat} {slot : Slot} :
    Keeps h i slot ↔ (h.filter (fun p => p.1 = i)).getLast? = some (i, slot) := by
  induction h with
  | nil => simp [not_keeps_nil]
  | cons p rest ih =>
      rw [keeps_cons_iff, ih]
      by_cases hp : p.1 = i
      · rw [List.filter_cons_of_pos (by simpa using hp), List.getLast?_cons]
        cases hlast : (rest.filter (fun p => p.1 = i)).getLast? with
        | none =>
            have hrest : i ∉ rest.map Prod.fst := by
              rw [List.getLast?_eq_none_iff, List.filter_eq_nil_iff] at hlast
              simpa using fun slot hmem => hlast (i, slot) hmem
            simp [hrest]
        | some q =>
            have hrest : i ∈ rest.map Prod.fst := by
              obtain ⟨hq, hqi⟩ := List.mem_filter.1 (List.mem_of_getLast? hlast)
              exact List.mem_map.2 ⟨q, hq, by simpa using hqi⟩
            simp [hrest]
      · rw [List.filter_cons_of_neg (by simpa using hp)]
        constructor
        · rintro (⟨rfl, -⟩ | hlast)
          · exact absurd rfl hp
          · exact hlast
        · exact Or.inr

/-- Histories that differ in the order of columns keep the same bindings. -/
theorem Reordered.keeps_iff {h h' : History} (hre : Reordered h h') {i : Nat} {slot : Slot} :
    Keeps h' i slot ↔ Keeps h i slot := by
  rw [keeps_iff_getLast?, keeps_iff_getLast?, hre i]

/-- Whether slots are separate does not depend on the order of different columns. -/
theorem Reordered.separate {h h' : History} (hre : Reordered h h') (hsep : Separate h) :
    Separate h' := by
  intro i j slot hi hj
  exact hsep i j slot (hre.keeps_iff.1 hi) (hre.keeps_iff.1 hj)

/-- Histories stay reordered when the same bindings come behind both. -/
theorem Reordered.append {h h' : History} (hre : Reordered h h') (l : History) :
    Reordered (h ++ l) (h' ++ l) := by
  intro i
  rw [List.filter_append, List.filter_append, hre i]

/-- Where slots are separate, the last binding of a slot that is kept is the only one. -/
theorem Separate.lastColumn?_eq_some_iff {h : History} (hsep : Separate h) {i : Nat} {slot : Slot} :
    lastColumn? (kept h) slot = some i ↔ Keeps h i slot := by
  constructor
  · intro hlast
    exact (lastColumn?_kept_eq_some_iff.1 hlast).keeps
  · intro hkeeps
    cases hlast : lastColumn? (kept h) slot with
    | none => exact absurd hkeeps (lastColumn?_kept_eq_none_iff.1 hlast i)
    | some j =>
        have hj := (lastColumn?_kept_eq_some_iff.1 hlast).keeps
        rw [hsep j i slot hj hkeeps]

/-- Where slots are separate, a delivery does not see the order of different columns. -/
theorem Reordered.lastColumn?_eq {h h' : History} (hre : Reordered h h') (hsep : Separate h)
    (slot : Slot) : lastColumn? (kept h') slot = lastColumn? (kept h) slot := by
  refine Option.ext fun i => ?_
  rw [(hre.separate hsep).lastColumn?_eq_some_iff, hsep.lastColumn?_eq_some_iff, hre.keeps_iff]

/-! ## 4. Calls -/

/-- What can happen to a buffer and the storage. -/
inductive Call where
  | bind (index : Nat) (slot : Slot)
  | push (row : RawRow)
  | fetch
  /-- Someone else writes to a slot. -/
  | write (slot : Slot) (c : Cell slot.domain)

namespace Call

/-- What a call leaves of the buffer and the storage. -/
def perform : Call → RowBuffer × Store → RowBuffer × Store
  | bind index slot, (b, s) => (b.bind index slot, s)
  | push row, (b, s) => (b.push row, s)
  | fetch, (b, s) => (b.fetch s).2
  | write slot c, (b, s) => (b, s.put slot c)

/-- The answer, which only a fetch gives. -/
def answer? : Call → RowBuffer × Store → Option (Except ColumnOutOfRange Bool)
  | fetch, (b, s) => some (b.fetch s).1
  | _, _ => none

/-- What a call adds to the history. -/
def binds : Call → History
  | bind index slot => [(index, slot)]
  | _ => []

end Call

/-- What calls, one after another, leave of the buffer and the storage. -/
def run (calls : List Call) (x : RowBuffer × Store) : RowBuffer × Store :=
  calls.foldl (fun x c => c.perform x) x

/-- The answers of the fetches among calls. -/
def answers : List Call → RowBuffer × Store → List (Except ColumnOutOfRange Bool)
  | [], _ => []
  | c :: rest, x => (c.answer? x).toList ++ answers rest (c.perform x)

/-- The history that calls make. -/
def binds (calls : List Call) : History :=
  calls.flatMap Call.binds

/-- A buffer of some rows comes here by calls that make the history. -/
inductive Reached : RowBuffer × Store → History → Prop
  | start (rows : List RawRow) (s : Store) : Reached (ofRows rows, s) []
  | call {x : RowBuffer × Store} {h : History} (c : Call) : Reached x h →
      Reached (c.perform x) (h ++ c.binds)

/-- Calls go on from where a buffer is, and make more of its history. -/
theorem Reached.run {x : RowBuffer × Store} {h : History} (hx : Reached x h) (calls : List Call) :
    Reached (run calls x) (h ++ binds calls) := by
  induction calls generalizing x h with
  | nil => simpa [binds, RowBuffer.run] using hx
  | cons c rest ih => simpa [binds, RowBuffer.run] using ih (hx.call c)

/-- A fetch touches no binding, whether it succeeds or not. -/
theorem bindings_fetch (b : RowBuffer) (s : Store) : (b.fetch s).2.1.bindings = b.bindings := by
  rcases fetch_cases b s with ⟨-, hfetch⟩ | ⟨row, rest, -, -, hfetch⟩ | ⟨row, rest, m, -, -, -, hfetch⟩
  · rw [hfetch]
  · rw [hfetch]
  · rw [hfetch]

/-- The invariant of all calls: the bindings of a buffer are those that its history keeps, in their
order. -/
theorem Reached.bindings_eq {x : RowBuffer × Store} {h : History} (hx : Reached x h) :
    x.1.bindings = kept h := by
  induction hx with
  | start rows s => rfl
  | @call x h c hx ih =>
      obtain ⟨b, s⟩ := x
      cases c with
      | bind index slot =>
          rw [Call.binds, kept_append_bind, ← ih]
          rfl
      | push row => simpa [Call.binds, Call.perform, push] using ih
      | fetch => simpa [Call.binds, Call.perform, bindings_fetch] using ih
      | write slot c => simpa [Call.binds, Call.perform] using ih

/-! ## 5. Buffers side by side -/

/-- Buffers whose histories differ in the order of columns only, and of which nothing else can be told
apart. -/
structure Alike (x y : RowBuffer × Store) (h h' : History) : Prop where
  left : Reached x h
  right : Reached y h'
  reordered : Reordered h h'
  rows : y.1.rows = x.1.rows
  reads : ∀ a, y.2.get a = x.2.get a

/-- A fetch of either buffer asks a row for the same number of columns. -/
theorem Alike.largestColumn?_eq {x y : RowBuffer × Store} {h h' : History} (hxy : Alike x y h h') :
    y.1.largestColumn? = x.1.largestColumn? := by
  have hmem : ∀ i, i ∈ y.1.bindings.map Prod.fst ↔ i ∈ x.1.bindings.map Prod.fst := by
    intro i
    rw [hxy.left.bindings_eq, hxy.right.bindings_eq]
    simp only [List.mem_map, Prod.exists, mem_kept_iff, hxy.reordered.keeps_iff]
  refine Option.ext fun m => ?_
  rw [largestColumn?_eq_some, largestColumn?_eq_some]
  simp only [hmem]

/-- Buffers that are alike answer a fetch alike, if slots are separate, and stay alike. -/
theorem Alike.fetch {x y : RowBuffer × Store} {h h' : History} (hxy : Alike x y h h')
    (hsep : Separate h) :
    (y.1.fetch y.2).1 = (x.1.fetch x.2).1 ∧
      (y.1.fetch y.2).2.1.rows = (x.1.fetch x.2).2.1.rows ∧
      ∀ a, (y.1.fetch y.2).2.2.get a = (x.1.fetch x.2).2.2.get a := by
  have hlargest := hxy.largestColumn?_eq
  rcases fetch_cases x.1 x.2 with ⟨hrows, hfetch⟩ | ⟨row, rest, hrows, hcovers, hfetch⟩
    | ⟨row, rest, m, hrows, hm, hle, hfetch⟩
  · rw [hfetch, fetch_of_empty (hxy.rows.trans hrows)]
    exact ⟨rfl, hxy.rows, hxy.reads⟩
  · have hcovers' : y.1.Covers row := by
      rw [Covers, hlargest]
      exact hcovers
    rw [hfetch, fetch_of_covers (hxy.rows.trans hrows) hcovers']
    refine ⟨rfl, rfl, fun a => ?_⟩
    rw [get_deliver, get_deliver, hxy.left.bindings_eq, hxy.right.bindings_eq,
      hxy.reordered.lastColumn?_eq hsep, hxy.reads]
  · rw [hfetch, fetch_of_narrow (hxy.rows.trans hrows) (hlargest.trans hm) hle]
    exact ⟨rfl, hxy.rows, hxy.reads⟩

/-- One call on both buffers gives the same answer and keeps them alike. Only a fetch needs the slots to
be separate. -/
theorem Alike.call {x y : RowBuffer × Store} {h h' : History} (hxy : Alike x y h h') (c : Call)
    (hsep : c = .fetch → Separate h) :
    c.answer? y = c.answer? x ∧ Alike (c.perform x) (c.perform y) (h ++ c.binds) (h' ++ c.binds) := by
  obtain ⟨b, s⟩ := x
  obtain ⟨b', s'⟩ := y
  have hleft := hxy.left.call c
  have hright := hxy.right.call c
  have hre := hxy.reordered.append c.binds
  cases c with
  | bind index slot => exact ⟨rfl, hleft, hright, hre, hxy.rows, hxy.reads⟩
  | push row =>
      refine ⟨rfl, hleft, hright, hre, ?_, hxy.reads⟩
      show b'.rows ++ [row] = b.rows ++ [row]
      rw [hxy.rows]
  | fetch =>
      obtain ⟨hanswer, hrows, hreads⟩ := hxy.fetch (hsep rfl)
      exact ⟨congrArg some hanswer, hleft, hright, hre, hrows, hreads⟩
  | write slot c =>
      refine ⟨rfl, hleft, hright, hre, hxy.rows, fun a => ?_⟩
      show (s'.put slot c).get a = (s.put slot c).get a
      by_cases ha : slot = a
      · subst ha
        rw [Store.get_put_self, Store.get_put_self]
      · rw [Store.get_put_of_ne s' ha, Store.get_put_of_ne s ha]
        exact hxy.reads a

/-- The run of two buffers that are alike: slots need to be separate only where there is a fetch. -/
theorem Alike.run {later : List Call} : ∀ {x y : RowBuffer × Store} {h h' : History},
    Alike x y h h' → (∀ w v, later = w ++ .fetch :: v → Separate (h ++ binds w)) →
    answers later y = answers later x ∧
      Alike (run later x) (run later y) (h ++ binds later) (h' ++ binds later) := by
  induction later with
  | nil =>
      intro x y h h' hxy _
      refine ⟨rfl, ?_⟩
      simpa [binds, RowBuffer.run] using hxy
  | cons c rest ih =>
      intro x y h h' hxy hsep
      have hsep' : c = .fetch → Separate h := by
        rintro rfl
        simpa [binds] using hsep [] rest rfl
      obtain ⟨hanswer, hstep⟩ := hxy.call c hsep'
      have hrest : ∀ w v, rest = w ++ .fetch :: v → Separate ((h ++ c.binds) ++ binds w) := by
        rintro w v rfl
        simpa [binds] using hsep (c :: w) v rfl
      obtain ⟨hanswers, hrun⟩ := ih hstep hrest
      refine ⟨?_, ?_⟩
      · rw [answers, answers, hanswer, hanswers]
      · simpa [binds, RowBuffer.run] using hrun

/-! ## 6. The history decides -/

/-- A fetch that takes a row writes to each slot the column of its last binding that is kept, and
nothing to a slot without one. -/
theorem Reached.get_of_fetch {x : RowBuffer × Store} {h : History} (hx : Reached x h)
    {b : RowBuffer} {s : Store} (hok : x.1.fetch x.2 = (.ok true, b, s)) :
    ∃ row rest, x.1.rows = row :: rest ∧ b.rows = rest ∧ ∀ slot,
      (∃ i column, KeepsLast h i slot ∧ row[i]? = some column ∧ s.get slot = .ofRaw column) ∨
      ((∀ i, ¬ Keeps h i slot) ∧ s.get slot = x.2.get slot) := by
  have hbindings := hx.bindings_eq
  rcases fetch_cases x.1 x.2 with ⟨-, hfetch⟩ | ⟨row, rest, hrows, hcovers, hfetch⟩
    | ⟨row, rest, m, -, -, -, hfetch⟩
  · rw [hfetch] at hok
    cases hok
  · rw [hfetch] at hok
    cases hok
    refine ⟨row, rest, hrows, rfl, fun slot => ?_⟩
    rw [get_deliver, hbindings]
    cases hlast : lastColumn? (kept h) slot with
    | none => exact Or.inr ⟨lastColumn?_kept_eq_none_iff.1 hlast, rfl⟩
    | some i =>
        have hkeeps := lastColumn?_kept_eq_some_iff.1 hlast
        -- the row was not refused, so it has the column
        have hmem : (i, slot) ∈ x.1.bindings := by
          rw [hbindings, mem_kept_iff]
          exact hkeeps.keeps
        obtain ⟨m, hm, him⟩ := exists_largestColumn? hmem
        have hi : i < row.length := Nat.lt_of_le_of_lt him (hcovers m hm)
        have hcolumn : columnAt row i = row[i] := by
          rw [columnAt, List.getElem?_eq_getElem hi]
          rfl
        exact Or.inl ⟨i, row[i], hkeeps, List.getElem?_eq_getElem hi, congrArg Cell.ofRaw hcolumn⟩
  · rw [hfetch] at hok
    cases hok

/-- **A buffer keeps the last binding of each column, a fetch writes to each slot the column of its
last binding that is kept, and the order of different columns shows only in slots that have two.** -/
theorem fetch_of_reached {x : RowBuffer × Store} {h : History} (hx : Reached x h) :
    (∀ i slot, (i, slot) ∈ x.1.bindings ↔ Keeps h i slot) ∧
    x.1.boundColumns = (h.map Prod.fst).toFinset.card ∧
    (∀ b s, x.1.fetch x.2 = (.ok true, b, s) →
      ∃ row rest, x.1.rows = row :: rest ∧ b.rows = rest ∧ ∀ slot,
        (∃ i column, KeepsLast h i slot ∧ row[i]? = some column ∧ s.get slot = .ofRaw column) ∨
        ((∀ i, ¬ Keeps h i slot) ∧ s.get slot = x.2.get slot)) ∧
    ∀ y h', Reached y h' → Reordered h h' → y.1.rows = x.1.rows →
      (∀ a, y.2.get a = x.2.get a) →
      ∀ later, (∀ w v, later = w ++ .fetch :: v → Separate (h ++ binds w)) →
        answers later y = answers later x ∧
        (run later y).1.rows = (run later x).1.rows ∧
        ∀ a, (run later y).2.get a = (run later x).2.get a := by
  refine ⟨?_, ?_, fun b s hok => hx.get_of_fetch hok, ?_⟩
  · intro i slot
    rw [hx.bindings_eq, mem_kept_iff]
  · rw [boundColumns, hx.bindings_eq, length_kept]
  · intro y h' hy hre hrows hreads later hsep
    obtain ⟨hanswers, hrun⟩ := Alike.run ⟨hx, hy, hre, hrows, hreads⟩ hsep
    exact ⟨hanswers, hrun.rows, hrun.reads⟩

/-- Column 0 is bound to an integer, which someone has set to 5, and then to a truth value: only the
truth value takes the column, and the integer keeps its 5. With the bindings of the two columns in another
order a fetch answers the same. -/
theorem fetch_of_reached_rebound :
    let replaced : Slot := ⟨.integral, 2⟩
    let flag : Slot := ⟨.boolean, 0⟩
    let count : Slot := ⟨.integral, 1⟩
    let start : RowBuffer × Store := (ofRows [[some [116], some [55]]], {})
    let five : Call := .write replaced (.nonNull (5 : Int64))
    let x := run [five, .bind 0 replaced, .bind 0 flag, .bind 1 count] start
    let s := (x.1.fetch x.2).2.2
    Reached x [(0, replaced), (0, flag), (1, count)]
    ∧ x.1.boundColumns = 2
    ∧ (x.1.fetch x.2).1 = .ok true
    ∧ ((s.get flag).value = true ∧ (s.get flag).isNull = false)
    ∧ ((s.get count).value = (7 : Int64) ∧ (s.get count).isNull = false)
    ∧ ((s.get replaced).value = (5 : Int64) ∧ (s.get replaced).isNull = false)
    ∧ answers [five, .bind 1 count, .bind 0 replaced, .bind 0 flag, .fetch] start = [.ok true] := by
  intro replaced flag count start five x s
  have hx : Reached x [(0, replaced), (0, flag), (1, count)] :=
    (Reached.start [[some [116], some [55]]] {}).run
      [five, .bind 0 replaced, .bind 0 flag, .bind 1 count]
  have hy := (Reached.start [[some [116], some [55]]] {}).run
    [five, .bind 1 count, .bind 0 replaced, .bind 0 flag]
  have hre : Reordered [(0, replaced), (0, flag), (1, count)] [(1, count), (0, replaced), (0, flag)] := by
    rintro (_ | _ | i)
    · rfl
    · rfl
    · simp
  have hkeeps : ∀ i slot, Keeps [(0, replaced), (0, flag), (1, count)] i slot
      ↔ (i = 0 ∧ slot = flag) ∨ (i = 1 ∧ slot = count) := by
    intro i slot
    have hkept : kept [(0, replaced), (0, flag), (1, count)] = [(0, flag), (1, count)] := rfl
    rw [← mem_kept_iff, hkept]
    simp
  have hsep : Separate [(0, replaced), (0, flag), (1, count)] := by
    intro i j slot hi hj
    rw [hkeeps] at hi hj
    rcases hi with ⟨rfl, rfl⟩ | ⟨rfl, rfl⟩ <;> simpa [flag, count, eq_comm] using hj
  obtain ⟨-, hcount, hwrites, horder⟩ := fetch_of_reached hx
  have hlater : ∀ w v, [Call.fetch] = w ++ .fetch :: v →
      Separate ([(0, replaced), (0, flag), (1, count)] ++ binds w) := by
    rintro (_ | ⟨c, w⟩) v hw
    · exact hsep
    · simp at hw
  have hok : x.1.fetch x.2 = (.ok true, (x.1.fetch x.2).2.1, s) := rfl
  obtain ⟨row, rest, hrows, -, hcells⟩ := hwrites _ _ hok
  obtain rfl : [some [116], some [55]] = row := (List.cons.inj hrows).1
  have hwritten : ∀ i slot column, Keeps [(0, replaced), (0, flag), (1, count)] i slot →
      [some [116], some [55]][i]? = some column → s.get slot = .ofRaw column := by
    intro i slot column hi hcolumn
    rcases hcells slot with ⟨j, other, hlast, hother, hget⟩ | ⟨hnone, -⟩
    · obtain rfl := hsep i j slot hi hlast.keeps
      obtain rfl := Option.some.inj (hcolumn.symm.trans hother)
      exact hget
    · exact absurd hi (hnone i)
  have hflag := hwritten 0 flag _ ((hkeeps 0 flag).2 (.inl ⟨rfl, rfl⟩)) rfl
  have hseven := hwritten 1 count _ ((hkeeps 1 count).2 (.inr ⟨rfl, rfl⟩)) rfl
  have hfive : s.get replaced = .nonNull (5 : Int64) := by
    rcases hcells replaced with ⟨j, -, hlast, -, -⟩ | ⟨-, hget⟩
    · rcases (hkeeps j replaced).1 hlast.keeps with ⟨-, hslot⟩ | ⟨-, hslot⟩
      · exact absurd hslot (by decide)
      · exact absurd hslot (by decide)
    · exact hget.trans (Store.get_put_self {} replaced (.nonNull (5 : Int64)))
  refine ⟨hx, hcount, rfl, ?_, ?_, ?_, (horder _ _ hy hre rfl (fun _ => rfl) [.fetch] hlater).1⟩
  · rw [hflag]
    exact ⟨by decide, rfl⟩
  · rw [hseven]
    exact ⟨by decide, rfl⟩
  · rw [hfive]
    exact ⟨rfl, rfl⟩

end QueryTerms.RowBuffer
