/-
QueryTerms.Proofs.BoundLeaves — binding a row hands its leaves to consecutive columns, however they are
nested.

A binder is anything that takes bindings one by one. Which bindings a row makes can be seen from one
binder, the one that records them (`Row.bindings`): binding into any other does the recorded calls in the
same order (`bindInto_eq_replay`). The record numbers the leaves from left to right (`bindings_eq`), so
nothing but the leaves is left of the shape of a row. In particular a tuple is bound as its members are,
each from the column behind the last one of the member before (`bindInto_tuple`).

Indices are natural numbers here. Where they have a limit, binding steps from one column to the next with
a check (`bindWithin`); the check never fails if the index behind the last column is within the limit, and
that is the only way in which it never does.
-/
import QueryTerms.Row

namespace QueryTerms.Row

/-! ## 1. Recorded calls -/

/-- Recording calls one by one lists them behind those recorded before. -/
theorem foldl_record (calls : List (Slot × Nat)) (made : List (Nat × Slot)) :
    calls.foldl (fun made p => made ++ [(p.2, p.1)]) made = made ++ calls.map Prod.swap := by
  induction calls generalizing made with
  | nil => simp
  | cons p rest ih =>
      rw [List.foldl_cons, ih, List.append_assoc]
      rfl

/-- The record numbers the slots of the leaves. -/
theorem bindings_eq (row : Row) (first : Nat) :
    row.bindings first
      = ((row.slots.zipIdx first).map Prod.swap, first + row.leaves.length) := by
  rw [bindings, bindInto_eq_foldl, foldl_record, List.nil_append]

theorem length_bindings (row : Row) (first : Nat) :
    (row.bindings first).1.length = row.leaves.length := by
  simp [bindings_eq, slots]

/-- The call at a place of the record binds the leaf at this place. -/
theorem getElem?_bindings (row : Row) (first : Nat) {i : Nat} {f : Field}
    (h : row.leaves[i]? = some f) : (row.bindings first).1[i]? = some (first + i, f.slot) := by
  simp [bindings_eq, slots, List.getElem?_zipIdx, h]

/-- Binding does the recorded calls in their order. -/
theorem bindInto_eq_replay {β : Type} (bind : β → Nat → Slot → β) (row : Row) (b : β) (first : Nat) :
    row.bindInto bind b first =
      ((row.bindings first).1.foldl (fun b p => bind b p.1 p.2) b, (row.bindings first).2) := by
  rw [bindInto_eq_foldl, bindings_eq, List.foldl_map]
  rfl

/-- Nothing but the storage of the leaves counts, whatever the nesting. -/
theorem bindInto_congr {β : Type} (bind : β → Nat → Slot → β) {row other : Row}
    (h : other.slots = row.slots) (b : β) (first : Nat) :
    other.bindInto bind b first = row.bindInto bind b first := by
  have hlength : other.leaves.length = row.leaves.length := by
    simpa [slots] using congrArg List.length h
  rw [bindInto_eq_foldl, bindInto_eq_foldl, h, hlength]

/-! ## 2. Members one after another -/

theorem bindAllInto_eq_foldl_members {β : Type} (bind : β → Nat → Slot → β) (members : List Row)
    (b : β) (first : Nat) :
    bindAllInto bind members b first =
      members.foldl (fun x member => member.bindInto bind x.1 x.2) (b, first) := by
  induction members generalizing b first with
  | nil => rw [bindAllInto, List.foldl_nil]
  | cons member rest ih =>
      rw [bindAllInto, List.foldl_cons]
      exact ih (member.bindInto bind b first).1 (member.bindInto bind b first).2

/-- A tuple is bound member by member, each from the index that the one before answered. -/
theorem bindInto_tuple {β : Type} (bind : β → Nat → Slot → β) (members : List Row) (b : β)
    (first : Nat) :
    (tuple members).bindInto bind b first =
      members.foldl (fun x member => member.bindInto bind x.1 x.2) (b, first) := by
  rw [bindInto, bindAllInto_eq_foldl_members]

/-! ## 3. Indices with a limit -/

mutual

/-- Binding where an index may not exceed the limit: there is no answer once one would. -/
def bindWithin {β : Type} (limit : Nat) (bind : β → Nat → Slot → β) : Row → β → Nat → Option (β × Nat)
  | .field f, b, first => if first + 1 ≤ limit then some (bind b first f.slot, first + 1) else none
  | .tuple members, b, first => bindAllWithin limit bind members b first

/-- Several rows with such indices, each from the column after the one before. -/
def bindAllWithin {β : Type} (limit : Nat) (bind : β → Nat → Slot → β) :
    List Row → β → Nat → Option (β × Nat)
  | [], b, first => some (b, first)
  | row :: rows, b, first => do
    let (b, next) ← row.bindWithin limit bind b first
    bindAllWithin limit bind rows b next

end

mutual

/-- No index exceeds the limit if the one behind the last column does not; a row without leaves asks for
none. -/
theorem bindWithin_eq {β : Type} (limit : Nat) (bind : β → Nat → Slot → β) :
    ∀ (row : Row) (b : β) (first : Nat), row.bindWithin limit bind b first =
      if row.leaves.length = 0 ∨ first + row.leaves.length ≤ limit then some (row.bindInto bind b first)
      else none
  | .field f, b, first => by simp [bindWithin, bindInto, leaves]
  | .tuple members, b, first => by
      rw [bindWithin, bindInto, leaves]
      exact bindAllWithin_eq limit bind members b first

theorem bindAllWithin_eq {β : Type} (limit : Nat) (bind : β → Nat → Slot → β) :
    ∀ (rows : List Row) (b : β) (first : Nat), bindAllWithin limit bind rows b first =
      if (leavesOfAll rows).length = 0 ∨ first + (leavesOfAll rows).length ≤ limit then
        some (bindAllInto bind rows b first)
      else none
  | [], b, first => by simp [bindAllWithin, bindAllInto, leavesOfAll]
  | row :: rows, b, first => by
      have hnext : (row.bindInto bind b first).2 = first + row.leaves.length := by
        rw [bindInto_eq_foldl]
      have hrest := bindAllWithin_eq limit bind rows (row.bindInto bind b first).1
        (row.bindInto bind b first).2
      rw [hnext] at hrest
      rw [bindAllWithin, bindWithin_eq limit bind row b first, bindAllInto, leavesOfAll,
        List.length_append]
      by_cases hfits : row.leaves.length = 0 ∨ first + row.leaves.length ≤ limit
      · have hboth : ((leavesOfAll rows).length = 0
              ∨ first + row.leaves.length + (leavesOfAll rows).length ≤ limit)
            ↔ row.leaves.length + (leavesOfAll rows).length = 0
              ∨ first + (row.leaves.length + (leavesOfAll rows).length) ≤ limit := by omega
        simp only [if_pos hfits, Option.bind_eq_bind, Option.bind_some, hnext, hrest, hboth]
      · have hneither : ¬ (row.leaves.length + (leavesOfAll rows).length = 0
            ∨ first + (row.leaves.length + (leavesOfAll rows).length) ≤ limit) := by omega
        rw [if_neg hfits, if_neg hneither]
        rfl

end

/-! ## 4. Consecutive columns -/

/-- **Binding a row enumerates its leaves in consecutive columns.** As many calls are made as there are
leaves; in order, each binds the storage of its leaf to the column that lies as far behind the first one as
the leaf stands behind the first leaf, and the index behind the last column is answered. Every binder is
handed these calls and no others. So a row of any other shape makes the same bindings if its leaves have
the same storage, and a tuple is bound as its members one after another. Where indices have a limit it is
never exceeded if the index behind the last column does not exceed it. -/
theorem bindInto_enumerates (row : Row) (first : Nat) :
    ((row.bindings first).1.length = row.leaves.length
      ∧ (∀ i f, row.leaves[i]? = some f → (row.bindings first).1[i]? = some (first + i, f.slot))
      ∧ (row.bindings first).2 = first + row.leaves.length)
    ∧ ∀ {β : Type} (bind : β → Nat → Slot → β) (b : β),
      row.bindInto bind b first =
          ((row.bindings first).1.foldl (fun b p => bind b p.1 p.2) b, (row.bindings first).2)
      ∧ (∀ other : Row, other.slots = row.slots →
          other.bindInto bind b first = row.bindInto bind b first)
      ∧ (∀ members, row = .tuple members → row.bindInto bind b first =
          members.foldl (fun x member => member.bindInto bind x.1 x.2) (b, first))
      ∧ ∀ limit, first + row.leaves.length ≤ limit →
          row.bindWithin limit bind b first = some (row.bindInto bind b first) := by
  refine ⟨⟨row.length_bindings first, fun i f h => row.getElem?_bindings first h, ?_⟩,
    fun bind b => ⟨row.bindInto_eq_replay bind b first, fun other h => bindInto_congr bind h b first,
      ?_, fun limit h => ?_⟩⟩
  · rw [bindings_eq]
  · rintro members rfl
    exact bindInto_tuple bind members b first
  · rw [bindWithin_eq, if_pos (Or.inr h)]

/-- A tuple in a tuple, bound from column 7 on where the largest index is 10; a flat row of the same
leaves makes the same bindings. -/
theorem bindInto_enumerates_nested :
    let inner : Row := .tuple [.field ⟨⟨.integral, 1⟩, false⟩, .field ⟨⟨.boolean, 2⟩, true⟩]
    let row : Row := .tuple [.field ⟨⟨.boolean, 0⟩, false⟩, inner]
    let flat : Row := .tuple [.field ⟨⟨.boolean, 0⟩, false⟩, .field ⟨⟨.integral, 1⟩, false⟩,
      .field ⟨⟨.boolean, 2⟩, false⟩]
    (row.bindings 7).1[2]? = some (9, ⟨.boolean, 2⟩)
    ∧ (row.bindings 7).2 = 10
    ∧ flat.slots = row.slots
    ∧ flat.bindInto (fun made i a => (i, a) :: made) [] 7
        = row.bindInto (fun made i a => (i, a) :: made) [] 7
    ∧ row.bindInto (fun made i a => (i, a) :: made) [] 7
        = inner.bindInto (fun made i a => (i, a) :: made) [(7, ⟨.boolean, 0⟩)] 8
    ∧ row.bindWithin 10 (fun made i a => (i, a) :: made) [] 7
        = some ([(9, ⟨.boolean, 2⟩), (8, ⟨.integral, 1⟩), (7, ⟨.boolean, 0⟩)], 10) := by
  intro inner row flat
  obtain ⟨⟨-, hcalls, hnext⟩, hbinder⟩ := row.bindInto_enumerates 7
  obtain ⟨-, hother, hmembers, hwithin⟩ := hbinder (fun made i a => (i, a) :: made) []
  have hslots : flat.slots = row.slots := rfl
  exact ⟨hcalls 2 _ rfl, hnext, hslots, hother flat hslots, hmembers _ rfl, hwithin 10 (by decide)⟩

end QueryTerms.Row
