/-
QueryTerms.Row — result rows: fields, nested in tuples to any depth.

The leaves of a row are its fields from left to right; they occupy consecutive columns when the row is
bound. Validity is set for all leaves at once, and dropping a row clears the storage of every leaf.
-/
import QueryTerms.Field

namespace QueryTerms

/-- A field, or a tuple of rows. -/
inductive Row where
  | field (f : Field)
  | tuple (members : List Row)

namespace Row

/-! ## 1. Leaves -/

mutual

/-- The fields of a row, from left to right. -/
def leaves : Row → List Field
  | .field f => [f]
  | .tuple members => leavesOfAll members

/-- The fields of several rows, one row after another. -/
def leavesOfAll : List Row → List Field
  | [] => []
  | row :: rows => row.leaves ++ leavesOfAll rows

end

/-- The storage of the leaves. -/
def slots (row : Row) : List Slot :=
  row.leaves.map Field.slot

/-! ## 2. Validity -/

mutual

/-- Replaces every leaf. -/
def mapLeaves (g : Field → Field) : Row → Row
  | .field f => .field (g f)
  | .tuple members => .tuple (mapLeavesOfAll g members)

/-- Replaces every leaf of several rows. -/
def mapLeavesOfAll (g : Field → Field) : List Row → List Row
  | [] => []
  | row :: rows => row.mapLeaves g :: mapLeavesOfAll g rows

end

mutual

@[simp] theorem leaves_mapLeaves (g : Field → Field) :
    ∀ row : Row, (row.mapLeaves g).leaves = row.leaves.map g
  | .field f => by simp [mapLeaves, leaves]
  | .tuple members => by simp [mapLeaves, leaves, leavesOfAll_mapLeavesOfAll g members]

theorem leavesOfAll_mapLeavesOfAll (g : Field → Field) :
    ∀ rows : List Row, leavesOfAll (mapLeavesOfAll g rows) = (leavesOfAll rows).map g
  | [] => by simp [mapLeavesOfAll, leavesOfAll]
  | row :: rows => by
    simp [mapLeavesOfAll, leavesOfAll, leaves_mapLeaves g row, leavesOfAll_mapLeavesOfAll g rows]

end

/-- Declares that a row stands in every leaf. -/
def validate (row : Row) : Row :=
  row.mapLeaves Field.validate

/-- Drops the row from every leaf; all their storage is NULL afterwards. -/
def invalidate (row : Row) (s : Store) : Row × Store :=
  (row.mapLeaves fun f => { f with isValid := false }, s.clear row.slots)

/-! ## 3. Binding -/

mutual

/-- Binds the leaves to consecutive columns from `first` on, one `bind` call each; answers the index
after the last column too. -/
def bindInto {β : Type} (bind : β → Nat → Slot → β) : Row → β → Nat → β × Nat
  | .field f, b, first => (bind b first f.slot, first + 1)
  | .tuple members, b, first => bindAllInto bind members b first

/-- Binds several rows, each from the column after the one before. -/
def bindAllInto {β : Type} (bind : β → Nat → Slot → β) : List Row → β → Nat → β × Nat
  | [], b, first => (b, first)
  | row :: rows, b, first =>
    let (b, next) := row.bindInto bind b first
    bindAllInto bind rows b next

end

mutual

/-- Binding goes over the leaves, numbered from `first` on. -/
theorem bindInto_eq_foldl {β : Type} (bind : β → Nat → Slot → β) :
    ∀ (row : Row) (b : β) (first : Nat), row.bindInto bind b first =
      ((row.slots.zipIdx first).foldl (fun b p => bind b p.2 p.1) b, first + row.leaves.length)
  | .field f, b, first => by simp [bindInto, slots, leaves]
  | .tuple members, b, first => by
    simp [bindInto, slots, leaves, bindAllInto_eq_foldl bind members b first]

/-- Rows bound one after another number their leaves through. -/
theorem bindAllInto_eq_foldl {β : Type} (bind : β → Nat → Slot → β) :
    ∀ (rows : List Row) (b : β) (first : Nat), bindAllInto bind rows b first =
      ((((leavesOfAll rows).map Field.slot).zipIdx first).foldl (fun b p => bind b p.2 p.1) b,
        first + (leavesOfAll rows).length)
  | [], b, first => by simp [bindAllInto, leavesOfAll]
  | row :: rows, b, first => by
    simp [bindAllInto, leavesOfAll, slots, bindInto_eq_foldl bind row b first,
      bindAllInto_eq_foldl bind rows, List.zipIdx_append, Nat.add_assoc]

end

/-- The bindings that a row makes from column `first` on, in order. -/
def bindings (row : Row) (first : Nat) : List (Nat × Slot) × Nat :=
  row.bindInto (fun made i slot => made ++ [(i, slot)]) [] first

/-! ## 4. Members -/

/-- The row at a path of indices into nested tuples. -/
def at? : Row → List Nat → Option Row
  | row, [] => some row
  | .field _, _ :: _ => none
  | .tuple members, i :: path => do (← members[i]?).at? path

/-- Replaces the row at a path; a path that leads nowhere changes nothing. -/
def replaceAt : Row → List Nat → Row → Row
  | _, [], new => new
  | .field f, _ :: _, _ => .field f
  | .tuple members, i :: path, new => .tuple (members.modify i (replaceAt · path new))

end Row

end QueryTerms
