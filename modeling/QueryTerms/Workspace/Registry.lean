/-
QueryTerms.Workspace.Registry — objects by name.

A registry holds at most one object of each name. Registering under a name that is taken replaces the
object.
-/

namespace QueryTerms

/-- Objects by name, the latest first. -/
structure Registry (α : Type) where
  entries : List (String × α) := []

namespace Registry

variable {α : Type}

/-- The object of a name. -/
def get? (r : Registry α) (name : String) : Option α :=
  r.entries.lookup name

/-- Removes the object of a name. -/
def erase (r : Registry α) (name : String) : Registry α :=
  ⟨r.entries.filter fun e => e.1 ≠ name⟩

/-- Registers an object under a name. -/
def insert (r : Registry α) (name : String) (a : α) : Registry α :=
  ⟨(name, a) :: (r.erase name).entries⟩

theorem get?_erase (r : Registry α) (name other : String) :
    (r.erase name).get? other = if other = name then none else r.get? other := by
  unfold get? erase
  induction r.entries with
  | nil => simp
  | cons e rest ih =>
    by_cases he : e.1 = name <;> by_cases ho : other = e.1 <;> grind

theorem get?_insert (r : Registry α) (name other : String) (a : α) :
    (r.insert name a).get? other = if other = name then some a else r.get? other := by
  have h := get?_erase r name other
  unfold get? insert at *
  rw [List.lookup_cons, h]
  by_cases ho : other = name
  · simp [ho]
  · simp [ho, beq_eq_false_iff_ne.2 ho]

end Registry

end QueryTerms
