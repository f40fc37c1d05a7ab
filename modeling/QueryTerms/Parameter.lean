/-
QueryTerms.Parameter — values bound to the placeholders of a query, rebound between executions.

A parameter is NULL for one of two reasons, which are kept apart. Either NULL was bound, and no value
since: the null is forced. Or the parameter was created under the policy that the trivial value means
NULL, and it holds the trivial value. The policy never changes after creation. Binding NULL resets the
value, so a parameter that is NULL always holds the trivial value.
-/
import QueryTerms.Domain

namespace QueryTerms

/-- Why a parameter is NULL, or that it is not. -/
inductive NullState where
  | notNull
  /-- The value is trivial, and the policy reads the trivial value as NULL. -/
  | trivialAsNull
  /-- NULL was bound. -/
  | forced
  deriving DecidableEq, Repr

/-- A value bound to a placeholder of a query. -/
structure Parameter (d : Domain) where
  value : d.Native := d.trivialValue
  /-- The policy: whether the trivial value reads as NULL. -/
  trivialIsNull : Bool := false
  forcedNull : Bool := false
  deriving DecidableEq

namespace Parameter

variable {d : Domain}

/-! ## 1. Binding -/

/-- Binds a value; a forced NULL ends. -/
def set (p : Parameter d) (v : d.Native) : Parameter d :=
  { p with value := v, forcedNull := false }

/-- Binds NULL; the value becomes trivial. -/
def setNull (p : Parameter d) : Parameter d :=
  { p with value := d.trivialValue, forcedNull := true }

/-- Binds a value, or NULL if there is none. -/
def setOption (p : Parameter d) : Option d.Native → Parameter d
  | some v => p.set v
  | none => p.setNull

/-- One binding, as data. -/
inductive Update (d : Domain) where
  | set (v : d.Native)
  | setNull
  | setOption (v : Option d.Native)

/-- Makes one binding. -/
def update (p : Parameter d) : Update d → Parameter d
  | .set v => p.set v
  | .setNull => p.setNull
  | .setOption v => p.setOption v

/-- Makes bindings one after another. -/
def updateAll (p : Parameter d) (us : List (Update d)) : Parameter d :=
  us.foldl update p

/-! ## 2. Reading -/

/-- A forced NULL is forced even where the policy holds too. -/
def nullState (p : Parameter d) : NullState :=
  if p.forcedNull then .forced
  else if p.trivialIsNull && Domain.isTrivial p.value then .trivialAsNull
  else .notNull

/-- Whether the parameter is NULL, for either reason. -/
def isNull (p : Parameter d) : Bool :=
  p.nullState ≠ .notNull

/-- The value, unless the parameter is NULL. -/
def asOption (p : Parameter d) : Option d.Native :=
  if p.isNull then none else some p.value

end Parameter

/-- A parameter of either domain. -/
structure AnyParameter where
  domain : Domain
  parameter : Parameter domain

end QueryTerms
