/-
QueryTerms.Field — one column of a result row.

A field is a slot and a flag: whether a row stands in it. Reading a field that holds no row is an
access error, which is different from reading a NULL of a row that is there. The slot may be written
through other handles meanwhile; the flag decides alone whether it may be read.
-/
import QueryTerms.Store
import QueryTerms.Sink

namespace QueryTerms

/-- The readings of a field that an access error can name. -/
inductive Accessor where
  | value
  | isNull
  deriving DecidableEq, Repr

/-- The name of a reading. -/
def Accessor.name : Accessor → String
  | .value => "value"
  | .isNull => "is_null"

/-- A field was read that holds no row. -/
inductive AccessError where
  | nonExistentRow (accessor : Accessor)
  deriving DecidableEq, Repr

/-- What a user is told about an access error. -/
def AccessError.message : AccessError → String
  | .nonExistentRow accessor => "accessing " ++ accessor.name ++ " in non-existing row"

/-- One column of a result row. -/
structure Field where
  slot : Slot
  /-- Whether a row stands in the field. -/
  isValid : Bool := false
  deriving DecidableEq, Repr

namespace Field

/-- The domain of the field's values. -/
abbrev domain (f : Field) : Domain := f.slot.domain

/-! ## 1. Making and filling -/

/-- A field without a row, with storage of its own. -/
def new (s : Store) (d : Domain) : Field × Store :=
  let (slot, s) := s.allocate d
  (⟨slot, false⟩, s)

/-- Decodes a column into the field, which is valid from then on. -/
def assign (f : Field) (s : Store) (raw : RawColumn) : Field × Store :=
  ({ f with isValid := true }, s.decodeInto f.slot raw)

/-- A valid field decoded from a column. -/
def ofRaw (s : Store) (d : Domain) (raw : RawColumn) : Field × Store :=
  let (f, s) := new s d
  f.assign s raw

/-- Declares that a row stands in the field. -/
def validate (f : Field) : Field :=
  { f with isValid := true }

/-- Drops the row: no reading is allowed, and the storage is NULL. -/
def invalidate (f : Field) (s : Store) : Field × Store :=
  ({ f with isValid := false }, s.setNull f.slot)

/-! ## 2. Reading -/

/-- The cell, for the named reading; refused without a row. -/
def cell? (f : Field) (s : Store) (accessor : Accessor) : Except AccessError (Cell f.domain) :=
  if f.isValid then .ok (s.get f.slot) else .error (.nonExistentRow accessor)

/-- The value, also of a NULL. -/
def value? (f : Field) (s : Store) : Except AccessError f.domain.Native :=
  (f.cell? s .value).map Cell.value

/-- Whether the column is NULL. -/
def isNull? (f : Field) (s : Store) : Except AccessError Bool :=
  (f.cell? s .isNull).map Cell.isNull

/-- The value, or `none` for NULL. -/
def asOption? (f : Field) (s : Store) : Except AccessError (Option f.domain.Native) :=
  (f.cell? s .value).map Cell.asOption

/-- The value in the default spelling, or `NULL`; nothing without a row. -/
def display? (f : Field) (s : Store) : Option String :=
  match f.cell? s .value with
  | .ok c => some (if c.isNull then Token.plainText .null else Token.plainText (.ofNative c.value))
  | .error _ => none

end Field

end QueryTerms
