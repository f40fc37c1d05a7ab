/-
QueryTerms.Store — the storage that result fields share with row buffers.

A slot names a cell of a store; two slots are the same storage exactly if they are equal. A cell holds
a value and whether it is NULL, each as it was last written. Every slot reads as NULL with the trivial
value until it is written, so reading never fails.
-/
import Std.Data.TreeMap
import QueryTerms.Domain

namespace QueryTerms

/-- A raw column: NULL, or bytes. -/
abbrev RawColumn := Option (List UInt8)

/-- The bytes of a text in UTF-8. -/
def utf8 (text : String) : List UInt8 :=
  text.toList.flatMap String.utf8EncodeChar

/-! ## 1. Cells -/

/-- A value and whether it is NULL. -/
structure Cell (d : Domain) where
  value : d.Native
  isNull : Bool
  deriving DecidableEq

namespace Cell

variable {d : Domain}

/-- NULL, with the trivial value. -/
def null : Cell d := ⟨d.trivialValue, true⟩

/-- A value that is not NULL. -/
def nonNull (v : d.Native) : Cell d := ⟨v, false⟩

/-- What a raw column stands for in a domain. -/
def ofRaw : RawColumn → Cell d
  | some bytes => nonNull (d.decode bytes)
  | none => null

/-- The value, unless it is NULL. -/
def asOption (c : Cell d) : Option d.Native :=
  if c.isNull then none else some c.value

end Cell

/-! ## 2. Slots and stores -/

/-- A handle on the storage of one column; equal slots share their storage. -/
structure Slot where
  domain : Domain
  id : Nat
  deriving DecidableEq, Repr

/-- The cells that slots name, and the first number that no slot has been given. -/
structure Store where
  booleans : Std.TreeMap Nat (Cell .boolean) := {}
  integrals : Std.TreeMap Nat (Cell .integral) := {}
  next : Nat := 0

namespace Store

/-- The cell of a slot. -/
def get (s : Store) : (slot : Slot) → Cell slot.domain
  | ⟨.boolean, i⟩ => s.booleans.getD i .null
  | ⟨.integral, i⟩ => s.integrals.getD i .null

/-- Writes a cell as given. -/
def put (s : Store) : (slot : Slot) → Cell slot.domain → Store
  | ⟨.boolean, i⟩, c => { s with booleans := s.booleans.insert i c }
  | ⟨.integral, i⟩, c => { s with integrals := s.integrals.insert i c }

/-- Writes a value that is not NULL. -/
def set (s : Store) (slot : Slot) (v : slot.domain.Native) : Store :=
  s.put slot (.nonNull v)

/-- Writes NULL. -/
def setNull (s : Store) (slot : Slot) : Store :=
  s.put slot .null

/-- Writes what a raw column stands for in the slot's domain. -/
def decodeInto (s : Store) (slot : Slot) (raw : RawColumn) : Store :=
  s.put slot (.ofRaw raw)

/-- Writes NULL to several slots. -/
def clear (s : Store) (slots : List Slot) : Store :=
  slots.foldl setNull s

/-- A slot that no one else has, reading NULL. -/
def allocate (s : Store) (d : Domain) : Slot × Store :=
  let slot : Slot := ⟨d, s.next⟩
  (slot, { s.setNull slot with next := s.next + 1 })

/-! ## 3. Reading after writing -/

@[simp] theorem get_put_self (s : Store) (slot : Slot) (c : Cell slot.domain) :
    (s.put slot c).get slot = c := by
  obtain ⟨d, i⟩ := slot
  cases d <;> simp [put, get]

/-- Writing a cell changes no other slot. -/
theorem get_put_of_ne (s : Store) {a b : Slot} (h : a ≠ b) (c : Cell a.domain) :
    (s.put a c).get b = s.get b := by
  obtain ⟨d, i⟩ := a
  obtain ⟨e, j⟩ := b
  cases d <;> cases e <;> simp_all [put, get, Std.TreeMap.getD_insert]

/-- Clearing writes NULL to the slots listed, and nothing else. -/
theorem get_clear (s : Store) (slots : List Slot) (a : Slot) :
    (s.clear slots).get a = if a ∈ slots then .null else s.get a := by
  unfold clear
  induction slots generalizing s with
  | nil => simp
  | cons b rest ih =>
    by_cases hab : a = b
    · subst hab
      simp [ih, setNull]
    · simp [ih, setNull, hab, get_put_of_ne s (Ne.symm hab)]

end Store

end QueryTerms
