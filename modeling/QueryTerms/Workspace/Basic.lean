/-
QueryTerms.Workspace.Basic — named objects over one store.

A workspace holds parameters, slots, rows, row buffers, cursors and renderers, each kind with names of
its own, over one store. Descriptions are resolved against it: names are looked up, fields that a
description asks for are allocated, and a description that names nothing there or mixes domains is
refused. Rows and buffers have one owner: what is moved into a row or a cursor loses its name.
-/
import QueryTerms.Renderer
import QueryTerms.View
import QueryTerms.Workspace.Description
import QueryTerms.Workspace.Registry

namespace QueryTerms

/-- Named objects over one store. -/
structure Workspace where
  store : Store := {}
  parameters : Registry AnyParameter := {}
  slots : Registry Slot := {}
  rows : Registry Row := {}
  buffers : Registry RowBuffer := {}
  cursors : Registry Cursor := {}
  renderers : Registry Renderer := {}

/-- Work on a workspace; `none` if it asks for what is not there. -/
abbrev Session := StateT Workspace Option

namespace Workspace

/-! ## 1. Looking up -/

/-- The object of a name in one of the registries. -/
def find {α : Type} (registry : Workspace → Registry α) (name : String) : Session α := do
  (registry (← get)).get? name

/-- Works on the store. -/
def onStore {α : Type} (f : Store → α × Store) : Session α := do
  let w ← get
  let (a, store) := f w.store
  set { w with store }
  pure a

/-- The row at a path: among the named rows, or else the row of a named cursor. -/
def rowAt (path : Path) : Session Row := do
  let w ← get
  let row ← (w.rows.get? path.name).or ((w.cursors.get? path.name).map Cursor.row)
  row.at? path.indices

/-- The field at a path. -/
def fieldAt (path : Path) : Session Field := do
  match ← rowAt path with
  | .field f => pure f
  | .tuple _ => failure

/-- Replaces the row at a path. -/
def replaceRow (path : Path) (new : Row) : Session Unit := do
  let w ← get
  match w.rows.get? path.name with
  | some row => set { w with rows := w.rows.insert path.name (row.replaceAt path.indices new) }
  | none =>
    let c ← w.cursors.get? path.name
    let c := { c with row := c.row.replaceAt path.indices new }
    set { w with cursors := w.cursors.insert path.name c }

/-- Takes a named buffer out of the workspace. -/
def takeBuffer (name : String) : Session RowBuffer := do
  let b ← find buffers name
  modify fun w => { w with buffers := w.buffers.erase name }
  pure b

/-! ## 2. Making rows -/

mutual

/-- Makes the row that a description asks for. -/
def makeRow : RowDescription → Session Row
  | .fresh d => do
    let f ← onStore (Field.new · d)
    pure (.field f)
  | .decoded d raw => do
    let f ← onStore (Field.ofRaw · d raw)
    pure (.field f)
  | .take name => do
    let row ← find rows name
    modify fun w => { w with rows := w.rows.erase name }
    pure row
  | .tuple members => do
    pure (.tuple (← makeRows members))

/-- Makes rows one after another. -/
def makeRows : List RowDescription → Session (List Row)
  | [] => pure []
  | d :: ds => do
    let row ← makeRow d
    let rows ← makeRows ds
    pure (row :: rows)

end

/-! ## 3. Making terms -/

mutual

/-- Makes the term that a description asks for. -/
def makeTerm : TermDescription → Session AnyTerm
  | .literal v => pure (.single (.literal v.native))
  | .column d table name => pure (.single (.column (d := d) table name))
  | .parameter name => do
    let p ← find parameters name
    pure (.single (.parameter p.parameter))
  | .orNull name => do
    let p ← find parameters name
    pure (.single (.orNull p.parameter))
  | .field path => do
    let f ← fieldAt path
    pure (.single (.field f))
  | .decoded none => do
    let f ← onStore (Field.new · .boolean)
    pure (.single (.field f))
  | .decoded (some raw) => do
    let f ← onStore (Field.ofRaw · .boolean raw)
    pure (.single (.field f))
  | .binary op left right => do
    let left ← (← makeTerm left).operand?
    let right ← (← makeTerm right).operand?
    pure (.single (.binary op left right))
  | .not operand => do
    let operand ← (← makeTerm operand).operand?
    pure (.single (.not operand))
  | .list d items => do
    AnyTerm.list? d (← makeTerms items)

/-- Makes terms one after another. -/
def makeTerms : List TermDescription → Session (List AnyTerm)
  | [] => pure []
  | d :: ds => do
    let t ← makeTerm d
    let ts ← makeTerms ds
    pure (t :: ts)

end

end Workspace

end QueryTerms
