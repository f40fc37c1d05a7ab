/-
QueryTerms.Workspace.Step — the steps of a session, and their answers.

A step makes, changes or asks a named object, and answers with the views of what it touched. A step
that asks for what is not there, or passes a value of the wrong domain, gives no answer; the others
answer whatever the state they find.
-/
import QueryTerms.Workspace.Basic

namespace QueryTerms

/-! ## 1. Steps -/

/-- A binding of a parameter, the domain of its value unchecked. -/
inductive ParameterCall where
  | set (v : Value)
  | setNull
  | setOption (v : Option Value)

/-- The binding in a domain, if its value is of that domain. -/
def ParameterCall.update? (d : Domain) : ParameterCall → Option (Parameter.Update d)
  | .set v => (v.as? d).map .set
  | .setNull => some .setNull
  | .setOption none => some (.setOption none)
  | .setOption (some v) => (v.as? d).map fun v => .setOption (some v)

/-- A call on a slot. -/
inductive SlotCall where
  | set (v : Value)
  | setNull
  | store (v : Value) (isNull : Bool)
  | decode (raw : RawColumn)
  | get

/-- A call on a row; only a field can be assigned to. -/
inductive RowCall where
  | assign (raw : RawColumn)
  | validate
  | invalidate

/-- Where a term is rendered to. -/
inductive Target where
  | dialect (d : Dialect)
  | plain
  | tagged
  | limited (room : Nat)

/-- One step of a session. -/
inductive Step where
  | makeParameter (name : String) (d : Domain) (trivialIsNull : Option Bool) (value : Option Value)
  | callParameter (name : String) (calls : List ParameterCall)
  | copyParameter (name source : String)
  | compareParameters (a b : String)
  | parameterNative (name : String)
  | makeSlot (name : String) (d : Domain)
  | shareSlot (name source : String)
  | callSlot (name : String) (call : SlotCall)
  | compareSlots (a b : String)
  | nameFieldSlot (name : String) (path : Path)
  | makeRow (name : String) (row : RowDescription)
  | showRow (path : Path)
  | callRow (path : Path) (call : RowCall)
  | recordBindings (path : Path) (first : Nat)
  | bindRow (path : Path) (first : Nat) (buffer : String)
  | makeBuffer (name : String) (rows : List RawRow)
  | pushRow (name : String) (row : RawRow)
  | bindSlot (name : String) (index : Nat) (slot : String)
  | fetch (name : String)
  | makeCursor (name : String) (row : RowDescription) (buffer : String)
  | next (name : String)
  | reset (name : String)
  | intoParts (name row buffer : String)
  | render (term : TermDescription) (target : Target)
  | showTerm (term : TermDescription)
  | makeRenderer (name : String) (d : Dialect)
  | copyRenderer (name source : String)
  | emit (name : String) (term : TermDescription)
  | write (name : String) (token : Token)
  | finish (name : String)

/-! ## 2. Answers -/

/-- How writing ended. -/
abbrev WriteResult := Except SerializeError Unit

/-- What a step answers. -/
inductive Answer where
  | parameter (v : ParameterView)
  | truth (b : Bool)
  | native (v : Value)
  | cell (v : CellView)
  | row (v : RowView)
  | bindings (made : List (Nat × Slot)) (next : Nat)
  | bound (buffer : BufferView) (next : Nat)
  | buffer (v : BufferView)
  | fetched (result : Except ColumnOutOfRange Bool) (buffer : BufferView)
      (slots : List (String × CellView))
  | cursor (v : CursorView)
  | moved (result : Except ColumnOutOfRange Bool) (cursor : CursorView)
  | parts (buffer : BufferView) (row : RowView)
  | rendered (result : WriteResult) (text : String) (d : Domain) (single : Bool)
  | term (v : TermView)
  | renderer (kind : Dialect.Kind) (text : String)
  | wrote (result : WriteResult) (text : String)
  | finished (text : String)

namespace Workspace

/-! ## 3. Parameters -/

/-- Registers a parameter under a name. -/
def putParameter {d : Domain} (name : String) (p : Parameter d) : Session Answer := do
  modify fun w => { w with parameters := w.parameters.insert name ⟨d, p⟩ }
  pure (.parameter p.view)

/-- A new parameter; without a value it holds the trivial one, without a policy the value is never
read as NULL. -/
def makeParameter (name : String) (d : Domain) (trivialIsNull : Option Bool) (value : Option Value) :
    Session Answer := do
  let p : Parameter d := { trivialIsNull := trivialIsNull.getD false }
  match value with
  | none => putParameter name p
  | some v => do
    let v ← v.as? d
    putParameter name { p with value := v }

/-- Calls a parameter several times in order. -/
def callParameter (name : String) (calls : List ParameterCall) : Session Answer := do
  let p ← find parameters name
  let updates : List (Parameter.Update p.domain) ←
    (calls.mapM (ParameterCall.update? p.domain) : Option _)
  putParameter name (p.parameter.updateAll updates)

/-- An independent copy of a parameter. -/
def copyParameter (name source : String) : Session Answer := do
  let p ← find parameters source
  putParameter name p.parameter

/-- Whether two parameters of one domain have equal value, policy and forced NULL. -/
def compareParameters (a b : String) : Session Answer := do
  let p ← find parameters a
  let q ← find parameters b
  if h : p.domain = q.domain then
    pure (.truth ((h ▸ p.parameter) = q.parameter))
  else failure

/-- The native value of a parameter. -/
def parameterNative (name : String) : Session Answer := do
  let p ← find parameters name
  pure (.native ⟨p.domain, p.parameter.value⟩)

/-! ## 4. Slots -/

/-- The view of a slot. -/
def showSlot (slot : Slot) : Session Answer := do
  pure (.cell (slot.view (← get).store))

/-- Registers a slot under a name. -/
def putSlot (name : String) (slot : Slot) : Session Answer := do
  modify fun w => { w with slots := w.slots.insert name slot }
  showSlot slot

/-- The store after a call on a slot. -/
def applySlotCall (slot : Slot) (call : SlotCall) (s : Store) : Option Store := do
  match call with
  | .set v => pure (s.set slot (← v.as? slot.domain))
  | .setNull => pure (s.setNull slot)
  | .store v isNull => pure (s.put slot ⟨← v.as? slot.domain, isNull⟩)
  | .decode raw => pure (s.decodeInto slot raw)
  | .get => pure s

/-- Calls a slot. -/
def callSlot (name : String) (call : SlotCall) : Session Answer := do
  let slot ← find slots name
  let w ← get
  let store ← applySlotCall slot call w.store
  set { w with store }
  showSlot slot

/-! ## 5. Rows -/

/-- The view of a row. -/
def showRow (row : Row) : Session Answer := do
  pure (.row (row.view (← get).store))

/-- Calls a row. -/
def callRow (path : Path) (call : RowCall) : Session Answer := do
  let row ← rowAt path
  let row ← match call, row with
    | .assign raw, .field f => do
      let f ← onStore (f.assign · raw)
      pure (.field f)
    | .assign _, .tuple _ => failure
    | .validate, row => pure row.validate
    | .invalidate, row => onStore row.invalidate
  replaceRow path row
  showRow row

/-- Binds a row to a named buffer. -/
def bindRow (path : Path) (first : Nat) (buffer : String) : Session Answer := do
  let row ← rowAt path
  let b ← find buffers buffer
  let (b, next) := row.bindInto RowBuffer.bind b first
  modify fun w => { w with buffers := w.buffers.insert buffer b }
  pure (.bound b.view next)

/-! ## 6. Buffers -/

/-- Registers a buffer under a name. -/
def putBuffer (name : String) (b : RowBuffer) : Session Answer := do
  modify fun w => { w with buffers := w.buffers.insert name b }
  pure (.buffer b.view)

/-- Fetches a row of a buffer; every named slot is shown. -/
def fetch (name : String) : Session Answer := do
  let b ← find buffers name
  let (result, b) ← onStore fun s =>
    let (result, b, s) := b.fetch s
    ((result, b), s)
  let _ ← putBuffer name b
  let w ← get
  pure (.fetched result b.view (w.slots.entries.map fun e => (e.1, e.2.view w.store)))

/-! ## 7. Cursors -/

/-- Registers a cursor under a name. -/
def putCursor (name : String) (c : Cursor) : Session CursorView := do
  modify fun w => { w with cursors := w.cursors.insert name c }
  pure (c.view (← get).store)

/-- A cursor over a named buffer, which moves into it. -/
def makeCursor (name : String) (row : RowDescription) (buffer : String) : Session Answer := do
  let row ← makeRow row
  let b ← takeBuffer buffer
  let c ← onStore (Cursor.new row b)
  pure (.cursor (← putCursor name c))

/-- Moves a cursor to the next row. -/
def next (name : String) : Session Answer := do
  let c ← find cursors name
  let (result, c) ← onStore fun s =>
    let (result, c, s) := c.next s
    ((result, c), s)
  pure (.moved result (← putCursor name c))

/-- Drops the current row of a cursor. -/
def reset (name : String) : Session Answer := do
  let c ← find cursors name
  let c ← onStore c.reset
  pure (.cursor (← putCursor name c))

/-- Ends a cursor; its row and its buffer get names again. -/
def intoParts (name row buffer : String) : Session Answer := do
  let c ← find cursors name
  modify fun w =>
    { w with
      cursors := w.cursors.erase name
      rows := w.rows.insert row c.row
      buffers := w.buffers.insert buffer c.source }
  pure (.parts c.source.view (c.row.view (← get).store))

/-! ## 8. Rendering -/

/-- Serializes a term into a target of its own: the result, and all that was written. -/
def renderTo {d : Domain} (s : Store) (t : Term d) : Target → WriteResult × String
  | .dialect d =>
    let (result, r) := t.serializeInto Renderer.sink s { dialect := d }
    (result, r.text)
  | .plain => t.serializeInto Sink.plain s ""
  | .tagged => t.serializeInto Sink.tagged s ""
  | .limited room =>
    let (result, text) := t.serializeInto Sink.limited s { room }
    (result, text.text)

/-- Renders a term. -/
def render (term : TermDescription) (target : Target) : Session Answer := do
  let t ← makeTerm term
  let (result, text) := renderTo (← get).store t.term target
  pure (.rendered result text t.domain t.term.isSingle)

/-- Shows the parts of a term. -/
def showTerm (term : TermDescription) : Session Answer := do
  let t ← makeTerm term
  pure (.term (t.term.view (← get).store))

/-- Registers a renderer under a name. -/
def putRenderer (name : String) (r : Renderer) : Session Unit :=
  modify fun w => { w with renderers := w.renderers.insert name r }

/-- A renderer under a name, new or copied. -/
def startRenderer (name : String) (r : Renderer) : Session Answer := do
  putRenderer name r
  pure (.renderer r.dialect.kind r.text)

/-- Writes into a named renderer; what was written before a failure stays. -/
def writeInto (name : String) (writing : Writing Renderer Unit) : Session Answer := do
  let r ← find renderers name
  let (result, r) := writing.run.run r
  putRenderer name r
  pure (.wrote result r.text)

/-- Ends a renderer. -/
def finish (name : String) : Session Answer := do
  let r ← find renderers name
  modify fun w => { w with renderers := w.renderers.erase name }
  pure (.finished r.text)

/-! ## 9. Performing steps -/

/-- Performs one step. -/
def perform : Step → Session Answer
  | .makeParameter name d trivialIsNull value => makeParameter name d trivialIsNull value
  | .callParameter name calls => callParameter name calls
  | .copyParameter name source => copyParameter name source
  | .compareParameters a b => compareParameters a b
  | .parameterNative name => parameterNative name
  | .makeSlot name d => do putSlot name (← onStore (Store.allocate · d))
  | .shareSlot name source => do putSlot name (← find slots source)
  | .callSlot name call => callSlot name call
  | .compareSlots a b => do pure (.truth ((← find slots a) = (← find slots b)))
  | .nameFieldSlot name path => do putSlot name (← fieldAt path).slot
  | .makeRow name row => do
    let row ← makeRow row
    modify fun w => { w with rows := w.rows.insert name row }
    showRow row
  | .showRow path => do showRow (← rowAt path)
  | .callRow path call => callRow path call
  | .recordBindings path first => do
    let (made, next) := (← rowAt path).bindings first
    pure (.bindings made next)
  | .bindRow path first buffer => bindRow path first buffer
  | .makeBuffer name rows => putBuffer name (.ofRows rows)
  | .pushRow name row => do putBuffer name ((← find buffers name).push row)
  | .bindSlot name index slot => do
    putBuffer name ((← find buffers name).bind index (← find slots slot))
  | .fetch name => fetch name
  | .makeCursor name row buffer => makeCursor name row buffer
  | .next name => next name
  | .reset name => reset name
  | .intoParts name row buffer => intoParts name row buffer
  | .render term target => render term target
  | .showTerm term => showTerm term
  | .makeRenderer name d => startRenderer name { dialect := d }
  | .copyRenderer name source => do startRenderer name (← find renderers source)
  | .emit name term => do
    let t ← makeTerm term
    writeInto name (t.term.serialize Renderer.sink (← get).store)
  | .write name token => writeInto name (Renderer.sink.put token)
  | .finish name => finish name

/-- Performs steps in order; the answers of all of them. -/
def performAll (steps : List Step) : Session (List Answer) :=
  steps.mapM perform

end Workspace

end QueryTerms
