/-
QueryTerms.Proofs.SessionEffects — what the steps of a session can do to a workspace.

A step is made of work in order, each piece of which may ask for something that is not there. Work that
succeeds is taken apart by one lemma for each way of making it up (`run_bind_eq_some` and its like), so
no proof has to open the state of a session.

A step changes named objects of few kinds (`Step.parts`) and leaves all others as they are; it may
change what is stored and take new storage, but never gives any back (`Workspace.touches_perform`). That
is shown once for each piece of work, for every list of kinds that has those which the piece needs, so
pieces go together without any weakening.

  §1  new storage
  §2  taking work apart
  §3  the parts of a workspace
  §4  work on them
  §5  all steps
-/
import QueryTerms.Proofs.CursorSteps
import QueryTerms.Workspace.Step

namespace QueryTerms

/-! ## 1. New storage -/

namespace Store

/-- Writing takes no new storage. -/
@[simp] theorem next_put (s : Store) (slot : Slot) (c : Cell slot.domain) :
    (s.put slot c).next = s.next := by
  obtain ⟨d, i⟩ := slot
  cases d <;> rfl

/-- Clearing takes no new storage. -/
@[simp] theorem next_clear (s : Store) (slots : List Slot) : (s.clear slots).next = s.next := by
  unfold clear
  induction slots generalizing s with
  | nil => rfl
  | cons a rest ih => simp [ih, setNull]

/-- A delivery writes to slots that are there already. -/
@[simp] theorem next_deliver (bindings : List (Nat × Slot)) (row : RawRow) (s : Store) :
    (RowBuffer.deliver bindings row s).next = s.next := by
  unfold RowBuffer.deliver
  induction bindings generalizing s with
  | nil => rfl
  | cons p rest ih =>
      obtain ⟨i, slot⟩ := p
      rw [List.foldl_cons, ih, decodeInto, next_put]

end Store

/-- A fetch takes no new storage. -/
@[simp] theorem RowBuffer.next_fetch (b : RowBuffer) (s : Store) : (b.fetch s).2.2.next = s.next := by
  unfold fetch
  split
  · rfl
  · split
    · rfl
    · simp

/-- A call of `next` takes no storage. -/
@[simp] theorem Cursor.next_store_next (c : Cursor) (s : Store) : (c.next s).2.2.next = s.next := by
  rcases c.next_cases s with ⟨-, hnext⟩ | ⟨raw, rest, -, -, -, hnext⟩ | ⟨-, -, hnext⟩
    | ⟨raw, rest, m, -, -, -, -, hnext⟩
  · rw [hnext]
  · simp [hnext]
  · simp [hnext]
  · simp [hnext]

namespace Workspace

variable {α β : Type}

/-! ## 2. Taking work apart -/

/-- Work that two others make up, one after the other. -/
theorem run_bind_eq_some {m : Session α} {f : α → Session β} {w w' : Workspace} {b : β} :
    (m >>= f).run w = some (b, w')
      ↔ ∃ a w₁, m.run w = some (a, w₁) ∧ (f a).run w₁ = some (b, w') := by
  rw [StateT.run_bind, Option.bind_eq_bind, Option.bind_eq_some_iff]
  constructor
  · intro h
    obtain ⟨⟨a, w₁⟩, hm, hf⟩ := h
    exact ⟨a, w₁, hm, hf⟩
  · intro h
    obtain ⟨a, w₁, hm, hf⟩ := h
    exact ⟨(a, w₁), hm, hf⟩

/-- Work that only answers. -/
theorem run_pure_eq_some {a b : α} {w w' : Workspace} :
    (pure a : Session α).run w = some (b, w') ↔ b = a ∧ w' = w := by
  constructor
  · intro h
    cases h
    exact ⟨rfl, rfl⟩
  · intro h
    obtain ⟨rfl, rfl⟩ := h
    rfl

/-- Work that asks for something which may not be there. -/
theorem run_lift_eq_some {o : Option α} {b : α} {w w' : Workspace} :
    (liftM o : Session α).run w = some (b, w') ↔ o = some b ∧ w' = w := by
  cases o with
  | none =>
      constructor
      · intro h
        cases h
      · intro h
        cases h.1
  | some a =>
      constructor
      · intro h
        cases h
        exact ⟨rfl, rfl⟩
      · intro h
        obtain ⟨h, rfl⟩ := h
        cases h
        rfl

/-- Looking up a name finds what the registry has, and changes nothing. -/
theorem run_find_eq_some {registry : Workspace → Registry α} {name : String} {a : α}
    {w w' : Workspace} : (find registry name).run w = some (a, w')
      ↔ (registry w).get? name = some a ∧ w' = w := by
  unfold find
  rw [run_bind_eq_some]
  constructor
  · intro h
    obtain ⟨v, w₁, hget, hlift⟩ := h
    cases hget
    exact run_lift_eq_some.1 hlift
  · intro h
    exact ⟨w, w, rfl, run_lift_eq_some.2 h⟩

theorem run_get_eq_some {v w w' : Workspace} :
    (get : Session Workspace).run w = some (v, w') ↔ v = w ∧ w' = w :=
  run_pure_eq_some

theorem run_set_eq_some {v w w' : Workspace} {u : PUnit} :
    (set v : Session PUnit).run w = some (u, w') ↔ w' = v := by
  constructor
  · intro h
    cases h
    rfl
  · intro h
    cases h
    rfl

theorem run_modify_eq_some {g : Workspace → Workspace} {w w' : Workspace} {u : PUnit} :
    (modify g : Session PUnit).run w = some (u, w') ↔ w' = g w :=
  run_set_eq_some (w := w)

/-- Work on the store alone, which cannot fail. -/
theorem run_onStore_eq_some {g : Store → α × Store} {a : α} {w w' : Workspace} :
    (onStore g).run w = some (a, w')
      ↔ a = (g w.store).1 ∧ w' = { w with store := (g w.store).2 } :=
  run_pure_eq_some

/-! ## 3. The parts of a workspace -/

end Workspace

/-- The kinds of named objects. -/
inductive Part where
  | parameters
  | slots
  | rows
  | buffers
  | cursors
  | renderers
  deriving DecidableEq

/-- The objects of a kind. -/
def Part.Object : Part → Type
  | .parameters => AnyParameter
  | .slots => Slot
  | .rows => Row
  | .buffers => RowBuffer
  | .cursors => Cursor
  | .renderers => Renderer

namespace Workspace

/-- The named objects of a kind. -/
def part (w : Workspace) : (p : Part) → Registry p.Object
  | .parameters => w.parameters
  | .slots => w.slots
  | .rows => w.rows
  | .buffers => w.buffers
  | .cursors => w.cursors
  | .renderers => w.renderers

/-- The workspace with other named objects of a kind. -/
def withPart (w : Workspace) : (p : Part) → Registry p.Object → Workspace
  | .parameters, r => { w with parameters := r }
  | .slots, r => { w with slots := r }
  | .rows, r => { w with rows := r }
  | .buffers, r => { w with buffers := r }
  | .cursors, r => { w with cursors := r }
  | .renderers, r => { w with renderers := r }

/-- Exchanging the objects of one kind leaves those of the others. -/
theorem part_withPart_of_ne (w : Workspace) {p q : Part} (h : q ≠ p) (r : Registry p.Object) :
    (w.withPart p r).part q = w.part q := by
  cases p <;> cases q <;> first | rfl | exact absurd rfl h

theorem store_withPart (w : Workspace) (p : Part) (r : Registry p.Object) :
    (w.withPart p r).store = w.store := by
  cases p <;> rfl

/-- Nothing happens to the named objects but to those of some kinds, and no storage is given back. What
is stored may change. -/
structure SameBut (ps : List Part) (w w' : Workspace) : Prop where
  part_eq : ∀ p, p ∉ ps → w'.part p = w.part p
  next_le : w.store.next ≤ w'.store.next

theorem SameBut.refl (ps : List Part) (w : Workspace) : w.SameBut ps w :=
  ⟨fun _ _ => rfl, Nat.le_refl _⟩

/-- What two pieces of work leave alone, both together leave alone. -/
theorem SameBut.trans {ps : List Part} {u v w : Workspace} (h : u.SameBut ps v)
    (h' : v.SameBut ps w) : u.SameBut ps w :=
  ⟨fun p hp => (h'.part_eq p hp).trans (h.part_eq p hp), Nat.le_trans h.next_le h'.next_le⟩

theorem sameBut_withPart {ps : List Part} (p : Part) (h : p ∈ ps) (w : Workspace)
    (r : Registry p.Object) : w.SameBut ps (w.withPart p r) where
  part_eq := by
    intro q hq
    refine w.part_withPart_of_ne (fun heq => hq ?_) r
    rw [heq]
    exact h
  next_le := Nat.le_of_eq (congrArg Store.next (w.store_withPart p r)).symm

theorem sameBut_withStore (ps : List Part) {w : Workspace} {s : Store}
    (h : w.store.next ≤ s.next) : w.SameBut ps { w with store := s } where
  part_eq := fun p _ => by cases p <;> rfl
  next_le := h

/-- Work that touches named objects of these kinds at most. -/
structure Touches (ps : List Part) (m : Session α) : Prop where
  sameBut : ∀ {w a w'}, m.run w = some (a, w') → w.SameBut ps w'

section Pieces

variable {ps : List Part}

/-- Work that leaves the workspace as it is touches nothing. -/
theorem touches_of_unchanged {m : Session α} (h : ∀ {w a w'}, m.run w = some (a, w') → w' = w) :
    Touches ps m where
  sameBut := by
    intro w a w' hrun
    rw [h hrun]
    exact .refl ps w

@[simp] theorem touches_pure (a : α) : Touches ps (pure a) :=
  touches_of_unchanged fun h => (run_pure_eq_some.1 h).2

/-- Work made of two pieces touches what the pieces do. -/
@[simp] theorem touches_bind {m : Session α} {f : α → Session β} (hm : Touches ps m)
    (hf : ∀ a, Touches ps (f a)) : Touches ps (m >>= f) where
  sameBut := by
    intro w b w' h
    obtain ⟨a, w₁, hfirst, hsecond⟩ := run_bind_eq_some.1 h
    exact (hm.sameBut hfirst).trans ((hf a).sameBut hsecond)

@[simp] theorem touches_map (f : α → β) {m : Session α} (hm : Touches ps m) :
    Touches ps (f <$> m) := by
  rw [← bind_pure_comp]
  exact touches_bind hm fun a => touches_pure (f a)

@[simp] theorem touches_lift (o : Option α) : Touches ps (liftM o : Session α) :=
  touches_of_unchanged fun h => (run_lift_eq_some.1 h).2

@[simp] theorem touches_failure : Touches ps (failure : Session α) where
  sameBut := by
    intro w a w' h
    cases h

@[simp] theorem touches_get : Touches ps (get : Session Workspace) :=
  touches_of_unchanged fun h => (run_get_eq_some.1 h).2

/-- Looking up a name touches nothing, whatever kind it is of. -/
@[simp] theorem touches_find (registry : Workspace → Registry α) (name : String) :
    Touches ps (find registry name) :=
  touches_of_unchanged fun h => (run_find_eq_some.1 h).2

theorem touches_modify {g : Workspace → Workspace} (hg : ∀ w : Workspace, w.SameBut ps (g w)) :
    Touches ps (modify g : Session PUnit) where
  sameBut := by
    intro w u w' h
    rw [run_modify_eq_some.1 h]
    exact hg w

/-- Exchanging the objects of one kind. -/
theorem touches_modify_part (p : Part) (h : p ∈ ps) (g : Workspace → Registry p.Object) :
    Touches ps (modify fun w => w.withPart p (g w) : Session PUnit) :=
  touches_modify fun w => sameBut_withPart p h w (g w)

/-- Work that looks at the workspace first. -/
theorem touches_get_bind {f : Workspace → Session α}
    (h : ∀ {w a w'}, (f w).run w = some (a, w') → w.SameBut ps w') : Touches ps (get >>= f) where
  sameBut := by
    intro w a w' hrun
    obtain ⟨v, w₁, hget, hrest⟩ := run_bind_eq_some.1 hrun
    obtain ⟨rfl, rfl⟩ := run_get_eq_some.1 hget
    exact h hrest

/-- Work on the store must give no storage back. -/
theorem touches_onStore {g : Store → α × Store} (hg : ∀ s, s.next ≤ (g s).2.next) :
    Touches ps (onStore g) where
  sameBut := by
    intro w a w' h
    rw [(run_onStore_eq_some.1 h).2]
    exact sameBut_withStore ps (hg w.store)

/-! ## 4. Work on the parts -/

/-! ### Parameters -/

/-- A parameter is stored under its name, and shown. -/
theorem touches_putParameter (h : .parameters ∈ ps) {d : Domain} (name : String) (p : Parameter d) :
    Touches ps (putParameter name p) :=
  touches_bind (touches_modify_part .parameters h _) fun _ => touches_pure _

theorem touches_makeParameter (h : .parameters ∈ ps) (name : String) (d : Domain)
    (trivialIsNull : Option Bool) (value : Option Value) :
    Touches ps (makeParameter name d trivialIsNull value) := by
  cases value with
  | none => exact touches_putParameter h ..
  | some v => exact touches_bind (touches_lift _) fun _ => touches_putParameter h ..

theorem touches_callParameter (h : .parameters ∈ ps) (name : String) (calls : List ParameterCall) :
    Touches ps (callParameter name calls) :=
  touches_bind (touches_find _ _) fun _ => touches_bind (touches_lift _) fun _ =>
    touches_putParameter h ..

theorem touches_copyParameter (h : .parameters ∈ ps) (name source : String) :
    Touches ps (copyParameter name source) :=
  touches_bind (touches_find _ _) fun _ => touches_putParameter h ..

/-- Parameters of different domains cannot be compared; nothing is touched either way. -/
theorem touches_compareParameters (a b : String) : Touches ps (compareParameters a b) := by
  refine touches_bind (touches_find _ _) fun p => touches_bind (touches_find _ _) fun q => ?_
  by_cases h : p.domain = q.domain
  · simp [h]
  · simp [h]

/-! ### Slots -/

@[simp] theorem touches_showSlot (slot : Slot) : Touches ps (showSlot slot) := by
  simp [showSlot]

theorem touches_putSlot (h : .slots ∈ ps) (name : String) (slot : Slot) :
    Touches ps (putSlot name slot) :=
  touches_bind (touches_modify_part .slots h _) fun _ => touches_showSlot slot

/-- A call on a slot writes it, and takes no new storage. -/
theorem next_applySlotCall {slot : Slot} {call : SlotCall} {s t : Store}
    (h : applySlotCall slot call s = some t) : t.next = s.next := by
  cases call with
  | set v =>
      obtain ⟨native, -, hset⟩ := Option.bind_eq_some_iff.1 h
      cases hset
      exact Store.next_put ..
  | setNull =>
      cases h
      exact Store.next_put ..
  | store v isNull =>
      obtain ⟨native, -, hput⟩ := Option.bind_eq_some_iff.1 h
      cases hput
      exact Store.next_put ..
  | decode raw =>
      cases h
      exact Store.next_put ..
  | get =>
      cases h
      rfl

theorem touches_callSlot (name : String) (call : SlotCall) : Touches ps (callSlot name call) := by
  -- the store is exchanged as a whole, and the call may refuse, so this is no `onStore`
  refine touches_bind (touches_find _ _) fun slot => touches_get_bind ?_
  intro w a w' h
  obtain ⟨store, w₁, hcall, h⟩ := run_bind_eq_some.1 h
  obtain ⟨_, w₂, hset, hshow⟩ := run_bind_eq_some.1 h
  obtain ⟨hcall, rfl⟩ := run_lift_eq_some.1 hcall
  obtain rfl := run_set_eq_some.1 hset
  have hnext := Nat.le_of_eq (next_applySlotCall hcall).symm
  exact (sameBut_withStore ps hnext).trans ((touches_showSlot slot).sameBut hshow)

/-! ### Rows -/

/-- Finding a row reads the workspace only. -/
@[simp] theorem touches_rowAt (path : Path) : Touches ps (rowAt path) := by
  simp [rowAt]

@[simp] theorem touches_fieldAt (path : Path) : Touches ps (fieldAt path) := by
  refine touches_bind (touches_rowAt path) fun row => ?_
  cases row with
  | field f => exact touches_pure f
  | tuple members => exact touches_failure

@[simp] theorem touches_showRow (row : Row) : Touches ps (showRow row) := by
  simp [showRow]

/-- A row is replaced where it stands, under a name of its own or in a cursor. -/
theorem touches_replaceRow (hrows : .rows ∈ ps) (hcursors : .cursors ∈ ps) (path : Path) (new : Row) :
    Touches ps (replaceRow path new) := by
  refine touches_get_bind ?_
  intro w a w' h
  split at h
  · rw [run_set_eq_some.1 h]
    exact sameBut_withPart .rows hrows w _
  · obtain ⟨c, w₁, hfind, h⟩ := run_bind_eq_some.1 h
    obtain ⟨-, rfl⟩ := run_lift_eq_some.1 hfind
    rw [run_set_eq_some.1 h]
    exact sameBut_withPart .cursors hcursors w₁ _

@[simp] theorem touches_onStore_assign (f : Field) (raw : RawColumn) :
    Touches ps (onStore (f.assign · raw)) :=
  touches_onStore fun s => by simp [Field.assign, Store.decodeInto]

@[simp] theorem touches_onStore_invalidate (row : Row) : Touches ps (onStore row.invalidate) :=
  touches_onStore fun s => by simp [Row.invalidate]

theorem touches_callRow (hrows : .rows ∈ ps) (hcursors : .cursors ∈ ps) (path : Path)
    (call : RowCall) : Touches ps (callRow path call) := by
  have hplace (new : Row) : Touches ps (do replaceRow path new; showRow new) :=
    touches_bind (touches_replaceRow hrows hcursors path new) fun _ => touches_showRow new
  refine touches_bind (touches_rowAt path) fun row => ?_
  cases call with
  | assign raw =>
      cases row with
      | field f => exact touches_bind (touches_onStore_assign f raw) fun _ => hplace _
      | tuple members => exact touches_bind touches_failure hplace
  | validate => exact hplace _
  | invalidate => exact touches_bind (touches_onStore_invalidate row) hplace

@[simp] theorem touches_onStore_new (d : Domain) : Touches ps (onStore (Field.new · d)) :=
  touches_onStore fun s => by simp [Field.new, Store.allocate]

@[simp] theorem touches_onStore_ofRaw (d : Domain) (raw : RawColumn) :
    Touches ps (onStore (Field.ofRaw · d raw)) :=
  touches_onStore fun s => by
    simp [Field.ofRaw, Field.assign, Field.new, Store.allocate, Store.decodeInto]

mutual

/-- Making a row may take rows out of the workspace. -/
theorem touches_makeRow (h : .rows ∈ ps) :
    ∀ description : RowDescription, Touches ps (makeRow description)
  | .fresh d => by simp [makeRow]
  | .decoded d raw => by simp [makeRow]
  | .take name => by
      rw [makeRow]
      exact touches_bind (touches_find _ _) fun row =>
        touches_bind (touches_modify_part .rows h _) fun _ => touches_pure row
  | .tuple members => by simp [makeRow, touches_makeRows h members]

theorem touches_makeRows (h : .rows ∈ ps) :
    ∀ descriptions : List RowDescription, Touches ps (makeRows descriptions)
  | [] => by simp [makeRows]
  | d :: ds => by simp [makeRows, touches_makeRow h d, touches_makeRows h ds]

end

/-! ### Buffers and cursors -/

theorem touches_putBuffer (h : .buffers ∈ ps) (name : String) (b : RowBuffer) :
    Touches ps (putBuffer name b) :=
  touches_bind (touches_modify_part .buffers h _) fun _ => touches_pure _

theorem touches_takeBuffer (h : .buffers ∈ ps) (name : String) : Touches ps (takeBuffer name) :=
  touches_bind (touches_find _ _) fun b =>
    touches_bind (touches_modify_part .buffers h _) fun _ => touches_pure b

theorem touches_bindRow (h : .buffers ∈ ps) (path : Path) (first : Nat) (buffer : String) :
    Touches ps (bindRow path first buffer) :=
  touches_bind (touches_rowAt path) fun _ => touches_bind (touches_find _ _)
    fun _ => touches_bind (touches_modify_part .buffers h _) fun _ => touches_pure _

/-- A fetch writes to the store, and puts the buffer back. -/
theorem touches_fetch (h : .buffers ∈ ps) (name : String) : Touches ps (fetch name) := by
  refine touches_bind (touches_find _ _) fun b => touches_bind (touches_onStore fun s => ?_)
    fun fetched => touches_bind (touches_putBuffer h _ _) fun _ => ?_
  · simp
  · simp

theorem touches_putCursor (h : .cursors ∈ ps) (name : String) (c : Cursor) :
    Touches ps (putCursor name c) :=
  touches_bind (touches_modify_part .cursors h _) fun _ => by simp

theorem touches_makeCursor (hrows : .rows ∈ ps) (hbuffers : .buffers ∈ ps) (hcursors : .cursors ∈ ps)
    (name : String) (row : RowDescription) (buffer : String) :
    Touches ps (makeCursor name row buffer) := by
  refine touches_bind (touches_makeRow hrows row) fun made =>
    touches_bind (touches_takeBuffer hbuffers _) fun b => touches_bind (touches_onStore fun s => ?_)
      fun c => touches_bind (touches_putCursor hcursors _ _) fun _ => touches_pure _
  simp [Cursor.new_eq]

/-- The cursor is put back as `next` leaves it. -/
theorem touches_next (h : .cursors ∈ ps) (name : String) : Touches ps (next name) := by
  refine touches_bind (touches_find _ _) fun c => touches_bind (touches_onStore fun s => ?_)
    fun moved => touches_bind (touches_putCursor h _ _) fun _ => touches_pure _
  simp

theorem touches_reset (h : .cursors ∈ ps) (name : String) : Touches ps (reset name) := by
  refine touches_bind (touches_find _ _) fun c => touches_bind (touches_onStore fun s => ?_)
    fun dropped => touches_bind (touches_putCursor h _ _) fun _ => touches_pure _
  simp [Cursor.reset_eq]

/-- Taking a cursor apart moves its row and its buffer to names of their own: three kinds are
exchanged, one after another. -/
theorem touches_intoParts (hrows : .rows ∈ ps) (hbuffers : .buffers ∈ ps) (hcursors : .cursors ∈ ps)
    (name row buffer : String) : Touches ps (intoParts name row buffer) := by
  refine touches_bind (touches_find _ _) fun c =>
    touches_bind (touches_modify fun w => ?_) fun _ => by simp
  let w₁ := w.withPart .cursors (w.cursors.erase name)
  let w₂ := w₁.withPart .rows (w.rows.insert row c.row)
  have hsame : w.SameBut ps w₂ :=
    (sameBut_withPart .cursors hcursors w _).trans (sameBut_withPart .rows hrows w₁ _)
  exact hsame.trans (sameBut_withPart .buffers hbuffers w₂ (w.buffers.insert buffer c.source))

/-! ### Terms and renderers -/

mutual

/-- Making a term may take new storage for fields of its own. -/
theorem touches_makeTerm : ∀ description : TermDescription, Touches ps (makeTerm description)
  | .literal v => by simp [makeTerm]
  | .column d table name => by simp [makeTerm]
  | .parameter name => by simp [makeTerm]
  | .orNull name => by simp [makeTerm]
  | .field path => by simp [makeTerm]
  | .decoded none => by simp [makeTerm]
  | .decoded (some raw) => by simp [makeTerm]
  | .binary op left right => by
      rw [makeTerm]
      refine touches_bind (touches_makeTerm left) fun _ => touches_bind (touches_lift _) fun _ => ?_
      simp [touches_makeTerm right]
  | .not operand => by simp [makeTerm, touches_makeTerm operand]
  | .list d items => by simp [makeTerm, touches_makeTerms items]

theorem touches_makeTerms :
    ∀ descriptions : List TermDescription, Touches ps (makeTerms descriptions)
  | [] => by simp [makeTerms]
  | d :: ds => by simp [makeTerms, touches_makeTerm d, touches_makeTerms ds]

end

theorem touches_startRenderer (h : .renderers ∈ ps) (name : String) (r : Renderer) :
    Touches ps (startRenderer name r) :=
  touches_bind (touches_modify_part .renderers h _) fun _ => touches_pure _

/-- A renderer is put back with what it has written, also if the writing fails. -/
theorem touches_writeInto (h : .renderers ∈ ps) (name : String) (writing : Writing Renderer Unit) :
    Touches ps (writeInto name writing) :=
  touches_bind (touches_find _ _) fun _ =>
    touches_bind (touches_modify_part .renderers h _) fun _ => touches_pure _

theorem touches_finish (h : .renderers ∈ ps) (name : String) : Touches ps (finish name) :=
  touches_bind (touches_find _ _) fun _ =>
    touches_bind (touches_modify_part .renderers h _) fun _ => touches_pure _

end Pieces

/-! ## 5. All steps -/

theorem run_performAll_nil {w w' : Workspace} {answers : List Answer} :
    (performAll []).run w = some (answers, w') ↔ answers = [] ∧ w' = w :=
  run_pure_eq_some

/-- The steps of a session are performed one after another. -/
theorem run_performAll_cons {e : Step} {steps : List Step} {w w' : Workspace}
    {answers : List Answer} : (performAll (e :: steps)).run w = some (answers, w')
      ↔ ∃ answer rest w₁, answers = answer :: rest ∧ (perform e).run w = some (answer, w₁)
        ∧ (performAll steps).run w₁ = some (rest, w') := by
  unfold performAll
  rw [List.mapM_cons, run_bind_eq_some]
  constructor
  · intro h
    obtain ⟨answer, w₁, hfirst, h⟩ := h
    obtain ⟨rest, w₂, hrest, hpure⟩ := run_bind_eq_some.1 h
    obtain ⟨rfl, rfl⟩ := run_pure_eq_some.1 hpure
    exact ⟨answer, rest, w₁, rfl, hfirst, hrest⟩
  · intro h
    obtain ⟨answer, rest, w₁, rfl, hfirst, hrest⟩ := h
    exact ⟨answer, w₁, hfirst, run_bind_eq_some.2 ⟨rest, w', hrest, rfl⟩⟩

end Workspace

/-- The kinds of named objects that a step changes. -/
def Step.parts : Step → List Part
  | .makeParameter _ _ _ _ | .callParameter _ _ | .copyParameter _ _ => [.parameters]
  | .makeSlot _ _ | .shareSlot _ _ | .nameFieldSlot _ _ => [.slots]
  | .makeRow _ _ => [.rows]
  | .callRow _ _ => [.rows, .cursors]
  | .bindRow _ _ _ | .makeBuffer _ _ | .pushRow _ _ | .bindSlot _ _ _ | .fetch _ => [.buffers]
  | .makeCursor _ _ _ | .intoParts _ _ _ => [.rows, .buffers, .cursors]
  | .next _ | .reset _ => [.cursors]
  | .makeRenderer _ _ | .copyRenderer _ _ | .emit _ _ | .write _ _ | .finish _ => [.renderers]
  | .compareParameters _ _ | .parameterNative _ | .callSlot _ _ | .compareSlots _ _ | .showRow _
  | .recordBindings _ _ | .render _ _ | .showTerm _ => []

/-- A step leaves all other kinds alone. -/
theorem Workspace.touches_perform (e : Step) : Touches e.parts (perform e) := by
  cases e with
  | makeParameter => exact touches_makeParameter (by simp [Step.parts]) ..
  | callParameter => exact touches_callParameter (by simp [Step.parts]) ..
  | copyParameter => exact touches_copyParameter (by simp [Step.parts]) ..
  | compareParameters a b => exact touches_compareParameters a b
  | parameterNative name => simp [perform, parameterNative]
  | makeSlot name d =>
      refine touches_bind (touches_onStore fun s => ?_) fun slot =>
        touches_putSlot (by simp [Step.parts]) name slot
      simp [Store.allocate]
  | shareSlot name source =>
      exact touches_bind (touches_find _ _) fun slot => touches_putSlot (by simp [Step.parts]) name slot
  | callSlot name call => exact touches_callSlot name call
  | compareSlots a b => simp [perform]
  | nameFieldSlot name path =>
      exact touches_bind (touches_fieldAt path) fun f => touches_putSlot (by simp [Step.parts]) name f.slot
  | makeRow name row =>
      exact touches_bind (touches_makeRow (by simp [Step.parts]) row) fun made =>
        touches_bind (touches_modify_part .rows (by simp [Step.parts]) _) fun _ => touches_showRow made
  | showRow path => simp [perform]
  | callRow => exact touches_callRow (by simp [Step.parts]) (by simp [Step.parts]) ..
  | recordBindings path first => simp [perform]
  | bindRow => exact touches_bindRow (by simp [Step.parts]) ..
  | makeBuffer => exact touches_putBuffer (by simp [Step.parts]) ..
  | pushRow name row =>
      exact touches_bind (touches_find _ _) fun b => touches_putBuffer (by simp [Step.parts]) ..
  | bindSlot name index slot =>
      exact touches_bind (touches_find _ _) fun b => touches_bind (touches_find _ _) fun a =>
        touches_putBuffer (by simp [Step.parts]) ..
  | fetch => exact touches_fetch (by simp [Step.parts]) ..
  | makeCursor =>
      exact touches_makeCursor (by simp [Step.parts]) (by simp [Step.parts]) (by simp [Step.parts]) ..
  | next => exact touches_next (by simp [Step.parts]) ..
  | reset => exact touches_reset (by simp [Step.parts]) ..
  | intoParts =>
      exact touches_intoParts (by simp [Step.parts]) (by simp [Step.parts]) (by simp [Step.parts]) ..
  | render term target => exact touches_bind (touches_makeTerm term) fun t => by simp
  | showTerm term => exact touches_bind (touches_makeTerm term) fun t => by simp
  | makeRenderer => exact touches_startRenderer (by simp [Step.parts]) ..
  | copyRenderer name source =>
      exact touches_bind (touches_find _ _) fun r => touches_startRenderer (by simp [Step.parts]) name r
  | emit name term =>
      exact touches_bind (touches_makeTerm term) fun t => touches_bind touches_get fun w =>
        touches_writeInto (by simp [Step.parts]) ..
  | write => exact touches_writeInto (by simp [Step.parts]) ..
  | finish => exact touches_finish (by simp [Step.parts]) ..

/-- The step makes, moves or changes rows. -/
def Step.changesRows : Step → Bool
  | .makeRow _ _ => true
  | .callRow _ _ => true
  | .makeCursor _ _ _ => true
  | .next _ => true
  | .reset _ => true
  | .intoParts _ _ _ => true
  | _ => false

namespace Workspace

variable {α : Type}

/-- Nothing happens to the rows and the cursors, and no storage is given back. -/
structure SameFields (w w' : Workspace) : Prop where
  rows_eq : w'.rows = w.rows
  cursors_eq : w'.cursors = w.cursors
  next_le : w.store.next ≤ w'.store.next

theorem SameFields.refl (w : Workspace) : w.SameFields w := ⟨rfl, rfl, Nat.le_refl _⟩

/-- Work that leaves the rows and the cursors alone. -/
structure Quiet (m : Session α) : Prop where
  sameFields : ∀ {w a w'}, m.run w = some (a, w') → w.SameFields w'

theorem Touches.quiet {ps : List Part} {m : Session α} (h : Touches ps m)
    (hrows : .rows ∉ ps) (hcursors : .cursors ∉ ps) : Quiet m where
  sameFields := by
    intro w a w' hrun
    have hsame := h.sameBut hrun
    exact ⟨hsame.part_eq .rows hrows, hsame.part_eq .cursors hcursors, hsame.next_le⟩

theorem quiet_takeBuffer (name : String) : Quiet (takeBuffer name) := by
  have htouches : Touches [.buffers] (takeBuffer name) := touches_takeBuffer (by simp) name
  exact htouches.quiet (by simp) (by simp)

/-- All steps that do not change rows are quiet. -/
theorem quiet_perform {e : Step} (h : e.changesRows = false) : Quiet (perform e) := by
  have hparts : .rows ∉ e.parts ∧ .cursors ∉ e.parts := by
    cases e with
    | makeRow => cases h
    | callRow => cases h
    | makeCursor => cases h
    | next => cases h
    | reset => cases h
    | intoParts => cases h
    | _ => simp [Step.parts]
  exact (touches_perform e).quiet hparts.1 hparts.2

end Workspace

end QueryTerms
