/-
QueryTerms.Proofs.SeparateFields — no two fields share their storage.

Slots may be handed out, copied and bound as often as one likes, so that a slot says nothing about who
writes to it. But every field is made with a slot of its own, and every row has one owner. So the slots
of all fields are pairwise different in every state that a session reaches, and a call on a row changes
nothing that a field outside it reads.

## How the proof goes

No step makes two fields share their storage (`Workspace.owns_perform`). Most steps are quiet, and
there is nothing to show; each of the others is taken apart into the moves of
`QueryTerms.Proofs.RowOwners`. What a call on a row writes is the storage of its leaves
(`Workspace.callRow_cases`), and that is no other field's.
-/
import Mathlib.Data.List.Nodup
import QueryTerms.Proofs.RowOwners

namespace QueryTerms

/-- Only a field can be assigned to. -/
def RowCall.fits : RowCall → Row → Bool
  | .assign _, .tuple _ => false
  | _, _ => true

namespace Workspace

/-! ## 1. Making rows -/

mutual

/-- A row that has been made is held, and has storage that no other row has. -/
theorem owns_makeRow {w w' : Workspace} {held : List Slot} {row : Row} : ∀ d : RowDescription,
    (makeRow d).run w = some (row, w') → w.Owns held → w'.Owns (row.slots ++ held)
  | .fresh d, h, hw => by
      unfold makeRow at h
      obtain ⟨f, w₁, hnew, hpure⟩ := run_bind_eq_some.1 h
      obtain ⟨rfl, rfl⟩ := run_onStore_eq_some.1 hnew
      obtain ⟨rfl, rfl⟩ := run_pure_eq_some.1 hpure
      exact hw.allocate d
  | .decoded d raw, h, hw => by
      unfold makeRow at h
      obtain ⟨f, w₁, hnew, hpure⟩ := run_bind_eq_some.1 h
      obtain ⟨rfl, rfl⟩ := run_onStore_eq_some.1 hnew
      obtain ⟨rfl, rfl⟩ := run_pure_eq_some.1 hpure
      -- the column is decoded into the slot that has just been given out
      refine (hw.allocate d).quiet ⟨rfl, rfl, Nat.le_of_eq ?_⟩
      exact (Store.next_put ..).symm
  | .take name, h, hw => by
      unfold makeRow at h
      obtain ⟨row, w₁, hfind, h⟩ := run_bind_eq_some.1 h
      obtain ⟨_, w₂, herase, hpure⟩ := run_bind_eq_some.1 h
      obtain ⟨hrow, rfl⟩ := run_find_eq_some.1 hfind
      obtain rfl := run_modify_eq_some.1 herase
      obtain ⟨rfl, rfl⟩ := run_pure_eq_some.1 hpure
      exact hw.take_row hrow
  | .tuple members, h, hw => by
      unfold makeRow at h
      obtain ⟨rows, w₁, hrows, hpure⟩ := run_bind_eq_some.1 h
      obtain ⟨rfl, rfl⟩ := run_pure_eq_some.1 hpure
      exact owns_makeRows members hrows hw

/-- Rows that have been made are all held. -/
theorem owns_makeRows {w w' : Workspace} {held : List Slot} {rows : List Row} :
    ∀ ds : List RowDescription, (makeRows ds).run w = some (rows, w') → w.Owns held →
      w'.Owns ((Row.leavesOfAll rows).map Field.slot ++ held)
  | [], h, hw => by
      unfold makeRows at h
      obtain ⟨rfl, rfl⟩ := run_pure_eq_some.1 h
      exact hw
  | d :: ds, h, hw => by
      unfold makeRows at h
      obtain ⟨row, w₁, hrow, h⟩ := run_bind_eq_some.1 h
      obtain ⟨rest, w₂, hrest, hpure⟩ := run_bind_eq_some.1 h
      obtain ⟨rfl, rfl⟩ := run_pure_eq_some.1 hpure
      -- the first row is held while the others are made
      refine (owns_makeRows ds hrest (owns_makeRow d hrow hw)).perm ?_
      simpa [Row.leavesOfAll, Row.slots] using List.perm_append_comm_assoc _ _ _

end

/-! ## 2. Calls on rows -/

/-- What a call makes of the row it is on. -/
def changeRow : RowCall → Row → Session Row
  | .assign raw, .field f => do
    let f ← onStore (f.assign · raw)
    pure (.field f)
  | .assign _, .tuple _ => failure
  | .validate, row => pure row.validate
  | .invalidate, row => onStore row.invalidate

/-- A call on a row finds the row, changes it, and puts it where it was found. -/
theorem callRow_eq (path : Path) (call : RowCall) : callRow path call = (do
    let row ← rowAt path
    let new ← changeRow call row
    replaceRow path new
    showRow new) := by
  unfold callRow
  congr 1
  funext row
  cases call with
  | assign raw =>
      cases row with
      | field f => simp [changeRow]
      | tuple members => rfl
  | validate => rfl
  | invalidate => rfl

/-- A call keeps the storage of the row and writes to nothing else. -/
theorem run_changeRow {call : RowCall} {row new : Row} {w w' : Workspace}
    (h : (changeRow call row).run w = some (new, w')) :
    w.SameFields w' ∧ new.slots = row.slots
      ∧ ∀ a ∉ row.slots, w'.store.get a = w.store.get a := by
  cases call with
  | assign raw =>
      cases row with
      | field f =>
          obtain ⟨g, w₁, hassign, hpure⟩ := run_bind_eq_some.1 h
          obtain ⟨rfl, rfl⟩ := run_onStore_eq_some.1 hassign
          obtain ⟨rfl, rfl⟩ := run_pure_eq_some.1 hpure
          refine ⟨⟨rfl, rfl, Nat.le_of_eq (Store.next_put ..).symm⟩, rfl, fun a ha => ?_⟩
          have hne : f.slot ≠ a := fun heq => ha (heq ▸ List.mem_singleton_self _)
          exact Store.get_put_of_ne w.store hne _
      | tuple members => cases h
  | validate =>
      obtain ⟨rfl, rfl⟩ := run_pure_eq_some.1 h
      exact ⟨.refl w', row.slots_validate, fun a ha => rfl⟩
  | invalidate =>
      unfold changeRow at h
      obtain ⟨rfl, rfl⟩ := run_onStore_eq_some.1 h
      refine ⟨⟨rfl, rfl, ?_⟩, row.slots_dropped, fun a ha => ?_⟩
      · simp [Row.invalidate_eq]
      · simp [Row.invalidate_eq, Store.get_clear, ha]

/-- A call that fits its row is never refused. -/
theorem exists_run_changeRow {call : RowCall} {row : Row} (h : call.fits row = true)
    (w : Workspace) : ∃ new w', (changeRow call row).run w = some (new, w') := by
  cases call with
  | assign raw =>
      cases row with
      | field f => exact ⟨_, _, rfl⟩
      | tuple members => cases h
  | validate => exact ⟨_, _, rfl⟩
  | invalidate => exact ⟨_, _, rfl⟩

/-- The row at a path is part of a named row, or of a cursor's row. -/
theorem run_rowAt_eq_some {path : Path} {row : Row} {w w' : Workspace} :
    (rowAt path).run w = some (row, w')
      ↔ ((∃ whole, w.rows.get? path.name = some whole ∧ whole.at? path.indices = some row)
          ∨ w.rows.get? path.name = none
            ∧ ∃ c, w.cursors.get? path.name = some c ∧ c.row.at? path.indices = some row)
        ∧ w' = w := by
  unfold rowAt
  simp only [run_bind_eq_some, run_get_eq_some, run_lift_eq_some]
  cases hwhole : w.rows.get? path.name with
  | none => simp [hwhole, ← exists_and_right, and_assoc]
  | some whole => simp [hwhole]

theorem run_replaceRow_of_row {w : Workspace} {path : Path} {whole : Row}
    (h : w.rows.get? path.name = some whole) (new : Row) : (replaceRow path new).run w =
      some ((), { w with rows := w.rows.insert path.name (whole.replaceAt path.indices new) }) := by
  unfold replaceRow
  refine run_bind_eq_some.2 ⟨w, w, rfl, ?_⟩
  rw [h]
  rfl

theorem run_replaceRow_of_cursor {w : Workspace} {path : Path} {c : Cursor}
    (h : w.rows.get? path.name = none) (hc : w.cursors.get? path.name = some c) (new : Row) :
    (replaceRow path new).run w = some ((),
      { w with
        cursors := w.cursors.insert path.name
          { c with row := c.row.replaceAt path.indices new } }) := by
  unfold replaceRow
  refine run_bind_eq_some.2 ⟨w, w, rfl, ?_⟩
  rw [h]
  exact run_bind_eq_some.2 ⟨c, w, run_lift_eq_some.2 ⟨hc, rfl⟩, rfl⟩

theorem run_showRow {row : Row} {w w' : Workspace} {answer : Answer}
    (h : (showRow row).run w = some (answer, w')) : w' = w := by
  obtain ⟨v, w₁, hget, hpure⟩ := run_bind_eq_some.1 h
  obtain ⟨-, rfl⟩ := run_get_eq_some.1 hget
  exact (run_pure_eq_some.1 hpure).2

/-- What a call on the row at a path does: it writes to the storage of that row only, and puts a row
of the same storage into its place. -/
theorem callRow_cases {path : Path} {call : RowCall} {w w' : Workspace} {answer : Answer}
    (h : (callRow path call).run w = some (answer, w')) :
    ∃ row new w₁, (rowAt path).run w = some (row, w) ∧ w.SameFields w₁ ∧ new.slots = row.slots
      ∧ (∀ a ∉ row.slots, w₁.store.get a = w.store.get a)
      ∧ ((∃ whole, w.rows.get? path.name = some whole ∧ whole.at? path.indices = some row
            ∧ w' = { w₁ with
                rows := w₁.rows.insert path.name (whole.replaceAt path.indices new) })
        ∨ ∃ c, w.cursors.get? path.name = some c ∧ c.row.at? path.indices = some row
            ∧ w' = { w₁ with
                cursors := w₁.cursors.insert path.name
                  { c with row := c.row.replaceAt path.indices new } }) := by
  rw [callRow_eq] at h
  obtain ⟨row, v, hrow, h⟩ := run_bind_eq_some.1 h
  obtain ⟨new, w₁, hchange, h⟩ := run_bind_eq_some.1 h
  obtain ⟨_, w₂, hreplace, hshow⟩ := run_bind_eq_some.1 h
  obtain rfl := run_showRow hshow
  obtain ⟨hplace, rfl⟩ := run_rowAt_eq_some.1 hrow
  obtain ⟨hsame, hslots, hget⟩ := run_changeRow hchange
  refine ⟨row, new, w₁, hrow, hsame, hslots, hget, ?_⟩
  rcases hplace with ⟨whole, hwhole, hat⟩ | ⟨hnone, c, hc, hat⟩
  · have hrun := run_replaceRow_of_row (hsame.rows_eq ▸ hwhole) new
    cases hreplace.symm.trans hrun
    exact Or.inl ⟨whole, hwhole, hat, rfl⟩
  · have hrun := run_replaceRow_of_cursor (hsame.rows_eq ▸ hnone) (hsame.cursors_eq ▸ hc) new
    cases hreplace.symm.trans hrun
    exact Or.inr ⟨c, hc, hat, rfl⟩

/-- A call on a row that is there has an answer, unless it assigns to a tuple. -/
theorem exists_run_callRow {path : Path} {call : RowCall} {row : Row} {w : Workspace}
    (hrow : (rowAt path).run w = some (row, w)) (hfits : call.fits row = true) :
    ∃ answer w', (callRow path call).run w = some (answer, w') := by
  obtain ⟨new, w₁, hchange⟩ := exists_run_changeRow hfits w
  have hsame := (run_changeRow hchange).1
  have hreplace : ∃ w₂, (replaceRow path new).run w₁ = some ((), w₂) := by
    rcases (run_rowAt_eq_some.1 hrow).1 with ⟨whole, hwhole, -⟩ | ⟨hnone, c, hc, -⟩
    · exact ⟨_, run_replaceRow_of_row (hsame.rows_eq ▸ hwhole) new⟩
    · exact ⟨_, run_replaceRow_of_cursor (hsame.rows_eq ▸ hnone) (hsame.cursors_eq ▸ hc) new⟩
  obtain ⟨w₂, hreplace⟩ := hreplace
  rw [callRow_eq]
  exact ⟨_, _, run_bind_eq_some.2 ⟨row, w, hrow, run_bind_eq_some.2 ⟨new, w₁, hchange,
    run_bind_eq_some.2 ⟨(), w₂, hreplace, rfl⟩⟩⟩⟩

/-- The row that is put into its place has the storage of the row that was there. -/
theorem owns_callRow {path : Path} {call : RowCall} {w w' : Workspace} {answer : Answer}
    (h : (callRow path call).run w = some (answer, w')) (hw : w.Owns []) : w'.Owns [] := by
  obtain ⟨row, new, w₁, -, hsame, hslots, -, hplace⟩ := callRow_cases h
  have hw₁ := hw.quiet hsame
  rcases hplace with ⟨whole, hwhole, hat, rfl⟩ | ⟨c, hc, hat, rfl⟩
  · exact hw₁.replace_row (hsame.rows_eq ▸ hwhole) (Row.slots_replaceAt hat hslots)
  · exact hw₁.replace_cursor (hsame.cursors_eq ▸ hc) (Row.slots_replaceAt hat hslots)

/-! ## 3. Steps on cursors -/

theorem run_putCursor {name : String} {c : Cursor} {w w' : Workspace} {v : CursorView}
    (h : (putCursor name c).run w = some (v, w')) :
    w' = { w with cursors := w.cursors.insert name c } := by
  obtain ⟨_, w₁, hput, h⟩ := run_bind_eq_some.1 h
  obtain ⟨u, w₂, hget, hpure⟩ := run_bind_eq_some.1 h
  obtain rfl := run_modify_eq_some.1 hput
  obtain ⟨-, rfl⟩ := run_get_eq_some.1 hget
  exact (run_pure_eq_some.1 hpure).2

/-- The storage of the described row becomes that of the row in the cursor. -/
theorem owns_makeCursor {name buffer : String} {d : RowDescription} {w w' : Workspace}
    {answer : Answer} (h : (makeCursor name d buffer).run w = some (answer, w')) (hw : w.Owns []) :
    w'.Owns [] := by
  obtain ⟨row, w₁, hrow, h⟩ := run_bind_eq_some.1 h
  obtain ⟨b, w₂, htake, h⟩ := run_bind_eq_some.1 h
  obtain ⟨c, w₃, hnew, h⟩ := run_bind_eq_some.1 h
  obtain ⟨v, w₄, hput, hpure⟩ := run_bind_eq_some.1 h
  have hmade := (owns_makeRow d hrow hw).quiet ((quiet_takeBuffer buffer).sameFields htake)
  obtain ⟨rfl, rfl⟩ := run_onStore_eq_some.1 hnew
  obtain rfl := run_putCursor hput
  obtain ⟨-, rfl⟩ := run_pure_eq_some.1 hpure
  have hcleared : w₂.SameFields { w₂ with store := (Cursor.new row b w₂.store).2 } :=
    ⟨rfl, rfl, by simp [Cursor.new_eq]⟩
  have hslots : (Cursor.new row b w₂.store).1.row.slots = row.slots := by simp [Cursor.new_eq]
  have hheld := hmade.quiet hcleared
  rw [← hslots] at hheld
  exact hheld.put_cursor name

/-- A call of `next` changes what a row holds, and not the storage that it has. -/
theorem owns_next {name : String} {w w' : Workspace} {answer : Answer}
    (h : (next name).run w = some (answer, w')) (hw : w.Owns []) : w'.Owns [] := by
  obtain ⟨c, w₁, hfind, h⟩ := run_bind_eq_some.1 h
  obtain ⟨moved, w₂, hnext, h⟩ := run_bind_eq_some.1 h
  obtain ⟨v, w₃, hput, hpure⟩ := run_bind_eq_some.1 h
  obtain ⟨hc, rfl⟩ := run_find_eq_some.1 hfind
  obtain ⟨rfl, rfl⟩ := run_onStore_eq_some.1 hnext
  obtain rfl := run_putCursor hput
  obtain ⟨-, rfl⟩ := run_pure_eq_some.1 hpure
  have hslots : (c.next w₁.store).2.1.row.slots = c.row.slots :=
    ((⟨c, w₁.store, none⟩ : Cursor.Use).slots_bindings_step .next).1
  have hsame : w₁.SameFields { w₁ with store := (c.next w₁.store).2.2 } :=
    ⟨rfl, rfl, Nat.le_of_eq (c.next_store_next w₁.store).symm⟩
  exact (hw.quiet hsame).replace_cursor hc hslots

/-- Neither does dropping the row. -/
theorem owns_reset {name : String} {w w' : Workspace} {answer : Answer}
    (h : (reset name).run w = some (answer, w')) (hw : w.Owns []) : w'.Owns [] := by
  obtain ⟨c, w₁, hfind, h⟩ := run_bind_eq_some.1 h
  obtain ⟨dropped, w₂, hreset, h⟩ := run_bind_eq_some.1 h
  obtain ⟨v, w₃, hput, hpure⟩ := run_bind_eq_some.1 h
  obtain ⟨hc, rfl⟩ := run_find_eq_some.1 hfind
  obtain ⟨rfl, rfl⟩ := run_onStore_eq_some.1 hreset
  obtain rfl := run_putCursor hput
  obtain ⟨-, rfl⟩ := run_pure_eq_some.1 hpure
  have hsame : w₁.SameFields { w₁ with store := (c.reset w₁.store).2 } :=
    ⟨rfl, rfl, by simp [Cursor.reset_eq]⟩
  exact (hw.quiet hsame).replace_cursor hc c.row.slots_dropped

/-- The row of a cursor that ends goes under a name. -/
theorem owns_intoParts {name row buffer : String} {w w' : Workspace} {answer : Answer}
    (h : (intoParts name row buffer).run w = some (answer, w')) (hw : w.Owns []) : w'.Owns [] := by
  obtain ⟨c, w₁, hfind, h⟩ := run_bind_eq_some.1 h
  obtain ⟨_, w₂, hmodify, h⟩ := run_bind_eq_some.1 h
  obtain ⟨v, w₃, hget, hpure⟩ := run_bind_eq_some.1 h
  obtain ⟨hc, rfl⟩ := run_find_eq_some.1 hfind
  obtain rfl := run_modify_eq_some.1 hmodify
  obtain ⟨-, rfl⟩ := run_get_eq_some.1 hget
  obtain ⟨-, rfl⟩ := run_pure_eq_some.1 hpure
  exact ((hw.take_cursor hc).put_row row).quiet ⟨rfl, rfl, Nat.le_refl _⟩

/-! ## 4. Sessions -/

/-- Making a row under a name. -/
theorem owns_nameRow {name : String} {d : RowDescription} {w w' : Workspace} {answer : Answer}
    (h : (perform (.makeRow name d)).run w = some (answer, w')) (hw : w.Owns []) : w'.Owns [] := by
  obtain ⟨row, w₁, hrow, h⟩ := run_bind_eq_some.1 h
  obtain ⟨_, w₂, hname, hshow⟩ := run_bind_eq_some.1 h
  obtain rfl := run_modify_eq_some.1 hname
  obtain rfl := run_showRow hshow
  exact (owns_makeRow d hrow hw).put_row name

/-- No step makes two fields share their storage. -/
theorem owns_perform {e : Step} {w w' : Workspace} {answer : Answer}
    (h : (perform e).run w = some (answer, w')) (hw : w.Owns []) : w'.Owns [] := by
  cases e with
  | makeRow name d => exact owns_nameRow h hw
  | callRow path call => exact owns_callRow h hw
  | makeCursor name d buffer => exact owns_makeCursor h hw
  | next name => exact owns_next h hw
  | reset name => exact owns_reset h hw
  | intoParts name row buffer => exact owns_intoParts h hw
  | _ => exact hw.quiet ((quiet_perform rfl).sameFields h)

/-- No session does. -/
theorem owns_performAll {steps : List Step} {w w' : Workspace} {answers : List Answer}
    (h : (performAll steps).run w = some (answers, w')) (hw : w.Owns []) : w'.Owns [] := by
  induction steps generalizing w answers with
  | nil =>
      obtain ⟨-, rfl⟩ := run_performAll_nil.1 h
      exact hw
  | cons e steps ih =>
      obtain ⟨answer, rest, w₁, rfl, hfirst, hrest⟩ := run_performAll_cons.1 h
      exact ih hrest (owns_perform hfirst hw)

/-! ## 5. Fields outside a row -/

/-- The fields of a row that a path finds are fields of the workspace. -/
theorem Owns.mem_fields {w : Workspace} {held : List Slot} (hw : w.Owns held) {path : Path}
    {row : Row} (hrow : (rowAt path).run w = some (row, w)) {f : Field} (hf : f ∈ row.leaves) :
    f ∈ w.fields := by
  unfold fields
  rcases (run_rowAt_eq_some.1 hrow).1 with ⟨whole, hwhole, hat⟩ | ⟨-, c, hc, hat⟩
  · have hmem : f ∈ w.rows.collect Row.leaves :=
      (hw.rows_unique.collect_perm _ hwhole).mem_iff.2
        (List.mem_append_left _ (Row.mem_leaves_of_at? hat hf))
    exact List.mem_append_left _ hmem
  · have hmem : f ∈ w.cursors.collect fun c => c.row.leaves :=
      (hw.cursors_unique.collect_perm _ hc).mem_iff.2
        (List.mem_append_left _ (Row.mem_leaves_of_at? hat hf))
    exact List.mem_append_right _ hmem

/-- The storage of a row is not that of a field outside it. -/
theorem Owns.not_mem_slots {w : Workspace} {held : List Slot} (hw : w.Owns held) {path : Path}
    {row : Row} (hrow : (rowAt path).run w = some (row, w)) {f : Field} (hf : f ∈ w.fields)
    (hout : f ∉ row.leaves) : f.slot ∉ row.slots := by
  intro hmem
  obtain ⟨g, hg, hslot⟩ := List.mem_map.1 hmem
  have hnodup : (w.fields.map Field.slot).Nodup := by
    rw [map_slot_fields]
    exact (List.nodup_append.1 hw.keeps.nodup).2.1
  have heq : g = f := List.inj_on_of_nodup_map hnodup (hw.mem_fields hrow hg) hf hslot
  exact hout (heq ▸ hg)

/-- A call on a row leaves the fields outside it, and what they read. -/
theorem Owns.field_callRow {w w' : Workspace} {held : List Slot} (hw : w.Owns held) {path : Path}
    {call : RowCall} {row : Row} {answer : Answer} (hrow : (rowAt path).run w = some (row, w))
    (h : (callRow path call).run w = some (answer, w')) {f : Field} (hf : f ∈ w.fields)
    (hout : f ∉ row.leaves) : f ∈ w'.fields ∧ f.view w'.store = f.view w.store := by
  obtain ⟨part, new, w₁, hpart, ⟨hrows, hcursors, -⟩, -, hget, hplace⟩ := callRow_cases h
  cases hrow.symm.trans hpart
  have hview : f.view w₁.store = f.view w.store :=
    Field.view_congr fun _ => hget _ (hw.not_mem_slots hrow hf hout)
  unfold fields at hf ⊢
  rcases hplace with ⟨whole, hwhole, hat, rfl⟩ | ⟨c, hc, hat, rfl⟩
  · refine ⟨?_, hview⟩
    simp only [hrows, hcursors]
    rcases List.mem_append.1 hf with hf | hf
    · exact List.mem_append_left _ (hw.rows_unique.mem_collect_insert hwhole hf fun hmem =>
        Row.mem_leaves_replaceAt hat new hmem hout)
    · exact List.mem_append_right _ hf
  · refine ⟨?_, hview⟩
    simp only [hrows, hcursors]
    rcases List.mem_append.1 hf with hf | hf
    · exact List.mem_append_left _ hf
    · exact List.mem_append_right _ (hw.cursors_unique.mem_collect_insert hc hf fun hmem =>
        Row.mem_leaves_replaceAt hat new hmem hout)

/-- **No two fields share their storage** in any state that a session reaches, in whatever rows and
cursors they stand, and whatever slots were handed out. So a call on a row that is there, be it a field
or a tuple, has an answer if it fits, and neither loses a field outside the row nor changes what that
field reads. -/
theorem fields_stay_separate {steps : List Step} {answers : List Answer} {w : Workspace}
    (h : (performAll steps).run {} = some (answers, w)) :
    (w.fields.map Field.slot).Nodup
    ∧ ∀ path row call, (rowAt path).run w = some (row, w) → call.fits row = true →
        ∃ answer w', (perform (.callRow path call)).run w = some (answer, w')
          ∧ ∀ f ∈ w.fields, f ∉ row.leaves →
              f ∈ w'.fields ∧ f.view w'.store = f.view w.store := by
  have hw := owns_performAll h owns_empty
  refine ⟨?_, fun path row call hrow hfits => ?_⟩
  · rw [map_slot_fields]
    exact hw.keeps.nodup
  · obtain ⟨answer, w', hcall⟩ := exists_run_callRow hrow hfits
    exact ⟨answer, w', hcall, fun f hf hout => hw.field_callRow hrow hcall hf hout⟩

/-- A row is named, a slot of it is handed out and copied, it is bound, and then it moves into the row
of a cursor. -/
def movedRow : List Step :=
  [.makeRow "pair" (.tuple [.fresh .integral, .decoded .boolean none]),
    .nameFieldSlot "handle" ⟨"pair", [1]⟩, .shareSlot "copy" "handle",
    .makeBuffer "source" [], .bindRow ⟨"pair", []⟩ 0 "source",
    .makeCursor "cursor" (.tuple [.take "pair", .fresh .boolean]) "source"]

/-- Dropping the part that was moved leaves the field beside it. -/
theorem fields_stay_separate_movedRow :
    ∃ answers w, (performAll movedRow).run {} = some (answers, w)
      ∧ w.fields.map Field.slot = [⟨.integral, 0⟩, ⟨.boolean, 1⟩, ⟨.boolean, 2⟩]
      ∧ (w.fields.map Field.slot).Nodup
      ∧ ∃ answer w', (perform (.callRow ⟨"cursor", [0]⟩ .invalidate)).run w = some (answer, w')
        ∧ ∀ f ∈ w.fields,
            f ∉ (Row.tuple [.field ⟨⟨.integral, 0⟩, false⟩, .field ⟨⟨.boolean, 1⟩, false⟩]).leaves →
            f ∈ w'.fields ∧ f.view w'.store = f.view w.store := by
  have hanswered : ((performAll movedRow).run {}).isSome = true := rfl
  have hrun : (performAll movedRow).run {} = some (_, _) := (Option.some_get hanswered).symm
  have hseparate := fields_stay_separate hrun
  exact ⟨_, _, hrun, rfl, hseparate.1, hseparate.2 _ _ _ rfl rfl⟩

end Workspace

end QueryTerms
