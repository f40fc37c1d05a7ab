/-
QueryTerms.Proofs.RowOwners — every row has one owner.

A row is named, or it stands in a cursor, or it is part of another row. The fields of a workspace
(`Workspace.fields`) are the leaves of all rows that are named or stand in cursors, and the invariant
(`Workspace.Owns`) is that their slots are pairwise different and that none of them will be given out
again. Within a step a row may have lost its name already and not have its new place yet: the invariant
counts the storage of such rows as held.

So it is enough to say what the few moves do that steps are made of. A row is made or taken, changed
while it is held, and put somewhere; what stood there is dropped. For the moves the registries give
that an object stands beside those of the other names (§1), and the rows that the leaves at a path are
a part of all leaves (§2).
-/
import Mathlib.Data.List.Flatten
import QueryTerms.Proofs.CursorReports
import QueryTerms.Proofs.SessionEffects

namespace QueryTerms

/-! ## 1. Registries -/

namespace Registry

variable {α β : Type}

/-- No name has two objects. -/
def Unique (r : Registry α) : Prop :=
  (r.entries.map Prod.fst).Nodup

/-- Whatever the objects of a registry are made of, taken together. -/
def collect (r : Registry α) (parts : α → List β) : List β :=
  r.entries.flatMap fun e => parts e.2

theorem Unique.erase {r : Registry α} (h : r.Unique) (name : String) : (r.erase name).Unique :=
  h.sublist (List.filter_sublist.map Prod.fst)

theorem Unique.insert {r : Registry α} (h : r.Unique) (name : String) (a : α) :
    (r.insert name a).Unique := by
  have hfresh : name ∉ (r.erase name).entries.map Prod.fst := by simp [Registry.erase]
  exact List.nodup_cons.2 ⟨hfresh, h.erase name⟩

@[simp] theorem insert_erase (r : Registry α) (name : String) (a : α) :
    (r.erase name).insert name a = r.insert name a := by
  simp [Registry.insert, Registry.erase]

@[simp] theorem collect_insert (r : Registry α) (parts : α → List β) (name : String) (a : α) :
    (r.insert name a).collect parts = parts a ++ (r.erase name).collect parts := rfl

theorem collect_erase_sublist (r : Registry α) (parts : α → List β) (name : String) :
    ((r.erase name).collect parts).Sublist (r.collect parts) :=
  List.filter_sublist.flatMap _

/-- An object of a registry stands beside those of the other names. -/
theorem Unique.perm_of_get? {r : Registry α} (h : r.Unique) {name : String} {a : α}
    (ha : r.get? name = some a) : r.entries.Perm ((name, a) :: (r.erase name).entries) := by
  unfold Unique get? Registry.erase at *
  generalize r.entries = entries at *
  induction entries with
  | nil => simp at ha
  | cons e rest ih =>
      obtain ⟨other, b⟩ := e
      obtain ⟨hfresh, hrest⟩ := List.nodup_cons.1 h
      by_cases hname : other = name
      · subst hname
        obtain rfl : b = a := by simpa [List.lookup_cons] using ha
        have hothers : ∀ e ∈ rest, decide (e.1 ≠ other) = true := by
          intro e he
          have hmem : e.1 ∈ rest.map Prod.fst := List.mem_map_of_mem he
          exact decide_eq_true fun heq => hfresh (heq ▸ hmem)
        rw [List.filter_cons_of_neg (by simp), List.filter_eq_self.2 hothers]
      · have hother : (name == other) = false := beq_eq_false_iff_ne.2 (Ne.symm hname)
        have ha' : rest.lookup name = some a := by simpa [List.lookup_cons, hother] using ha
        rw [List.filter_cons_of_pos (by simpa using hname)]
        exact ((ih hrest ha').cons (other, b)).trans (.swap _ _ _)

theorem Unique.collect_perm {r : Registry α} (h : r.Unique) (parts : α → List β) {name : String}
    {a : α} (ha : r.get? name = some a) :
    (r.collect parts).Perm (parts a ++ (r.erase name).collect parts) :=
  (h.perm_of_get? ha).flatMap_right _

/-- Replacing an object leaves what the others are made of, and what the object itself still is. -/
theorem Unique.mem_collect_insert {r : Registry α} (h : r.Unique) {parts : α → List β}
    {name : String} {a new : α} {x : β} (ha : r.get? name = some a) (hx : x ∈ r.collect parts)
    (hkeep : x ∈ parts a → x ∈ parts new) : x ∈ (r.insert name new).collect parts := by
  rw [(h.collect_perm parts ha).mem_iff, List.mem_append] at hx
  rw [collect_insert, List.mem_append]
  exact hx.imp_left hkeep

end Registry

/-! ## 2. The leaves at a path -/

namespace Row

theorem leavesOfAll_modify {members : List Row} {i : Nat} {row : Row} (h : members[i]? = some row) :
    ∃ before after, leavesOfAll members = before ++ row.leaves ++ after
      ∧ ∀ g : Row → Row, leavesOfAll (members.modify i g) = before ++ (g row).leaves ++ after := by
  induction members generalizing i with
  | nil => simp at h
  | cons first rest ih =>
      cases i with
      | zero =>
          obtain rfl : first = row := by simpa using h
          exact ⟨[], leavesOfAll rest, by simp [leavesOfAll], fun g => by simp [leavesOfAll]⟩
      | succ i =>
          obtain ⟨before, after, hbefore, hmodify⟩ := ih (by simpa using h)
          refine ⟨first.leaves ++ before, after, ?_, fun g => ?_⟩
          · simp [leavesOfAll, hbefore]
          · simp [leavesOfAll, hmodify g]

/-- The leaves at a path are some of the leaves in a row, and replacing the row there leaves all
others what they are. -/
theorem leaves_replaceAt {row part : Row} {path : List Nat} (h : row.at? path = some part) :
    ∃ before after, row.leaves = before ++ part.leaves ++ after
      ∧ ∀ new : Row, (row.replaceAt path new).leaves = before ++ new.leaves ++ after := by
  induction path generalizing row with
  | nil =>
      obtain rfl : row = part := by simpa [at?] using h
      exact ⟨[], [], by simp, fun new => by simp [replaceAt]⟩
  | cons i path ih =>
      cases row with
      | field f => simp [at?] at h
      | tuple members =>
          have hmember : ∃ member, members[i]? = some member ∧ member.at? path = some part := by
            simpa [at?, Option.bind_eq_some_iff] using h
          obtain ⟨member, hmember, hpart⟩ := hmember
          obtain ⟨before, after, hleaves, hreplace⟩ := ih hpart
          obtain ⟨front, back, hall, hmodify⟩ := leavesOfAll_modify hmember
          refine ⟨front ++ before, after ++ back, ?_, fun new => ?_⟩
          · simp [leaves, hall, hleaves]
          · simp [replaceAt, leaves, hmodify, hreplace new]

theorem mem_leaves_of_at? {row part : Row} {path : List Nat} (h : row.at? path = some part)
    {f : Field} (hf : f ∈ part.leaves) : f ∈ row.leaves := by
  obtain ⟨before, after, hleaves, -⟩ := leaves_replaceAt h
  simp [hleaves, hf]

theorem mem_leaves_replaceAt {row part : Row} {path : List Nat} (h : row.at? path = some part)
    (new : Row) {f : Field} (hf : f ∈ row.leaves) (hout : f ∉ part.leaves) :
    f ∈ (row.replaceAt path new).leaves := by
  obtain ⟨before, after, hleaves, hreplace⟩ := leaves_replaceAt h
  have hbeside : f ∈ before ∨ f ∈ after := by simpa [hleaves, hout] using hf
  rcases hbeside with hmem | hmem
  · simp [hreplace new, hmem]
  · simp [hreplace new, hmem]

/-- Replacing a row by one of the same storage keeps the storage of the whole. -/
theorem slots_replaceAt {row part new : Row} {path : List Nat} (h : row.at? path = some part)
    (hnew : new.slots = part.slots) : (row.replaceAt path new).slots = row.slots := by
  obtain ⟨before, after, hleaves, hreplace⟩ := leaves_replaceAt h
  unfold slots at *
  simp [hreplace new, hleaves, hnew]

end Row

/-! ## 3. Storage with one owner -/

/-- The slots are pairwise different, and none of them can be given out again. -/
structure Store.Keeps (s : Store) (slots : List Slot) : Prop where
  nodup : slots.Nodup
  allocated : ∀ a ∈ slots, a.id < s.next

namespace Store.Keeps

variable {s t : Store} {slots slots' : List Slot}

theorem perm (h : s.Keeps slots) (hperm : slots.Perm slots') : s.Keeps slots' where
  nodup := hperm.nodup h.nodup
  allocated := fun a ha => h.allocated a (hperm.mem_iff.2 ha)

theorem sublist (h : s.Keeps slots) (hsub : slots'.Sublist slots) : s.Keeps slots' where
  nodup := h.nodup.sublist hsub
  allocated := fun a ha => h.allocated a (hsub.subset ha)

theorem mono (h : s.Keeps slots) (hnext : s.next ≤ t.next) : t.Keeps slots where
  nodup := h.nodup
  allocated := fun a ha => Nat.lt_of_lt_of_le (h.allocated a ha) hnext

/-- A new slot is different from all that were given out before. -/
theorem allocate (h : s.Keeps slots) (d : Domain) :
    (s.allocate d).2.Keeps ((s.allocate d).1 :: slots) where
  nodup := by
    refine List.nodup_cons.2 ⟨fun hmem => ?_, h.nodup⟩
    exact Nat.lt_irrefl s.next (h.allocated _ hmem)
  allocated := by
    intro a ha
    rcases List.mem_cons.1 ha with rfl | ha
    · exact Nat.lt_succ_self s.next
    · exact Nat.lt_succ_of_lt (h.allocated a ha)

variable {α : Type} {r : Registry α} {parts : α → List Slot} {held rest : List Slot}

/-- The storage of what is taken out of a registry is held. -/
theorem take (h : s.Keeps (held ++ (r.collect parts ++ rest))) (hr : r.Unique) {name : String} {a : α}
    (ha : r.get? name = some a) :
    s.Keeps (parts a ++ held ++ ((r.erase name).collect parts ++ rest)) := by
  have htaken := ((hr.collect_perm parts ha).append_right rest).append_left held
  rw [List.append_assoc] at htaken ⊢
  exact h.perm (htaken.trans (List.perm_append_comm_assoc _ _ _))

/-- What is held may be put into a registry; what had the name is dropped. -/
theorem put (parts : α → List Slot) {a : α}
    (h : s.Keeps (parts a ++ held ++ (r.collect parts ++ rest))) (name : String) :
    s.Keeps (held ++ ((r.insert name a).collect parts ++ rest)) := by
  have hdrop := h.sublist (((r.collect_erase_sublist parts name).append_right rest).append_left _)
  rw [Registry.collect_insert, List.append_assoc]
  rw [List.append_assoc] at hdrop
  exact hdrop.perm (List.perm_append_comm_assoc _ _ _)

end Store.Keeps

namespace Workspace

/-- All fields there are: those of the named rows, and those of the rows in cursors. -/
def fields (w : Workspace) : List Field :=
  w.rows.collect Row.leaves ++ w.cursors.collect fun c => c.row.leaves

/-- The storage of all fields there are. -/
def fieldSlots (w : Workspace) : List Slot :=
  w.rows.collect Row.slots ++ w.cursors.collect fun c => c.row.slots

theorem map_slot_fields (w : Workspace) : w.fields.map Field.slot = w.fieldSlots := by
  simp [fields, fieldSlots, Registry.collect, List.map_flatMap, Row.slots]

/-- No two fields share their storage; `held` is the storage of the rows under way, which have no
place in the workspace. -/
structure Owns (w : Workspace) (held : List Slot) : Prop where
  keeps : w.store.Keeps (held ++ w.fieldSlots)
  rows_unique : w.rows.Unique
  cursors_unique : w.cursors.Unique

theorem owns_empty : ({} : Workspace).Owns [] where
  keeps := ⟨List.nodup_nil, by simp [fieldSlots, Registry.collect]⟩
  rows_unique := List.nodup_nil
  cursors_unique := List.nodup_nil

namespace Owns

variable {w w' : Workspace} {held held' : List Slot} {name : String}

/-- Quiet work changes nothing about owners. -/
theorem quiet (h : w.Owns held) (hsame : w.SameFields w') : w'.Owns held := by
  obtain ⟨hrows, hcursors, hnext⟩ := hsame
  have hslots : w'.fieldSlots = w.fieldSlots := by simp [fieldSlots, hrows, hcursors]
  exact ⟨hslots ▸ h.keeps.mono hnext, hrows ▸ h.rows_unique, hcursors ▸ h.cursors_unique⟩

theorem perm (h : w.Owns held) (hperm : held.Perm held') : w.Owns held' :=
  ⟨h.keeps.perm (hperm.append_right _), h.rows_unique, h.cursors_unique⟩

/-- New storage is held at first. -/
theorem allocate (h : w.Owns held) (d : Domain) :
    ({ w with store := (w.store.allocate d).2 } : Workspace).Owns ((w.store.allocate d).1 :: held) :=
  ⟨h.keeps.allocate d, h.rows_unique, h.cursors_unique⟩

/-- A row that is taken is held. -/
theorem take_row (h : w.Owns held) {row : Row} (hrow : w.rows.get? name = some row) :
    ({ w with rows := w.rows.erase name } : Workspace).Owns (row.slots ++ held) :=
  ⟨h.keeps.take h.rows_unique hrow, h.rows_unique.erase name, h.cursors_unique⟩

/-- A row that is held may get a name; what had the name is dropped. -/
theorem put_row {row : Row} (h : w.Owns (row.slots ++ held)) (name : String) :
    ({ w with rows := w.rows.insert name row } : Workspace).Owns held :=
  ⟨h.keeps.put Row.slots name, h.rows_unique.insert name row, h.cursors_unique⟩

/-- The row of a cursor that is taken is held. -/
theorem take_cursor (h : w.Owns held) {c : Cursor} (hc : w.cursors.get? name = some c) :
    ({ w with cursors := w.cursors.erase name } : Workspace).Owns (c.row.slots ++ held) := by
  have hkeeps : w.store.Keeps (held ++ w.rows.collect Row.slots
      ++ (w.cursors.collect (fun c => c.row.slots) ++ [])) := by
    simpa [fieldSlots] using h.keeps
  refine ⟨?_, h.rows_unique, h.cursors_unique.erase name⟩
  simpa [fieldSlots] using hkeeps.take h.cursors_unique hc

/-- A row that is held may go into a cursor; what had the name is dropped. -/
theorem put_cursor {c : Cursor} (h : w.Owns (c.row.slots ++ held)) (name : String) :
    ({ w with cursors := w.cursors.insert name c } : Workspace).Owns held := by
  have hkeeps : w.store.Keeps (c.row.slots ++ (held ++ w.rows.collect Row.slots)
      ++ (w.cursors.collect (fun c => c.row.slots) ++ [])) := by
    simpa [fieldSlots] using h.keeps
  refine ⟨?_, h.rows_unique, h.cursors_unique.insert name c⟩
  simpa [fieldSlots] using hkeeps.put (fun c : Cursor => c.row.slots) name

/-- A row may change in its place if it keeps its storage. -/
theorem replace_row (h : w.Owns held) {row new : Row} (hrow : w.rows.get? name = some row)
    (hslots : new.slots = row.slots) :
    ({ w with rows := w.rows.insert name new } : Workspace).Owns held := by
  have htaken := h.take_row hrow
  rw [← hslots] at htaken
  simpa using htaken.put_row name

/-- A cursor may change if its row keeps its storage. -/
theorem replace_cursor (h : w.Owns held) {c new : Cursor} (hc : w.cursors.get? name = some c)
    (hslots : new.row.slots = c.row.slots) :
    ({ w with cursors := w.cursors.insert name new } : Workspace).Owns held := by
  have htaken := h.take_cursor hc
  rw [← hslots] at htaken
  simpa using htaken.put_cursor name

end Owns

end Workspace

end QueryTerms
