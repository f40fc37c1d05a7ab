/-
QueryTerms.Proofs.JoinedLists — a list is its items, joined, and nesting leaves no trace.

Writing a list goes through its items with a flag that says whether an item stands before the next
one. The flag is where a separator could go missing or appear once too often, so the first section
says what it comes to over a whole list: the items' own writings, interspersed with one separator.
Splitting a list at any place splits its writing there (`Term.serializeItems_append`), with the flag
for the second part set by the first. Both the place of a failure and the flattening of nested lists
are read off this one law.

  §1  writings in order, and the items of a list as one of them
  §2  where the writing of a list fails
  §3  nested lists
-/
import QueryTerms.Proofs.TokenStream

namespace QueryTerms

section Joining

variable {σ : Type} {d : Domain} (k : Sink σ) (s : Store)

/-! ## 1. Writings in order -/

/-- Writings one after another; the first one that fails is the last one begun. -/
def Writing.inOrder : List (Writing σ Unit) → Writing σ Unit
  | [] => pure ()
  | w :: ws => do
    w
    Writing.inOrder ws

/-- The text between two neighbours. -/
def Sink.putComma : Writing σ Unit :=
  k.put (.text ", ")

/-- The separator, if an item stands before it. -/
def Sink.putCommaIf (follows : Bool) : Writing σ Unit :=
  if follows then k.putComma else pure ()

theorem Term.serializeItems_cons (follows : Bool) (item : Term d) (items : List (Term d)) :
    Term.serializeItems k s follows (item :: items) = (do
      k.putCommaIf follows
      item.serialize k s
      Term.serializeItems k s true items) := by
  rw [Term.serializeItems]
  cases follows <;> rfl

@[simp] theorem Term.serializeItems_nil (follows : Bool) :
    Term.serializeItems (d := d) k s follows [] = pure () := by
  rw [Term.serializeItems]

/-- An item and all that follow it, each of those with a separator before it. -/
theorem Term.serializeItems_eq_inOrder (item : Term d) (items : List (Term d)) :
    (do item.serialize k s
        Term.serializeItems k s true items)
      = Writing.inOrder (((item :: items).map (·.serialize k s)).intersperse k.putComma) := by
  induction items generalizing item with
  | nil => simp [Writing.inOrder]
  | cons next items ih =>
      have hnext := ih next
      rw [List.map_cons] at hnext
      rw [Term.serializeItems_cons, List.map_cons, List.map_cons, List.intersperse_cons_cons,
        Writing.inOrder, Writing.inOrder, ← hnext]
      rfl

/-- The items of a list, with the separator between neighbours. -/
theorem Term.serialize_list (items : List (Term d)) :
    (Term.list items).serialize k s
      = Writing.inOrder ((items.map (·.serialize k s)).intersperse k.putComma) := by
  rw [Term.serialize]
  cases items with
  | nil => exact Term.serializeItems_nil k s false
  | cons item items =>
      rw [Term.serializeItems_cons, ← Term.serializeItems_eq_inOrder]
      rfl

/-- A list is written up to any place, and from there on as items that follow others. -/
theorem Term.serializeItems_append (follows : Bool) (before after : List (Term d)) :
    Term.serializeItems k s follows (before ++ after) = (do
      Term.serializeItems k s follows before
      Term.serializeItems k s (follows || !before.isEmpty) after) := by
  induction before generalizing follows with
  | nil => simp
  | cons item before ih =>
      rw [List.cons_append, Term.serializeItems_cons, Term.serializeItems_cons, ih]
      simp

/-! ## 2. Where the writing of a list fails -/

/-- Writing twice ends well if both writings do. -/
theorem Writing.run_bind_eq_ok_iff (a b : Writing σ Unit) (x y : σ) :
    (a >>= fun _ => b).run.run x = (.ok (), y) ↔
      ∃ z, a.run.run x = (.ok (), z) ∧ b.run.run z = (.ok (), y) := by
  rw [Writing.run_bind]
  rcases a.run.run x with ⟨e | _, z⟩
  · constructor
    · intro h
      cases h
    · intro h
      obtain ⟨_, ha, _⟩ := h
      cases ha
  · constructor
    · exact fun h => ⟨z, rfl, h⟩
    · intro h
      obtain ⟨_, ha, hb⟩ := h
      cases ha
      exact hb

/-- Writing twice fails in the first writing, or in the second one after the first. -/
theorem Writing.run_bind_eq_error_iff (a b : Writing σ Unit) (x y : σ) (e : SerializeError) :
    (a >>= fun _ => b).run.run x = (.error e, y) ↔
      a.run.run x = (.error e, y)
        ∨ ∃ z, a.run.run x = (.ok (), z) ∧ b.run.run z = (.error e, y) := by
  rw [Writing.run_bind]
  rcases a.run.run x with ⟨e' | _, z⟩
  · constructor
    · exact Or.inl
    · intro h
      obtain h | ⟨_, ha, _⟩ := h
      · exact h
      · cases ha
  · constructor
    · exact fun h => Or.inr ⟨z, rfl, h⟩
    · intro h
      obtain h | ⟨_, ha, hb⟩ := h
      · cases h
      · cases ha
        exact hb

/-- The items fail exactly where the separator of one of them, or that item itself, fails after all
that stands before it has been written. -/
theorem Term.serializeItems_eq_error_iff (follows : Bool) (items : List (Term d)) (x y : σ)
    (e : SerializeError) :
    (Term.serializeItems k s follows items).run.run x = (.error e, y) ↔
      ∃ before item after z, items = before ++ item :: after
        ∧ (Term.serializeItems k s follows before).run.run x = (.ok (), z)
        ∧ (do k.putCommaIf (follows || !before.isEmpty)
              item.serialize k s : Writing σ Unit).run.run z = (.error e, y) := by
  constructor
  · -- along the items: the failure is the first one's, or it is behind the first one
    intro h
    induction items generalizing follows x with
    | nil =>
        rw [Term.serializeItems_nil] at h
        cases h
    | cons item items ih =>
        rw [Term.serializeItems_cons, ← bind_assoc, Writing.run_bind_eq_error_iff] at h
        obtain h | ⟨z, hitem, hrest⟩ := h
        · exact ⟨[], item, items, x, rfl, by rw [Term.serializeItems_nil]; rfl, by simpa using h⟩
        · obtain ⟨before, next, after, z', rfl, hbefore, hfails⟩ := ih true z hrest
          refine ⟨item :: before, next, after, z', rfl, ?_, by simpa using hfails⟩
          rw [Term.serializeItems_cons, ← bind_assoc, Writing.run_bind_eq_ok_iff]
          exact ⟨z, hitem, hbefore⟩
  · intro h
    obtain ⟨before, item, after, z, rfl, hbefore, hfails⟩ := h
    rw [Term.serializeItems_append, Writing.run_bind_eq_error_iff, Term.serializeItems_cons,
      ← bind_assoc]
    exact Or.inr ⟨z, hbefore, (Writing.run_bind_eq_error_iff ..).2 (Or.inl hfails)⟩

/-- An item with its separator fails in the separator, which there is if any item stands before it, or
else in the item itself. -/
theorem Term.serialize_behind_eq_error_iff (before : List (Term d)) (item : Term d) (z y : σ)
    (e : SerializeError) :
    (do k.putCommaIf (!before.isEmpty)
        item.serialize k s : Writing σ Unit).run.run z = (.error e, y) ↔
      before ≠ [] ∧ k.putComma.run.run z = (.error e, y)
        ∨ ∃ z', (if before = [] then z' = z else k.putComma.run.run z = (.ok (), z'))
            ∧ item.serializeInto k s z' = (.error e, y) := by
  rw [Writing.run_bind_eq_error_iff]
  cases before with
  | nil =>
      constructor
      · intro h
        obtain h | ⟨z', hz, hitem⟩ := h
        · cases h
        · cases hz
          exact Or.inr ⟨z, rfl, hitem⟩
      · intro h
        obtain ⟨hne, _⟩ | ⟨z', hz, hitem⟩ := h
        · exact absurd rfl hne
        · rw [if_pos rfl] at hz
          exact Or.inr ⟨z, rfl, hz ▸ hitem⟩
  | cons first before => simp [Sink.putCommaIf, Term.serializeInto]

/-! ## 3. Nested lists -/

mutual

/-- Whether no list within a term is empty, the term itself included. -/
def Term.Filled : Term d → Prop
  | .single _ => True
  | .list items => items ≠ [] ∧ Term.AllFilled items

/-- Whether no list within several terms is empty. -/
def Term.AllFilled : List (Term d) → Prop
  | [] => True
  | t :: ts => t.Filled ∧ Term.AllFilled ts

end

/-- Every part of a filled term comes down to an expression, so it leaves something to separate. -/
theorem Term.Filled.exprs_ne_nil : ∀ {t : Term d}, t.Filled → t.exprs ≠ []
  | .single e, _ => by simp [Term.exprs]
  | .list [], h => by simp [Term.Filled] at h
  | .list (t :: ts), h => by
      rw [Term.Filled, Term.AllFilled] at h
      simp [Term.exprs, Term.exprsOfAll, h.2.1.exprs_ne_nil]

/-- A list that is not empty stands behind others as its items would. -/
theorem Term.serialize_list_behind (follows : Bool) {items : List (Term d)} (h : items ≠ []) :
    (do k.putCommaIf follows
        (Term.list items).serialize k s)
      = Term.serializeItems k s follows items := by
  obtain ⟨item, items, rfl⟩ := List.exists_cons_of_ne_nil h
  rw [Term.serialize, Term.serializeItems_cons, Term.serializeItems_cons]
  rfl

mutual

theorem Term.Filled.serialize_eq : ∀ {t : Term d}, t.Filled → ∀ follows : Bool,
    (do k.putCommaIf follows
        t.serialize k s)
      = Term.serializeItems k s follows (t.exprs.map .single)
  | .single e, _, follows => by
      rw [Term.exprs, List.map_singleton, Term.serializeItems_cons, Term.serializeItems_nil]
      simp
  | .list items, h, follows => by
      rw [Term.Filled] at h
      rw [Term.exprs, Term.serialize_list_behind k s follows h.1]
      exact Term.AllFilled.serializeItems_eq h.2 follows

/-- Filled terms are written as their expressions would be, one after another in one list. -/
theorem Term.AllFilled.serializeItems_eq : ∀ {ts : List (Term d)}, Term.AllFilled ts →
    ∀ follows : Bool, Term.serializeItems k s follows ts
      = Term.serializeItems k s follows ((Term.exprsOfAll ts).map .single)
  | [], _, follows => by rw [Term.exprsOfAll, List.map_nil]
  | t :: ts, h, follows => by
      rw [Term.AllFilled] at h
      -- the first term leaves an expression behind, so the others have a separator before them
      have hseparated : (follows || !(t.exprs.map Term.single).isEmpty) = true := by
        simp [h.1.exprs_ne_nil]
      rw [Term.serializeItems_cons, ← bind_assoc, h.1.serialize_eq follows,
        Term.AllFilled.serializeItems_eq h.2 true, Term.exprsOfAll, List.map_append,
        Term.serializeItems_append, hseparated]

end

/-- **A list is its items joined, and nesting leaves no trace.** In every context and store, writing a
list is writing its items in order with one separator between neighbours. It fails exactly where all
items before some item have been written and then the separator before that item fails, which there
is if any item stands before it, or that item itself does; nothing of a later item is written. A list
of terms in none of which a list is empty is therefore written, to the same end, as the flat list of
the expressions they come down to. -/
theorem Term.serialize_list_joins (items : List (Term d)) :
    (Term.list items).serialize k s
        = Writing.inOrder ((items.map (·.serialize k s)).intersperse k.putComma)
    ∧ (∀ (x y : σ) (e : SerializeError),
        (Term.list items).serializeInto k s x = (.error e, y) ↔
          ∃ before item after z, items = before ++ item :: after
            ∧ (Term.list before).serializeInto k s x = (.ok (), z)
            ∧ (before ≠ [] ∧ k.putComma.run.run z = (.error e, y)
              ∨ ∃ z', (if before = [] then z' = z else k.putComma.run.run z = (.ok (), z'))
                  ∧ item.serializeInto k s z' = (.error e, y)))
    ∧ (Term.AllFilled items →
        (Term.list items).serialize k s
          = (Term.list ((Term.exprsOfAll items).map .single)).serialize k s) := by
  refine ⟨Term.serialize_list k s items, ?_, ?_⟩
  · intro x y e
    rw [Term.serializeInto, Term.serialize, Term.serializeItems_eq_error_iff]
    refine exists_congr fun before => exists_congr fun item => exists_congr fun after =>
      exists_congr fun z => and_congr_right fun _ => ?_
    rw [Term.serializeInto, Term.serialize, Bool.false_or, Term.serialize_behind_eq_error_iff]
  · intro h
    rw [Term.serialize, Term.serialize]
    exact h.serializeItems_eq k s false

end Joining

/-- A list within a list, into a text with room for two items and the separators behind them. -/
theorem Term.serialize_list_joins_nested :
    let one : Term .boolean := .single (.literal true)
    let zero : Term .boolean := .single (.literal false)
    let items := [.list [one, zero], one]
    Term.AllFilled items
    ∧ (Term.list items).serialize Sink.limited {}
        = (Term.list [one, zero, one]).serialize Sink.limited {}
    ∧ ∃ before item after z, items = before ++ item :: after
        ∧ (Term.list before).serializeInto Sink.limited {} { room := 6 } = (.ok (), z)
        ∧ (before ≠ [] ∧ Sink.limited.putComma.run.run z = (.error .sinkFailed, ⟨"1, 0, ", 0⟩)
          ∨ ∃ z', (if before = [] then z' = z else Sink.limited.putComma.run.run z = (.ok (), z'))
              ∧ item.serializeInto Sink.limited {} z' = (.error .sinkFailed, ⟨"1, 0, ", 0⟩)) := by
  intro one zero items
  have hfilled : Term.AllFilled items := by
    simp [items, one, zero, Term.AllFilled, Term.Filled]
  have hjoins := Term.serialize_list_joins Sink.limited {} items
  exact ⟨hfilled, hjoins.2.2 hfilled, (hjoins.2.1 _ _ _).1 rfl⟩

/-- An empty list among others is nothing between two separators, which its absence is not. -/
example :
    let t : Term .boolean := .single (.literal true)
    (Term.list [t, .list [], t]).serializeInto Sink.plain {} "" = (.ok (), "1, , 1")
    ∧ (Term.list [t, t]).serializeInto Sink.plain {} "" = (.ok (), "1, 1") :=
  ⟨rfl, rfl⟩

end QueryTerms
