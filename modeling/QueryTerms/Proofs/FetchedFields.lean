/-
QueryTerms.Proofs.FetchedFields — a field filled by a fetch is as good as an assigned one.

There are three ways for a raw column to get into a field. A fetch decodes it into the field's storage,
if that is bound, and the field is declared valid; the field decodes it by itself; or a field is made
from it. Nothing that can be asked of the field afterwards tells which one it was
(`Field.fetched_as_assigned`).

## How the proof goes

A valid field shows its cell and nothing else (`Field.view_of_isValid`), and in all three ways the cell
is what the column stands for; for the fetch this is read off the history of the bindings. How a field
is written inside a term is decided by its view, too, whatever term that is (`Term.Frame`).

  §1  fields that cannot be told apart
  §2  what a valid field shows
  §3  the three ways
-/
import QueryTerms.Proofs.BindingHistory
import QueryTerms.Proofs.CursorReports
import QueryTerms.Proofs.Frames

namespace QueryTerms

/-! ## 1. Fields that cannot be told apart -/

/-- A field as an expression of its domain, where that is known under another name. -/
def Expr.ofField {d : Domain} (f : Field) (h : f.domain = d) : Expr d :=
  h ▸ .field f

theorem Expr.view_ofField {d : Domain} (f : Field) (h : f.domain = d) (s : Store) :
    (Expr.ofField f h).view s = .field (f.view s) := by
  subst h
  rfl

/-- Two fields, each in a store of its own, answer every question alike; and in every place of every
term whose other fields show the same in both stores, they are written alike into every sink. -/
structure Field.Indistinguishable (f : Field) (s : Store) (g : Field) (t : Store) : Prop where
  domain_eq : g.domain = f.domain
  view_eq : g.view t = f.view s
  written_eq : ∀ {e : Domain} (frame : Term.Frame f.domain e),
    (∀ h ∈ frame.fields, h.view t = h.view s) → ∀ {σ : Type} (k : Sink σ) (x : σ),
      (frame.fill (.ofField g domain_eq)).serializeInto k t x
        = (frame.fill (.field f)).serializeInto k s x

theorem Field.domain_eq_of_view_eq {f g : Field} {s t : Store} (h : g.view t = f.view s) :
    g.domain = f.domain :=
  congrArg FieldView.domain h

/-- It is enough that they answer alike. -/
theorem Field.Indistinguishable.of_view {f g : Field} {s t : Store} (h : g.view t = f.view s) :
    f.Indistinguishable s g t where
  domain_eq := domain_eq_of_view_eq h
  view_eq := h
  written_eq {_} frame hfields {_} k x := by
    have hview : (Expr.ofField g (domain_eq_of_view_eq h)).view t = (Expr.field f).view s := by
      rw [Expr.view_ofField, h, Expr.view]
    exact frame.serializeInto_fill (congrArg TermView.gist hview) hfields k x

/-! ## 2. What a valid field shows -/

/-- What a field shows while a row stands in it that has this cell. -/
def Cell.shown {d : Domain} (c : Cell d) : FieldView :=
  { domain := d
    isValid := true
    value := .ok c.value
    isNull := .ok c.isNull
    option := .ok c.asOption
    display := some (if c.isNull then Token.plainText .null else Token.plainText (.ofNative c.value)) }

theorem Field.view_of_isValid {f : Field} (h : f.isValid = true) (s : Store) :
    f.view s = (s.get f.slot).shown := by
  have hcell : ∀ accessor, f.cell? s accessor = .ok (s.get f.slot) := by
    intro accessor
    rw [cell?, if_pos h]
  simp only [view, value?, isNull?, asOption?, display?, hcell, h]
  rfl

/-- Valid fields of one domain whose cells stand for the same column answer alike. -/
theorem Field.Indistinguishable.of_raw {f g : Field} {s t : Store} {raw : RawColumn}
    (hf : f.isValid = true) (hfs : s.get f.slot = .ofRaw raw) (hg : g.isValid = true)
    (hgt : t.get g.slot = .ofRaw raw) (hdomain : g.domain = f.domain) : f.Indistinguishable s g t := by
  have hshown : ∀ d d' : Domain, d' = d →
      (Cell.ofRaw raw : Cell d').shown = (Cell.ofRaw raw : Cell d).shown := by
    intro d d' h
    subst h
    rfl
  refine .of_view ?_
  rw [view_of_isValid hf, view_of_isValid hg, hfs, hgt]
  exact hshown _ _ hdomain

/-! ## 3. The three ways -/

/-- A field that has just been made, or whose row has been dropped, with whatever storage. -/
inductive Field.Unfilled : Field → Prop
  | new (s : Store) (d : Domain) : Unfilled (Field.new s d).1
  | invalidated (f : Field) (s : Store) : Unfilled (f.invalidate s).1

theorem Field.Unfilled.isValid_eq {f : Field} (h : f.Unfilled) : f.isValid = false := by
  cases h with
  | new s d => rfl
  | invalidated f s => rfl

/-- A fetch that takes a row leaves in a slot what its column stands for, if the last binding of the
slot that is kept is that of the column. -/
theorem RowBuffer.Reached.get_fetched {b : RowBuffer} {s₀ : Store} {h : History}
    (hb : Reached (b, s₀) h) {i : Nat} {slot : Slot} (hbound : KeepsLast h i slot) {row : RawRow}
    {rest : List RawRow} (hrows : b.rows = row :: rest) {raw : RawColumn} (hraw : row[i]? = some raw)
    {s : Store} (hfetch : (b.fetch s).1 = .ok true) :
    (b.fetch s).2.2.get slot = .ofRaw raw := by
  rcases fetch_cases b s with ⟨hempty, -⟩ | ⟨row', rest', hrows', -, hok⟩
    | ⟨row', rest', m, -, -, -, hnarrow⟩
  · rw [hrows] at hempty
    cases hempty
  · rw [hrows] at hrows'
    cases hrows'
    have hcolumn : columnAt row i = raw := by rw [columnAt, hraw, Option.join_some]
    rw [hok, get_deliver, hb.bindings_eq, lastColumn?_kept_eq_some_iff.2 hbound]
    exact congrArg Cell.ofRaw hcolumn
  · rw [hnarrow] at hfetch
    cases hfetch

/-- **A field filled by a fetch is as good as an assigned one.** Let the last binding of a field's slot
that a buffer keeps be that of some column, let a fetch take a row, and let no one write to the slot
after that. The slot holds what the column stands for. A field that was made or dropped before still
refuses every access; once the field is declared valid, it cannot be told from any field of its domain
that was assigned the column, nor from one that was made from it. -/
theorem Field.fetched_as_assigned {b : RowBuffer} {s₀ : Store} {h : RowBuffer.History}
    (hb : RowBuffer.Reached (b, s₀) h) {f : Field} {i : Nat} (hbound : RowBuffer.KeepsLast h i f.slot)
    {row : RawRow} {rest : List RawRow} (hrows : b.rows = row :: rest) {raw : RawColumn}
    (hraw : row[i]? = some raw) {s : Store} (hfetch : (b.fetch s).1 = .ok true) {u : Store}
    (hquiet : u.get f.slot = (b.fetch s).2.2.get f.slot) :
    u.get f.slot = .ofRaw raw
    ∧ (f.Unfilled → f.Refuses u)
    ∧ (∀ (g : Field) (t v : Store), g.domain = f.domain →
        v.get g.slot = (g.assign t raw).2.get g.slot →
          f.validate.Indistinguishable u (g.assign t raw).1 v)
    ∧ (∀ t v : Store,
        v.get (ofRaw t f.domain raw).1.slot
            = (ofRaw t f.domain raw).2.get (ofRaw t f.domain raw).1.slot →
          f.validate.Indistinguishable u (ofRaw t f.domain raw).1 v) := by
  have hu : u.get f.slot = .ofRaw raw := hquiet.trans (hb.get_fetched hbound hrows hraw hfetch)
  have hassign : ∀ (g : Field) (t v : Store), g.domain = f.domain →
      v.get g.slot = (g.assign t raw).2.get g.slot →
        f.validate.Indistinguishable u (g.assign t raw).1 v := by
    intro g t v hdomain hv
    have hcell : v.get g.slot = .ofRaw raw := hv.trans (Store.get_put_self t g.slot _)
    exact .of_raw rfl hu rfl hcell hdomain
  refine ⟨hu, fun hf => refuses_of_invalid hf.isValid_eq u, hassign, ?_⟩
  intro t v hv
  exact hassign (new t f.domain).1 (new t f.domain).2 v rfl hv

/-- A slot bound to two columns takes the later one and holds its -7; another field is assigned it in
another store, and a third one is made from it. -/
theorem Field.fetched_as_assigned_aliased :
    let slot : Slot := ⟨.integral, 0⟩
    let row : RawRow := [some [116], some [45, 55]]
    let b : RowBuffer := ((RowBuffer.ofRows [row]).bind 0 slot).bind 1 slot
    let f : Field := { slot }
    let g : Field := ⟨⟨.integral, 5⟩, true⟩
    let raw : RawColumn := some [45, 55]
    let u : Store := (b.fetch {}).2.2
    RowBuffer.KeepsLast [(0, slot), (1, slot)] 1 f.slot
    ∧ (b.fetch {}).1 = .ok true
    ∧ ((u.get f.slot).value = (-7 : Int64) ∧ (u.get f.slot).isNull = false)
    ∧ f.Unfilled ∧ f.Refuses u
    ∧ f.validate.Indistinguishable u (g.assign {} raw).1 (g.assign {} raw).2
    ∧ f.validate.Indistinguishable u (Field.ofRaw u .integral raw).1 (Field.ofRaw u .integral raw).2 := by
  intro slot row b f g raw u
  have hb : RowBuffer.Reached (b, {}) [(0, slot), (1, slot)] :=
    (RowBuffer.Reached.start [row] {}).run [.bind 0 slot, .bind 1 slot]
  have hbound : RowBuffer.KeepsLast [(0, slot), (1, slot)] 1 f.slot :=
    ⟨[(0, slot)], [], rfl, by simp, fun j => RowBuffer.not_keeps_nil j _⟩
  have hrows : b.rows = row :: [] := rfl
  have hraw : row[1]? = some raw := rfl
  have hfetch : (b.fetch {}).1 = .ok true := rfl
  have hquiet : u.get f.slot = (b.fetch {}).2.2.get f.slot := rfl
  obtain ⟨hu, hrefuses, hassign, hofRaw⟩ :=
    Field.fetched_as_assigned hb hbound hrows hraw hfetch hquiet
  have hcell : (u.get f.slot).value = (-7 : Int64) ∧ (u.get f.slot).isNull = false := by
    rw [hu]
    exact ⟨by decide, rfl⟩
  exact ⟨hbound, hfetch, hcell, .new {} .integral, hrefuses (.new {} .integral),
    hassign g {} _ rfl rfl, hofRaw u _ rfl⟩

end QueryTerms
