/-
QueryTerms.Proofs.ContinuedDocuments — documents that are cut off or go on.

The first problem of a document decides: what stands behind it changes neither its kind nor its message
(`ofDocument_append_of_problem`). And a document that describes a dialect is recognised in one way only:
cut off before its closing bracket it has ended too soon, and continued with anything but white space it
is malformed (`ofDocument_of_described`).

## How the proof goes

All readers of documents are settled (`settled_value`), with one exception. Where a value of the wrong
type is refused, the message shows the value, and a number at the very end of the text may go on. So the
readers are settled as far as the refusals on the way are (`WrongSettled`): with the same problem if the
text does not end in a number, and with some problem in every case.
-/
import QueryTerms.Proofs.DocumentGrammar
import QueryTerms.Proofs.SettledReading

namespace QueryTerms.Dialect

open Json Json.Reader Json.StringLiteral

/-! ## 1. Refused values -/

/-! A reader that meets a value of the wrong type reads it far enough to name it, and the name shows a
number as it stands. At the end of a text the digits may go on, and the message with them. -/

/-- The text does not end in a number. -/
def Outside (p : List Char) : Prop :=
  ∀ c ∈ p.getLast?, Number.isPart c = false

/-- A number that the text has begun comes to its end in the text. -/
theorem Outside.closed {c : Char} {p : List Char} (h : Outside (c :: p))
    (hc : Number.isPart c = true) : Number.Closed p := by
  have hlast : (c :: p).getLast (by simp) ∈ (c :: p).getLast? := by
    rw [List.getLast?_eq_some_getLast]
    rfl
  exact Number.closed_of_append (w := [c]) (by simpa using hc) ⟨_, hlast, h _ hlast⟩

/-- Wherever a text shows a value that is refused, the refusal is settled. -/
def WrongSettled (E : Problem Misfit → Problem Misfit → Prop) (p : List Char) : Prop :=
  ∀ (wanted : Wanted) (c : Char) (t : List Char), c :: t <:+ p →
    ∀ {α : Type}, Settled E (wrongValue wanted c : DocumentReader α) t

/-- Every end of the text inherits it. -/
theorem WrongSettled.mono {E : Problem Misfit → Problem Misfit → Prop} {p q : List Char}
    (h : WrongSettled E p) (hq : q <:+ p) : WrongSettled E q :=
  fun wanted c t ht _ => h wanted c t (ht.trans hq)

/-- Some problem there is in every case. -/
theorem wrongSettled_any (p : List Char) : WrongSettled (fun _ _ => True) p := by
  intro wanted c t _ α
  constructor
  · intro a rest h
    exact absurd h wrongValue_ne_ok
  · intro e _ _ s
    cases h : (wrongValue wanted c : DocumentReader α) (t ++ s) with
    | error e' => exact ⟨e', rfl, trivial⟩
    | ok x => exact absurd h wrongValue_ne_ok

section

variable {E : Problem Misfit → Problem Misfit → Prop} (hE : ∀ e, E e e)
include hE

/-- What the message shows of a value is settled outside a number. Strings are read to their end, and of
arrays and objects only the opening bracket is shown. -/
theorem settled_found (c : Char) {p : List Char} (h : Outside (c :: p)) :
    Settled E (found c : DocumentReader Found) p := by
  unfold found
  split
  · exact settled_bind (settled_word hE _ _) fun _ _ _ _ => settled_pure _ _
  · exact settled_bind (settled_word hE _ _) fun _ _ _ _ => settled_pure _ _
  · exact settled_bind (settled_word hE _ _) fun _ _ _ _ => settled_pure _ _
  · exact settled_map _ (settled_afterQuote hE _)
  · exact settled_pure _ _
  · exact settled_pure _ _
  · -- behind a sign a number must come to its end
    have hp : Number.Closed p := h.closed (by decide)
    refine settled_bind (settled_next _) fun d rest hd _ => ?_
    refine settled_map _ (Number.settled_afterDigit hE true fun hdigit => ?_)
    exact Number.closed_of_next hp (Number.isPart_of_isDigit hdigit) hd
  · split
    · next hdigit =>
        have hp : Number.Closed p := h.closed (Number.isPart_of_isDigit hdigit)
        exact settled_map _ (Number.settled_afterDigit hE false fun _ => hp)
    · exact settled_throw hE _ _

/-- So a text that does not end in a number settles every refusal in it, for all its ends do not either. -/
theorem Outside.wrongSettled {p : List Char} (h : Outside p) : WrongSettled E p := by
  intro wanted c t ht α
  have hct : Outside (c :: t) := by
    obtain ⟨w, rfl⟩ := ht
    intro d hd
    refine h d ?_
    rw [List.getLast?_append, hd]
    rfl
  exact settled_bind (settled_found hE c hct) fun _ _ _ _ => settled_throw hE _ _

/-! ## 2. Values -/

/-! Each reader of documents is settled where the refusals in what it reads are. The suffixes that
`settled_bind` hands on say that what is left is an end of the text that the assumption speaks of. -/

/-- A name has been read to its closing quote, so whether it is known is settled. -/
theorem settled_named {α : Type} (ofName? : String → Option α) (unknown : String → Misfit)
    (name : String) (p : List Char) : Settled E (named ofName? unknown name) p := by
  unfold named
  split
  · exact settled_pure _ _
  · exact settled_throw hE _ _

/-- One wanted mark. -/
theorem settled_expect (c : Char) (p : List Char) : Settled E (expect c) p := by
  refine settled_bind (settled_token p) fun d rest _ _ => ?_
  split
  · exact settled_pure _ _
  · exact settled_throw hE _ _

/-- A name, or an object of one member: only the member's value can be refused. -/
theorem settled_choice {α : Type} (ofName? : String → Option α) (unknown : String → Misfit)
    (c : Char) {p : List Char} (hwrong : WrongSettled E p) :
    Settled E (choice ofName? unknown c) p := by
  unfold choice
  split
  · exact settled_bind (settled_afterQuote hE p) fun _ _ _ _ => settled_named hE _ _ _ _
  · refine settled_bind (settled_expect hE _ _) fun _ rest _ h1 => ?_
    refine settled_bind (settled_afterQuote hE _) fun _ rest _ h2 => ?_
    refine settled_bind (settled_named hE _ _ _ _) fun _ rest _ h3 => ?_
    refine settled_bind (settled_expect hE _ _) fun _ rest _ h4 => ?_
    refine settled_bind (settled_token _) fun c rest hc h5 => ?_
    split
    · refine settled_bind (settled_word hE _ _) fun _ rest _ _ => ?_
      exact settled_bind (settled_expect hE _ _) fun _ rest _ _ => settled_pure _ _
    · have hsuf := h4.trans (h3.trans (h2.trans h1))
      exact hwrong .null c rest ((suffix_of_token hc).trans hsuf)
  · exact settled_throw hE _ _

/-- A style, or null. -/
theorem settled_styleFrom (c : Char) {p : List Char} (hwrong : WrongSettled E p) :
    Settled E (styleFrom c) p := by
  unfold styleFrom
  split
  · exact settled_bind (settled_word hE _ _) fun _ _ _ _ => settled_pure _ _
  · exact settled_map some (settled_choice hE _ _ c hwrong)

/-! ## 3. Objects and arrays -/

/-- Whether there is another member. -/
theorem settled_nextMember (isFirst : Bool) (p : List Char) : Settled E (nextMember isFirst) p := by
  refine settled_bind (settled_token p) fun c rest _ _ => ?_
  split
  · exact settled_pure _ _
  · split
    · split
      · exact settled_pure _ _
      · exact settled_throw hE _ _
    · split
      · exact settled_bind (settled_expect hE _ _) fun _ _ _ _ => settled_pure _ _
      · exact settled_throw hE _ _

/-- The name of a member, known or not. -/
theorem settled_memberName (p : List Char) : Settled E memberName p :=
  settled_bind (settled_afterQuote hE p) fun _ _ _ _ => settled_named hE _ _ _ _

/-- What has been given makes a dialect or lacks the kind, whatever follows. -/
theorem settled_dialect (g : Given) (p : List Char) : Settled E g.dialect p := by
  unfold Given.dialect
  split
  · exact settled_pure _ _
  · exact settled_throw hE _ _

/-- The loop over the members, by its own recursion. -/
theorem settled_members (isFirst : Bool) (g : Given) : ∀ {p : List Char}, WrongSettled E p →
    Settled E (members isFirst g) p := by
  induction isFirst, g using members.induct with
  | case1 isFirst g ihkind ihstyle =>
      intro p hwrong
      rw [members]
      refine settled_bind (settled_nextMember hE isFirst p) fun more rest _ h1 => ?_
      split
      · refine settled_bind (settled_memberName hE rest) fun member rest _ h2 => ?_
        cases member with
        | kind =>
            dsimp only
            split
            · next hopen =>
                refine settled_bind (settled_expect hE _ _) fun _ rest _ h3 => ?_
                refine settled_bind (settled_token _) fun c rest _ h4 => ?_
                have hrest := hwrong.mono (h4.trans (h3.trans (h2.trans h1)))
                refine settled_bind (settled_choice hE _ _ c hrest) fun kind rest _ h5 => ?_
                exact ihkind hopen kind (hrest.mono h5)
            · exact settled_throw hE _ _
        | booleanLiterals =>
            dsimp only
            split
            · next hopen =>
                refine settled_bind (settled_expect hE _ _) fun _ rest _ h3 => ?_
                refine settled_bind (settled_token _) fun c rest _ h4 => ?_
                have hrest := hwrong.mono (h4.trans (h3.trans (h2.trans h1)))
                refine settled_bind (settled_styleFrom hE c hrest) fun style rest _ h5 => ?_
                exact ihstyle hopen style (hrest.mono h5)
            · exact settled_throw hE _ _
      · exact settled_dialect hE g rest

/-- The elements of an array. -/
theorem settled_elements {p : List Char} (hwrong : WrongSettled E p) : Settled E elements p := by
  unfold elements
  dsimp only
  refine settled_bind (settled_token p) fun c rest _ h1 => ?_
  split
  · exact settled_throw hE _ _
  · refine settled_bind (settled_choice hE _ _ c (hwrong.mono h1)) fun kind rest _ h2 => ?_
    refine settled_bind (settled_token _) fun c rest _ h3 => ?_
    split
    · exact settled_pure _ _
    · split
      · refine settled_bind (settled_token _) fun c rest _ h4 => ?_
        split
        · exact settled_throw hE _ _
        · have hrest := hwrong.mono (h4.trans (h3.trans (h2.trans h1)))
          refine settled_bind (settled_styleFrom hE c hrest) fun style rest _ _ => ?_
          exact settled_bind (settled_expect hE _ _) fun _ _ _ _ => settled_pure _ _
      · exact settled_throw hE _ _

/-- A document; of another type than object or array it is refused as a whole. -/
theorem settled_value {p : List Char} (hwrong : WrongSettled E p) : Settled E value p := by
  refine settled_bind (settled_token p) fun c rest hc h => ?_
  split
  · exact settled_members hE true {} (hwrong.mono h)
  · exact settled_elements hE (hwrong.mono h)
  · exact hwrong .document c rest (suffix_of_token hc)

end

/-! ## 4. The first problem decides -/

/-- The outcome of a document carries the problem of the reader unchanged. -/
theorem ofDocument_eq_error_iff {text : String} {e : Problem Misfit} :
    ofDocument text = .error (.problem e) ↔ readAll value text.toList = .error e := by
  rw [ofDocument]
  cases readAll value text.toList with
  | error e' =>
      constructor
      · intro h
        cases h
        rfl
      · intro h
        cases h
        rfl
  | ok d => constructor <;> intro h <;> cases h

/-- **A problem other than the end of the text stays the same whatever follows**, if the text that
shows it does not end in a number. -/
theorem ofDocument_append_of_problem {p : String}
    (hend : ∀ c ∈ p.toList.getLast?, Number.isPart c = false) {e : Problem Misfit}
    (he : e ≠ .endOfText) (h : ofDocument p = .error (.problem e)) (s : String) :
    ofDocument (p ++ s) = .error (.problem e) := by
  rw [ofDocument_eq_error_iff] at h ⊢
  rw [String.toList_append]
  have hwrong : WrongSettled Eq p.toList := Outside.wrongSettled (fun _ => rfl) hend
  exact (settled_value (fun _ => rfl) hwrong).readAll_append_of_error h he s.toList

/-- A kind with a capital letter, in a document that is not closed, is what is wrong with the closed one,
too. -/
theorem ofDocument_append_of_unknownKind :
    (∀ c ∈ "\x7b\"boolean_literals\": null, \"kind\": \"Mysql\"".toList.getLast?,
        Number.isPart c = false) ∧
      Problem.misfit (Misfit.unknownKind "Mysql") ≠ .endOfText ∧
      ofDocument "\x7b\"boolean_literals\": null, \"kind\": \"Mysql\"" =
        .error (.problem (.misfit (.unknownKind "Mysql"))) ∧
      ofDocument ("\x7b\"boolean_literals\": null, \"kind\": \"Mysql\"" ++ "\x7d") =
        .error (.problem (.misfit (.unknownKind "Mysql"))) := by
  have hend : ∀ c ∈ "\x7b\"boolean_literals\": null, \"kind\": \"Mysql\"".toList.getLast?,
      Number.isPart c = false := by
    have hlast : "\x7b\"boolean_literals\": null, \"kind\": \"Mysql\"".toList.getLast? = some '"' := by
      decide
    rw [hlast]
    rintro c ⟨⟩
    rfl
  have he : Problem.misfit (Misfit.unknownKind "Mysql") ≠ .endOfText := by
    intro h
    cases h
  have h : ofDocument "\x7b\"boolean_literals\": null, \"kind\": \"Mysql\"" =
      .error (.problem (.misfit (.unknownKind "Mysql"))) := by decide +kernel
  exact ⟨hend, he, h, ofDocument_append_of_problem hend he h "\x7d"⟩

/-! ## 5. Cut off and continued -/

/-- What a text has before its closing bracket: white space, the opening bracket, and what the brackets
enclose. Behind the closing bracket there is only white space. -/
def BeforeClosing (text before : List Char) : Prop :=
  ∃ lead opening inner closing trail,
    before = lead ++ opening :: inner ∧ text = before ++ closing :: trail ∧
    lead.all isBlank = true ∧ trail.all isBlank = true ∧ (opening, closing) ∈ brackets

theorem Spells.exists_beforeClosing {text : List Char} {d : Dialect} (h : Spells text d) :
    ∃ before, BeforeClosing text before := by
  obtain ⟨xs, rest, hxs, hlex, hrest⟩ := h
  obtain ⟨opening, ys, closing, hbrackets, rfl⟩ := hxs.exists_brackets
  have hopening : opening ∈ marks := by
    rcases mem_brackets_iff.1 hbrackets with ⟨rfl, -⟩ | ⟨rfl, -⟩ <;> decide
  have hclosing : closing ∈ marks := by
    rcases mem_brackets_iff.1 hbrackets with ⟨-, rfl⟩ | ⟨-, rfl⟩ <;> decide
  obtain ⟨s1, htoken, h1⟩ := (lexes_mark_iff hopening).1 hlex
  obtain ⟨s2, hinner, h2⟩ := lexes_append_iff.1 h1
  obtain ⟨s3, htoken', h3⟩ := (lexes_mark_iff hclosing).1 h2
  obtain rfl := lexes_nil_iff.1 h3
  obtain ⟨-, lead, hlead, rfl⟩ := token_eq_ok_iff.1 htoken
  obtain ⟨-, gap, -, rfl⟩ := token_eq_ok_iff.1 htoken'
  obtain ⟨inner, rfl⟩ := hinner.suffix
  refine ⟨lead ++ opening :: (inner ++ gap), lead, opening, inner ++ gap, closing, s3, rfl, ?_, hlead,
    hrest, hbrackets⟩
  simp

/-- **A document that describes a dialect has ended too soon wherever it is cut off before its closing
bracket, and it goes on with nothing but white space.** -/
theorem ofDocument_of_described {t : String} {d : Dialect} (h : ofDocument t = .ok d) :
    (∃ before, BeforeClosing t.toList before) ∧
    (∀ before, BeforeClosing t.toList before → ∀ p : String, p.toList <+: before →
      ofDocument p = .error (.problem .endOfText)) ∧
    ∀ s : String, ofDocument (t ++ s) =
      if s.toList.all isBlank then .ok d else .error (.problem .malformed) := by
  have hread := ofDocument_eq_ok_iff_readAll.1 h
  have hsettled : ∀ p, Settled (fun _ _ => True) value p := fun p =>
    settled_value (fun _ => trivial) (wrongSettled_any p)
  refine ⟨(readAll_value_eq_ok_iff.1 hread).exists_beforeClosing, ?_, ?_⟩
  · rintro before ⟨lead, opening, inner, closing, trail, -, ht, -, -, hbrackets⟩ p ⟨q, hq⟩
    have hsplit : t.toList = p.toList ++ (q ++ closing :: trail) := by
      rw [ht, ← hq, List.append_assoc]
    have hclosing : isBlank closing = false := by
      rcases mem_brackets_iff.1 hbrackets with ⟨-, rfl⟩ | ⟨-, rfl⟩ <;> decide
    rw [hsplit] at hread
    rw [ofDocument_eq_error_iff]
    exact (hsettled p.toList).readAll_of_append hread (by simp [hclosing])
  · intro s
    have happend := (hsettled t.toList).readAll_append_of_ok hread s.toList
    split
    · next hs => rw [ofDocument_eq_ok_iff_readAll, String.toList_append, happend, if_pos hs]
    · next hs => rw [ofDocument_eq_error_iff, String.toList_append, happend, if_neg hs]

/-- A sequence of one element with a space in front: cut inside the element it ends too soon, a line feed
behind it changes nothing, and a comma behind it is one too many. -/
theorem ofDocument_of_described_single :
    ofDocument " [\"mysql\"]" = .ok { kind := .mysql } ∧
      BeforeClosing " [\"mysql\"]".toList " [\"mysql\"".toList ∧
      ofDocument " [\"my" = .error (.problem .endOfText) ∧
      ofDocument (" [\"mysql\"]" ++ "\n") = .ok { kind := .mysql } ∧
      ofDocument (" [\"mysql\"]" ++ ",") = .error (.problem .malformed) := by
  have h : ofDocument " [\"mysql\"]" = .ok { kind := .mysql } := by decide +kernel
  have hbefore : BeforeClosing " [\"mysql\"]".toList " [\"mysql\"".toList :=
    ⟨[' '], '[', "\"mysql\"".toList, ']', [], by decide, by decide, by decide, by decide, by decide⟩
  obtain ⟨-, hcut, happend⟩ := ofDocument_of_described h
  exact ⟨h, hbefore, hcut _ hbefore _ (by decide), happend "\n", happend ","⟩

end QueryTerms.Dialect
