/-
QueryTerms.Proofs.LimitedRoom — a text of limited room keeps the front of what plain text would hold.

A term is written in many small texts, and the room may end inside any of them. Where it ends does not
depend on how the text was cut into pieces: taking two texts one after the other is taking both at once
(`LimitedText.append_append`). So handing a stream over is one attempt to take the spellings of all its
tokens (`TokenStream.play_limited`), and the access failure of the stream is reached only if that attempt
succeeds. Of the two failures that a serialization can meet, the one further to the left wins.
-/
import QueryTerms.Proofs.TokenStream

namespace QueryTerms

/-! ## 1. Taking texts one after another -/

namespace LimitedText

theorem append_of_fits {x : LimitedText} {w : String} (h : w.length ≤ x.room) :
    x.append w = (true, ⟨x.text ++ w, x.room - w.length⟩) :=
  if_pos h

theorem append_of_exceeds {x : LimitedText} {w : String} (h : x.room < w.length) :
    x.append w = (false, ⟨x.text ++ String.ofList (w.toList.take x.room), 0⟩) :=
  if_neg (Nat.not_le.2 h)

@[simp] theorem append_empty (x : LimitedText) : x.append "" = (true, x) := by
  rw [append_of_fits (Nat.zero_le _)]
  simp

/-- Two texts, one behind the other: the second is reached if the first one fits. -/
theorem append_append (x : LimitedText) (u v : String) :
    x.append (u ++ v) =
      match x.append u with
      | (true, y) => y.append v
      | (false, y) => (false, y) := by
  have hlength : (u ++ v).length = u.length + v.length := String.length_append u v
  by_cases hu : u.length ≤ x.room
  · have hall : u.toList.take x.room = u.toList :=
      List.take_of_length_le (by rwa [String.length_toList])
    rw [append_of_fits hu]
    by_cases hv : v.length ≤ x.room - u.length
    · have hboth : (u ++ v).length ≤ x.room := by omega
      show _ = append ⟨x.text ++ u, x.room - u.length⟩ v
      rw [append_of_fits hboth, append_of_fits hv, hlength, String.append_assoc, Nat.sub_sub]
    · have hboth : x.room < (u ++ v).length := by omega
      show _ = append ⟨x.text ++ u, x.room - u.length⟩ v
      rw [append_of_exceeds hboth, append_of_exceeds (Nat.lt_of_not_le hv)]
      simp [List.take_append, hall, String.append_assoc, String.length_toList]
  · have hu' : x.room < u.length := Nat.lt_of_not_le hu
    have hboth : x.room < (u ++ v).length := by omega
    have hfront : (u.toList ++ v.toList).take x.room = u.toList.take x.room :=
      List.take_append_of_le_length (by rw [String.length_toList]; omega)
    rw [append_of_exceeds hboth, append_of_exceeds hu', String.toList_append, hfront]

end LimitedText

/-! ## 2. Handing a stream over -/

/-- Every token is taken as its default spelling. -/
theorem Sink.limited_write (t : Token) (x : LimitedText) :
    Sink.limited.write t x = x.append (t.spelling .numeric) := by
  rw [Token.spelling_numeric]
  cases t <;> simp [Token.plainText, Sink.write, Sink.plain, Sink.limited]

/-- Handing a stream over is taking all its spellings at once; its ending is reached if they fit. -/
theorem TokenStream.play_limited (a : TokenStream) (x : LimitedText) :
    a.play Sink.limited x =
      match x.append (a.spelled .numeric) with
      | (true, y) => (a.ending, y)
      | (false, y) => (.error .sinkFailed, y) := by
  obtain ⟨ts, failure⟩ := a
  induction ts generalizing x with
  | nil => cases failure <;> simp [play, playFrom, spelled, ending]
  | cons t rest ih =>
      have hspelled : spelled .numeric ⟨t :: rest, failure⟩
          = t.spelling .numeric ++ spelled .numeric ⟨rest, failure⟩ := by
        simp [spelled]
      rw [hspelled, LimitedText.append_append]
      simp only [play, playFrom, Sink.limited_write]
      rcases x.append (t.spelling .numeric) with ⟨_ | _, y⟩
      · rfl
      · exact ih y

/-! ## 3. Cutting at the room -/

/-- **A sink of limited room cuts the text exactly at its room.** What plain text would hold is kept
whole if it fits, and then writing ends as it does into plain text. If it does not fit, its first
characters are kept, as many as there is room for, and the sink has failed, even if a field without a
row stands further to the right. -/
theorem Term.serializeInto_limited {d : Domain} (s : Store) (t : Term d) (room : Nat) :
    let (result, text) := t.serializeInto Sink.plain s ""
    t.serializeInto Sink.limited s { room } =
      if text.length ≤ room then (result, ⟨text, room - text.length⟩)
      else (.error .sinkFailed, ⟨String.ofList (text.toList.take room), 0⟩) := by
  rw [Term.serializeInto_plain, Term.serializeInto_eq_play, TokenStream.play_limited,
    String.empty_append]
  by_cases hfits : ((t.stream s).spelled .numeric).length ≤ room
  · rw [LimitedText.append_of_fits hfits]
    simp [hfits]
  · rw [LimitedText.append_of_exceeds (Nat.lt_of_not_le hfits)]
    simp [hfits]

/-- The room ends inside a negative number, in front of a field without a row. -/
example :
    let t : Term .integral := .list [.single (.literal (-42)), .single (.field ⟨⟨.integral, 0⟩, false⟩)]
    t.serializeInto Sink.limited {} { room := 2 } = (.error .sinkFailed, ⟨"-4", 0⟩)
    ∧ t.serializeInto Sink.limited {} { room := 5 }
        = (.error (.access (.nonExistentRow .value)), ⟨"-42, ", 0⟩) :=
  ⟨rfl, rfl⟩

end QueryTerms
