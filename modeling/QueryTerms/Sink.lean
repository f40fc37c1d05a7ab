/-
QueryTerms.Sink — where rendered text goes.

What is rendered reaches a sink token by token: raw text, a truth value, an integer or NULL. A sink
answers each token with whether it took it, and keeps its state either way, so what a sink wrote before
it failed stays written. Raw text has no default; the other three default to writing `1` or `0`,
decimal digits, and `NULL` as raw text.

Three sinks are defined here: a plain text that grows and never fails, a text of limited room, and a
text in which every token other than raw text is marked.
-/
import QueryTerms.Domain

namespace QueryTerms

/-! ## 1. Tokens and sinks -/

/-- What a sink is handed in one call. -/
inductive Token where
  | text (s : String)
  | boolean (b : Bool)
  | integral (n : Int64)
  | null
  deriving DecidableEq

/-- The token of a native value. -/
def Token.ofNative : {d : Domain} → d.Native → Token
  | .boolean, b => .boolean b
  | .integral, n => .integral n

/-- A way of taking tokens into a state; each call answers whether the token was taken. -/
structure Sink (σ : Type) where
  writeText : String → StateM σ Bool
  writeBoolean : Bool → StateM σ Bool := fun b => writeText (if b then "1" else "0")
  writeIntegral : Int64 → StateM σ Bool := fun n => writeText (Numeral.ofInt n.toInt)
  writeNull : StateM σ Bool := writeText "NULL"

/-- Hands a token to the hook of its kind. -/
def Sink.write {σ : Type} (k : Sink σ) : Token → StateM σ Bool
  | .text s => k.writeText s
  | .boolean b => k.writeBoolean b
  | .integral n => k.writeIntegral n
  | .null => k.writeNull

/-! ## 2. Plain text -/

/-- Text with the default spellings; it never fails. -/
def Sink.plain : Sink String where
  writeText s text := (true, text ++ s)

/-- A token in the default spelling. -/
def Token.plainText (t : Token) : String :=
  (Sink.plain.write t "").2

/-! ## 3. Text of limited room -/

/-- A text and the number of characters it can still take. -/
structure LimitedText where
  text : String := ""
  room : Nat
  deriving DecidableEq

/-- Takes what fits, and fails if that is not all; empty text always fits. -/
def LimitedText.append (t : LimitedText) (s : String) : Bool × LimitedText :=
  if s.length ≤ t.room then
    (true, ⟨t.text ++ s, t.room - s.length⟩)
  else
    (false, ⟨t.text ++ String.ofList (s.toList.take t.room), 0⟩)

/-- Default spellings into a text of limited room. -/
def Sink.limited : Sink LimitedText where
  writeText s t := t.append s

/-! ## 4. Marked text -/

/-- Text in which values and NULL stand between angle brackets, marked with their kind. -/
def Sink.tagged : Sink String where
  writeText s text := (true, text ++ s)
  writeBoolean b text := (true, text ++ "<b:" ++ Domain.describe (d := .boolean) b ++ ">")
  writeIntegral n text := (true, text ++ "<i:" ++ Numeral.ofInt n.toInt ++ ">")
  writeNull text := (true, text ++ "<null>")

end QueryTerms
