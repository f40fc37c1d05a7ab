/-
QueryTerms.Renderer — text rendered for a dialect.

A renderer is a dialect and the text written so far. As a sink it never fails; truth values take the
dialect's spelling, everything else the default one.
-/
import QueryTerms.Sink
import QueryTerms.Dialect

namespace QueryTerms

/-- A dialect and the text rendered for it so far. -/
structure Renderer where
  dialect : Dialect
  text : String := ""
  deriving DecidableEq

namespace Renderer

/-- Adds text at the end. -/
def append (r : Renderer) (s : String) : Renderer :=
  { r with text := r.text ++ s }

/-- The sink that a renderer is: truth values as the dialect spells them. -/
def sink : Sink Renderer where
  writeText s r := (true, r.append s)
  writeBoolean b r := (true, r.append (r.dialect.booleanLiteral b))

end Renderer

end QueryTerms
