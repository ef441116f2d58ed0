import Straightline.Text.Position
import Straightline.Token.Kind

/-!
# Tokens

A token is a piece of source text with its lexical class and its place.
-/

namespace Straightline

/-- A piece of source text with its lexical class and its place. -/
structure Token where
  /-- Its lexical class. -/
  kind : Kind
  /-- The characters of the source that it covers. -/
  text : String
  /-- Where it stands. -/
  span : Span
deriving DecidableEq, Repr

/-- The token of the given kind made of the characters `cs`, the first of which stands at `p`. -/
def Token.covering (kind : Kind) (p : Position) (cs : List Char) : Token :=
  ⟨kind, String.ofList cs, Span.covering p cs⟩

end Straightline
