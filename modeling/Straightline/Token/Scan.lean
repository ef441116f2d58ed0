import Straightline.Error
import Straightline.Token.Lexicon

/-!
# Scanning

Scanning cuts a source text into tokens from left to right. At each place the rules that apply are
the candidates, and a `Policy` chooses one of them. White space is dropped, and a place where no
rule applies stops the scan.

A sign in front of digits can belong to a number or be an operator of its own. It is an operator
after a token that ends an operand, so that `a-1` is a difference and `=-1` is an assignment of a
negative number.

`scan` gives the tokens up to the place where the scan ended, whether or not that is the end of the
text; `tokenize` gives them only if it is.
-/

namespace Straightline

/-- How to choose among several rules that apply at one place. -/
inductive Policy where
  /-- The rule that takes the most characters; among those, the one with the highest priority. -/
  | longest
  /-- The rule with the highest priority. -/
  | first
deriving DecidableEq, Repr

/-- A rule that applies at a place, by its kind and the number of characters that it takes. -/
structure Candidate where
  /-- The kind of token that the rule makes. -/
  kind : Kind
  /-- The number of characters that it takes. -/
  length : Nat
  /-- It takes at least one character. -/
  length_pos : 0 < length

/-- The candidate that the policy chooses, from candidates in order of priority. -/
def Policy.choose : Policy → List Candidate → Option Candidate
  | longest, candidates => candidates.maxOn? Candidate.length
  | first, candidates => candidates.head?

/-- Whether `cs` starts with a sign. -/
def startsWithSign : List Char → Bool
  | c :: _ => c == '+' || c == '-'
  | [] => false

/-- Whether a token of the given kind may start at `cs` if `last` is the kind of the token before
it: a number with a sign may not follow a token that ends an operand. -/
def mayStart (last : Option Kind) (kind : Kind) (cs : List Char) : Bool :=
  !(kind.isNumber && startsWithSign cs && last.any Kind.endsOperand)

/-- The rules that apply at the front of `cs`, in order of priority, if `last` is the kind of the
token before. -/
def candidates (last : Option Kind) (cs : List Char) : List Candidate :=
  Lexicon.rules.filterMap fun rule =>
    match rule.matchLength? cs with
    | some (n + 1) => if mayStart last rule.kind cs then some ⟨rule.kind, n + 1, by simp⟩ else none
    | _ => none

/-- A place in the middle of a scan. -/
structure Cursor where
  /-- Where the scan has got to. -/
  position : Position
  /-- The kind of the token before, white space apart. -/
  last : Option Kind
  /-- The characters still to be read. -/
  rest : List Char

namespace Cursor

/-- The place before the first character of a text. -/
def start (source : List Char) : Cursor :=
  ⟨Position.start, none, source⟩

/-- The place behind the token of a candidate. White space leaves the last kind as it is. -/
def next (cursor : Cursor) (choice : Candidate) : Cursor where
  position := cursor.position.advance (cursor.rest.take choice.length)
  last := if choice.kind = .space then cursor.last else some choice.kind
  rest := cursor.rest.drop choice.length

/-- The token of a candidate, unless it is white space. -/
def token? (cursor : Cursor) (choice : Candidate) : Option Token :=
  if choice.kind = .space then none
  else some (Token.covering choice.kind cursor.position (cursor.rest.take choice.length))

/-- The candidate that the policy chooses at a place. -/
def choose (policy : Policy) (cursor : Cursor) : Option Candidate :=
  policy.choose (candidates cursor.last cursor.rest)

end Cursor

/-- What a scan has found. -/
structure Scan where
  /-- The tokens in order. -/
  tokens : List Token
  /-- The place where no rule applied, if there was one. -/
  stuck : Option Position
deriving DecidableEq, Repr

/-- Scans what is left of a text. -/
def scanFrom (policy : Policy) (cursor : Cursor) : Scan :=
  if cursor.rest = [] then ⟨[], none⟩
  else
    match cursor.choose policy with
    | none => ⟨[], some cursor.position⟩
    | some choice =>
      let following := scanFrom policy (cursor.next choice)
      ⟨(cursor.token? choice).toList ++ following.tokens, following.stuck⟩
termination_by cursor.rest.length
decreasing_by
  -- There is something left, and the candidate takes at least one character of it.
  have := choice.length_pos
  have := List.length_pos_iff.mpr ‹_›
  simp only [Cursor.next, List.length_drop]
  omega

theorem scanFrom_of_rest_eq_nil (policy : Policy) {cursor : Cursor} (h : cursor.rest = []) :
    scanFrom policy cursor = ⟨[], none⟩ := by
  rw [scanFrom, if_pos h]

theorem scanFrom_of_choose_eq_none {policy : Policy} {cursor : Cursor} (h : cursor.rest ≠ [])
    (hc : cursor.choose policy = none) : scanFrom policy cursor = ⟨[], some cursor.position⟩ := by
  rw [scanFrom, if_neg h, hc]

theorem scanFrom_of_choose_eq_some {policy : Policy} {cursor : Cursor} {choice : Candidate}
    (h : cursor.rest ≠ []) (hc : cursor.choose policy = some choice) :
    scanFrom policy cursor =
      ⟨(cursor.token? choice).toList ++ (scanFrom policy (cursor.next choice)).tokens,
        (scanFrom policy (cursor.next choice)).stuck⟩ := by
  rw [scanFrom, if_neg h, hc]

/-- Scans a text. -/
def scan (policy : Policy) (source : String) : Scan :=
  scanFrom policy (.start source.toList)

/-- The error for a place where no rule applies: the line that it is on, and a caret under the
character there. -/
def unrecognizedAt (source : String) (p : Position) : LexError :=
  let line := String.ofList (lineText source.toList p.line)
  let caret := String.ofList (List.replicate (p.column - 1) ' ' ++ ['^'])
  .unrecognized (Span.point p) (line ++ "\n" ++ caret)

/-- The tokens of a text, or the first place where no rule applies. -/
def tokenize (policy : Policy) (source : String) : Except LexError (List Token) :=
  let result := scan policy source
  match result.stuck with
  | none => .ok result.tokens
  | some p => .error (unrecognizedAt source p)

end Straightline
