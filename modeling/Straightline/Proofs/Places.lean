import Straightline.Compile
import Straightline.Proofs.Reading

/-!
# Places do not matter

A `Lexeme` is a token without its place. The reader looks at the lexemes of its tokens alone: tokens
with the same lexemes make the same program, or fail at the same token with the same error, up to
the place that the error names (`parse_of_lexemes_eq`).
-/

namespace Straightline

/-- A token without its place: a word with its lexical class. -/
structure Lexeme where
  /-- Its lexical class. -/
  kind : Kind
  /-- Its characters. -/
  text : String
deriving DecidableEq, Repr

namespace Token

/-- The lexeme of a token. -/
def lexeme (t : Token) : Lexeme := ⟨t.kind, t.text⟩

/-- The token at another place. -/
def moveTo (span : Span) (t : Token) : Token := { t with span }

@[simp]
theorem kind_moveTo (span : Span) (t : Token) : (t.moveTo span).kind = t.kind := rfl

@[simp]
theorem text_moveTo (span : Span) (t : Token) : (t.moveTo span).text = t.text := rfl

/-- Tokens with the same lexeme differ in their places only. -/
theorem eq_moveTo_of_lexeme_eq {t t' : Token} (h : t'.lexeme = t.lexeme) :
    t' = t.moveTo t'.span := by
  obtain ⟨hkind, htext⟩ := Lexeme.mk.inj h
  rw [moveTo, ← hkind, ← htext]

end Token

/-- The error at another place. -/
def ParseError.moveTo (span : Span) : ParseError → ParseError
  | unexpected expected found => unexpected expected (found.moveTo span)
  | undeclared name _ => undeclared name span
  | exhausted expected => exhausted expected

/-- A name is looked up by its text. -/
theorem Scope.resolve_moveTo (scope : Scope) (span : Span) (t : Token) :
    scope.resolve (t.moveTo span) = (scope.resolve t).mapError (.moveTo span) := by
  rw [resolve, resolve, Token.text_moveTo]
  cases scope.find? t.text <;> rfl

namespace Parse

section Moved

variable (scope : Scope) (span : Span) (t : Token)

/-- A move that looks up a name depends on the place only through its error. -/
theorem map_resolve_moveTo (f : Variable → Move) :
    (scope.resolve (t.moveTo span)).map f =
      ((scope.resolve t).map f).mapError (.moveTo span) := by
  rw [Scope.resolve_moveTo]
  cases scope.resolve t <;> rfl

theorem start_moveTo :
    Phase.start scope (t.moveTo span) = (Phase.start scope t).mapError (.moveTo span) := by
  rw [Phase.start, Phase.start, map_resolve_moveTo, Token.kind_moveTo]
  split <;> rfl

theorem startOperand_moveTo (goal : Goal) (outer : List Pending) (pending : Pending) :
    Phase.startOperand scope goal outer pending (t.moveTo span) =
      (Phase.startOperand scope goal outer pending t).mapError (.moveTo span) := by
  unfold Phase.startOperand
  simp only [map_resolve_moveTo, Token.kind_moveTo, Token.text_moveTo]
  split
  case h_8 =>
    -- a string, which is read at the front of what is printed only
    rw [apply_ite (Except.mapError _)]
    rfl
  all_goals rfl

theorem afterOperand_moveTo (goal : Goal) (outer : List Pending) (term : Term) :
    Phase.afterOperand goal outer term (t.moveTo span) =
      (Phase.afterOperand goal outer term t).mapError (.moveTo span) := by
  unfold Phase.afterOperand
  simp only [Token.kind_moveTo]
  split
  · rfl
  · split
    · rw [apply_ite (Except.mapError _)]
      rfl
    · rw [apply_ite (Except.mapError _)]
      cases goal <;> rfl

/-- What a token does to the current statement depends on its place only through its error. -/
theorem next_moveTo (phase : Phase) :
    phase.next scope (t.moveTo span) = (phase.next scope t).mapError (.moveTo span) := by
  cases phase with
  | idle => exact start_moveTo scope span t
  | operand goal outer pending => exact startOperand_moveTo scope span t goal outer pending
  | value goal outer term => exact afterOperand_moveTo span t goal outer term
  | _ =>
    simp only [Phase.next, apply_ite (Except.mapError _)]
    rfl

theorem step_moveTo (state : State) :
    state.step (t.moveTo span) = (state.step t).mapError (.moveTo span) := by
  rw [State.step, State.step, next_moveTo]
  cases state.phase.next state.scope t <;> rfl

end Moved

/-- Tokens with the same lexemes lead to the same state, and to the same error up to its place. -/
theorem readFrom_of_lexemes_eq {ts ts' : List Token}
    (h : ts'.map Token.lexeme = ts.map Token.lexeme) (state : State) :
    (readFrom state ts').state = (readFrom state ts).state ∧
      ∃ span, (readFrom state ts').error = (readFrom state ts).error.map (.moveTo span) := by
  induction ts generalizing ts' state with
  | nil =>
    obtain rfl : ts' = [] := by simpa using h
    refine ⟨rfl, .point .start, ?_⟩
    by_cases hidle : state.phase = .idle
    · simp [readFrom, hidle]
    · simp [readFrom, hidle, ParseError.moveTo]
  | cons t ts ih =>
    obtain ⟨t', us, rfl, hlexeme, hlexemes⟩ := List.map_eq_cons_iff.mp h
    have hstep : state.step t' = (state.step t).mapError (.moveTo t'.span) := by
      rw [← step_moveTo, ← Token.eq_moveTo_of_lexeme_eq hlexeme]
    cases hnext : state.step t with
    | ok state' =>
      rw [hnext] at hstep
      rw [readFrom, readFrom, hstep, hnext]
      exact ih hlexemes state'
    | error e =>
      rw [hnext] at hstep
      rw [readFrom, readFrom, hstep, hnext]
      exact ⟨rfl, t'.span, rfl⟩

end Parse

/-- Tokens with the same lexemes make the same program, or the same error up to its place. -/
theorem parse_of_lexemes_eq {ts ts' : List Token}
    (h : ts'.map Token.lexeme = ts.map Token.lexeme) :
    ∃ span, parse ts' = (parse ts).mapError (.moveTo span) := by
  obtain ⟨hstate, span, herror⟩ := Parse.readFrom_of_lexemes_eq h .start
  refine ⟨span, ?_⟩
  rw [parse, parse, Parse.read, Parse.read, hstate, herror]
  cases (Parse.readFrom .start ts).error <;> rfl

end Straightline
