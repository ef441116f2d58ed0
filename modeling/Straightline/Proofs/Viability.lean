import Straightline.Proofs.Reading

/-!
# Errors stand at the first token that does not fit

The reader never goes past a token that no program can have at its place, and never looks beyond the
token that it reports.

* A token that is not read is rejected for one of two reasons (`rejects_of_next`): its kind is not
  among the expected ones, or it is an unknown name.
* From every phase, whatever is open in it, some tokens lead to the end of a statement
  (`error_readFrom_completion`).

Main statement: `parse_error_at_first_misfit`, by which the tokens before an error start some
program and those up to it start none.
-/

namespace Straightline

namespace Parse

/-! ## Rejected tokens -/

/-- Why a token is not read in a phase. -/
inductive Rejects (scope : Scope) (phase : Phase) (t : Token) : ParseError → Prop
  /-- Its kind is not one of those that the phase lists. -/
  | unexpected (h : t.kind ∉ phase.expected) :
      Rejects scope phase t (.unexpected phase.expected t)
  /-- It is a name without a declaration. -/
  | undeclared (hkind : t.kind = .name) (h : scope.find? t.text = none) :
      Rejects scope phase t (.undeclared t.text t.span)

/-- A move that looks up a name fails for want of a declaration. -/
theorem rejects_of_map_resolve {scope : Scope} {phase : Phase} {t : Token} {f : Variable → Move}
    {e : ParseError} (hkind : t.kind = .name) (h : (scope.resolve t).map f = .error e) :
    Rejects scope phase t e := by
  unfold Scope.resolve at h
  split at h
  · cases h
  · next hfind =>
    cases h
    exact .undeclared hkind hfind

/-- Rejected tokens at the start of a statement. -/
theorem rejects_of_start {scope : Scope} {t : Token} {e : ParseError}
    (h : Phase.start scope t = .error e) : Rejects scope .idle t e := by
  unfold Phase.start at h
  split at h
  case h_4 hkind => exact rejects_of_map_resolve hkind h
  case h_6 =>
    cases h
    exact .unexpected (by simp_all [Phase.expected, statementStart])
  all_goals cases h

/-- Rejected tokens where an operand is missing. A sign or a string that comes too late is rejected
like any other token, since neither is listed. -/
theorem rejects_of_startOperand {scope : Scope} {goal : Goal} {outer : List Pending}
    {pending : Pending} {t : Token} {e : ParseError}
    (h : Phase.startOperand scope goal outer pending t = .error e) :
    Rejects scope (.operand goal outer pending) t e := by
  unfold Phase.startOperand at h
  split at h
  case h_1 hkind => exact rejects_of_map_resolve hkind h
  case h_8 hkind =>
    -- a string, which can stand at the front of what is printed
    split at h
    · cases h
    · cases h
      exact .unexpected (by simp [Phase.expected, operandStart, hkind])
  case h_9 =>
    cases h
    exact .unexpected (by simp_all [Phase.expected, operandStart])
  all_goals cases h

/-- Rejected tokens behind an operand. -/
theorem rejects_of_afterOperand {scope : Scope} {goal : Goal} {outer : List Pending} {term : Term}
    {t : Token} {e : ParseError} (h : Phase.afterOperand goal outer term t = .error e) :
    Rejects scope (.value goal outer term) t e := by
  unfold Phase.afterOperand at h
  split at h
  · cases h
  · split at h
    · split at h
      · cases h
      · next hkind =>
        cases h
        exact .unexpected (by simpa [Phase.expected] using hkind)
    · split at h
      · cases goal <;> cases h
      · next hkind =>
        cases h
        exact .unexpected (by simpa [Phase.expected] using hkind)

/-- Every token that is not read is rejected for one of the listed reasons. -/
theorem rejects_of_next {scope : Scope} {phase : Phase} {t : Token} {e : ParseError}
    (h : phase.next scope t = .error e) : Rejects scope phase t e := by
  cases phase with
  | idle => exact rejects_of_start h
  | operand goal outer pending => exact rejects_of_startOperand h
  | value goal outer term => exact rejects_of_afterOperand h
  | named v =>
    simp only [Phase.next] at h
    split at h
    · cases h
    · split at h
      · cases h
      · next hkind =>
        cases h
        exact .unexpected (by simpa [Phase.expected] using hkind)
  | _ =>
    simp only [Phase.next] at h
    split at h
    · cases h
    · next hkind =>
      cases h
      exact .unexpected (by simpa [Phase.expected] using hkind)

/-- A state rejects a token for the reasons of its phase. -/
theorem rejects_of_step {state : State} {t : Token} {e : ParseError}
    (h : state.step t = .error e) : Rejects state.scope state.phase t e := by
  unfold State.step at h
  cases hnext : state.phase.next state.scope t with
  | ok move => simp [hnext, Except.map] at h
  | error e' =>
    obtain rfl : e' = e := by simpa [hnext, Except.map] using h
    exact rejects_of_next hnext

/-! ## Reading up to an error -/

/-- Tokens lead from one state to another, whatever follows them. -/
def Leads (state : State) (ts : List Token) (state' : State) : Prop :=
  ∀ us, readFrom state (ts ++ us) = readFrom state' us

theorem Leads.cons {state state' state'' : State} {t : Token} {ts : List Token}
    (hstep : state.step t = .ok state') (h : Leads state' ts state'') :
    Leads state (t :: ts) state'' := by
  intro us
  rw [List.cons_append, readFrom, hstep]
  exact h us

/-- A rejected token ends the reading, whatever follows it. -/
theorem readFrom_cons_of_step_eq_error {state : State} {t : Token} {e : ParseError}
    (h : state.step t = .error e) (us : List Token) :
    readFrom state (t :: us) = ⟨state, some e⟩ := by
  rw [readFrom, h]

/-- A reading with an error has come to a token that is rejected, or to the end of its tokens inside
a statement. -/
theorem exists_leads_of_error {state : State} {ts : List Token} {e : ParseError}
    (h : (readFrom state ts).error = some e) :
    (∃ k t state', ts[k]? = some t ∧ Leads state (ts.take k) state' ∧ state'.step t = .error e) ∨
      ∃ state', Leads state ts state' ∧ e = .exhausted state'.phase.expected := by
  induction ts generalizing state with
  | nil =>
    -- the tokens end, which is an error inside a statement only
    refine .inr ⟨state, fun _ => rfl, ?_⟩
    by_cases hidle : state.phase = .idle
    · simp [readFrom, hidle] at h
    · simpa [readFrom, hidle] using h.symm
  | cons t ts ih =>
    cases hstep : state.step t with
    | error e' =>
      rw [readFrom_cons_of_step_eq_error hstep] at h
      obtain rfl : e' = e := Option.some.inj h
      exact .inl ⟨0, t, state, rfl, fun _ => rfl, hstep⟩
    | ok next =>
      rw [readFrom, hstep] at h
      rcases ih h with ⟨k, t', state', hk, hleads, hreject⟩ | ⟨state', hleads, he⟩
      · exact .inl ⟨k + 1, t', state', by simpa using hk, hleads.cons hstep, hreject⟩
      · exact .inr ⟨state', hleads.cons hstep, he⟩

/-! ## Completions -/

/-- A token that stands for any of its kind, without a place. -/
def filler (kind : Kind) (text : String) : Token :=
  ⟨kind, text, .point .start⟩

/-- The tokens that end a statement behind its formula. -/
def Goal.completion : Goal → List Token
  | declare _ | store _ => [filler .semicolon ";"]
  | print => [filler .rparen ")", filler .semicolon ";"]

/-- The tokens that close the formulas around the current one, and end the statement. -/
def closing (goal : Goal) (outer : List Pending) : List Token :=
  outer.map (fun _ => filler .rparen ")") ++ goal.completion

/-- Tokens that complete the current statement. -/
def Phase.completion : Phase → List Token
  | idle => []
  | typed _ => [filler .name "a", filler .semicolon ";"]
  | named _ => [filler .semicolon ";"]
  | target _ => [filler .assign "=", filler .integer "0", filler .semicolon ";"]
  | printing =>
    [filler .lparen "(", filler .integer "0", filler .rparen ")", filler .semicolon ";"]
  | operand goal outer _ => filler .integer "0" :: closing goal outer
  | value goal outer _ => closing goal outer
  | quoted _ => [filler .rparen ")", filler .semicolon ";"]
  | closed _ => [filler .semicolon ";"]

/-- A reading that ends with a statement has no error. -/
theorem error_readFrom_finish {state : State} {phase : Phase} {t : Token} {s : Term}
    (h : Moves state.scope phase t (.finish s)) :
    (readFrom { state with phase } [t]).error = none := by
  rw [readFrom, step_eq_ok_iff.mpr ⟨_, h, rfl⟩]
  rfl

/-- A formula is completed by closing what is open around it. -/
theorem error_readFrom_closing (state : State) (goal : Goal) (outer : List Pending) (e : Term) :
    (readFrom { state with phase := .value goal outer e } (closing goal outer)).error = none := by
  induction outer generalizing e with
  | nil =>
    cases goal with
    | declare v => exact error_readFrom_finish (.declareValue rfl)
    | store v => exact error_readFrom_finish (.storeValue rfl)
    | print =>
      refine (congrArg Reading.error (readFrom_goto (.printClose rfl))).trans ?_
      exact error_readFrom_finish (.printEnd rfl)
  | cons pending outer ih =>
    -- the innermost formula becomes an operand of the one around it
    refine (congrArg Reading.error (readFrom_goto (.parenClose rfl))).trans ?_
    exact ih (pending.apply e)

/-- A formula without its next operand is completed by any literal. -/
theorem error_readFrom_operand (state : State) (goal : Goal) (outer : List Pending)
    (pending : Pending) :
    (readFrom { state with phase := .operand goal outer pending }
      (filler .integer "0" :: closing goal outer)).error = none := by
  refine (congrArg Reading.error (readFrom_goto (.literal rfl))).trans ?_
  exact error_readFrom_closing state goal outer _

/-- Every phase can be completed, whatever the statements before have left. -/
theorem error_readFrom_completion (state : State) (phase : Phase) :
    (readFrom { state with phase } phase.completion).error = none := by
  cases phase with
  | idle => rfl
  | typed type =>
    refine (congrArg Reading.error (readFrom_goto (.named rfl))).trans ?_
    exact error_readFrom_finish (.declare rfl)
  | named v => exact error_readFrom_finish (.declare rfl)
  | target v =>
    refine (congrArg Reading.error (readFrom_goto (.store rfl))).trans ?_
    exact error_readFrom_operand state (.store v) [] .fresh
  | printing =>
    refine (congrArg Reading.error (readFrom_goto (.printOpen rfl))).trans ?_
    exact error_readFrom_operand state .print [] .fresh
  | operand goal outer pending => exact error_readFrom_operand state goal outer pending
  | value goal outer e => exact error_readFrom_closing state goal outer e
  | quoted text =>
    refine (congrArg Reading.error (readFrom_goto (.quotedClose rfl))).trans ?_
    exact error_readFrom_finish (.printEnd rfl)
  | closed e => exact error_readFrom_finish (.printEnd rfl)

end Parse

theorem parse_eq_error_iff {tokens : List Token} {e : ParseError} :
    parse tokens = .error e ↔ (Parse.read tokens).error = some e := by
  rw [parse]
  cases (Parse.read tokens).error <;> simp

/-- Tokens that lead to a state start some program. -/
theorem exists_parse_of_leads {ts : List Token} {state : Parse.State}
    (h : Parse.Leads .start ts state) : ∃ us program, parse (ts ++ us) = .ok program := by
  refine ⟨state.phase.completion, _, parse_eq_ok_iff_error_eq_none.mpr ⟨?_, rfl⟩⟩
  rw [Parse.read, h]
  exact Parse.error_readFrom_completion state state.phase

/-- The error `e` is that of token number `k`, from zero: the tokens before it start some program,
those up to it start none, and what follows them makes no difference. -/
structure FirstMisfit (ts : List Token) (k : Nat) (e : ParseError) : Prop where
  /-- Some continuation of the tokens before is a program. -/
  viable : ∃ us program, parse (ts.take k ++ us) = .ok program
  /-- No continuation of the tokens up to `k` is a program. -/
  hopeless : ∀ us program, parse (ts.take (k + 1) ++ us) ≠ .ok program
  /-- The error is the same for all continuations. -/
  settled : ∀ us, parse (ts.take (k + 1) ++ us) = .error e

/-- A token that is rejected where the tokens before it lead is the first misfit. -/
theorem firstMisfit_of_leads {ts : List Token} {k : Nat} {t : Token} {state : Parse.State}
    {e : ParseError} (hk : ts[k]? = some t) (hleads : Parse.Leads .start (ts.take k) state)
    (hstep : state.step t = .error e) : FirstMisfit ts k e := by
  have hsettled : ∀ us, parse (ts.take (k + 1) ++ us) = .error e := by
    intro us
    rw [parse_eq_error_iff, Parse.read, List.take_add_one, hk, List.append_assoc, hleads]
    exact congrArg Parse.Reading.error (Parse.readFrom_cons_of_step_eq_error hstep us)
  refine ⟨exists_parse_of_leads hleads, fun us program hok => ?_, hsettled⟩
  rw [hsettled us] at hok
  cases hok

/-- An error is that of a first misfit and the reason why it is rejected, or says that the tokens
end too early. -/
theorem firstMisfit_or_viable_of_error {ts : List Token} {e : ParseError}
    (h : parse ts = .error e) :
    (∃ k t, ∃ state : Parse.State, ts[k]? = some t ∧
      Parse.Rejects state.scope state.phase t e ∧ FirstMisfit ts k e) ∨
    ∃ expected, e = .exhausted expected ∧ ∃ us program, parse (ts ++ us) = .ok program := by
  rcases Parse.exists_leads_of_error (parse_eq_error_iff.mp h) with
    ⟨k, t, state, hk, hleads, hstep⟩ | ⟨state, hleads, he⟩
  · exact .inl ⟨k, t, state, hk, Parse.rejects_of_step hstep, firstMisfit_of_leads hk hleads hstep⟩
  · exact .inr ⟨_, he, exists_parse_of_leads hleads⟩

/-- An error that names a token names the first one that does not fit, and expects other kinds than
its own. Tokens that end too early are not a program, but start one. -/
theorem parse_error_at_first_misfit (ts : List Token) :
    (∀ expected found, parse ts = .error (.unexpected expected found) →
      ∃ k, ts[k]? = some found ∧ found.kind ∉ expected ∧
        FirstMisfit ts k (.unexpected expected found)) ∧
    (∀ name span, parse ts = .error (.undeclared name span) →
      ∃ k found, ts[k]? = some found ∧ found.text = name ∧ found.span = span ∧
        FirstMisfit ts k (.undeclared name span)) ∧
    (∀ expected, parse ts = .error (.exhausted expected) →
      (∀ program, parse ts ≠ .ok program) ∧ ∃ us program, parse (ts ++ us) = .ok program) := by
  refine ⟨fun expected found h => ?_, fun name span h => ?_, fun expected h => ⟨?_, ?_⟩⟩
  · rcases firstMisfit_or_viable_of_error h with ⟨k, t, _, hk, hrejects, hmisfit⟩ | ⟨_, he, -⟩
    · cases hrejects with
      | unexpected hkind => exact ⟨k, hk, hkind, hmisfit⟩
    · cases he
  · rcases firstMisfit_or_viable_of_error h with ⟨k, t, _, hk, hrejects, hmisfit⟩ | ⟨_, he, -⟩
    · cases hrejects with
      | undeclared => exact ⟨k, t, hk, rfl, rfl, hmisfit⟩
    · cases he
  · intro program hok
    rw [h] at hok
    cases hok
  · rcases firstMisfit_or_viable_of_error h with ⟨_, _, _, -, hrejects, -⟩ | ⟨_, -, hviable⟩
    · -- a rejected token is never reported as the end of the tokens
      cases hrejects
    · exact hviable

/-- A sign is no operand, a name needs a declaration, and a type needs a name. -/
theorem parse_error_at_first_misfit_print :
    (∃ k,
      [⟨.print, "print", ⟨0, 5, 1, 1⟩⟩, ⟨.lparen, "(", ⟨5, 6, 1, 6⟩⟩, ⟨.plus, "+", ⟨6, 7, 1, 7⟩⟩,
        ⟨.rparen, ")", ⟨7, 8, 1, 8⟩⟩, ⟨.semicolon, ";", ⟨8, 9, 1, 9⟩⟩][k]? =
          some (⟨.rparen, ")", ⟨7, 8, 1, 8⟩⟩ : Token) ∧
      Kind.rparen ∉ Parse.operandStart ∧
      FirstMisfit
        [⟨.print, "print", ⟨0, 5, 1, 1⟩⟩, ⟨.lparen, "(", ⟨5, 6, 1, 6⟩⟩, ⟨.plus, "+", ⟨6, 7, 1, 7⟩⟩,
          ⟨.rparen, ")", ⟨7, 8, 1, 8⟩⟩, ⟨.semicolon, ";", ⟨8, 9, 1, 9⟩⟩]
        k (.unexpected Parse.operandStart ⟨.rparen, ")", ⟨7, 8, 1, 8⟩⟩)) ∧
    (∃ k found, ([⟨.name, "a", ⟨2, 3, 1, 3⟩⟩] : List Token)[k]? = some found ∧
      found.text = "a" ∧ found.span = ⟨2, 3, 1, 3⟩ ∧
      FirstMisfit [⟨.name, "a", ⟨2, 3, 1, 3⟩⟩] k (.undeclared "a" ⟨2, 3, 1, 3⟩)) ∧
    (∀ program, parse [⟨.char, "char", ⟨0, 4, 1, 1⟩⟩] ≠ .ok program) ∧
      ∃ us program, parse ([⟨.char, "char", ⟨0, 4, 1, 1⟩⟩] ++ us) = .ok program :=
  ⟨(parse_error_at_first_misfit _).1 _ _ (by cbv),
    (parse_error_at_first_misfit _).2.1 _ _ (by cbv),
    (parse_error_at_first_misfit _).2.2 [.name] (by cbv)⟩

end Straightline
