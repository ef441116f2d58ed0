import Straightline.Proofs.Grammar

/-!
# Reading follows the grammar

The reader takes one token at a time, and the grammar knows only whole statements and programs. Two
facts bring them together:

* `Moves` lists all that a token can do to the current statement (`next_eq_ok_iff`).
* `Phase.Covers` and `State.Covers` say which tokens a phase and a state stand for, in terms of the
  grammar. Every move keeps this (`State.Covers.step`), so a program that has been read is derived
  from its tokens (`derives_of_parse`).

In the other direction, a derivation leads the reader from one state to another, whatever tokens
follow (`readFrom_expression`, `readFrom_statement`, `readFrom_derives`), so a derived program is
read (`parse_of_derives`).
-/

namespace Straightline

open Grammar

namespace Parse

/-! ## Moves -/

/-- What a token does to the current statement, rule by rule. -/
inductive Moves (scope : Scope) : Phase → Token → Move → Prop
  /-- A type starts a declaration. -/
  | type {t : Token} {type : PrimType} (h : PrimType.ofKind? t.kind = some type) :
      Moves scope .idle t (.goto (.typed type))
  /-- The name of a declared variable starts an assignment. -/
  | target {t : Token} {v : Variable} (h : t.kind = .name) (hv : scope.find? t.text = some v) :
      Moves scope .idle t (.goto (.target v))
  /-- The word `print` starts a print statement. -/
  | print {t : Token} (h : t.kind = .print) : Moves scope .idle t (.goto .printing)
  /-- A name follows a type. -/
  | named {t : Token} {type : PrimType} (h : t.kind = .name) :
      Moves scope (.typed type) t (.goto (.named ⟨type, t.text⟩))
  /-- A declaration goes on to a first value. -/
  | firstValue {t : Token} {v : Variable} (h : t.kind = .assign) :
      Moves scope (.named v) t (.goto (.operand (.declare v) [] .fresh))
  /-- A declaration ends without a value. -/
  | declare {t : Token} {v : Variable} (h : t.kind = .semicolon) :
      Moves scope (.named v) t (.finish (.var v))
  /-- An assignment goes on to its value. -/
  | store {t : Token} {v : Variable} (h : t.kind = .assign) :
      Moves scope (.target v) t (.goto (.operand (.store v) [] .fresh))
  /-- A print statement goes on to what it prints. -/
  | printOpen {t : Token} (h : t.kind = .lparen) :
      Moves scope .printing t (.goto (.operand .print [] .fresh))
  /-- A name is an operand. -/
  | name {t : Token} {v : Variable} {goal : Goal} {outer : List Pending} {pending : Pending}
      (h : t.kind = .name) (hv : scope.find? t.text = some v) :
      Moves scope (.operand goal outer pending) t
        (.goto (.value goal outer (pending.apply (.var v))))
  /-- A literal is an operand. -/
  | literal {t : Token} {kind : LiteralKind} {goal : Goal} {outer : List Pending}
      {pending : Pending} (h : LiteralKind.operandOfKind? t.kind = some kind) :
      Moves scope (.operand goal outer pending) t
        (.goto (.value goal outer (pending.apply (.lit kind t.text))))
  /-- A parenthesis opens a formula inside another. -/
  | parenOpen {t : Token} {goal : Goal} {outer : List Pending} {pending : Pending}
      (h : t.kind = .lparen) :
      Moves scope (.operand goal outer pending) t (.goto (.operand goal (pending :: outer) .fresh))
  /-- A sign stands before the first operand. -/
  | sign {t : Token} {op : UnaryOp} {goal : Goal} {outer : List Pending}
      (h : UnaryOp.signOfKind? t.kind = some op) :
      Moves scope (.operand goal outer .fresh) t (.goto (.operand goal outer (.signed op)))
  /-- A string stands in place of a printed formula. -/
  | string {t : Token} (h : t.kind = .string) :
      Moves scope (.operand .print [] .fresh) t (.goto (.quoted t.text))
  /-- An operator follows an operand. -/
  | operator {t : Token} {op : BinaryOp} {goal : Goal} {outer : List Pending} {e : Term}
      (h : BinaryOp.ofKind? t.kind = some op) :
      Moves scope (.value goal outer e) t (.goto (.operand goal outer (.applied e op)))
  /-- A parenthesis closes a formula inside another. -/
  | parenClose {t : Token} {goal : Goal} {outer : List Pending} {pending : Pending} {e : Term}
      (h : t.kind = .rparen) :
      Moves scope (.value goal (pending :: outer) e) t (.goto (.value goal outer (pending.apply e)))
  /-- A parenthesis closes a printed formula. -/
  | printClose {t : Token} {e : Term} (h : t.kind = .rparen) :
      Moves scope (.value .print [] e) t (.goto (.closed e))
  /-- A semicolon ends a declaration with its value. -/
  | declareValue {t : Token} {v : Variable} {e : Term} (h : t.kind = .semicolon) :
      Moves scope (.value (.declare v) [] e) t (.finish (.binary .assign (.var v) e))
  /-- A semicolon ends an assignment. -/
  | storeValue {t : Token} {v : Variable} {e : Term} (h : t.kind = .semicolon) :
      Moves scope (.value (.store v) [] e) t (.finish (.binary .assign (.var v) e))
  /-- A parenthesis closes a printed string. -/
  | quotedClose {t : Token} {text : String} (h : t.kind = .rparen) :
      Moves scope (.quoted text) t (.goto (.closed (.lit .string text)))
  /-- A semicolon ends a print statement. -/
  | printEnd {t : Token} {e : Term} (h : t.kind = .semicolon) :
      Moves scope (.closed e) t (.finish (.unary .print e))

theorem resolve_eq_ok_iff {scope : Scope} {t : Token} {v : Variable} :
    scope.resolve t = .ok v ↔ scope.find? t.text = some v := by
  unfold Scope.resolve
  split <;> simp_all

/-- A move that looks up a name is made iff the name is known. -/
theorem map_resolve_eq_ok_iff {scope : Scope} {t : Token} {f : Variable → Move} {move : Move} :
    (scope.resolve t).map f = .ok move ↔ ∃ v, scope.find? t.text = some v ∧ f v = move := by
  cases h : scope.resolve t with
  | error e =>
    simp only [Except.map, reduceCtorEq, false_iff, not_exists, not_and]
    intro v hv
    rw [← resolve_eq_ok_iff, h] at hv
    cases hv
  | ok v =>
    simp [Except.map, resolve_eq_ok_iff.mp h]

/-- Every listed move is made. -/
theorem Moves.next_eq {scope : Scope} {phase : Phase} {t : Token} {move : Move}
    (h : Moves scope phase t move) : phase.next scope t = .ok move := by
  cases h with
  | type h =>
    unfold PrimType.ofKind? at h
    split at h <;> simp_all [Phase.next, Phase.start]
  | target h hv => simp [Phase.next, Phase.start, h, map_resolve_eq_ok_iff, hv]
  | name h hv => simp [Phase.next, Phase.startOperand, h, map_resolve_eq_ok_iff, hv]
  | literal h =>
    unfold LiteralKind.operandOfKind? at h
    split at h <;> simp_all [Phase.next, Phase.startOperand]
  | sign h =>
    unfold UnaryOp.signOfKind? at h
    split at h <;> simp_all [Phase.next, Phase.startOperand]
  | operator h => simp [Phase.next, Phase.afterOperand, h]
  | print h => simp [Phase.next, Phase.start, h]
  | parenOpen h | string h => simp [Phase.next, Phase.startOperand, h]
  | parenClose h | printClose h | declareValue h | storeValue h =>
    simp [Phase.next, Phase.afterOperand, h, BinaryOp.ofKind?, Goal.closer, Goal.statement]
  | named h | firstValue h | declare h | store h | printOpen h | quotedClose h | printEnd h =>
    simp [Phase.next, h, Goal.statement]

/-- Moves at the start of a statement. -/
theorem moves_of_start {scope : Scope} {t : Token} {move : Move}
    (h : Phase.start scope t = .ok move) : Moves scope .idle t move := by
  unfold Phase.start at h
  split at h
  case h_4 hkind =>
    obtain ⟨v, hv, rfl⟩ := map_resolve_eq_ok_iff.mp h
    exact .target hkind hv
  case h_6 => cases h
  case h_5 hkind =>
    cases h
    exact .print hkind
  all_goals
    cases h
    exact .type (by simp_all [PrimType.ofKind?])

/-- Moves where an operand is missing. -/
theorem moves_of_startOperand {scope : Scope} {goal : Goal} {outer : List Pending}
    {pending : Pending} {t : Token} {move : Move}
    (h : Phase.startOperand scope goal outer pending t = .ok move) :
    Moves scope (.operand goal outer pending) t move := by
  unfold Phase.startOperand at h
  split at h
  case h_1 hkind =>
    obtain ⟨v, hv, rfl⟩ := map_resolve_eq_ok_iff.mp h
    exact .name hkind hv
  case h_5 hkind =>
    cases h
    exact .parenOpen hkind
  case h_6 hkind | h_7 hkind =>
    cases h
    exact .sign (by rw [hkind]; rfl)
  case h_8 hkind =>
    split at h
    · next hprint =>
      obtain ⟨rfl, rfl⟩ := hprint
      cases h
      exact .string hkind
    · cases h
  case h_9 => cases h
  all_goals
    cases h
    exact .literal (by simp_all [LiteralKind.operandOfKind?])

/-- Moves behind an operand. -/
theorem moves_of_afterOperand {scope : Scope} {goal : Goal} {outer : List Pending} {e : Term}
    {t : Token} {move : Move} (h : Phase.afterOperand goal outer e t = .ok move) :
    Moves scope (.value goal outer e) t move := by
  unfold Phase.afterOperand at h
  split at h
  · next hop =>
    cases h
    exact .operator hop
  · split at h
    · split at h
      · next hkind =>
        cases h
        exact .parenClose hkind
      · cases h
    · split at h
      · next hkind =>
        cases goal with
        | print =>
          cases h
          exact .printClose hkind
        | declare v =>
          cases h
          exact .declareValue hkind
        | store v =>
          cases h
          exact .storeValue hkind
      · cases h

/-- The reader makes exactly the listed moves. -/
theorem next_eq_ok_iff {scope : Scope} {phase : Phase} {t : Token} {move : Move} :
    phase.next scope t = .ok move ↔ Moves scope phase t move := by
  refine ⟨fun h => ?_, Moves.next_eq⟩
  cases phase with
  | idle => exact moves_of_start h
  | operand goal outer pending => exact moves_of_startOperand h
  | value goal outer e => exact moves_of_afterOperand h
  | named v =>
    simp only [Phase.next] at h
    split at h
    · next hkind =>
      cases h
      exact .firstValue hkind
    · split at h
      · next hkind =>
        cases h
        exact .declare hkind
      · cases h
  | _ =>
    simp only [Phase.next] at h
    split at h
    · next hkind =>
      cases h
      constructor
      exact hkind
    · cases h

/-- A state goes on by the moves of its phase. -/
theorem step_eq_ok_iff {state state' : State} {t : Token} :
    state.step t = .ok state' ↔
      ∃ move, Moves state.scope state.phase t move ∧ state' = state.move move := by
  simp only [← next_eq_ok_iff, State.step]
  cases state.phase.next state.scope t <;> simp [Except.map, eq_comm]

/-! ## What has been read -/

/-- The tokens of a formula up to the place of a missing operand. -/
inductive Pending.Covers (declared : List Variable) : Pending → List Token → Prop
  | fresh : Covers declared .fresh []
  | signed {t : Token} {op : UnaryOp} (h : UnaryOp.signOfKind? t.kind = some op) :
      Covers declared (.signed op) [t]
  | applied {t : Token} {op : BinaryOp} {ts : List Token} {left : Term}
      (hleft : Expression declared .formula ts left) (h : BinaryOp.ofKind? t.kind = some op) :
      Covers declared (.applied left op) (ts ++ [t])

/-- The operand that was missing completes a formula. -/
theorem Pending.Covers.apply {declared : List Variable} {pending : Pending} {ts us : List Token}
    {e : Term} (h : pending.Covers declared ts) (he : Expression declared .operand us e) :
    Expression declared .formula (ts ++ us) (pending.apply e) := by
  cases h with
  | fresh => exact he.unsigned
  | signed h => exact he.signed h
  | applied hleft h =>
    rw [List.append_assoc]
    exact hleft.chain h he

/-- The tokens of the formulas around the current one, each up to its open parenthesis. -/
inductive OuterCovers (declared : List Variable) : List Pending → List Token → Prop
  | nil : OuterCovers declared [] []
  | cons {pending : Pending} {outer : List Pending} {ts us : List Token} {l : Token}
      (houter : OuterCovers declared outer ts) (h : pending.Covers declared us)
      (hl : l.kind = .lparen) : OuterCovers declared (pending :: outer) (ts ++ us ++ [l])

/-- The tokens of a statement before its formula. -/
inductive Goal.Covers (declared : List Variable) : Goal → List Token → Prop
  | declare {t name eq : Token} {type : PrimType} (htype : PrimType.ofKind? t.kind = some type)
      (hname : name.kind = .name) (heq : eq.kind = .assign) :
      Covers declared (.declare ⟨type, name.text⟩) [t, name, eq]
  | store {name eq : Token} {v : Variable} (hname : name.kind = .name)
      (hfirst : FirstDeclared declared name.text v) (heq : eq.kind = .assign) :
      Covers declared (.store v) [name, eq]
  | print {p l : Token} (hp : p.kind = .print) (hl : l.kind = .lparen) :
      Covers declared .print [p, l]

/-- The tokens of the current statement that a phase stands for. -/
inductive Phase.Covers (declared : List Variable) : Phase → List Token → Prop
  | idle : Covers declared .idle []
  | typed {t : Token} {type : PrimType} (h : PrimType.ofKind? t.kind = some type) :
      Covers declared (.typed type) [t]
  | named {t name : Token} {type : PrimType} (h : PrimType.ofKind? t.kind = some type)
      (hname : name.kind = .name) : Covers declared (.named ⟨type, name.text⟩) [t, name]
  | target {name : Token} {v : Variable} (hname : name.kind = .name)
      (hfirst : FirstDeclared declared name.text v) : Covers declared (.target v) [name]
  | printing {p : Token} (hp : p.kind = .print) : Covers declared .printing [p]
  | operand {goal : Goal} {outer : List Pending} {pending : Pending} {ts us vs : List Token}
      (hgoal : goal.Covers declared ts) (houter : OuterCovers declared outer us)
      (h : pending.Covers declared vs) :
      Covers declared (.operand goal outer pending) (ts ++ us ++ vs)
  | value {goal : Goal} {outer : List Pending} {e : Term} {ts us vs : List Token}
      (hgoal : goal.Covers declared ts) (houter : OuterCovers declared outer us)
      (h : Expression declared .formula vs e) :
      Covers declared (.value goal outer e) (ts ++ us ++ vs)
  | quoted {p l s : Token} (hp : p.kind = .print) (hl : l.kind = .lparen)
      (hs : s.kind = .string) : Covers declared (.quoted s.text) [p, l, s]
  | closed {e : Term} {ts : List Token} (h : Statement declared ts (.unary .print e) []) :
      Covers declared (.closed e) ts

namespace Phase.Covers

variable {declared : List Variable} {phase phase' : Phase} {ts : List Token} {t : Token}

/-- An operand that has been read completes a formula. -/
theorem operand_apply {goal : Goal} {outer : List Pending} {pending : Pending} {us : List Token}
    {e : Term} (h : Phase.Covers declared (.operand goal outer pending) ts)
    (he : Expression declared .operand us e) :
    Phase.Covers declared (.value goal outer (pending.apply e)) (ts ++ us) := by
  cases h with
  | operand hgoal houter h =>
    rw [List.append_assoc]
    exact .value hgoal houter (h.apply he)

/-- Parentheses turn a formula inside another into its operand. -/
theorem value_close {goal : Goal} {outer : List Pending} {pending : Pending} {e : Term}
    (h : Phase.Covers declared (.value goal (pending :: outer) e) ts) (ht : t.kind = .rparen) :
    Phase.Covers declared (.value goal outer (pending.apply e)) (ts ++ [t]) := by
  cases h with
  | value hgoal houter h =>
    cases houter with
    | cons houter hpending hl =>
      simpa using Phase.Covers.value hgoal houter (hpending.apply (h.parens hl ht))

/-- A move inside a statement adds its token to what has been read. -/
theorem goto {scope : Scope} (h : phase.Covers declared ts)
    (hscope : scope = .ofDeclarations declared) (hmove : Moves scope phase t (.goto phase')) :
    phase'.Covers declared (ts ++ [t]) := by
  subst hscope
  cases hmove with
  | type htype => cases h with | idle => exact .typed htype
  | target hkind hv =>
    cases h with
    | idle => exact .target hkind (Scope.find?_ofDeclarations_eq_some_iff.mp hv)
  | print hkind => cases h with | idle => exact .printing hkind
  | named hkind => cases h with | typed htype => exact .named htype hkind
  | firstValue hkind =>
    cases h with | named htype hname => exact .operand (.declare htype hname hkind) .nil .fresh
  | store hkind =>
    cases h with | target hname hfirst => exact .operand (.store hname hfirst hkind) .nil .fresh
  | printOpen hkind => cases h with | printing hp => exact .operand (.print hp hkind) .nil .fresh
  | name hkind hv =>
    exact h.operand_apply (.name hkind (Scope.find?_ofDeclarations_eq_some_iff.mp hv))
  | literal hkind => exact h.operand_apply (.literal hkind)
  | parenOpen hkind =>
    cases h with
    | operand hgoal houter h => simpa using Phase.Covers.operand hgoal (houter.cons h hkind) .fresh
  | sign hsign =>
    cases h with
    | operand hgoal houter h =>
      cases h with
      | fresh => simpa using Phase.Covers.operand hgoal houter (.signed hsign)
  | string hkind =>
    cases h with
    | operand hgoal houter h =>
      cases hgoal with
      | print hp hl =>
        cases houter with
        | nil => cases h with | fresh => exact .quoted hp hl hkind
  | operator hop =>
    cases h with
    | value hgoal houter h => simpa using Phase.Covers.operand hgoal houter (.applied h hop)
  | parenClose hkind => exact h.value_close hkind
  | printClose hkind =>
    cases h with
    | value hgoal houter h =>
      cases hgoal with
      | print hp hl => cases houter with | nil => exact .closed (.printFormula hp hl hkind h)
  | quotedClose hkind =>
    cases h with | quoted hp hl hs => exact .closed (.printString hp hl hs hkind)

/-- A move that ends a statement makes what has been read a statement of the grammar. -/
theorem finish {scope : Scope} {s : Term} (h : phase.Covers declared ts)
    (hmove : Moves scope phase t (.finish s)) :
    t.kind = .semicolon ∧ Statement declared ts s phase.declares?.toList := by
  cases hmove with
  | declare hkind => cases h with | named htype hname => exact ⟨hkind, .declaration htype hname⟩
  | declareValue hkind =>
    cases h with
    | value hgoal houter h =>
      cases hgoal with
      | declare htype hname heq =>
        cases houter with | nil => exact ⟨hkind, .initialized htype hname heq h⟩
  | storeValue hkind =>
    cases h with
    | value hgoal houter h =>
      cases hgoal with
      | store hname hfirst heq =>
        cases houter with | nil => exact ⟨hkind, .assignment hname hfirst heq h⟩
  | printEnd hkind => cases h with | closed h => exact ⟨hkind, h⟩

end Phase.Covers

/-! ## States between statements -/

/-- Those of some declarations whose names are in the scope or among the declarations before
them. -/
def redeclarationsIn (scope : Scope) : List Variable → List Redeclaration
  | [] => []
  | v :: declared =>
    ((scope.find? v.name).map fun earlier => ⟨v, earlier.type⟩).toList ++
      redeclarationsIn (scope.declare v) declared

theorem redeclarationsIn_append (scope : Scope) (declared new : List Variable) :
    redeclarationsIn scope (declared ++ new) =
      redeclarationsIn scope declared ++ redeclarationsIn (declared.foldl .declare scope) new := by
  induction declared generalizing scope with
  | nil => rfl
  | cons v declared ih => simp [redeclarationsIn, ih]

/-- The state behind complete statements that make the given declarations. -/
def State.after (program : Program) (declared : List Variable) : State :=
  ⟨program, .ofDeclarations declared, redeclarationsIn .empty declared, .idle⟩

/-- A move that ends a statement leads to the state behind it. -/
theorem State.move_finish (program : Program) (declared : List Variable) (phase : Phase)
    (s : Term) :
    ({ State.after program declared with phase } : State).move (.finish s) =
      State.after (program ++ [s]) (declared ++ phase.declares?.toList) := by
  simp only [State.move, State.after, State.scopeHere, State.redeclarationsHere,
    redeclarationsIn_append, Scope.ofDeclarations_append]
  cases phase.declares? <;> simp [redeclarationsIn, Scope.ofDeclarations]

/-- The tokens that a state stands for: those of complete statements, which make the given
declarations, and those of the current one. -/
inductive State.Covers : State → List Variable → List Token → Prop
  | intro {ts us : List Token} {program : Program} {declared : List Variable} {phase : Phase}
      (h : Derives ts program declared) (hphase : phase.Covers declared us) :
      Covers { State.after program declared with phase } declared (ts ++ us)

namespace State.Covers

variable {state state' : State} {declared : List Variable} {ts us : List Token} {t : Token}

theorem start : State.start.Covers [] [] :=
  @State.Covers.intro [] [] [] [] .idle .nil .idle

/-- A step adds its token to what has been read. -/
theorem step (h : state.Covers declared ts) (hstep : state.step t = .ok state') :
    ∃ declared', state'.Covers declared' (ts ++ [t]) := by
  obtain ⟨move, hmove, rfl⟩ := step_eq_ok_iff.mp hstep
  cases h with
  | @intro done current program _ phase h hphase =>
    cases move with
    | goto phase' =>
      refine ⟨declared, ?_⟩
      rw [List.append_assoc]
      exact .intro h (hphase.goto rfl hmove)
    | finish s =>
      obtain ⟨hkind, hs⟩ := hphase.finish hmove
      refine ⟨declared ++ phase.declares?.toList, ?_⟩
      rw [State.move_finish, ← List.append_nil (done ++ current ++ [t])]
      exact .intro (h.snoc hs hkind) .idle

/-- Between two statements, all that has been read is a program of the grammar. -/
theorem derives (h : state.Covers declared ts) (hidle : state.phase = .idle) :
    Derives ts state.statements declared ∧ state = .after state.statements declared := by
  cases h with
  | intro h hphase =>
    obtain rfl : _ = Phase.idle := hidle
    cases hphase with
    | idle => exact ⟨by rwa [List.append_nil], rfl⟩

/-- A reading without an error ends between two statements, with all its tokens read. -/
theorem readFrom (h : state.Covers declared ts) (herror : (Parse.readFrom state us).error = none) :
    ∃ declared', (Parse.readFrom state us).state.Covers declared' (ts ++ us) ∧
      (Parse.readFrom state us).state.phase = .idle := by
  induction us generalizing state declared ts with
  | nil =>
    have hidle : state.phase = .idle := by
      by_cases hphase : state.phase = .idle
      · exact hphase
      · simp [Parse.readFrom, hphase] at herror
    exact ⟨declared, by simpa [Parse.readFrom] using h, hidle⟩
  | cons t us ih =>
    -- an error of the step would be the error of the whole reading
    cases hstep : state.step t with
    | error e => simp [Parse.readFrom, hstep] at herror
    | ok state' =>
      simp only [Parse.readFrom, hstep] at herror ⊢
      obtain ⟨declared', h'⟩ := h.step hstep
      simpa using ih h' herror

end State.Covers

/-! ## Reading what is derived -/

/-- A move inside a statement goes on with the next phase. -/
theorem readFrom_goto {state : State} {phase phase' : Phase} {t : Token} {rest : List Token}
    (h : Moves state.scope phase t (.goto phase')) :
    readFrom { state with phase } (t :: rest) = readFrom { state with phase := phase' } rest := by
  rw [readFrom, step_eq_ok_iff.mpr ⟨_, h, rfl⟩]
  rfl

/-- An operand is read as the missing operand of a formula, and a formula from its start. The rest
of the state stays as it was, and what follows does not matter. -/
theorem readFrom_expression {state : State} {declared : List Variable} {category : Category}
    {ts : List Token} {e : Term} (h : Expression declared category ts e)
    (hscope : state.scope = .ofDeclarations declared) (goal : Goal) (outer : List Pending)
    (pending : Pending) (hpending : category = .formula → pending = .fresh) (rest : List Token) :
    readFrom { state with phase := .operand goal outer pending } (ts ++ rest) =
      readFrom { state with phase := .value goal outer (pending.apply e) } rest := by
  induction h generalizing outer pending rest with
  | name hkind hfirst =>
    exact readFrom_goto (.name hkind (hscope ▸ Scope.find?_ofDeclarations_eq_some_iff.mpr hfirst))
  | literal hkind => exact readFrom_goto (.literal hkind)
  | @parens l r ts e hl hr _ ih =>
    -- the formula inside starts afresh, with the pending one on top of those around it
    calc readFrom { state with phase := .operand goal outer pending } ((l :: ts ++ [r]) ++ rest)
        = readFrom { state with phase := .operand goal (pending :: outer) .fresh }
            (ts ++ r :: rest) := by
          rw [List.append_assoc, List.cons_append]
          exact readFrom_goto (.parenOpen hl)
      _ = readFrom { state with phase := .value goal (pending :: outer) e } (r :: rest) :=
          ih _ _ (fun _ => rfl) _
      _ = readFrom { state with phase := .value goal outer (pending.apply e) } rest :=
          readFrom_goto (.parenClose hr)
  | unsigned _ ih => exact ih outer pending (fun h => by cases h) rest
  | signed hsign _ ih =>
    rw [hpending rfl, List.cons_append, readFrom_goto (.sign hsign)]
    exact ih outer (.signed _) (fun h => by cases h) rest
  | @chain t op ts us left right _ hop _ ihleft ihright =>
    -- the formula up to the operator becomes the left side of what is pending
    rw [hpending rfl, List.append_assoc, List.cons_append, ihleft outer .fresh (fun _ => rfl),
      readFrom_goto (.operator hop)]
    exact ihright outer (.applied left op) (fun h => by cases h) rest

/-- A statement is read up to a phase that its semicolon ends. -/
theorem readFrom_statement {state : State} {declared new : List Variable} {ts : List Token}
    {s : Term} (h : Statement declared ts s new) (hscope : state.scope = .ofDeclarations declared) :
    ∃ phase : Phase, phase.declares?.toList = new ∧
      (∀ t : Token, t.kind = .semicolon → Moves state.scope phase t (.finish s)) ∧
      ∀ rest, readFrom { state with phase := .idle } (ts ++ rest) =
        readFrom { state with phase } rest := by
  have hfind {name : String} {v : Variable} (hfirst : FirstDeclared declared name v) :
      state.scope.find? name = some v :=
    hscope ▸ Scope.find?_ofDeclarations_eq_some_iff.mpr hfirst
  cases h with
  | declaration htype hname =>
    refine ⟨.named _, rfl, fun t ht => .declare ht, fun rest => ?_⟩
    rw [List.cons_append, readFrom_goto (.type htype)]
    exact readFrom_goto (.named hname)
  | initialized htype hname heq h =>
    refine ⟨.value (.declare _) [] _, rfl, fun t ht => .declareValue ht, fun rest => ?_⟩
    rw [List.cons_append, readFrom_goto (.type htype), List.cons_append,
      readFrom_goto (.named hname), List.cons_append, readFrom_goto (.firstValue heq)]
    exact readFrom_expression h hscope _ [] .fresh (fun _ => rfl) rest
  | assignment hname hfirst heq h =>
    refine ⟨.value (.store _) [] _, rfl, fun t ht => .storeValue ht, fun rest => ?_⟩
    rw [List.cons_append, readFrom_goto (.target hname (hfind hfirst)), List.cons_append,
      readFrom_goto (.store heq)]
    exact readFrom_expression h hscope _ [] .fresh (fun _ => rfl) rest
  | printString hp hl hs hr =>
    refine ⟨.closed _, rfl, fun t ht => .printEnd ht, fun rest => ?_⟩
    rw [List.cons_append, readFrom_goto (.print hp), List.cons_append,
      readFrom_goto (.printOpen hl), List.cons_append, readFrom_goto (.string hs)]
    exact readFrom_goto (.quotedClose hr)
  | @printFormula p l r ts e hp hl hr h =>
    refine ⟨.closed e, rfl, fun t ht => .printEnd ht, fun rest => ?_⟩
    rw [List.append_assoc, List.cons_append, readFrom_goto (.print hp), List.cons_append,
      readFrom_goto (.printOpen hl), readFrom_expression h hscope _ [] .fresh (fun _ => rfl)]
    exact readFrom_goto (.printClose hr)

/-- A derivation leads from the start to the state behind its statements, whatever follows. -/
theorem readFrom_derives {ts : List Token} {program : Program} {declared : List Variable}
    (h : Derives ts program declared) (rest : List Token) :
    readFrom .start (ts ++ rest) = readFrom (.after program declared) rest := by
  induction h generalizing rest with
  | nil => rfl
  | @snoc ts us program declared new s semicolon _ hs hsemicolon ih =>
    obtain ⟨phase, rfl, hfinish, hread⟩ :=
      @readFrom_statement (.after program declared) _ _ _ _ hs rfl
    rw [List.append_assoc, List.append_assoc, ih, ← State.move_finish]
    refine (hread _).trans ?_
    rw [List.singleton_append, readFrom, step_eq_ok_iff.mpr ⟨_, hfinish semicolon hsemicolon, rfl⟩]

end Parse

theorem parse_eq_ok_iff_error_eq_none {tokens : List Token} {program : Program} :
    parse tokens = .ok program ↔
      (Parse.read tokens).error = none ∧ (Parse.read tokens).state.statements = program := by
  rw [parse]
  cases (Parse.read tokens).error <;> simp

/-- A program that has been read is derived from its tokens. -/
theorem derives_of_parse {tokens : List Token} {program : Program}
    (h : parse tokens = .ok program) :
    ∃ declared, Derives tokens program declared ∧
      (Parse.read tokens).state = .after program declared := by
  obtain ⟨herror, rfl⟩ := parse_eq_ok_iff_error_eq_none.mp h
  obtain ⟨declared, hcovers, hidle⟩ := Parse.State.Covers.start.readFrom herror
  exact ⟨declared, hcovers.derives hidle⟩

/-- A derived program is read from its tokens. -/
theorem parse_of_derives {tokens : List Token} {program : Program} {declared : List Variable}
    (h : Derives tokens program declared) : parse tokens = .ok program := by
  have hread := Parse.readFrom_derives h []
  rw [List.append_nil] at hread
  rw [parse, Parse.read, hread]
  rfl

/-- The programs that are read are those of the grammar, and the grammar gives tokens at most one
program. -/
theorem parse_eq_ok_iff_derives (tokens : List Token) :
    (∀ program, parse tokens = .ok program ↔ ∃ declared, Derives tokens program declared) ∧
      ∀ program program' declared declared', Derives tokens program declared →
        Derives tokens program' declared' → program = program' := by
  constructor
  · intro program
    constructor
    · intro h
      obtain ⟨declared, hderives, -⟩ := derives_of_parse h
      exact ⟨declared, hderives⟩
    · rintro ⟨declared, h⟩
      exact parse_of_derives h
  · intro program program' declared declared' h h'
    have heq := (parse_of_derives h).symm.trans (parse_of_derives h')
    exact Except.ok.inj heq

/-- A name that is declared again stands for the variable of its first declaration, and the second
declaration has its own type. -/
theorem parse_eq_ok_iff_derives_redeclared :
    ∃ declared, Derives
      [⟨.int32, "int32", ⟨0, 5, 1, 1⟩⟩, ⟨.name, "a", ⟨6, 7, 1, 7⟩⟩, ⟨.semicolon, ";", ⟨7, 8, 1, 8⟩⟩,
       ⟨.char, "char", ⟨9, 13, 1, 10⟩⟩, ⟨.name, "a", ⟨14, 15, 1, 15⟩⟩,
       ⟨.assign, "=", ⟨16, 17, 1, 17⟩⟩, ⟨.minus, "-", ⟨18, 19, 1, 19⟩⟩,
       ⟨.name, "a", ⟨19, 20, 1, 20⟩⟩, ⟨.plus, "+", ⟨21, 22, 1, 22⟩⟩,
       ⟨.name, "a", ⟨23, 24, 1, 24⟩⟩, ⟨.times, "*", ⟨25, 26, 1, 26⟩⟩,
       ⟨.integer, "2", ⟨27, 28, 1, 28⟩⟩, ⟨.semicolon, ";", ⟨28, 29, 1, 29⟩⟩]
      [.var ⟨.int32, "a"⟩,
       .binary .assign (.var ⟨.char, "a"⟩) (.binary .mul
         (.binary .add (.unary .minus (.var ⟨.int32, "a"⟩)) (.var ⟨.int32, "a"⟩))
         (.lit .integer "2"))]
      declared :=
  ((parse_eq_ok_iff_derives _).1 _).mp (by cbv)

end Straightline
