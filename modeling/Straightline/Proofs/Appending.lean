import Straightline.Proofs.Emission
import Straightline.Proofs.Maximality

/-!
# Appending text

A text that compiles ends behind a semicolon, up to white space. Nothing looks back or ahead across
that place:

* the scan finds the tokens that it finds in the text alone, and goes on as from the start of what
  is appended, with all places shifted (`scan_append`);
* the reader keeps the statements that it has read (`Parse.prefix_statements_readFrom`);
* the writer keeps the variables that it has written (`Java.prefix_scope_emitStatements`).

Main statement: `compile_append`.
-/

namespace Straightline

open Pattern Lexicon

/-! ## Places behind a text -/

/-- The place `p` of a text that starts at `base`. The first line of the text goes on with the line
of `base`. -/
def Position.shift (base p : Position) : Position where
  offset := base.offset + p.offset
  line := base.line + (p.line - 1)
  column := if p.line = 1 then base.column + (p.column - 1) else p.column

/-- A step can be taken before the shift or behind it. -/
theorem Position.shift_step (base : Position) {p : Position} (hline : 1 ≤ p.line)
    (hcolumn : 1 ≤ p.column) (c : Char) : base.shift (p.step c) = (base.shift p).step c := by
  by_cases hc : c = '\n'
  · -- behind a line feed, the column does not depend on `base` any more
    simp only [shift, step, if_pos hc, mk.injEq]
    exact ⟨by omega, by omega, if_neg (by omega)⟩
  · simp only [shift, step, if_neg hc, mk.injEq, true_and]
    refine ⟨by omega, ?_⟩
    split <;> omega

/-- Going on from `base` is going on from the start and shifting the place. -/
theorem Position.shift_behind (base : Position) (cs : List Char) :
    base.shift (.behind cs) = base.advance cs := by
  induction cs using List.reverseRecOn with
  | nil => rfl
  | append_singleton cs c ih =>
    have hstep : behind (cs ++ [c]) = (behind cs).step c := (advance_behind cs [c]).symm
    rw [hstep, shift_step base (Nat.le_add_right _ _) (Nat.le_add_right _ _), ih, advance_append]
    rfl

/-- The span of a text that starts at `base`. -/
def Span.shift (base : Position) (span : Span) : Span :=
  let p := base.shift ⟨span.start, span.line, span.column⟩
  ⟨p.offset, base.offset + span.stop, p.line, p.column⟩

/-- The token of a text that starts at `base`. -/
def Token.shift (base : Position) (t : Token) : Token :=
  { t with span := t.span.shift base }

theorem Token.shift_covering (base p : Position) (kind : Kind) (cs : List Char) :
    (covering kind p cs).shift base = covering kind (base.shift p) cs := by
  simp only [covering, Span.covering, Position.shift, Nat.add_assoc]
  rfl

/-! ## Scanning what is appended -/

/-- The scan of a text that starts at `base`. -/
def Scan.shift (base : Position) (result : Scan) : Scan :=
  ⟨result.tokens.map (.shift base), result.stuck.map base.shift⟩

/-- The second cursor is at the place of the first one in a text that starts at `base`. The tokens
before the two may differ, but either both end an operand or none does. -/
structure Cursor.Shifted (base : Position) (cursor cursor' : Cursor) : Prop where
  /-- Both have the same text to read. -/
  rest_eq : cursor'.rest = cursor.rest
  /-- A sign is an operator at both places or at none. -/
  endsOperand_eq : cursor'.last.any Kind.endsOperand = cursor.last.any Kind.endsOperand
  /-- Both have got to their places by the same text. -/
  exists_text : ∃ text, cursor.position = .behind text ∧ cursor'.position = base.advance text

namespace Cursor.Shifted

variable {base : Position} {cursor cursor' : Cursor}

theorem position_eq (h : cursor.Shifted base cursor') :
    cursor'.position = base.shift cursor.position := by
  obtain ⟨text, hposition, hposition'⟩ := h.exists_text
  rw [hposition, hposition', Position.shift_behind]

theorem choose_eq (h : cursor.Shifted base cursor') (policy : Policy) :
    cursor'.choose policy = cursor.choose policy := by
  have hstart (kind : Kind) (cs : List Char) :
      mayStart cursor'.last kind cs = mayStart cursor.last kind cs := by
    rw [mayStart, mayStart, h.endsOperand_eq]
  simp only [choose, candidates, h.rest_eq, hstart]

theorem token?_eq (h : cursor.Shifted base cursor') (choice : Candidate) :
    cursor'.token? choice = (cursor.token? choice).map (.shift base) := by
  rw [token?, token?, h.rest_eq, h.position_eq]
  split
  · rfl
  · rw [Option.map_some, Token.shift_covering]

theorem next (h : cursor.Shifted base cursor') (choice : Candidate) :
    (cursor.next choice).Shifted base (cursor'.next choice) := by
  obtain ⟨text, hposition, hposition'⟩ := h.exists_text
  refine ⟨?_, ?_, text ++ cursor.rest.take choice.length, ?_, ?_⟩
  · rw [Cursor.next, Cursor.next, h.rest_eq]
  · -- white space keeps the tokens before the two, and any other step makes them the same
    simp only [Cursor.next]
    split
    · exact h.endsOperand_eq
    · rfl
  · rw [Cursor.next, hposition, Position.advance_behind]
  · rw [Cursor.next, hposition', h.rest_eq, Position.advance_append]

/-- Scanning goes on in the same way at both places. -/
theorem scanFrom_eq (h : cursor.Shifted base cursor') (policy : Policy) :
    scanFrom policy cursor' = (scanFrom policy cursor).shift base := by
  induction cursor using scanFrom.induct policy generalizing cursor' with
  | case1 cursor hrest =>
    rw [scanFrom_of_rest_eq_nil policy hrest,
      scanFrom_of_rest_eq_nil policy (h.rest_eq.trans hrest)]
    rfl
  | case2 cursor hrest hchoose =>
    have hchoose' := (h.choose_eq policy).trans hchoose
    rw [scanFrom_of_choose_eq_none hrest hchoose,
      scanFrom_of_choose_eq_none (h.rest_eq ▸ hrest) hchoose', h.position_eq]
    rfl
  | case3 cursor hrest choice hchoose ih =>
    have hchoose' := (h.choose_eq policy).trans hchoose
    rw [scanFrom_of_choose_eq_some hrest hchoose,
      scanFrom_of_choose_eq_some (h.rest_eq ▸ hrest) hchoose', h.token?_eq, ih (h.next choice)]
    cases cursor.token? choice <;> rfl

end Cursor.Shifted

/-! ## Scanning up to a semicolon -/

/-- White space is skipped, whatever follows it. -/
theorem scanFrom_blanks_append {gap : List Char} (hgap : ∀ c ∈ gap, blanks.contains c)
    (rest : List Char) (policy : Policy) (p : Position) (last : Option Kind) :
    scanFrom policy ⟨p, last, gap ++ rest⟩ = scanFrom policy ⟨p.advance gap, last, rest⟩ := by
  obtain ⟨more, rest', rfl, hmore, hrest'⟩ := blanks.exists_append rest
  have hall : ∀ c ∈ gap ++ more, blanks.contains c := by
    intro c hc
    exact (List.mem_append.mp hc).elim (hgap c) (hmore c)
  -- the white space at the front of the rest is skipped as one piece with the gap, or by itself
  rw [← List.append_assoc, scanFrom_blanks hall hrest', scanFrom_blanks hmore hrest',
    Position.advance_append]

/-- The rules for words with a semicolon are told apart from all others by the first character. -/
theorem rules_uses_semicolon : ∀ rule ∈ rules, rule.pattern.uses ';' →
    (rule = ⟨.character, character⟩ ∨ rule = ⟨.string, string⟩ ∨ rule = ⟨.semicolon, char ';'⟩) ∧
      ∀ rule' ∈ rules, rule' = rule ∨ rule'.pattern.apart rule.pattern := by
  decide

/-- They have one word at a place at most. -/
theorem length_eq_of_uses_semicolon {rule : Rule} (hrule : rule ∈ rules)
    (huses : rule.pattern.uses ';') {cs : List Char} {m n : Nat}
    (hm : m ∈ rule.pattern.lengths cs) (hn : n ∈ rule.pattern.lengths cs) : m = n := by
  rcases (rules_uses_semicolon rule hrule huses).1 with rfl | rfl | rfl
  · rw [eq_three_of_mem_lengths_character hm, eq_three_of_mem_lengths_character hn]
  · -- a string ends at the first quote behind its own
    obtain ⟨hle, hword⟩ := mem_lengths_iff.mp hm
    rw [← List.take_append_drop m cs] at hn
    rw [eq_length_of_mem_lengths_string hword hn, List.length_take_of_le hle]
  · have hone {k : Nat} (hk : k ∈ (char ';').lengths cs) : k = 1 := by
      obtain ⟨hle, hword⟩ := mem_lengths_iff.mp hk
      rw [← List.length_take_of_le hle, describes_char_iff.mp hword, List.length_singleton]
    rw [hone hm, hone hn]

namespace Cursor

variable {policy : Policy} {cursor final : Cursor} {choice : Candidate} {tokens : List Token}

/-- A choice in front of a semicolon stays the same, whatever follows the text. -/
theorem choose_append_of_mem (hchoose : cursor.choose policy = some choice)
    (hmem : ';' ∈ (cursor.next choice).rest) (rest : List Char) :
    ({ cursor with rest := cursor.rest ++ rest } : Cursor).choose policy = some choice := by
  have hlt : choice.length < cursor.rest.length := by
    have hpos := List.length_pos_of_mem hmem
    rw [next, List.length_drop] at hpos
    omega
  rw [← hchoose]
  refine choose_append (List.length_pos_iff.mp (by omega)) fun rule hrule hstart n hn => ?_
  rcases hn with hn | hn
  · exact (le_length_of_choose hchoose hrule hn hstart).trans_lt hlt
  · by_contra hge
    -- a word that goes on behind the text has the semicolon
    obtain ⟨-, hword⟩ := mem_lengths_iff.mp hn
    have huses : rule.pattern.uses ';' := by
      refine uses_of_describes hword ';' ?_
      rw [List.take_append, List.take_of_length_le (Nat.le_of_not_lt hge)]
      exact List.mem_append_left _ (List.mem_of_mem_drop hmem)
    obtain ⟨rule', hrule', -, hlength', -⟩ := exists_rule_of_choose hchoose
    have hn' : choice.length ∈ rule'.pattern.lengths (cursor.rest ++ rest) :=
      (mem_lengths_append_iff hlt).mpr (List.mem_of_mem_head? hlength')
    -- so its rule is that of the choice, which has no other word at this place
    rcases (rules_uses_semicolon rule hrule huses).2 rule' hrule' with rfl | hapart
    · exact hge (length_eq_of_uses_semicolon hrule huses hn hn' ▸ hlt)
    · rw [← Nat.sub_add_cancel choice.length_pos] at hn'
      rw [← Nat.sub_add_cancel (Rule.pos_of_mem_lengths hrule hn)] at hn
      exact not_mem_lengths_of_apart hapart hn' hn

/-- A semicolon is a token by itself, whatever follows it. -/
theorem choose_semicolon (policy : Policy) (p : Position) (last : Option Kind) (rest : List Char) :
    choose policy ⟨p, last, ';' :: rest⟩ = some ⟨.semicolon, 1, by decide⟩ := by
  refine choose_of_candidate? (show (⟨.semicolon, char ';'⟩ : Rule) ∈ rules by decide) ?_ ?_
  · refine Rule.candidate?_eq_some_iff.mpr ⟨rfl, ?_, rfl⟩
    simp [Rule.matchLength?, Pattern.matchLength?, char, lengths, CharClass.contains]
  · -- no other rule matches at a semicolon
    intro r hoverlap
    simp [overlaps] at hoverlap

/-- The text of a semicolon is the character. -/
theorem rest_eq_of_choose_semicolon (hchoose : cursor.choose policy = some choice)
    (hkind : choice.kind = .semicolon) : cursor.rest = ';' :: (cursor.next choice).rest := by
  have hpattern : pattern? choice.kind = some (char ';') := hkind ▸ rfl
  have hword := describes_char_iff.mp (describes_of_choose hchoose hpattern)
  calc cursor.rest = cursor.rest.take choice.length ++ cursor.rest.drop choice.length :=
        (List.take_append_drop _ _).symm
    _ = ';' :: (cursor.next choice).rest := by rw [hword]; rfl

namespace Reaches

/-- A text with a token for a semicolon has a semicolon. -/
theorem mem_rest_of_semicolon (h : cursor.Reaches policy tokens final) {t : Token} (ht : t ∈ tokens)
    (hkind : t.kind = .semicolon) : ';' ∈ cursor.rest := by
  obtain ⟨earlier, later, rfl⟩ := List.append_of_mem ht
  obtain ⟨place, choice, hplace, hchoose, -, rfl, -⟩ := h.exists_step
  obtain ⟨text, htext, -⟩ := hplace.exists_append
  rw [htext, rest_eq_of_choose_semicolon hchoose hkind]
  simp

/-- A step of a way with a semicolon as its last token stays the same whatever follows the
text, unless it takes white space. -/
theorem choose_append_of_getLast? (h : (cursor.next choice).Reaches policy tokens final)
    (hchoose : cursor.choose policy = some choice) (hspace : choice.kind ≠ .space)
    (hlast : ∀ t ∈ ((cursor.token? choice).toList ++ tokens).getLast?, t.kind = .semicolon)
    (rest : List Char) :
    ({ cursor with rest := cursor.rest ++ rest } : Cursor).choose policy = some choice := by
  rw [token?, if_neg hspace] at hlast
  by_cases hnil : tokens = []
  · -- the step is the last one, so it takes the semicolon
    obtain rfl := hnil
    have hrest := rest_eq_of_choose_semicolon hchoose (hlast _ rfl)
    have halone := choose_semicolon policy cursor.position cursor.last (cursor.next choice).rest
    rw [← hrest] at halone
    rw [← hchoose]
    refine Eq.trans ?_ halone.symm
    rw [hrest]
    exact choose_semicolon policy _ _ _
  · obtain ⟨t, ht⟩ := Option.ne_none_iff_exists'.mp (mt List.getLast?_eq_none_iff.mp hnil)
    have hkind : t.kind = .semicolon := by
      refine hlast t ?_
      rw [List.getLast?_append, ht]
      rfl
    have hmem := h.mem_rest_of_semicolon (List.mem_of_getLast? ht) hkind
    exact choose_append_of_mem hchoose hmem rest

/-- A way to the end of a text, with a semicolon as its last token, stays the same whatever follows
the text. The scan goes on from where it leads. -/
theorem scanFrom_append (h : cursor.Reaches policy tokens final) (hend : final.rest = [])
    (hlast : ∀ t ∈ tokens.getLast?, t.kind = .semicolon) (rest : List Char) :
    scanFrom policy { cursor with rest := cursor.rest ++ rest } =
      ⟨tokens ++ (scanFrom policy { final with rest }).tokens,
        (scanFrom policy { final with rest }).stuck⟩ := by
  -- the induction goes along the way, and the text to be appended stays the same
  induction h with
  | refl =>
    rw [hend]
    rfl
  | @step cursor final choice tokens hchoose h ih =>
    have hsplit : cursor.rest ++ rest =
        cursor.rest.take choice.length ++ ((cursor.next choice).rest ++ rest) := by
      rw [← List.append_assoc, Cursor.next, List.take_append_drop]
    have hih := ih hend fun t ht => hlast t (by simp [Option.mem_def.mp ht])
    by_cases hspace : choice.kind = .space
    · -- the last gap may go on in what follows, so this step need not be one of the longer scan
      rw [hsplit, scanFrom_blanks_append (blank_of_choose hchoose hspace), token?, if_pos hspace]
      simpa [Cursor.next, hspace] using hih
    · have hchoose' := h.choose_append_of_getLast? hchoose hspace hlast rest
      have hne : cursor.rest ++ rest ≠ [] := by simp [rest_ne_nil_of_choose hchoose]
      have hle := length_le_of_choose hchoose
      rw [scanFrom_of_choose_eq_some hne hchoose', hsplit, next_append hle, token?_append hle, hih,
        List.append_assoc]

end Reaches

end Cursor

/-- If the tokens of a text end with a semicolon, the scan of a longer text finds them, and then
what it finds in the rest by itself, at shifted places. -/
theorem scan_append {policy : Policy} {source : String} {tokens : List Token}
    (h : tokenize policy source = .ok tokens)
    (hlast : ∀ t ∈ tokens.getLast?, t.kind = .semicolon) (more : String) :
    scan policy (source ++ more) =
      ⟨tokens ++ ((scan policy more).shift (.behind source.toList)).tokens,
        ((scan policy more).shift (.behind source.toList)).stuck⟩ := by
  obtain ⟨final, hreaches, hend⟩ := exists_reaches_of_tokenize h
  obtain ⟨text, htext, hposition⟩ := hreaches.exists_append
  -- the rest is scanned as from its own start: neither a semicolon nor the start of a text ends an
  -- operand
  have hshifted : (Cursor.start more.toList).Shifted (.behind source.toList)
      { final with rest := more.toList } := by
    refine ⟨rfl, ?_, [], rfl, ?_⟩
    · show final.last.any Kind.endsOperand = false
      rw [hreaches.last_eq]
      cases hget : tokens.getLast? with
      | none => rfl
      | some t => simp [hlast t hget, Kind.endsOperand]
    · rw [hend, List.append_nil] at htext
      rw [← Position.advance_start, Position.advance_nil, show source.toList = text from htext]
      exact hposition
  have happend := hreaches.scanFrom_append hend hlast more.toList
  rw [hshifted.scanFrom_eq] at happend
  rw [scan, String.toList_append]
  exact happend

/-- The tokens of a longer text are those of the text and the shifted ones of the rest, which are
missing if the rest has none. -/
theorem tokenize_append {policy : Policy} {source : String} {tokens : List Token}
    (h : tokenize policy source = .ok tokens)
    (hlast : ∀ t ∈ tokens.getLast?, t.kind = .semicolon) (more : String) :
    (∀ tokens', tokenize policy more = .ok tokens' →
      tokenize policy (source ++ more) =
        .ok (tokens ++ tokens'.map (.shift (.behind source.toList)))) ∧
    ((∃ e, tokenize policy (source ++ more) = .error e) ↔
      ∃ e, tokenize policy more = .error e) := by
  rw [tokenize, tokenize, scan_append h hlast]
  cases hstuck : (scan policy more).stuck <;> simp [Scan.shift, hstuck]

/-! ## Reading what is appended -/

namespace Parse

/-- A step keeps the statements that have been read. -/
theorem prefix_statements_step {state state' : State} {t : Token} (h : state.step t = .ok state') :
    state.statements <+: state'.statements := by
  obtain ⟨move, -, rfl⟩ := step_eq_ok_iff.mp h
  cases move with
  | goto phase => exact List.prefix_rfl
  | finish s => exact List.prefix_append _ _

/-- Reading keeps the statements that have been read. -/
theorem prefix_statements_readFrom (state : State) (ts : List Token) :
    state.statements <+: (readFrom state ts).state.statements := by
  induction ts generalizing state with
  | nil => exact List.prefix_rfl
  | cons t ts ih =>
    rw [readFrom]
    cases hstep : state.step t with
    | ok state' => exact (prefix_statements_step hstep).trans (ih state')
    | error e => exact List.prefix_rfl

end Parse

/-- A program ends with a semicolon. -/
theorem Grammar.Derives.kind_getLast? {tokens : List Token} {program : Program}
    {declared : List Variable} (h : Derives tokens program declared) :
    ∀ t ∈ tokens.getLast?, t.kind = .semicolon := by
  cases h with
  | nil => simp
  | snoc h hs hsemicolon => simpa using hsemicolon

/-- The program of more tokens goes on with that of the first ones. -/
theorem prefix_of_parse_append {tokens more : List Token} {program program' : Program}
    (h : parse tokens = .ok program) (h' : parse (tokens ++ more) = .ok program') :
    program <+: program' := by
  obtain ⟨declared, hderives, -⟩ := derives_of_parse h
  obtain ⟨-, rfl⟩ := parse_eq_ok_iff_error_eq_none.mp h'
  rw [Parse.read, Parse.readFrom_derives hderives]
  exact Parse.prefix_statements_readFrom (.after program declared) more

/-! ## Writing what is appended -/

/-- A declaration keeps the variables of the scope. -/
theorem Scope.prefix_declare (scope : Scope) (v : Variable) :
    scope.toList <+: (scope.declare v).toList := by
  by_cases h : scope.contains v.name
  · rw [declare_of_contains h]
  · rw [toList_declare_of_not_contains h]
    exact List.prefix_append _ _

namespace Java

/-- Writing a tree keeps the variables of the scope. -/
theorem prefix_scope_emit (scope : Scope) (e : Term) :
    scope.toList <+: (emit scope e).scope.toList := by
  induction e generalizing scope with
  | var v => exact scope.prefix_declare v
  | lit => exact List.prefix_rfl
  | binary op left right ihleft ihright => exact (ihleft scope).trans (ihright _)
  | unary op operand ih => exact ih scope

/-- Writing statements keeps the variables of the scope. -/
theorem prefix_scope_emitStatements (scope : Scope) (program : Program) :
    scope.toList <+: (emitStatements scope program).scope.toList := by
  induction program generalizing scope with
  | nil => exact List.prefix_rfl
  | cons s program ih => exact (prefix_scope_emit scope s).trans (ih _)

/-- The lines for the statements of a program. -/
def statementLines (program : Program) : String :=
  (emitStatements .empty program).text

/-- The lines behind them, which print the variables. -/
def epilogueLines (program : Program) : String :=
  epilogue (emitStatements .empty program).scope

theorem body_eq (program : Program) :
    body program = "\x7b\n" ++ statementLines program ++ epilogueLines program ++ "\x7d" := rfl

/-- The lines of a program go on with those of more statements. -/
theorem exists_statementLines_append {program program' : Program} (h : program <+: program') :
    ∃ lines, statementLines program' = statementLines program ++ lines := by
  obtain ⟨more, rfl⟩ := h
  exact ⟨_, by rw [statementLines, emitStatements_append]; rfl⟩

/-- The epilogue of a program goes on with the variables of more statements. -/
theorem exists_epilogueLines_append {program program' : Program} (h : program <+: program') :
    ∃ lines, epilogueLines program' = epilogueLines program ++ lines := by
  obtain ⟨more, rfl⟩ := h
  obtain ⟨later, hlater⟩ :=
    prefix_scope_emitStatements (emitStatements .empty program).scope more
  refine ⟨String.join (later.map report), ?_⟩
  rw [epilogueLines, emitStatements_append, epilogue, ← hlater, List.map_append,
    String.join_append]
  rfl

end Java

/-! ## Compiling what is appended -/

/-- Compiling succeeds where a program can be read, with its body. -/
theorem compile_eq_ok_iff {policy : Policy} {source body : String} :
    compile policy source = .ok body ↔
      ∃ program, readProgram policy source = .ok program ∧ Java.body program = body := by
  rw [compile]
  cases readProgram policy source <;> simp [bind, Except.bind, pure, Except.pure]

/-- Nothing looks across the end of a text that compiles. Whatever is appended, the tokens of the
text stay and those of the rest follow, at shifted places, if the rest has tokens. If all of it
compiles, the statements, their lines and the epilogue go on with those of the text. -/
theorem compile_append {policy : Policy} {source body : String}
    (h : compile policy source = .ok body) :
    ∃ tokens program, tokenize policy source = .ok tokens ∧ parse tokens = .ok program ∧
      body = "\x7b\n" ++ Java.statementLines program ++ Java.epilogueLines program ++ "\x7d" ∧
      ∀ more,
        (∀ tokens', tokenize policy more = .ok tokens' →
          tokenize policy (source ++ more) =
            .ok (tokens ++ tokens'.map (.shift (.behind source.toList)))) ∧
        ((∃ e, tokenize policy (source ++ more) = .error e) ↔
          ∃ e, tokenize policy more = .error e) ∧
        ∀ body', compile policy (source ++ more) = .ok body' →
          ∃ program', readProgram policy (source ++ more) = .ok program' ∧
            body' = "\x7b\n" ++ Java.statementLines program' ++ Java.epilogueLines program' ++
              "\x7d" ∧
            program <+: program' ∧
            (∃ lines, Java.statementLines program' = Java.statementLines program ++ lines) ∧
            ∃ lines, Java.epilogueLines program' = Java.epilogueLines program ++ lines := by
  obtain ⟨program, hread, rfl⟩ := compile_eq_ok_iff.mp h
  obtain ⟨tokens, htokens, hparse⟩ := readProgram_eq_ok_iff.mp hread
  obtain ⟨declared, hderives, -⟩ := derives_of_parse hparse
  refine ⟨tokens, program, htokens, hparse, Java.body_eq program, fun more => ?_⟩
  obtain ⟨hok, herror⟩ := tokenize_append htokens hderives.kind_getLast? more
  refine ⟨hok, herror, fun body' h' => ?_⟩
  obtain ⟨program', hread', rfl⟩ := compile_eq_ok_iff.mp h'
  obtain ⟨all, hall, hparse'⟩ := readProgram_eq_ok_iff.mp hread'
  -- the tokens of all of it start with those of the text
  have hprefix : program <+: program' := by
    obtain ⟨-, rfl⟩ := tokenize_eq_ok_iff.mp hall
    rw [scan_append htokens hderives.kind_getLast?] at hparse'
    exact prefix_of_parse_append hparse hparse'
  exact ⟨program', hread', Java.body_eq program', hprefix,
    Java.exists_statementLines_append hprefix, Java.exists_epilogueLines_append hprefix⟩

/-- The white space on both sides of the end is one gap, and the sign behind it belongs to a number.
A text that goes on with another declaration has the lines of the first one in front. -/
theorem compile_append_sign :
    ∃ tokens program, tokenize .first "int32 a;\n " = .ok tokens ∧ parse tokens = .ok program ∧
      tokenize .first "int32 a;\n  -1" = .ok (tokens ++ [⟨.integer, "-1", ⟨11, 13, 2, 3⟩⟩]) ∧
      ∃ program', readProgram .first "int32 a;\n float32 b=-2.5;" = .ok program' ∧
        program <+: program' ∧
        (∃ lines, Java.statementLines program' = Java.statementLines program ++ lines) ∧
        ∃ lines, Java.epilogueLines program' = Java.epilogueLines program ++ lines := by
  have h : compile .first "int32 a;\n " = .ok (Java.body [.var ⟨.int32, "a"⟩]) :=
    compile_eq_ok_iff.mpr ⟨_, by cbv, rfl⟩
  have hlonger : compile .first ("int32 a;\n " ++ "float32 b=-2.5;") = .ok (Java.body
      [.var ⟨.int32, "a"⟩, .binary .assign (.var ⟨.float32, "b"⟩) (.lit .decimal "-2.5")]) :=
    compile_eq_ok_iff.mpr ⟨_, by cbv, rfl⟩
  obtain ⟨tokens, program, htokens, hparse, -, happend⟩ := compile_append h
  obtain ⟨program', hread, -, hparts⟩ := (happend "float32 b=-2.5;").2.2 _ hlonger
  refine ⟨tokens, program, htokens, hparse, ?_, program', hread, hparts⟩
  exact (happend " -1").1 [⟨.integer, "-1", ⟨1, 3, 1, 2⟩⟩] (by cbv)

end Straightline
