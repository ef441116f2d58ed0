import Straightline.Compile
import Straightline.Proofs.Policies
import Straightline.Proofs.Reading

/-!
# Well-formed programs

What is known of every program that a source text makes, whatever the text: the shape of its
statements, that their names and literals are words of the lexical rules, and that their variables
are those of earlier declarations.

`IsFormula`, `IsStatement` and `IsProgram` say so of trees, without reference to tokens. Main
statement: `isProgram_of_readProgram`, by which reading makes such programs only.
-/

namespace Straightline

open Grammar Lexicon

/-! ## Words -/

/-- The text is a word of the lexical rule for a kind. -/
def IsWord (kind : Kind) (text : String) : Prop :=
  ∃ pattern, Lexicon.pattern? kind = some pattern ∧ pattern.Describes text.toList []

theorem isWord_iff {kind : Kind} {pattern : Pattern} {text : String}
    (h : Lexicon.pattern? kind = some pattern) :
    IsWord kind text ↔ pattern.Describes text.toList [] := by
  simp [IsWord, h]

theorem pattern?_of_mem_rules {rule : Rule} (h : rule ∈ rules) :
    Lexicon.pattern? rule.kind = some rule.pattern := by
  revert rule
  decide

/-- The choice of a policy is one of the candidates. -/
theorem Cursor.mem_candidates_of_choose {policy : Policy} {cursor : Cursor} {choice : Candidate}
    (h : cursor.choose policy = some choice) : choice ∈ candidates cursor.last cursor.rest := by
  cases policy with
  | longest => exact List.maxOn?_mem h
  | first => exact List.mem_of_mem_head? h

/-- The choice at a place comes from the rule for its kind. -/
theorem Cursor.exists_rule_of_choose {policy : Policy} {cursor : Cursor} {choice : Candidate}
    (h : cursor.choose policy = some choice) :
    ∃ rule ∈ rules, rule.kind = choice.kind ∧ rule.matchLength? cursor.rest = some choice.length ∧
      mayStart cursor.last choice.kind cursor.rest := by
  have hmem := mem_candidates_of_choose h
  rw [candidates_eq, List.mem_filterMap] at hmem
  obtain ⟨rule, hrule, hcandidate⟩ := hmem
  obtain ⟨hkind, hlength, hstart⟩ := Rule.candidate?_eq_some_iff.mp hcandidate
  exact ⟨rule, hrule, hkind, hlength, hkind ▸ hstart⟩

/-- The characters that a candidate takes are a word of the rule for its kind. -/
theorem isWord_of_choose {policy : Policy} {cursor : Cursor} {choice : Candidate}
    (h : cursor.choose policy = some choice) :
    IsWord choice.kind (String.ofList (cursor.rest.take choice.length)) := by
  obtain ⟨rule, hrule, hkind, hlength, -⟩ := Cursor.exists_rule_of_choose h
  obtain ⟨-, hword⟩ := Pattern.mem_lengths_iff.mp (List.mem_of_mem_head? hlength)
  refine ⟨rule.pattern, hkind ▸ pattern?_of_mem_rules hrule, ?_⟩
  rw [String.toList_ofList]
  exact hword.of_head? (by simp)

/-- Every token of a scan is a word of the rule for its kind. -/
theorem isWord_of_mem_scanFrom {policy : Policy} {cursor : Cursor} {t : Token}
    (h : t ∈ (scanFrom policy cursor).tokens) : IsWord t.kind t.text := by
  fun_induction scanFrom policy cursor with
  | case1 => simp at h
  | case2 => simp at h
  | case3 cursor hrest choice hchoose following ih =>
    rcases List.mem_append.mp h with h | h
    · unfold Cursor.token? at h
      split at h
      · simp at h
      · obtain rfl : t = _ := by simpa using h
        exact isWord_of_choose hchoose
    · exact ih h

/-- A text has tokens if its scan does not get stuck. -/
theorem tokenize_eq_ok_iff {policy : Policy} {source : String} {tokens : List Token} :
    tokenize policy source = .ok tokens ↔
      (scan policy source).stuck = none ∧ (scan policy source).tokens = tokens := by
  rw [tokenize]
  cases (scan policy source).stuck <;> simp

theorem isWord_of_mem_tokenize {policy : Policy} {source : String} {tokens : List Token}
    (h : tokenize policy source = .ok tokens) : ∀ t ∈ tokens, IsWord t.kind t.text := by
  obtain ⟨-, rfl⟩ := tokenize_eq_ok_iff.mp h
  exact fun t ht => isWord_of_mem_scanFrom ht

/-! ## Trees -/

/-- The kind of token that makes a literal. -/
def LiteralKind.tokenKind : LiteralKind → Kind
  | integer => .integer
  | decimal => .decimal
  | character => .character
  | string => .string

/-- The trees of formulas behind the given declarations. -/
inductive IsFormula (declared : List Variable) : Term → Prop
  | var {v : Variable} (hfirst : FirstDeclared declared v.name v) (hname : IsWord .name v.name) :
      IsFormula declared (.var v)
  | lit {kind : LiteralKind} {text : String} (hkind : kind ≠ .string)
      (htext : IsWord kind.tokenKind text) : IsFormula declared (.lit kind text)
  | binary {op : BinaryOp} {left right : Term} (hop : op ≠ .assign)
      (hleft : IsFormula declared left) (hright : IsFormula declared right) :
      IsFormula declared (.binary op left right)
  | unary {op : UnaryOp} {operand : Term} (hop : op ≠ .print)
      (h : IsFormula declared operand) : IsFormula declared (.unary op operand)

/-- The trees of statements behind the given declarations, and the variables that they declare. -/
inductive IsStatement (declared : List Variable) : Term → List Variable → Prop
  | declaration {v : Variable} (hname : IsWord .name v.name) : IsStatement declared (.var v) [v]
  | initialized {v : Variable} {e : Term} (hname : IsWord .name v.name)
      (h : IsFormula declared e) : IsStatement declared (.binary .assign (.var v) e) [v]
  | assignment {v : Variable} {e : Term} (hfirst : FirstDeclared declared v.name v)
      (hname : IsWord .name v.name) (h : IsFormula declared e) :
      IsStatement declared (.binary .assign (.var v) e) []
  | printString {text : String} (htext : IsWord .string text) :
      IsStatement declared (.unary .print (.lit .string text)) []
  | printFormula {e : Term} (h : IsFormula declared e) :
      IsStatement declared (.unary .print e) []

/-- The programs that go on from some declarations to others. -/
inductive IsProgram : List Variable → Program → List Variable → Prop
  | nil {declared : List Variable} : IsProgram declared [] declared
  | cons {declared new declared' : List Variable} {s : Term} {program : Program}
      (hs : IsStatement declared s new) (h : IsProgram (declared ++ new) program declared') :
      IsProgram declared (s :: program) declared'

theorem isProgram_append_iff {declared declared' : List Variable} {p q : Program} :
    IsProgram declared (p ++ q) declared' ↔
      ∃ between, IsProgram declared p between ∧ IsProgram between q declared' := by
  induction p generalizing declared with
  | nil =>
    constructor
    · intro h
      exact ⟨declared, .nil, h⟩
    · rintro ⟨_, h, h'⟩
      cases h with
      | nil => exact h'
  | cons s p ih =>
    constructor
    · intro h
      cases h with
      | cons hs h =>
        obtain ⟨between, hp, hq⟩ := ih.mp h
        exact ⟨between, .cons hs hp, hq⟩
    · rintro ⟨between, h, hq⟩
      cases h with
      | cons hs hp => exact .cons hs (ih.mpr ⟨between, hp, hq⟩)

/-! ## Reading makes well-formed programs -/

theorem tokenKind_of_operandOfKind? {kind : Kind} {literal : LiteralKind}
    (h : LiteralKind.operandOfKind? kind = some literal) :
    literal.tokenKind = kind ∧ literal ≠ .string := by
  unfold LiteralKind.operandOfKind? at h
  split at h <;> simp_all [LiteralKind.tokenKind] <;> simp [← h]

theorem ne_assign_of_ofKind? {kind : Kind} {op : BinaryOp} (h : BinaryOp.ofKind? kind = some op) :
    op ≠ .assign := by
  unfold BinaryOp.ofKind? at h
  split at h <;> simp_all <;> simp [← h]

theorem ne_print_of_signOfKind? {kind : Kind} {op : UnaryOp}
    (h : UnaryOp.signOfKind? kind = some op) : op ≠ .print := by
  unfold UnaryOp.signOfKind? at h
  split at h <;> simp_all <;> simp [← h]

/-- A variable that a name stands for carries that name and was declared. -/
theorem name_eq_and_mem_of_firstDeclared {declared : List Variable} {name : String} {v : Variable}
    (h : FirstDeclared declared name v) : v.name = name ∧ v ∈ declared := by
  obtain ⟨earlier, later, rfl, hname, -⟩ := h
  exact ⟨hname, by simp⟩

/-- Expressions of well-formed tokens are well-formed formulas. -/
theorem isFormula_of_expression {declared : List Variable} {category : Category} {ts : List Token}
    {e : Term} (h : Expression declared category ts e)
    (hdeclared : ∀ v ∈ declared, IsWord .name v.name) (hts : ∀ t ∈ ts, IsWord t.kind t.text) :
    IsFormula declared e := by
  induction h with
  | name hkind hfirst =>
    -- the name is a word because that of its declaration is one
    obtain ⟨hname, hmem⟩ := name_eq_and_mem_of_firstDeclared hfirst
    exact .var (hname ▸ hfirst) (hdeclared _ hmem)
  | literal hkind =>
    obtain ⟨htoken, hstring⟩ := tokenKind_of_operandOfKind? hkind
    exact .lit hstring (htoken ▸ hts _ (by simp))
  | parens hl hr _ ih => exact ih fun t ht => hts t (by simp [ht])
  | unsigned _ ih => exact ih hts
  | signed hsign _ ih =>
    exact .unary (ne_print_of_signOfKind? hsign) (ih fun t ht => hts t (by simp [ht]))
  | chain _ hop _ ihleft ihright =>
    exact .binary (ne_assign_of_ofKind? hop) (ihleft fun t ht => hts t (by simp [ht]))
      (ihright fun t ht => hts t (by simp [ht]))

/-- Statements of well-formed tokens are well formed, and so are the names that they declare. -/
theorem isStatement_of_statement {declared new : List Variable} {ts : List Token} {s : Term}
    (h : Statement declared ts s new) (hdeclared : ∀ v ∈ declared, IsWord .name v.name)
    (hts : ∀ t ∈ ts, IsWord t.kind t.text) :
    IsStatement declared s new ∧ ∀ v ∈ new, IsWord .name v.name := by
  cases h with
  | @declaration t name type htype hname =>
    have hword : IsWord .name name.text := hname ▸ hts name (by simp)
    exact ⟨.declaration hword, by simpa using hword⟩
  | @initialized t name eq type ts e htype hname heq h =>
    have hword : IsWord .name name.text := hname ▸ hts name (by simp)
    have he := isFormula_of_expression h hdeclared fun t ht => hts t (by simp [ht])
    exact ⟨.initialized hword he, by simpa using hword⟩
  | assignment hname hfirst heq h =>
    have he := isFormula_of_expression h hdeclared fun t ht => hts t (by simp [ht])
    obtain ⟨hv, hmem⟩ := name_eq_and_mem_of_firstDeclared hfirst
    exact ⟨.assignment (hv ▸ hfirst) (hdeclared _ hmem) he, by simp⟩
  | @printString p l s r hp hl hs hr =>
    exact ⟨.printString (hs ▸ hts s (by simp)), by simp⟩
  | printFormula hp hl hr h =>
    exact ⟨.printFormula (isFormula_of_expression h hdeclared fun t ht => hts t (by simp [ht])),
      by simp⟩

/-- Programs of well-formed tokens are well formed, and so are the names that they declare. -/
theorem isProgram_of_derives {ts : List Token} {program : Program} {declared : List Variable}
    (h : Derives ts program declared) (hts : ∀ t ∈ ts, IsWord t.kind t.text) :
    IsProgram [] program declared ∧ ∀ v ∈ declared, IsWord .name v.name := by
  induction h with
  | nil => exact ⟨.nil, by simp⟩
  | snoc _ hs hsemicolon ih =>
    obtain ⟨hprogram, hdeclared⟩ := ih fun t ht => hts t (by simp [ht])
    obtain ⟨hstatement, hnew⟩ :=
      isStatement_of_statement hs hdeclared fun t ht => hts t (by simp [ht])
    refine ⟨isProgram_append_iff.mpr ⟨_, hprogram, .cons hstatement .nil⟩, ?_⟩
    intro v hv
    exact (List.mem_append.mp hv).elim (hdeclared v) (hnew v)

/-- A program is read where the text has tokens and these make the program. -/
theorem readProgram_eq_ok_iff {policy : Policy} {source : String} {program : Program} :
    readProgram policy source = .ok program ↔
      ∃ tokens, tokenize policy source = .ok tokens ∧ parse tokens = .ok program := by
  rw [readProgram]
  cases tokenize policy source with
  | error e => simp [Except.mapError, bind, Except.bind]
  | ok tokens =>
    simp only [Except.mapError, bind, Except.bind, Except.ok.injEq, exists_eq_left']
    split <;> simp_all

/-- Every program that a source text makes is well formed. -/
theorem isProgram_of_readProgram {policy : Policy} {source : String} {program : Program}
    (h : readProgram policy source = .ok program) : ∃ declared, IsProgram [] program declared := by
  obtain ⟨tokens, htokens, hparse⟩ := readProgram_eq_ok_iff.mp h
  obtain ⟨declared, hderives, -⟩ := derives_of_parse hparse
  exact ⟨declared, (isProgram_of_derives hderives (isWord_of_mem_tokenize htokens)).1⟩

end Straightline
