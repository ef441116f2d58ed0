import Straightline.Proofs.Spacing

/-!
# Programs as source text

Which programs can be read from a source text at all, and a text for each of them.

* `WellFormed` says of a program what its statements are, and of their names, literals and variables
  what they must be. It speaks of trees and of the lexical rules, and not of tokens or of reading.
* `sourceText` writes a program down, with parentheses around every operation, blanks between all
  tokens, and a type in front of the target of every assignment.

Main statement: `readProgram_eq_ok_iff_wellFormed`. Reading makes well-formed programs only, and it
makes each of them from its own text.
-/

namespace Straightline

open Grammar Lexicon

/-! ## Well-formed programs -/

/-- The text is a name and no keyword. -/
def IsName (text : String) : Prop :=
  IsWord .name text ∧ text ∉ keywords

/-- The variable that a statement declares or assigns to. -/
def Term.target? : Term → Option Variable
  | .var v => some v
  | .binary .assign (.var v) _ => some v
  | _ => none

/-- The variables that a program declares or assigns to, in order. -/
def targets (program : Program) : List Variable :=
  program.filterMap Term.target?

/-- The statements behind others with the given targets: a declaration, an assignment of a formula,
and the printing of a string or of a formula. A variable in a formula is the first of its name among
the targets. -/
inductive IsSentence (earlier : List Variable) : Term → Prop
  | declaration {v : Variable} (hname : IsName v.name) : IsSentence earlier (.var v)
  | assignment {v : Variable} {e : Term} (hname : IsName v.name) (h : IsFormula earlier e) :
      IsSentence earlier (.binary .assign (.var v) e)
  | printString {text : String} (htext : IsWord .string text) :
      IsSentence earlier (.unary .print (.lit .string text))
  | printFormula {e : Term} (h : IsFormula earlier e) : IsSentence earlier (.unary .print e)

/-- Every statement of the program is one behind the targets of the statements before it. -/
def WellFormed (program : Program) : Prop :=
  ∀ before s after, program = before ++ s :: after → IsSentence (targets before) s

theorem targets_cons (s : Term) (program : Program) :
    targets (s :: program) = s.target?.toList ++ targets program := by
  rw [targets, List.filterMap_cons]
  cases s.target? <;> rfl

theorem targets_concat (program : Program) (s : Term) :
    targets (program ++ [s]) = targets program ++ s.target?.toList := by
  rw [targets, List.filterMap_append, ← targets, ← targets, targets_cons]
  simp [targets]

section Shape

variable {earlier earlier' : List Variable} {program : Program} {s e : Term}

/-- A formula stays one where the same variables are the first of their names. -/
theorem IsFormula.of_firstDeclared
    (hfirst : ∀ v, FirstDeclared earlier v.name v → FirstDeclared earlier' v.name v)
    (h : IsFormula earlier e) : IsFormula earlier' e := by
  induction h with
  | var hv hname => exact .var (hfirst _ hv) hname
  | lit hkind htext => exact .lit hkind htext
  | binary hop _ _ ihleft ihright => exact .binary hop ihleft ihright
  | unary hop _ ih => exact .unary hop ih

theorem IsSentence.of_firstDeclared
    (hfirst : ∀ v, FirstDeclared earlier v.name v → FirstDeclared earlier' v.name v)
    (h : IsSentence earlier s) : IsSentence earlier' s := by
  cases h with
  | declaration hname => exact .declaration hname
  | assignment hname h => exact .assignment hname (h.of_firstDeclared hfirst)
  | printString htext => exact .printString htext
  | printFormula h => exact .printFormula (h.of_firstDeclared hfirst)

theorem IsSentence.isName_of_target? (h : IsSentence earlier s) :
    ∀ v ∈ s.target?, IsName v.name := by
  intro v hv
  cases h with
  | declaration hname | assignment hname h =>
    obtain rfl := Option.some_inj.mp hv
    exact hname
  | printString | printFormula => cases hv

/-- A well-formed program without its last statement is well formed, and that statement is one
behind the others. -/
theorem WellFormed.of_append_singleton (h : WellFormed (program ++ [s])) :
    WellFormed program ∧ IsSentence (targets program) s := by
  refine ⟨?_, h program s [] rfl⟩
  rintro before t after rfl
  exact h before t (after ++ [s]) (by simp)

/-- Every statement of a well-formed program is one behind targets with names that are no
keywords. -/
theorem WellFormed.exists_isSentence (h : WellFormed program) :
    ∀ s ∈ program, ∃ declared, (∀ v ∈ declared, IsName v.name) ∧ IsSentence declared s := by
  intro s hs
  obtain ⟨before, after, rfl⟩ := List.append_of_mem hs
  refine ⟨targets before, fun v hv => ?_, h before s after rfl⟩
  -- the target is that of an earlier statement, which is well formed itself
  obtain ⟨t, ht, htarget⟩ := List.mem_filterMap.mp hv
  obtain ⟨before', after', rfl⟩ := List.append_of_mem ht
  exact (h before' t (after' ++ s :: after) (by simp)).isName_of_target? v htarget

end Shape

/-! ## What is read is well formed -/

/-- Every declared name is the text of a token. -/
theorem exists_name_of_statement {declared new : List Variable} {ts : List Token} {s : Term}
    (h : Statement declared ts s new) :
    ∀ v ∈ new, ∃ t ∈ ts, t.kind = .name ∧ t.text = v.name := by
  cases h with
  | @declaration _ name _ _ hname | @initialized _ name _ _ _ _ _ hname _ _ =>
    simp only [List.mem_singleton, forall_eq]
    exact ⟨name, by simp, hname, rfl⟩
  | assignment | printString | printFormula => simp

theorem exists_name_of_derives {ts : List Token} {program : Program} {declared : List Variable}
    (h : Derives ts program declared) :
    ∀ v ∈ declared, ∃ t ∈ ts, t.kind = .name ∧ t.text = v.name := by
  induction h with
  | nil => simp
  | snoc _ hs _ ih =>
    intro v hv
    rcases List.mem_append.mp hv with hv | hv
    · obtain ⟨t, ht, hname⟩ := ih v hv
      exact ⟨t, by simp [ht], hname⟩
    · obtain ⟨t, ht, hname⟩ := exists_name_of_statement hs v hv
      exact ⟨t, by simp [ht], hname⟩

/-- Going on with a program keeps the declarations. -/
theorem IsProgram.subset {declared declared' : List Variable} {program : Program}
    (h : IsProgram declared program declared') : declared ⊆ declared' := by
  induction h with
  | nil => exact List.Subset.refl _
  | cons _ _ ih => exact List.Subset.trans (List.subset_append_left _ _) ih

/-- The targets of a program make the scope of its declarations: an assignment that declares nothing
has a target that is in scope. -/
theorem foldl_declare_targets {declared declared' : List Variable} {program : Program}
    (h : IsProgram declared program declared') :
    (targets program).foldl Scope.declare (.ofDeclarations declared) =
      .ofDeclarations declared' := by
  induction h with
  | nil => rfl
  | @cons declared new declared' s program hs _ ih =>
    have hstep : s.target?.toList.foldl Scope.declare (.ofDeclarations declared) =
        .ofDeclarations (declared ++ new) := by
      rw [Scope.ofDeclarations_append]
      cases hs with
      | declaration | initialized => rfl
      | assignment hfirst =>
        -- the name is in scope, so that declaring it once more changes nothing
        exact Scope.declare_of_contains (Scope.contains_ofDeclarations_of_firstDeclared hfirst)
      | printString | printFormula => rfl
    rw [targets_cons, List.foldl_append, hstep, ih]

/-- The first of a name among the declarations of a program is the first among its targets. -/
theorem firstDeclared_targets_iff {declared : List Variable} {program : Program}
    (h : IsProgram [] program declared) {name : String} {v : Variable} :
    FirstDeclared (targets program) name v ↔ FirstDeclared declared name v := by
  rw [← Scope.find?_ofDeclarations_eq_some_iff, ← Scope.find?_ofDeclarations_eq_some_iff,
    ← foldl_declare_targets h]
  rfl

theorem isSentence_of_isStatement {declared new : List Variable} {s : Term}
    (h : IsStatement declared s new) (hnames : ∀ v ∈ declared ++ new, v.name ∉ keywords) :
    IsSentence declared s := by
  cases h with
  | @declaration v hname => exact .declaration ⟨hname, hnames v (by simp)⟩
  | @initialized v e hname h => exact .assignment ⟨hname, hnames v (by simp)⟩ h
  | @assignment v e hfirst hname h =>
    obtain ⟨-, hmem⟩ := name_eq_and_mem_of_firstDeclared hfirst
    exact .assignment ⟨hname, hnames v (by simp [hmem])⟩ h
  | printString htext => exact .printString htext
  | printFormula h => exact .printFormula h

theorem wellFormed_of_isProgram {program : Program} {declared : List Variable}
    (h : IsProgram [] program declared) (hnames : ∀ v ∈ declared, v.name ∉ keywords) :
    WellFormed program := by
  rintro before s after rfl
  obtain ⟨between, hbefore, hafter⟩ := isProgram_append_iff.mp h
  cases hafter with
  | cons hs hafter =>
    have hsentence := isSentence_of_isStatement hs fun v hv => hnames v (hafter.subset hv)
    -- the declarations of `before` and its targets have the same first variables
    exact hsentence.of_firstDeclared fun v hv => (firstDeclared_targets_iff hbefore).mpr hv

/-- Every lexeme of a sequence can be scanned somewhere. -/
theorem Lexemes.exists_follows {last : Option Kind} {ls : List Lexeme} (h : Lexemes last ls) :
    ∀ l ∈ ls, ∃ before, l.Follows before := by
  induction h with
  | nil => simp
  | cons hl _ ih => simpa using ⟨⟨_, hl⟩, ih⟩

/-- Every program that is read is well formed. -/
theorem wellFormed_of_readProgram {policy : Policy} {source : String} {program : Program}
    (h : readProgram policy source = .ok program) : WellFormed program := by
  obtain ⟨tokens, htokens, hparse⟩ := readProgram_eq_ok_iff.mp h
  obtain ⟨declared, hderives, -⟩ := derives_of_parse hparse
  obtain ⟨hprogram, -⟩ := isProgram_of_derives hderives (isWord_of_mem_tokenize htokens)
  refine wellFormed_of_isProgram hprogram fun v hv => ?_
  -- a declared name comes from a token, and no name token is spelled like a keyword
  obtain ⟨t, ht, hkind, htext⟩ := exists_name_of_derives hderives v hv
  obtain ⟨before, hfollows⟩ :=
    (lexemes_of_tokenize htokens).exists_follows t.lexeme (List.mem_map_of_mem ht)
  exact htext ▸ hfollows.not_keyword hkind

/-! ## Writing programs down -/

/-- The sign of an operation as a lexeme. -/
def BinaryOp.lexeme : BinaryOp → Lexeme
  | assign => ⟨.assign, "="⟩
  | add => ⟨.plus, "+"⟩
  | sub => ⟨.minus, "-"⟩
  | mul => ⟨.times, "*"⟩
  | div => ⟨.divide, "/"⟩
  | mod => ⟨.modulo, "%"⟩

/-- The keyword or sign of an operation as a lexeme. -/
def UnaryOp.lexeme : UnaryOp → Lexeme
  | print => ⟨.print, "print"⟩
  | plus => ⟨.plus, "+"⟩
  | minus => ⟨.minus, "-"⟩

/-- The keyword of a type as a lexeme. -/
def PrimType.lexeme : PrimType → Lexeme
  | int32 => ⟨.int32, "int32"⟩
  | float32 => ⟨.float32, "float32"⟩
  | char => ⟨.char, "char"⟩

namespace Lexeme

def lparen : Lexeme := ⟨.lparen, "("⟩

def rparen : Lexeme := ⟨.rparen, ")"⟩

def semicolon : Lexeme := ⟨.semicolon, ";"⟩

end Lexeme

namespace Term

/-- The lexemes of a formula, with parentheses around every operation. -/
def lexemes : Term → List Lexeme
  | var v => [⟨.name, v.name⟩]
  | lit kind text => [⟨kind.tokenKind, text⟩]
  | binary op left right =>
    .lparen :: left.lexemes ++ op.lexeme :: right.lexemes ++ [.rparen]
  | unary op operand => .lparen :: op.lexeme :: operand.lexemes ++ [.rparen]

/-- The lexemes of a statement, without its semicolon. The target of an assignment has its type in
front, as in a declaration. -/
def statementLexemes : Term → List Lexeme
  | var v => [v.type.lexeme, ⟨.name, v.name⟩]
  | binary .assign (.var v) value =>
    v.type.lexeme :: ⟨.name, v.name⟩ :: BinaryOp.assign.lexeme :: value.lexemes
  | unary .print operand => UnaryOp.print.lexeme :: .lparen :: operand.lexemes ++ [.rparen]
  | _ => []

end Term

/-- The lexemes of a program. -/
def programLexemes (program : Program) : List Lexeme :=
  program.flatMap fun s => s.statementLexemes ++ [.semicolon]

/-- The text of a program: its lexemes with blanks between them. -/
def sourceText (program : Program) : String :=
  " ".intercalate ((programLexemes program).map Lexeme.text)

/-! ## The text has the lexemes -/

/-- Whether the lexeme is a keyword or a sign, spelled as its rule says. -/
def Lexeme.isFixed (l : Lexeme) : Bool :=
  l.kind != .space && l.kind != .name && !l.kind.isNumber &&
    (Lexicon.pattern? l.kind).bind (·.matchLength? l.text.toList) == some l.text.toList.length

/-- Keywords and signs can be scanned behind any token. -/
theorem Lexeme.follows_of_isFixed {l : Lexeme} (h : l.isFixed) (last : Option Kind) :
    l.Follows last := by
  simp only [isFixed, Bool.and_eq_true, bne_iff_ne, Bool.not_eq_true', beq_iff_eq,
    Option.bind_eq_some_iff] at h
  obtain ⟨⟨⟨hspace, hname⟩, hnumber⟩, pattern, hpattern, hlength⟩ := h
  obtain ⟨-, hword⟩ := Pattern.mem_lengths_iff.mp (List.mem_of_mem_head? hlength)
  rw [List.take_length, List.drop_length] at hword
  exact ⟨hspace, ⟨pattern, hpattern, hword⟩, fun h => absurd h hname, by simp [mayStart, hnumber]⟩

/-- Names can be scanned behind any token. -/
theorem follows_of_isName {text : String} (h : IsName text) (last : Option Kind) :
    (⟨.name, text⟩ : Lexeme).Follows last :=
  ⟨Kind.noConfusion, h.1, fun _ => h.2, rfl⟩

theorem Lexemes.fixed {l : Lexeme} (h : l.isFixed) {last : Option Kind} {ls : List Lexeme}
    (hls : Lexemes (some l.kind) ls) : Lexemes last (l :: ls) :=
  .cons (Lexeme.follows_of_isFixed h last) hls

theorem Lexemes.name {text : String} (h : IsName text) {last : Option Kind} {ls : List Lexeme}
    (hls : Lexemes (some .name) ls) : Lexemes last (⟨.name, text⟩ :: ls) :=
  .cons (follows_of_isName h last) hls

theorem Lexemes.rparen {ls : List Lexeme} (hls : ∀ kind, Lexemes (some kind) ls) (kind : Kind) :
    Lexemes (some kind) (.rparen :: ls) :=
  .fixed (by decide) (hls _)

section Scanning

-- What follows a formula or a statement is no number, so it can be scanned behind any token.
variable {declared : List Variable} (hdeclared : ∀ v ∈ declared, IsName v.name)
  {ls : List Lexeme} (hls : ∀ kind, Lexemes (some kind) ls)

include hdeclared hls

/-- The lexemes of a formula can be scanned behind a token that does not end an operand, where a
number can have a sign. -/
theorem lexemes_append_of_isFormula {e : Term} (h : IsFormula declared e) {last : Option Kind}
    (hlast : last.any Kind.endsOperand = false) : Lexemes last (e.lexemes ++ ls) := by
  induction h generalizing last ls with
  | var hfirst hname =>
    obtain ⟨-, hmem⟩ := name_eq_and_mem_of_firstDeclared hfirst
    exact .name (hdeclared _ hmem) (hls _)
  | @lit kind text hkind htext =>
    -- the only lexeme that can be a number, and `last` allows it a sign
    refine .cons ⟨?_, htext, ?_, by simp [mayStart, hlast]⟩ (hls _)
    · cases kind <;> simp [LiteralKind.tokenKind]
    · cases kind <;> simp [LiteralKind.tokenKind]
  | @binary op left right hop _ _ ihleft ihright =>
    have hsign : op.lexeme.isFixed ∧ op.lexeme.kind.endsOperand = false := by
      cases op <;> decide
    -- from the end: the sign and what follows it, then all of it
    have hright (kind : Kind) :
        Lexemes (some kind) (op.lexeme :: (right.lexemes ++ .rparen :: ls)) :=
      .fixed hsign.1 (ihright (.rparen hls) (by simp [hsign.2]))
    have hall : Lexemes last
        (.lparen :: (left.lexemes ++ op.lexeme :: (right.lexemes ++ .rparen :: ls))) :=
      .fixed (by decide) (ihleft hright rfl)
    simpa [Term.lexemes] using hall
  | @unary op operand hop _ ih =>
    have hsign : op.lexeme.isFixed ∧ op.lexeme.kind.endsOperand = false := by
      cases op <;> decide
    have hall : Lexemes last (.lparen :: op.lexeme :: (operand.lexemes ++ .rparen :: ls)) :=
      .fixed (by decide) (.fixed hsign.1 (ih (.rparen hls) (by simp [hsign.2])))
    simpa [Term.lexemes] using hall

/-- The lexemes of a statement can be scanned behind any token. -/
theorem lexemes_append_of_isSentence {s : Term} (h : IsSentence declared s)
    (last : Option Kind) : Lexemes last (s.statementLexemes ++ ls) := by
  have htype (type : PrimType) : type.lexeme.isFixed := by
    cases type <;> decide
  cases h with
  | @declaration v hname => exact .fixed (htype v.type) (.name hname (hls _))
  | @assignment v e hname h =>
    have hvalue : Lexemes (some .assign) (e.lexemes ++ ls) :=
      lexemes_append_of_isFormula hdeclared hls h rfl
    exact .fixed (htype v.type) (.name hname (.fixed (by decide) hvalue))
  | @printString text htext =>
    have hstring : Lexemes (some .lparen) (⟨.string, text⟩ :: .rparen :: ls) :=
      .cons ⟨Kind.noConfusion, htext, Kind.noConfusion, rfl⟩ (.rparen hls _)
    exact .fixed (by decide) (.fixed (by decide) hstring)
  | @printFormula e h =>
    have hformula : Lexemes (some .lparen) (e.lexemes ++ .rparen :: ls) :=
      lexemes_append_of_isFormula hdeclared (.rparen hls) h rfl
    have hall : Lexemes last (UnaryOp.print.lexeme :: .lparen :: (e.lexemes ++ .rparen :: ls)) :=
      .fixed (by decide) (.fixed (by decide) hformula)
    simpa [Term.statementLexemes] using hall

end Scanning

theorem programLexemes_cons (s : Term) (program : Program) :
    programLexemes (s :: program) =
      s.statementLexemes ++ .semicolon :: programLexemes program := by
  simp [programLexemes]

/-- The lexemes of statements can be scanned one behind the other. -/
theorem lexemes_programLexemes {program : Program}
    (h : ∀ s ∈ program, ∃ declared, (∀ v ∈ declared, IsName v.name) ∧ IsSentence declared s)
    (last : Option Kind) : Lexemes last (programLexemes program) := by
  induction program generalizing last with
  | nil => exact .nil
  | cons s program ih =>
    obtain ⟨declared, hdeclared, hs⟩ := h s (by simp)
    rw [programLexemes_cons]
    refine lexemes_append_of_isSentence hdeclared (fun kind => ?_) hs last
    exact .fixed (by decide) (ih (fun t ht => h t (by simp [ht])) _)

/-- Words stay spaced behind a blank. -/
theorem Spaced.blank {words : List String} {cs : List Char} (h : Spaced words cs) :
    Spaced words (' ' :: cs) := by
  have hblank {gap : List Char} (hgap : ∀ c ∈ gap, blanks.contains c) :
      ∀ c ∈ ' ' :: gap, blanks.contains c := by
    simpa using ⟨by decide, hgap⟩
  cases h with
  | nil hgap => exact .nil (hblank hgap)
  | cons hgap hrest h => exact .cons (hblank hgap) hrest h

theorem spaced_intercalate (words : List String) :
    Spaced words (" ".intercalate words).toList := by
  induction words with
  | nil => exact .nil (by simp)
  | cons word words ih =>
    cases words with
    | nil =>
      have hword : Spaced [word] ([] ++ word.toList ++ []) :=
        .cons (by simp) (by simp [StartsBlank]) (.nil (by simp))
      simpa using hword
    | cons next words =>
      have hrest : StartsBlank (' ' :: (" ".intercalate (next :: words)).toList) := by
        simpa [StartsBlank] using (by decide : blanks.contains ' ')
      have hall : Spaced (word :: next :: words)
          ([] ++ word.toList ++ ' ' :: (" ".intercalate (next :: words)).toList) :=
        .cons (by simp) hrest ih.blank
      rw [String.intercalate_cons_cons, String.toList_append, String.toList_append,
        List.append_assoc]
      exact hall

/-! ## The lexemes make the program -/

/-- A token for a lexeme. -/
def Lexeme.token (l : Lexeme) : Token :=
  ⟨l.kind, l.text, .point .start⟩

theorem map_lexeme_map_token (ls : List Lexeme) :
    (ls.map Lexeme.token).map Token.lexeme = ls := by
  rw [List.map_map]
  exact List.map_id ls

/-- The lexemes of a formula make an operand, since those of an operation are in parentheses. -/
theorem expression_lexemes {declared : List Variable} {e : Term} (h : IsFormula declared e) :
    Expression declared .operand (e.lexemes.map Lexeme.token) e := by
  induction h with
  | var hfirst hname => exact .name rfl hfirst
  | @lit kind text hkind htext =>
    refine .literal (t := Lexeme.token ⟨kind.tokenKind, text⟩) ?_
    cases kind <;> simp_all [LiteralKind.tokenKind, LiteralKind.operandOfKind?, Lexeme.token]
  | @binary op left right hop _ _ ihleft ihright =>
    have hsign : BinaryOp.ofKind? op.lexeme.token.kind = some op := by
      cases op <;> first | rfl | exact absurd rfl hop
    -- both sides are operands, so the left one needs no look at its own operators
    have hparens := (ihleft.unsigned.chain hsign ihright).parens
      (l := Lexeme.lparen.token) (r := Lexeme.rparen.token) rfl rfl
    simpa [Term.lexemes] using hparens
  | @unary op operand hop _ ih =>
    have hsign : UnaryOp.signOfKind? op.lexeme.token.kind = some op := by
      cases op <;> first | rfl | exact absurd rfl hop
    have hparens := (ih.signed hsign).parens
      (l := Lexeme.lparen.token) (r := Lexeme.rparen.token) rfl rfl
    simpa [Term.lexemes] using hparens

/-- The lexemes of a statement make a statement that declares its target. -/
theorem statement_lexemes {declared : List Variable} {s : Term} (h : IsSentence declared s) :
    Statement declared (s.statementLexemes.map Lexeme.token) s s.target?.toList := by
  have htype (type : PrimType) : PrimType.ofKind? type.lexeme.token.kind = some type := by
    cases type <;> rfl
  cases h with
  | @declaration v hname => exact .declaration (htype v.type) rfl
  | @assignment v e hname h =>
    exact .initialized (htype v.type) rfl rfl (expression_lexemes h).unsigned
  | printString htext => exact .printString rfl rfl rfl rfl
  | @printFormula e h =>
    have hprint := Statement.printFormula (p := UnaryOp.print.lexeme.token)
      (l := Lexeme.lparen.token) (r := Lexeme.rparen.token) rfl rfl rfl
      (expression_lexemes h).unsigned
    simpa [Term.statementLexemes, Term.target?] using hprint

/-- The lexemes of a well-formed program make the program. -/
theorem derives_programLexemes {program : Program} (h : WellFormed program) :
    Derives ((programLexemes program).map Lexeme.token) program (targets program) := by
  induction program using List.reverseRecOn with
  | nil => exact .nil
  | append_singleton program s ih =>
    obtain ⟨hprogram, hs⟩ := h.of_append_singleton
    have hsemicolon : Lexeme.semicolon.token.kind = .semicolon := rfl
    have hderives := (ih hprogram).snoc (statement_lexemes hs) hsemicolon
    rw [targets_concat]
    simpa [programLexemes] using hderives

/-- A well-formed program is read from its text. -/
theorem readProgram_sourceText {program : Program} (h : WellFormed program) (policy : Policy) :
    readProgram policy (sourceText program) = .ok program := by
  have hlexemes := lexemes_programLexemes h.exists_isSentence none
  obtain ⟨tokens, htokens, hsame⟩ := tokenize_spaced hlexemes (spaced_intercalate _) policy
  refine readProgram_eq_ok_iff.mpr ⟨tokens, htokens, ?_⟩
  -- the tokens differ from those of the derivation in their places only
  rw [← map_lexeme_map_token (programLexemes program)] at hsame
  obtain ⟨span, hparse⟩ := parse_of_lexemes_eq hsame
  rw [hparse, parse_of_derives (derives_programLexemes h)]
  rfl

/-- The programs that can be read are the well-formed ones, and each of them is read from its own
text. -/
theorem readProgram_eq_ok_iff_wellFormed (policy : Policy) (program : Program) :
    ((∃ source, readProgram policy source = .ok program) ↔ WellFormed program) ∧
      (WellFormed program → readProgram policy (sourceText program) = .ok program) := by
  have hread (h : WellFormed program) := readProgram_sourceText h policy
  refine ⟨⟨?_, fun h => ⟨_, hread h⟩⟩, hread⟩
  rintro ⟨source, hsource⟩
  exact wellFormed_of_readProgram hsource

/-- A name that is declared twice, and signs in front of numbers that have one: the program is read
from a short text, so it is well formed and is read from its own. -/
theorem readProgram_eq_ok_iff_wellFormed_signs :
    ∃ program : Program, program =
        [.var ⟨.int32, "a"⟩,
         .binary .assign (.var ⟨.char, "a"⟩) (.unary .minus (.lit .integer "-1")),
         .unary .print (.binary .sub (.var ⟨.int32, "a"⟩) (.lit .decimal "+2.5"))] ∧
      WellFormed program ∧
      sourceText program = "int32 a ; char a = ( - -1 ) ; print ( ( a - +2.5 ) ) ;" ∧
      readProgram .first (sourceText program) = .ok program := by
  have hshort {program : Program}
      (h : readProgram .first "int32 a;char a=--1;print(a-+2.5);" = .ok program) :
      WellFormed program :=
    (readProgram_eq_ok_iff_wellFormed .first program).1.mp ⟨_, h⟩
  refine ⟨_, rfl, hshort (by cbv), by decide, ?_⟩
  exact (readProgram_eq_ok_iff_wellFormed .first _).2 (hshort (by cbv))

end Straightline
