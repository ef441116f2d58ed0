import Straightline.Proofs.Appending
import Straightline.Proofs.Declarations
import Straightline.Proofs.Suffix

/-!
# The lines of a body

A body has a line for each of its braces, a line for each statement, and two lines for each
variable. That holds whatever the source text has in its strings and characters: no token but white
space can hold a line feed (`isLine_of_isWord`), and the writer puts none into the text of a tree
(`isLine_emit`), so the only line feeds are those behind the statements and the reports.

Statements are counted in the source by the semicolons among its tokens (`semicolons_derives`).

Main statement: `body_lines`.
-/

namespace Straightline

open Grammar Lexicon Pattern

/-! ## Lines of a text -/

/-- The lines of a text: what stands between its line feeds. -/
def textLines (text : String) : List String :=
  (text.toList.splitOn '\n').map String.ofList

/-- The text holds no line feed. -/
def IsLine (text : String) : Prop :=
  '\n' ∉ text.toList

instance (text : String) : Decidable (IsLine text) :=
  inferInstanceAs (Decidable ('\n' ∉ text.toList))

section Lines

variable {s t : String}

theorem IsLine.append (hs : IsLine s) (ht : IsLine t) : IsLine (s ++ t) := by
  simpa [IsLine] using ⟨hs, ht⟩

theorem textLines_of_isLine (h : IsLine s) : textLines s = [s] := by
  rw [textLines, List.splitOn_eq_singleton h]
  simp

/-- The first line of a text ends at its first line feed. -/
theorem textLines_append (hs : IsLine s) (t : String) :
    textLines (s ++ "\n" ++ t) = s :: textLines t := by
  have hne : ∀ c ∈ s.toList, (c == '\n') = false := by
    intro c hc
    rw [beq_eq_false_iff_ne]
    rintro rfl
    exact hs hc
  have hsplit : (s ++ "\n" ++ t).toList = s.toList ++ '\n' :: t.toList := by simp
  rw [textLines, hsplit, List.splitOn, List.splitOnP_append_cons_of_forall_mem hne _ (by simp)]
  simp [textLines, List.splitOn]

/-- Lines with a line feed behind each of them are the first lines of a text. -/
theorem textLines_join_append {lines : List String} (h : ∀ l ∈ lines, IsLine l) (rest : String) :
    textLines (String.join (lines.map (· ++ "\n")) ++ rest) = lines ++ textLines rest := by
  induction lines with
  | nil => simp
  | cons l lines ih =>
    have hrest := ih fun l hl => h l (by simp [hl])
    rw [List.map_cons, String.join_cons, String.append_assoc, textLines_append (h l (by simp)),
      hrest, List.cons_append]

end Lines

/-! ## Statements and semicolons -/

/-- The number of semicolons among tokens. -/
def semicolons (tokens : List Token) : Nat :=
  tokens.countP (·.kind = .semicolon)

theorem semicolons_append (ts us : List Token) :
    semicolons (ts ++ us) = semicolons ts + semicolons us :=
  List.countP_append

theorem semicolons_eq_zero_iff {ts : List Token} :
    semicolons ts = 0 ↔ ∀ t ∈ ts, t.kind ≠ .semicolon := by
  simp [semicolons]

section Semicolons

variable {declared new : List Variable} {ts : List Token}

/-- An expression has no semicolon. -/
theorem ne_semicolon_of_expression {category : Category} {e : Term}
    (h : Expression declared category ts e) : ∀ t ∈ ts, t.kind ≠ .semicolon := by
  induction h with
  | name hkind => simp [hkind]
  | @literal t kind hkind =>
    simp only [List.mem_singleton, forall_eq]
    intro hsemicolon
    simp [hsemicolon, LiteralKind.operandOfKind?] at hkind
  | parens hl hr _ ih => simpa [hl, hr, or_imp, forall_and] using ih
  | unsigned _ ih => exact ih
  | @signed t op ts e hsign _ ih =>
    have ht : t.kind ≠ .semicolon := by
      intro hsemicolon
      simp [hsemicolon, UnaryOp.signOfKind?] at hsign
    exact List.forall_mem_cons.mpr ⟨ht, ih⟩
  | @chain t op ts us left right _ hop _ ihleft ihright =>
    have ht : t.kind ≠ .semicolon := by
      intro hsemicolon
      simp [hsemicolon, BinaryOp.ofKind?] at hop
    exact List.forall_mem_append.mpr ⟨ihleft, List.forall_mem_cons.mpr ⟨ht, ihright⟩⟩

theorem ne_semicolon_of_type {t : Token} {type : PrimType}
    (h : PrimType.ofKind? t.kind = some type) : t.kind ≠ .semicolon := by
  intro hsemicolon
  simp [hsemicolon, PrimType.ofKind?] at h

/-- A statement has no semicolon: the one behind it is not part of it. -/
theorem semicolons_statement {s : Term} (h : Statement declared ts s new) : semicolons ts = 0 := by
  rw [semicolons_eq_zero_iff]
  cases h with
  | declaration ht hname => simp [ne_semicolon_of_type ht, hname]
  | initialized ht hname heq h =>
    simpa [ne_semicolon_of_type ht, hname, heq] using ne_semicolon_of_expression h
  | assignment hname _ heq h => simpa [hname, heq] using ne_semicolon_of_expression h
  | printString hp hl hs hr => simp [hp, hl, hs, hr]
  | printFormula hp hl hr h =>
    simpa [hp, hl, hr, or_imp, forall_and] using ne_semicolon_of_expression h

/-- A program has as many statements as its tokens have semicolons. -/
theorem semicolons_derives {program : Program} (h : Derives ts program declared) :
    semicolons ts = program.length := by
  induction h with
  | nil => rfl
  | snoc _ hs hsemicolon ih =>
    rw [semicolons_append, semicolons_append, ih, semicolons_statement hs]
    simp [semicolons, hsemicolon]

end Semicolons

/-- The first declarations of names are as many as there are names. -/
theorem length_firstDeclarations (declared : List Variable) :
    (firstDeclarations declared).length = (declared.map Variable.name).toFinset.card := by
  have hlist := Scope.toList_ofDeclarations declared
  have hnodup : ((firstDeclarations declared).map Variable.name).Nodup :=
    hlist ▸ Scope.distinct_ofDeclarations declared
  -- the scope of the declarations has exactly their names, and has each of them once
  have hnames : ((firstDeclarations declared).map Variable.name).toFinset =
      (declared.map Variable.name).toFinset := by
    ext name
    rw [List.mem_toFinset, List.mem_toFinset, ← hlist, ← Scope.contains_iff,
      Scope.contains_ofDeclarations_iff]
  rw [← hnames, List.toFinset_card_of_nodup hnodup, List.length_map]

/-! ## No line feed inside -/

/-- Words are on one line, white space apart. -/
theorem isLine_of_isWord {kind : Kind} {text : String} (hkind : kind ≠ .space)
    (h : IsWord kind text) : IsLine text := by
  obtain ⟨rule, hrule, rfl, hword, -⟩ := exists_rule_of_isWord h
  have huses : ∀ rule ∈ rules, rule.kind ≠ .space → rule.pattern.uses '\n' = false := by decide
  intro hfeed
  have := uses_of_describes hword '\n' hfeed
  rw [huses rule hrule hkind] at this
  cases this

namespace Java

theorem isLine_wrap {needed : Bool} {text : String} (h : IsLine text) :
    IsLine (wrap needed text) := by
  cases needed with
  | false => exact h
  | true =>
    have hopen : IsLine "(" := by decide
    have hclose : IsLine ")" := by decide
    exact (hopen.append h).append hclose

/-- A tree of words is written on one line. -/
theorem isLine_emit {e : Term} (h : HasWords e) (scope : Scope) : IsLine (emit scope e).text := by
  induction e generalizing scope with
  | var v =>
    have htype : IsLine (if scope.contains v.name then "" else typeKeyword v.type ++ " ") := by
      split
      · decide
      · cases v.type <;> decide
    exact htype.append (isLine_of_isWord Kind.noConfusion h)
  | lit kind text =>
    have hkind : kind.tokenKind ≠ .space := by cases kind <;> decide
    exact isLine_of_isWord hkind h
  | binary op left right ihleft ihright =>
    have hblank : IsLine " " := by decide
    have hop : IsLine op.symbol := by cases op <;> decide
    rw [emit_binary]
    exact (((isLine_wrap (ihleft h.1 scope)).append hblank).append hop |>.append hblank)
      |>.append (isLine_wrap (ihright h.2 _))
  | unary op operand ih =>
    have hopen : IsLine (opening op) := by cases op <;> decide
    have hclose : IsLine (closing op) := by cases op <;> decide
    exact (hopen.append (isLine_wrap (ih h scope))).append hclose

/-! ## Lines of statements -/

/-- The texts of statements, without the semicolons behind them. -/
def statementTexts (scope : Scope) : Program → List String
  | [] => []
  | s :: program => (emit scope s).text :: statementTexts (emit scope s).scope program

theorem text_emitStatements (scope : Scope) (program : Program) :
    (emitStatements scope program).text =
      String.join (((statementTexts scope program).map (· ++ ";")).map (· ++ "\n")) := by
  induction program generalizing scope with
  | nil => rfl
  | cons s program ih =>
    have hend : ";\n" = ";" ++ "\n" := by decide
    simp only [emitStatements, statementTexts, List.map_cons, String.join_cons, ih, hend,
      String.append_assoc]

theorem length_statementTexts (scope : Scope) (program : Program) :
    (statementTexts scope program).length = program.length := by
  induction program generalizing scope with
  | nil => rfl
  | cons s program ih => rw [statementTexts, List.length_cons, List.length_cons, ih]

/-- The text of a statement is written in the scope of the statements before it. -/
theorem getElem?_statementTexts (scope : Scope) (before : Program) (s : Term) (after : Program) :
    (statementTexts scope (before ++ s :: after))[before.length]? =
      some (emit (emitStatements scope before).scope s).text := by
  induction before generalizing scope with
  | nil => rfl
  | cons r before ih => exact ih (emit scope r).scope

theorem isLine_of_mem_statementTexts {program : Program} (h : ∀ s ∈ program, HasWords s)
    {scope : Scope} : ∀ text ∈ statementTexts scope program, IsLine text := by
  induction program generalizing scope with
  | nil => simp [statementTexts]
  | cons s program ih =>
    rw [statementTexts]
    exact List.forall_mem_cons.mpr
      ⟨isLine_emit (h s (by simp)) scope, ih fun s hs => h s (by simp [hs])⟩

/-! ## Lines of the epilogue -/

/-- The two lines that print a variable. -/
def reportLines (v : Variable) : List String :=
  ["System.out.print(" ++ caption v ++ ");", "System.out.println(" ++ v.name ++ ");"]

theorem report_eq_join (v : Variable) :
    report v = String.join ((reportLines v).map (· ++ "\n")) := by
  have hend : ");\n" = ");" ++ "\n" := by decide
  simp [report_eq, reportLines, hend, String.append_assoc]

theorem epilogue_eq_join (scope : Scope) :
    epilogue scope = String.join ((scope.toList.flatMap reportLines).map (· ++ "\n")) := by
  rw [epilogue]
  induction scope.toList with
  | nil => rfl
  | cons v vs ih =>
    rw [List.map_cons, String.join_cons, ih, report_eq_join, List.flatMap_cons, List.map_append,
      String.join_append]

theorem isLine_of_mem_reportLines {v : Variable} (h : IsWord .name v.name) :
    ∀ l ∈ reportLines v, IsLine l := by
  have hopen : IsLine "System.out.print(" := by decide
  have hopenln : IsLine "System.out.println(" := by decide
  have hclose : IsLine ");" := by decide
  have hcaption : IsLine (caption v) := isLine_of_isWord Kind.noConfusion (isWord_caption h)
  have hname : IsLine v.name := isLine_of_isWord Kind.noConfusion h
  simpa [reportLines] using
    ⟨(hopen.append hcaption).append hclose, (hopenln.append hname).append hclose⟩

/-! ## Lines of a body -/

/-- The lines of a body whose names and literals are words. -/
theorem textLines_body {program : Program} (h : ∀ s ∈ program, HasWords s) :
    textLines (body program) =
      "\x7b" :: (statementTexts .empty program).map (· ++ ";") ++
        (emitStatements .empty program).scope.toList.flatMap reportLines ++ ["\x7d"] := by
  have hsemicolon : IsLine ";" := by decide
  have hstatements : ∀ l ∈ (statementTexts .empty program).map (· ++ ";"), IsLine l := by
    intro l hl
    obtain ⟨text, htext, rfl⟩ := List.mem_map.mp hl
    exact (isLine_of_mem_statementTexts h text htext).append hsemicolon
  have hreports : ∀ l ∈ (emitStatements .empty program).scope.toList.flatMap reportLines,
      IsLine l := by
    intro l hl
    obtain ⟨v, hv, hl⟩ := List.mem_flatMap.mp hl
    exact isLine_of_mem_reportLines (isWord_of_mem_scope_emitStatements h (by simp) v hv) l hl
  have hopen : IsLine "\x7b" := by decide
  have hfirst : "\x7b\n" = "\x7b" ++ "\n" := by decide
  rw [body_eq, statementLines, epilogueLines, text_emitStatements, epilogue_eq_join, hfirst,
    String.append_assoc, String.append_assoc, textLines_append hopen,
    textLines_join_append hstatements, textLines_join_append hreports,
    textLines_of_isLine (by decide)]
  simp

/-- The text of a statement is the line of the tokens that lie between as many semicolons as there
are statements before it and the next one. -/
theorem exists_statementTexts_eq {tokens : List Token} {before after : Program} {s : Term}
    {declared : List Variable} (h : Derives tokens (before ++ s :: after) declared)
    (hwords : ∀ t ∈ tokens, IsWord t.kind t.text) :
    ∃ ts us semicolon declared' new, ts ++ us ++ [semicolon] <+: tokens ∧
      semicolons ts = before.length ∧ semicolons us = 0 ∧ semicolon.kind = .semicolon ∧
      Derives ts before declared' ∧ Statement declared' us s new ∧
      (statementTexts .empty (before ++ s :: after))[before.length]? =
        some (line declared' new s) := by
  -- the tokens up to the semicolon behind the statement are a program of their own
  obtain ⟨_, _, htokens, hderives⟩ :=
    h.exists_prefix ⟨after, (List.append_cons before s after).symm⟩
  have hlast := hderives.kind_getLast?
  obtain ⟨ts, us, semicolon, declared', new, rfl, hbefore, hs⟩ := hderives.exists_statement
  have hts : ∀ t ∈ ts, IsWord t.kind t.text :=
    fun t ht => hwords t (htokens.subset (by simp [ht]))
  have hus : ∀ t ∈ us, IsWord t.kind t.text :=
    fun t ht => hwords t (htokens.subset (by simp [ht]))
  obtain ⟨hprogram, hdeclared⟩ := isProgram_of_derives hbefore hts
  obtain ⟨hstatement, -⟩ := isStatement_of_statement hs hdeclared hus
  have hscope : (emitStatements .empty before).scope = .ofDeclarations declared' :=
    scope_emitStatements hprogram
  refine ⟨ts, us, semicolon, declared', new, htokens, semicolons_derives hbefore,
    semicolons_statement hs, hlast semicolon (by simp), hbefore, hs, ?_⟩
  rw [getElem?_statementTexts, hscope, text_emit_statement hstatement]

/-- A body has a line for each brace, for each statement, and two for each declared name. The line
of a statement has the whole text of it and a semicolon; the statement is the one that the source
has between as many semicolons and the next one. -/
theorem body_lines {policy : Policy} {source body : String}
    (h : compile policy source = .ok body) :
    ∃ tokens program declared, ∃ texts : List String,
      tokenize policy source = .ok tokens ∧ Derives tokens program declared ∧
      textLines body = "\x7b" :: texts.map (· ++ ";") ++
        (firstDeclarations declared).flatMap reportLines ++ ["\x7d"] ∧
      texts.length = semicolons tokens ∧
      (textLines body).length =
        2 + semicolons tokens + 2 * (declared.map Variable.name).toFinset.card ∧
      ∀ before s after, program = before ++ s :: after →
        ∃ ts us semicolon declared' new, ts ++ us ++ [semicolon] <+: tokens ∧
          semicolons ts = before.length ∧ semicolons us = 0 ∧ semicolon.kind = .semicolon ∧
          Derives ts before declared' ∧ Statement declared' us s new ∧
          texts[before.length]? = some (line declared' new s) := by
  obtain ⟨program, hread, rfl⟩ := compile_eq_ok_iff.mp h
  obtain ⟨tokens, htokens, hparse⟩ := readProgram_eq_ok_iff.mp hread
  obtain ⟨declared, hderives, -⟩ := derives_of_parse hparse
  have hwords := isWord_of_mem_tokenize htokens
  obtain ⟨hprogram, -⟩ := isProgram_of_derives hderives hwords
  have hinStep := inStep_of_derives hderives hwords
  have hlines := textLines_body (hasWords_of_isProgram hprogram)
  rw [hinStep.toList_eq] at hlines
  refine ⟨tokens, program, declared, statementTexts .empty program, htokens, hderives, hlines, ?_,
    ?_, ?_⟩
  · rw [length_statementTexts, semicolons_derives hderives]
  · have hpair (v : Variable) : (reportLines v).length = 2 := rfl
    rw [hlines, ← length_firstDeclarations, semicolons_derives hderives,
      ← length_statementTexts .empty program]
    simp [List.length_flatMap, hpair]
    omega
  · rintro before s after rfl
    exact exists_statementTexts_eq hderives hwords

/-- Semicolons and braces in strings and characters end no statement and no line, and neither does a
backslash before the letter `n`. A name that is declared twice has one pair of lines at the end. -/
theorem body_lines_semicolons :
    ∃ body tokens program declared,
      compile .first "int32 a = ';'; print(\"1;\x7d\\n\");\r\n char a;" = .ok body ∧
      Derives tokens program declared ∧ semicolons tokens = 3 ∧
      (declared.map Variable.name).toFinset.card = 1 ∧
      (textLines body).length = 2 + 3 + 2 * 1 ∧
      (textLines body)[2]? = some "System.out.print(\"1;\x7d\\n\");;" := by
  have hread : readProgram .first "int32 a = ';'; print(\"1;\x7d\\n\");\r\n char a;" =
      .ok [.binary .assign (.var ⟨.int32, "a"⟩) (.lit .character "';'"),
        .unary .print (.lit .string "\"1;\x7d\\n\""), .var ⟨.char, "a"⟩] := by
    cbv
  have h := compile_eq_ok_iff.mpr ⟨_, hread, rfl⟩
  obtain ⟨tokens, program, declared, texts, htokens, hderives, -, -, hlength, -⟩ := body_lines h
  -- the statements are those that are read, so there are three of them
  have hprogram := readProgram_eq_ok_iff.mpr ⟨tokens, htokens, parse_of_derives hderives⟩
  have hsemicolons : semicolons tokens = 3 := by
    rw [semicolons_derives hderives, ← Except.ok.inj (hread.symm.trans hprogram)]
    rfl
  have hnames : (declared.map Variable.name).toFinset.card = 1 := by
    have hseven : 2 + 3 + 2 * (declared.map Variable.name).toFinset.card = 7 := by
      rw [← hsemicolons, ← hlength]
      decide +kernel
    omega
  rw [hsemicolons, hnames] at hlength
  exact ⟨_, tokens, program, declared, h, hderives, hsemicolons, hnames, hlength, by decide +kernel⟩

end Java

end Straightline
