import Straightline.Proofs.Appending
import Straightline.Proofs.JavaLexicon
import Straightline.Proofs.Occurrences
import Straightline.Proofs.SourceText

/-!
# Words of a body

Names and literals of a source text are copied into the body as they are, so whether they are words
of Java depends on the text.

The body is made of pieces, of which the words are names and literals. They are those of the source
text in order, and behind them a caption and a name for each variable (`words_bodyPieces`,
`words_of_derives`). Captions and the spelling of names are never a problem.

Main statement: `body_words_legal_iff`. The words of a body are legal in Java exactly if those of
the source text are.
-/

namespace Straightline

open Grammar Lexicon

namespace Java

/-! ## Words among pieces -/

/-- Whether there are no quotes in a text. -/
def quoteFree (text : String) : Bool :=
  text.toList.all fun c => c ≠ '"' && c ≠ '\''

namespace Piece

/-- The name or literal that the piece is. -/
def word? : Piece → Option Lexeme
  | fixed _ => none
  | word lexeme => some lexeme

/-- The names and literals among some pieces. -/
def words (pieces : List Piece) : List Lexeme :=
  pieces.filterMap word?

/-- A piece that is no word has no quotes. -/
def isPlain : Piece → Bool
  | fixed text => quoteFree text
  | word _ => true

section Words

variable (pieces pieces' : List Piece)

@[simp]
theorem words_nil : words [] = [] := rfl

@[simp]
theorem words_cons_fixed (text : String) : words (fixed text :: pieces) = words pieces := rfl

@[simp]
theorem words_cons_word (lexeme : Lexeme) :
    words (word lexeme :: pieces) = lexeme :: words pieces := rfl

@[simp]
theorem words_append : words (pieces ++ pieces') = words pieces ++ words pieces' :=
  List.filterMap_append

@[simp]
theorem words_wrap (needed : Bool) : words (wrap needed pieces) = words pieces := by
  cases needed <;> simp [wrap]

theorem all_isPlain_wrap (needed : Bool) :
    (wrap needed pieces).all isPlain = pieces.all isPlain := by
  have hparens : quoteFree "(" ∧ quoteFree ")" := by decide
  cases needed <;> simp [wrap, isPlain, hparens]

end Words

end Piece

/-- The names and literals of a tree, from left to right. -/
def words : Term → List Lexeme
  | .var v => [⟨.name, v.name⟩]
  | .lit kind text => [⟨kind.tokenKind, text⟩]
  | .binary _ left right => words left ++ words right
  | .unary _ operand => words operand

/-- However a tree is laid out, its names and literals are the words. -/
theorem words_layout (typed : Address → Bool) (parens : Parens) (e : Term) :
    Piece.words (layout typed parens e) = words e := by
  induction e generalizing typed parens with
  | var v =>
    rw [layout, words]
    split <;> simp
  | lit kind text => rfl
  | binary op left right ihleft ihright => simp [layout, words, ihleft, ihright]
  | unary op operand ih => simp [layout, words, ih]

/-- Keywords and signs have no quotes. -/
theorem all_isPlain_layout (typed : Address → Bool) (parens : Parens) (e : Term) :
    (layout typed parens e).all Piece.isPlain := by
  induction e generalizing typed parens with
  | var v =>
    have htype : quoteFree (typeKeyword v.type ++ " ") := by cases v.type <;> decide
    rw [layout]
    split <;> simp [Piece.isPlain, htype]
  | lit kind text => rfl
  | binary op left right ihleft ihright =>
    have hsymbol : quoteFree (" " ++ op.symbol ++ " ") := by cases op <;> decide
    rw [layout, List.all_append, List.all_cons, Piece.all_isPlain_wrap, Piece.all_isPlain_wrap,
      ihleft, ihright]
    simpa [Piece.isPlain] using hsymbol
  | unary op operand ih =>
    have hopen : quoteFree (opening op) := by cases op <;> decide
    have hclose : quoteFree (closing op) := by cases op <;> decide
    rw [layout, List.all_append, List.all_cons, Piece.all_isPlain_wrap, ih]
    simp [Piece.isPlain, hopen, hclose]

theorem words_layoutFrom (typed : Address → Bool) (n : Nat) (program : Program) :
    Piece.words (layoutFrom typed n program) = program.flatMap words := by
  induction program generalizing n with
  | nil => rfl
  | cons s program ih => simp [layoutFrom, words_layout, ih]

theorem all_isPlain_layoutFrom (typed : Address → Bool) (n : Nat) (program : Program) :
    (layoutFrom typed n program).all Piece.isPlain := by
  induction program generalizing n with
  | nil => rfl
  | cons s program ih =>
    rw [layoutFrom, List.all_append, List.all_cons, all_isPlain_layout, ih]
    decide

/-! ## Pieces of a body -/

/-- The pieces of the two lines that print a variable. -/
def reportPieces (v : Variable) : List Piece :=
  [.fixed "System.out.print(", .word ⟨.string, caption v⟩, .fixed ");\n",
    .fixed "System.out.println(", .word ⟨.name, v.name⟩, .fixed ");\n"]

/-- The names and literals of the two lines that print a variable. -/
def reportWords (v : Variable) : List Lexeme :=
  [⟨.string, caption v⟩, ⟨.name, v.name⟩]

/-- The pieces of which the body for a program is made. -/
def bodyPieces (program : Program) : List Piece :=
  .fixed "\x7b\n" :: layoutFrom (isFirst program) 0 program ++
    (emitStatements .empty program).scope.toList.flatMap reportPieces ++ [.fixed "\x7d"]

/-- The body for a program is made of its pieces. -/
theorem join_bodyPieces (program : Program) : Piece.join (bodyPieces program) = body program := by
  have hreport (v : Variable) : Piece.join (reportPieces v) = report v := by
    simp [reportPieces, report_eq, Piece.text, String.append_assoc]
  have hepilogue (vs : List Variable) :
      Piece.join (vs.flatMap reportPieces) = String.join (vs.map report) := by
    induction vs with
    | nil => rfl
    | cons v vs ih => simp [hreport, ih]
  simp [bodyPieces, body, emitBody, epilogue, text_emitStatements_of_marks (marks_isFirst program),
    hepilogue, Piece.text, String.append_assoc]

/-- The names and literals of a body are those of the program, and a caption and a name for each
variable. -/
theorem words_bodyPieces (program : Program) :
    Piece.words (bodyPieces program) =
      program.flatMap words ++
        (emitStatements .empty program).scope.toList.flatMap reportWords := by
  have hepilogue (vs : List Variable) :
      Piece.words (vs.flatMap reportPieces) = vs.flatMap reportWords := by
    induction vs with
    | nil => rfl
    | cons v vs ih => simp [reportPieces, reportWords, ih]
  simp [bodyPieces, words_layoutFrom, hepilogue]

/-- All quotes of a body belong to its names and literals. -/
theorem all_isPlain_bodyPieces (program : Program) : (bodyPieces program).all Piece.isPlain := by
  have hreports (vs : List Variable) : (vs.flatMap reportPieces).all Piece.isPlain := by
    have hlines : quoteFree "System.out.print(" ∧ quoteFree ");\n" ∧
        quoteFree "System.out.println(" := by decide
    simp [reportPieces, Piece.isPlain, hlines]
  rw [bodyPieces, List.all_append, List.all_append, List.all_cons, all_isPlain_layoutFrom, hreports]
  decide

end Java

/-! ## Words of the source text -/

/-- Whether words of the kind are names or literals. -/
def Kind.isContent : Kind → Bool
  | name | integer | decimal | character | string => true
  | _ => false

/-- The names and literals among tokens. -/
def contents (tokens : List Token) : List Lexeme :=
  (tokens.filter (·.kind.isContent)).map Token.lexeme

section Contents

variable {t : Token} (ts : List Token)

theorem contents_cons (h : t.kind.isContent) :
    contents (t :: ts) = ⟨t.kind, t.text⟩ :: contents ts := by
  simp [contents, h, Token.lexeme]

theorem contents_cons_of_not (h : t.kind.isContent = false) : contents (t :: ts) = contents ts := by
  simp [contents, h]

theorem contents_append (us : List Token) : contents (ts ++ us) = contents ts ++ contents us := by
  simp [contents]

theorem lexeme_mem_contents {ts : List Token} (ht : t ∈ ts) (h : t.kind.isContent) :
    t.lexeme ∈ contents ts :=
  List.mem_map_of_mem (List.mem_filter.mpr ⟨ht, h⟩)

end Contents

theorem words_of_expression {declared : List Variable} {category : Category} {ts : List Token}
    {e : Term} (h : Expression declared category ts e) : Java.words e = contents ts := by
  induction h with
  | name hkind hfirst =>
    obtain ⟨hname, -⟩ := name_eq_and_mem_of_firstDeclared hfirst
    rw [contents_cons _ (by rw [hkind]; rfl), hkind, ← hname]
    rfl
  | @literal t kind hkind =>
    obtain ⟨htoken, -⟩ := tokenKind_of_operandOfKind? hkind
    rw [contents_cons _ (by rw [← htoken]; cases kind <;> rfl), ← htoken]
    rfl
  | parens hl hr _ ih =>
    rw [List.cons_append, contents_cons_of_not _ (by rw [hl]; rfl), contents_append,
      contents_cons_of_not _ (by rw [hr]; rfl), ih]
    exact (List.append_nil _).symm
  | unsigned _ ih => exact ih
  | @signed t op ts e hsign _ ih =>
    have ht : t.kind.isContent = false := by
      unfold UnaryOp.signOfKind? at hsign
      split at hsign <;> simp_all [Kind.isContent]
    rw [contents_cons_of_not _ ht, ← ih]
    rfl
  | @chain t op ts us left right _ hop _ ihleft ihright =>
    have ht : t.kind.isContent = false := by
      unfold BinaryOp.ofKind? at hop
      split at hop <;> simp_all [Kind.isContent]
    rw [contents_append, contents_cons_of_not _ ht, ← ihleft, ← ihright]
    rfl

theorem words_of_statement {declared new : List Variable} {ts : List Token} {s : Term}
    (h : Statement declared ts s new) : Java.words s = contents ts := by
  have htype {t : Token} {type : PrimType} (ht : PrimType.ofKind? t.kind = some type) :
      t.kind.isContent = false := by
    unfold PrimType.ofKind? at ht
    split at ht <;> simp_all [Kind.isContent]
  cases h with
  | declaration ht hname =>
    rw [contents_cons_of_not _ (htype ht), contents_cons _ (by rw [hname]; rfl), hname]
    rfl
  | initialized ht hname heq h =>
    rw [contents_cons_of_not _ (htype ht), contents_cons _ (by rw [hname]; rfl), hname,
      contents_cons_of_not _ (by rw [heq]; rfl), ← words_of_expression h]
    rfl
  | assignment hname hfirst heq h =>
    obtain ⟨hv, -⟩ := name_eq_and_mem_of_firstDeclared hfirst
    rw [contents_cons _ (by rw [hname]; rfl), hname, contents_cons_of_not _ (by rw [heq]; rfl),
      ← words_of_expression h, ← hv]
    rfl
  | printString hp hl hs hr =>
    rw [contents_cons_of_not _ (by rw [hp]; rfl), contents_cons_of_not _ (by rw [hl]; rfl),
      contents_cons _ (by rw [hs]; rfl), contents_cons_of_not _ (by rw [hr]; rfl), hs]
    rfl
  | printFormula hp hl hr h =>
    rw [List.cons_append, List.cons_append, contents_cons_of_not _ (by rw [hp]; rfl),
      contents_cons_of_not _ (by rw [hl]; rfl), contents_append,
      contents_cons_of_not _ (by rw [hr]; rfl), ← words_of_expression h]
    exact (List.append_nil _).symm

/-- The names and literals of a program are those of its tokens, in order. -/
theorem words_of_derives {ts : List Token} {program : Program} {declared : List Variable}
    (h : Derives ts program declared) : program.flatMap Java.words = contents ts := by
  induction h with
  | nil => rfl
  | snoc _ hs hsemicolon ih =>
    rw [List.flatMap_append, ih, contents_append, contents_append, ← words_of_statement hs,
      contents_cons_of_not _ (by rw [hsemicolon]; rfl)]
    simp [contents]

/-! ## Words that are legal in Java -/

/-- Whether the word can stand in a body: strings and characters have to be literals of Java, and
names have to be such that a variable can have them. -/
def Lexeme.isJava (l : Lexeme) : Bool :=
  match l.kind with
  | .string => Java.isStringLiteral l.text
  | .character => Java.isCharacterLiteral l.text
  | .name => Java.isVariableName l.text
  | _ => true

/-- What a word of the source must be, beyond what the rule for its kind says, to be legal in
Java. -/
def Lexeme.SuitsJava (l : Lexeme) : Prop :=
  match l.kind with
  | .string => Java.isStringLiteral l.text
  | .character => ∃ c, l.text = String.ofList ['\'', c, '\''] ∧ c ≠ '\'' ∧ c ≠ '\\' ∧ c ≠ '\r' ∧
      c.toNat < 0x10000
  | .name => l.text ∉ Java.reservedWords ∧ l.text ≠ "args"
  | _ => True

theorem Lexeme.isJava_of_not_isContent {l : Lexeme} (h : l.kind.isContent = false) : l.isJava := by
  obtain ⟨kind, text⟩ := l
  cases kind with
  | name | integer | decimal | character | string => cases h
  | _ => rfl

theorem Lexeme.isJava_iff {l : Lexeme} (h : IsWord l.kind l.text) : l.isJava ↔ l.SuitsJava := by
  obtain ⟨kind, text⟩ := l
  cases kind with
  | string => rfl
  | character =>
    obtain ⟨c, hc, htext⟩ := describes_character_iff.mp ((isWord_iff rfl).mp h)
    obtain rfl : text = String.ofList ['\'', c, '\''] := String.toList_inj.mp (by simpa using htext)
    refine (Java.isCharacterLiteral_iff hc).trans ?_
    constructor
    · intro hlegal
      exact ⟨c, rfl, hlegal⟩
    · rintro ⟨d, hd, hlegal⟩
      obtain rfl : c = d := by simpa using hd
      exact hlegal
  | name =>
    have hidentifier := Java.isIdentifier_of_isWord h
    simp [isJava, SuitsJava, Java.isVariableName, Java.parameterName, hidentifier]
  | _ => exact iff_of_true rfl trivial

namespace Java

/-- The variables of a body have the names of tokens. -/
theorem exists_name_of_mem_scope {tokens : List Token} {program : Program}
    {declared : List Variable} (h : Derives tokens program declared)
    (hwords : ∀ t ∈ tokens, IsWord t.kind t.text) {v : Variable}
    (hv : v ∈ (emitStatements .empty program).scope.toList) :
    ∃ t ∈ tokens, t.kind = .name ∧ t.text = v.name := by
  have hscope : (emitStatements .empty program).scope = .ofDeclarations declared :=
    scope_emitStatements (isProgram_of_derives h hwords).1
  rw [hscope] at hv
  have hname := Scope.contains_iff.mpr (List.mem_map_of_mem hv)
  obtain ⟨u, hu, huv⟩ := List.mem_map.mp (Scope.contains_ofDeclarations_iff.mp hname)
  rw [← huv]
  exact exists_name_of_derives h u hu

/-- Names and literals are legal if all tokens suit Java, for other tokens always do. -/
theorem forall_isJava_contents_iff {tokens : List Token}
    (hwords : ∀ t ∈ tokens, IsWord t.kind t.text) :
    (∀ l ∈ contents tokens, l.isJava) ↔ ∀ t ∈ tokens, t.lexeme.SuitsJava := by
  constructor
  · intro hlegal t ht
    rw [← Lexeme.isJava_iff (hwords t ht)]
    cases hcontent : t.kind.isContent with
    | true => exact hlegal _ (lexeme_mem_contents ht hcontent)
    | false => exact Lexeme.isJava_of_not_isContent hcontent
  · intro hsuits l hl
    obtain ⟨t, ht, rfl⟩ := List.mem_map.mp hl
    have ht := List.mem_of_mem_filter ht
    exact (Lexeme.isJava_iff (hwords t ht)).mpr (hsuits t ht)

/-- The words of an epilogue are legal if the names among the tokens are. -/
theorem isJava_of_mem_epilogue {tokens : List Token} {program : Program} {declared : List Variable}
    (h : Derives tokens program declared) (hwords : ∀ t ∈ tokens, IsWord t.kind t.text)
    (hlegal : ∀ l ∈ contents tokens, l.isJava) :
    ∀ l ∈ (emitStatements .empty program).scope.toList.flatMap reportWords, l.isJava := by
  intro l hl
  obtain ⟨v, hv, hl⟩ := List.mem_flatMap.mp hl
  obtain ⟨t, ht, hkind, htext⟩ := exists_name_of_mem_scope h hwords hv
  simp only [reportWords, List.mem_cons, List.not_mem_nil, or_false] at hl
  rcases hl with rfl | rfl
  · exact isStringLiteral_caption (htext ▸ hkind ▸ hwords t ht)
  · rw [← hkind, ← htext]
    exact hlegal _ (lexeme_mem_contents ht (by rw [hkind]; rfl))

/-- The names and literals of a body are those of the source text, in order, and for each variable a
caption and its name. All quotes of the body belong to them.

So they are legal in Java exactly if those of the source text are. Captions and the spelling of
names are never a problem. But a name may be reserved, a character may be a quote, a backslash, a
carriage return or one of two code units, and a string may have other escapes than those of Java, or
end in a backslash. -/
theorem body_words_legal_iff {policy : Policy} {source body : String}
    (h : compile policy source = .ok body) :
    ∃ tokens program, tokenize policy source = .ok tokens ∧ parse tokens = .ok program ∧
      body = Piece.join (bodyPieces program) ∧ (bodyPieces program).all Piece.isPlain ∧
      Piece.words (bodyPieces program) =
        contents tokens ++ (emitStatements .empty program).scope.toList.flatMap reportWords ∧
      (∀ v ∈ (emitStatements .empty program).scope.toList,
        isStringLiteral (caption v) ∧ isIdentifier v.name) ∧
      ((∀ l ∈ Piece.words (bodyPieces program), l.isJava) ↔
        ∀ t ∈ tokens, t.lexeme.SuitsJava) ∧
      ∀ t ∈ tokens, t.kind = .string → ∃ inner, t.text = String.ofList ('"' :: inner ++ ['"']) ∧
        (escapesComplete inner → isStringLiteral t.text) ∧
        (hasUnicodeEscape inner = false → isStringLiteral t.text → escapesComplete inner) := by
  obtain ⟨program, hread, rfl⟩ := compile_eq_ok_iff.mp h
  obtain ⟨tokens, htokens, hparse⟩ := readProgram_eq_ok_iff.mp hread
  obtain ⟨declared, hderives, -⟩ := derives_of_parse hparse
  have hword := isWord_of_mem_tokenize htokens
  have hwords := words_bodyPieces program
  rw [words_of_derives hderives] at hwords
  refine ⟨tokens, program, htokens, hparse, (join_bodyPieces program).symm,
    all_isPlain_bodyPieces program, hwords, ?_, ?_, ?_⟩
  · intro v hv
    obtain ⟨t, ht, hkind, htext⟩ := exists_name_of_mem_scope hderives hword hv
    have hname : IsWord .name v.name := htext ▸ hkind ▸ hword t ht
    exact ⟨isStringLiteral_caption hname, isIdentifier_of_isWord hname⟩
  · rw [hwords, List.forall_mem_append, ← forall_isJava_contents_iff hword]
    exact and_iff_left_of_imp (isJava_of_mem_epilogue hderives hword)
  · intro t ht hkind
    exact exists_inner_of_isWord (hkind ▸ hword t ht)

/-- A double quote is a character of Java, and a backslash can be escaped by another one. -/
theorem body_words_legal_iff_escaped :
    ∃ tokens program,
      tokenize .longest "char c = '\"'; print(\"a\\\\b\");" = .ok tokens ∧
      parse tokens = .ok program ∧ ∀ l ∈ Piece.words (bodyPieces program), l.isJava := by
  have hlexemes : (tokenize .longest "char c = '\"'; print(\"a\\\\b\");").map
      (·.map Token.lexeme) = .ok
        [⟨.char, "char"⟩, ⟨.name, "c"⟩, ⟨.assign, "="⟩, ⟨.character, "'\"'"⟩, ⟨.semicolon, ";"⟩,
          ⟨.print, "print"⟩, ⟨.lparen, "("⟩, ⟨.string, "\"a\\\\b\""⟩, ⟨.rparen, ")"⟩,
          ⟨.semicolon, ";"⟩] := by decide +kernel
  have hbody : compile .longest "char c = '\"'; print(\"a\\\\b\");" = .ok
      ("\x7b\nchar c = '\"';\nSystem.out.print(\"a\\\\b\");;\n" ++
        "System.out.print(\"The variable c has type char and value \");\n" ++
        "System.out.println(c);\n\x7d") := by decide +kernel
  obtain ⟨tokens, program, htokens, hprogram, -, -, -, -, hlegal, -⟩ := body_words_legal_iff hbody
  refine ⟨tokens, program, htokens, hprogram, hlegal.mpr ?_⟩
  rw [htokens] at hlexemes
  have hlexemes : tokens.map Token.lexeme = _ := Except.ok.inj hlexemes
  rw [← List.forall_mem_map (P := Lexeme.SuitsJava), hlexemes]
  have hname : Lexeme.SuitsJava ⟨.name, "c"⟩ := ⟨by decide, by decide⟩
  have hcharacter : Lexeme.SuitsJava ⟨.character, "'\"'"⟩ :=
    ⟨'"', rfl, by decide, by decide, by decide, by decide⟩
  have hstring : Lexeme.SuitsJava ⟨.string, "\"a\\\\b\""⟩ := by
    show isStringLiteral "\"a\\\\b\""
    decide +kernel
  simp only [List.forall_mem_cons]
  exact ⟨trivial, hname, trivial, hcharacter, trivial, trivial, trivial, hstring, trivial, trivial,
    List.forall_mem_nil _⟩

/-- The backslash of this string is escaped by nothing and escapes the closing quote in Java. -/
theorem body_words_illegal_backslash :
    compile .longest "print(\"\\\");" = .ok "\x7b\nSystem.out.print(\"\\\");;\n\x7d" ∧
      ∃ program, readProgram .longest "print(\"\\\");" = .ok program ∧
        ⟨.string, "\"\\\""⟩ ∈ Piece.words (bodyPieces program) ∧
        isStringLiteral "\"\\\"" = false := by
  refine ⟨by decide +kernel, [.unary .print (.lit .string "\"\\\"")], by decide +kernel, ?_, ?_⟩
  · decide +kernel
  · decide +kernel

end Java

end Straightline
