import Straightline.Proofs.Emission

/-!
# The suffix of decimal literals

A class file holds a body in which decimal literals have got a suffix. The suffix is put there by a
scan of the text, which knows nothing of trees. Main statement: `turns_body`, by which the scan of a
body has the effect of putting the suffix behind the decimal literals of the program and writing
that. So the scan finds all of them, and takes nothing else for one.

The scan is local, up to one character: `Turns` says of a piece of text what it becomes whatever
follows, and `TurnsWord` what it becomes where neither a digit nor a point follows. Both go through
the pieces from which a body is put together.
-/

namespace Straightline

open Pattern Lexicon

namespace Java

/-! ## Steps of the scan -/

section Steps

variable {c : Char} {word rest : List Char}

/-- Whether neither literals nor digits start with the characters of a class. -/
def isPlain (s : CharClass) : Bool :=
  decimalLiteral.avoids s && verbatim.avoids s

theorem suffixDecimals_nil : suffixDecimals [] = [] := by
  rw [suffixDecimals]

/-- Other characters are copied. -/
theorem suffixDecimals_plain {s : CharClass} (h : isPlain s) (hc : s.contains c) :
    suffixDecimals (c :: rest) = c :: suffixDecimals rest := by
  rw [isPlain, Bool.and_eq_true] at h
  rw [suffixDecimals, matchLength?, matchLength?, lengths_eq_nil_of_avoids h.1 hc,
    lengths_eq_nil_of_avoids h.2 hc]
  rfl

theorem suffixDecimals_append_plain (h : ∀ c ∈ word, isPlain (.exactly c)) :
    suffixDecimals (word ++ rest) = word ++ suffixDecimals rest := by
  induction word with
  | nil => rfl
  | cons c cs ih =>
    rw [List.cons_append, suffixDecimals_plain (h c (by simp)) (by simp [CharClass.contains]),
      ih fun d hd => h d (by simp [hd]), List.cons_append]

/-- A decimal literal gets the suffix. -/
theorem suffixDecimals_decimal (hword : word ≠ [])
    (h : decimalLiteral.matchLength? (word ++ rest) = some word.length) :
    suffixDecimals (word ++ rest) = word ++ 'f' :: suffixDecimals rest := by
  obtain ⟨c, cs, rfl⟩ := List.exists_cons_of_ne_nil hword
  rw [List.cons_append] at h ⊢
  rw [suffixDecimals, h]
  simp

/-- What stays as it is stays so as a whole. -/
theorem suffixDecimals_verbatim (hword : word ≠ [])
    (hdecimal : decimalLiteral.lengths (word ++ rest) = [])
    (h : verbatim.matchLength? (word ++ rest) = some word.length) :
    suffixDecimals (word ++ rest) = word ++ suffixDecimals rest := by
  obtain ⟨c, cs, rfl⟩ := List.exists_cons_of_ne_nil hword
  rw [List.cons_append] at hdecimal h ⊢
  rw [suffixDecimals, h, matchLength?, hdecimal]
  simp

/-- Digits are copied where neither a digit nor a point follows. -/
theorem suffixDecimals_digits (hword : ∀ c ∈ word, digits.contains c)
    (hrest : ∀ c ∈ rest.head?, decimalLiteral.uses c = false) :
    suffixDecimals (word ++ rest) = word ++ suffixDecimals rest := by
  cases word with
  | nil => rfl
  | cons d ds =>
    have hd : digits.contains d := hword d (by simp)
    refine suffixDecimals_verbatim (by simp) (lengths_decimalLiteral_eq_nil hword hrest) ?_
    have hdigits : (many1 digits).matchLength? (d :: ds ++ rest) = some (d :: ds).length := by
      refine matchLength?_append (by decide) ⟨by simp, hword⟩ fun c hc => ?_
      exact uses_digits_eq_false (hrest c hc)
    -- neither strings nor characters start with a digit
    rw [matchLength?, List.cons_append] at hdigits ⊢
    rw [verbatim, lengths, lengths, lengths_eq_nil_of_avoids (s := digits) (by decide) hd,
      lengths_eq_nil_of_avoids (s := digits) (by decide) hd]
    exact hdigits

/-- Characters are copied whatever they are. -/
theorem suffixDecimals_character (hword : character.Describes word rest) :
    suffixDecimals (word ++ rest) = word ++ suffixDecimals rest := by
  obtain ⟨c, hc, rfl⟩ := describes_character_iff.mp hword
  have hquote : (CharClass.exactly '\'').contains '\'' := by decide
  refine suffixDecimals_verbatim (by simp) ?_ ?_
  · exact lengths_eq_nil_of_avoids (by decide) hquote _
  · have hcharacter := matchLength?_eq_some_of_forall (length_mem_lengths hword)
      fun n hn => eq_three_of_mem_lengths_character hn
    rw [matchLength?] at hcharacter
    rw [matchLength?, verbatim, lengths, lengths, List.cons_append,
      lengths_eq_nil_of_avoids (p := string) (by decide) hquote, List.nil_append]
    rw [List.head?_append, ← List.cons_append, hcharacter]
    rfl

/-- Strings are copied whatever they hold. -/
theorem suffixDecimals_string (hword : string.Describes word rest) :
    suffixDecimals (word ++ rest) = word ++ suffixDecimals rest := by
  obtain ⟨body, hbody, rfl⟩ := describes_string_iff.mp hword
  have hquote : (CharClass.exactly '"').contains '"' := by decide
  refine suffixDecimals_verbatim (by simp) ?_ ?_
  · exact lengths_eq_nil_of_avoids (by decide) hquote _
  · have hstring := matchLength?_eq_some_of_forall (length_mem_lengths hword)
      fun n hn => eq_length_of_mem_lengths_string hword hn
    rw [matchLength?] at hstring
    rw [matchLength?, verbatim, lengths, List.head?_append, hstring]
    rfl

/-- The characters that continue names are copied where neither a digit nor a point follows. -/
theorem suffixDecimals_nameRest (hword : ∀ c ∈ word, nameRest.contains c)
    (hrest : ∀ c ∈ rest.head?, decimalLiteral.uses c = false) :
    suffixDecimals (word ++ rest) = word ++ suffixDecimals rest := by
  -- digits are copied together, and other characters one by one
  induction hlength : word.length using Nat.strongRecOn generalizing word with
  | ind n ih =>
    obtain ⟨ds, cs, rfl, hds, hcs⟩ := digits.exists_append word
    cases cs with
    | nil => simpa using suffixDecimals_digits hds hrest
    | cons c cs =>
      have hdigit : digits.contains c = false := hcs c rfl
      have hstart : nameStart.contains c := by
        have hc := hword c (by simp)
        simp [nameStart, nameRest, digits, CharClass.contains, ClassItem.contains] at hc hdigit ⊢
        grind
      have hnext : ∀ d ∈ (c :: cs ++ rest).head?, decimalLiteral.uses d = false := by
        rintro d ⟨⟩
        exact uses_eq_false_of_apart (s := nameStart) (by decide) hstart
      have hlt : cs.length < n := by
        simp at hlength
        omega
      rw [List.append_assoc, suffixDecimals_digits hds hnext, List.cons_append,
        suffixDecimals_plain (s := nameStart) (by decide) hstart,
        ih _ hlt (fun d hd => hword d (by simp [hd])) rfl]
      simp

end Steps

/-! ## Pieces of text -/

/-- The scan makes `t` of `s`, whatever follows. -/
def Turns (s t : String) : Prop :=
  ∀ rest, suffixDecimals (s.toList ++ rest) = t.toList ++ suffixDecimals rest

/-- The scan makes `t` of `s`, where neither a digit nor a point follows. -/
def TurnsWord (s t : String) : Prop :=
  ∀ rest, (∀ c ∈ rest.head?, decimalLiteral.uses c = false) →
    suffixDecimals (s.toList ++ rest) = t.toList ++ suffixDecimals rest

section Pieces

variable {s s' t t' : String}

namespace Turns

theorem nil : Turns "" "" := fun _ => rfl

/-- Text without digits and quotes stays as it is. -/
theorem plain (h : s.toList.all fun c => isPlain (.exactly c)) : Turns s s :=
  fun _ => suffixDecimals_append_plain (List.all_eq_true.mp h)

theorem append (h : Turns s s') (h' : Turns t t') : Turns (s ++ t) (s' ++ t') := by
  intro rest
  rw [String.toList_append, String.toList_append, List.append_assoc, List.append_assoc, h, h']

theorem append_word (h : Turns s s') (h' : TurnsWord t t') : TurnsWord (s ++ t) (s' ++ t') := by
  intro rest hrest
  rw [String.toList_append, String.toList_append, List.append_assoc, List.append_assoc, h,
    h' rest hrest]

theorem word (h : Turns s t) : TurnsWord s t := fun rest _ => h rest

end Turns

/-- A word ends where a text follows that starts with neither a digit nor a point. -/
theorem TurnsWord.append (h : TurnsWord s s') (h' : Turns t t')
    (ht : t.toList.head?.any fun c => !decimalLiteral.uses c) : Turns (s ++ t) (s' ++ t') := by
  intro rest
  have hnext : ∀ c ∈ (t.toList ++ rest).head?, decimalLiteral.uses c = false := by
    cases hlist : t.toList with
    | nil => simp [hlist] at ht
    | cons c cs => simpa [hlist] using ht
  rw [String.toList_append, String.toList_append, List.append_assoc, List.append_assoc,
    h _ hnext, h']

/-- Parentheses stay where they are. -/
theorem TurnsWord.wrap {needed : Bool} (h : TurnsWord s t) :
    TurnsWord (wrap needed s) (wrap needed t) := by
  cases needed with
  | false => exact h
  | true =>
    have hopen : Turns "(" "(" := .plain (by decide)
    exact ((hopen.append_word h).append (.plain (by decide)) (by decide)).word

end Pieces

/-! ### Words -/

theorem turnsWord_name {text : String} (h : IsWord .name text) : TurnsWord text text := by
  obtain ⟨c, cs, hc, hcs, hword⟩ := describes_name_iff.mp ((isWord_iff rfl).mp h)
  intro rest hrest
  rw [hword, List.cons_append, suffixDecimals_plain (s := nameStart) (by decide) hc,
    suffixDecimals_nameRest hcs hrest, List.cons_append]

theorem turns_character {text : String} (h : IsWord .character text) : Turns text text := by
  obtain ⟨c, hc, hword⟩ := describes_character_iff.mp ((isWord_iff rfl).mp h)
  exact fun rest => suffixDecimals_character (describes_character_iff.mpr ⟨c, hc, hword⟩)

theorem turns_string {text : String} (h : IsWord .string text) : Turns text text := by
  obtain ⟨body, hbody, hword⟩ := describes_string_iff.mp ((isWord_iff rfl).mp h)
  exact fun rest => suffixDecimals_string (describes_string_iff.mpr ⟨body, hbody, hword⟩)

theorem isPlain_of_isSign {sign : List Char} (h : IsSign sign) :
    ∀ c ∈ sign, isPlain (.exactly c) := by
  rcases isSign_iff.mp h with rfl | rfl | rfl
  · simp
  · exact List.forall_mem_singleton.mpr (by decide)
  · exact List.forall_mem_singleton.mpr (by decide)

theorem turnsWord_integer {text : String} (h : IsWord .integer text) : TurnsWord text text := by
  obtain ⟨sign, ds, hsign, hds, hword⟩ := describes_integer_iff.mp ((isWord_iff rfl).mp h)
  intro rest hrest
  rw [hword, List.append_assoc, suffixDecimals_append_plain (isPlain_of_isSign hsign),
    suffixDecimals_digits (digits_of_isWhole hds).2 hrest, List.append_assoc]

/-- A decimal literal gets the suffix behind its last digit. -/
theorem turnsWord_decimal {text : String} (h : IsWord .decimal text) :
    TurnsWord text (text ++ "f") := by
  obtain ⟨sign, ds, fs, hsign, hds, hne, hfs, hword⟩ :=
    describes_decimal_iff.mp ((isWord_iff rfl).mp h)
  intro rest hrest
  have hliteral : decimalLiteral.matchLength? (ds ++ '.' :: fs ++ rest) =
      some (ds ++ '.' :: fs).length := by
    refine matchLength?_append (by decide) ?_ hrest
    exact describes_decimalLiteral_iff.mpr ⟨ds, fs, digits_of_isWhole hds, ⟨hne, hfs⟩, rfl⟩
  -- the sign is copied, so the literal starts behind it
  rw [String.toList_append, hword, List.append_assoc sign, List.append_assoc sign,
    suffixDecimals_append_plain (isPlain_of_isSign hsign),
    suffixDecimals_decimal (by simp) hliteral]
  simp

/-! ## Trees -/

/-- The tree with the suffix behind its decimal literals. -/
def suffixed : Term → Term
  | .var v => .var v
  | .lit .decimal text => .lit .decimal (text ++ "f")
  | .lit kind text => .lit kind text
  | .binary op left right => .binary op (suffixed left) (suffixed right)
  | .unary op operand => .unary op (suffixed operand)

/-- All names and literals of a tree are words. -/
def HasWords : Term → Prop
  | .var v => IsWord .name v.name
  | .lit kind text => IsWord kind.tokenKind text
  | .binary _ left right => HasWords left ∧ HasWords right
  | .unary _ operand => HasWords operand

theorem hasWords_of_isFormula {declared : List Variable} {e : Term} (h : IsFormula declared e) :
    HasWords e := by
  induction h with
  | var _ hname => exact hname
  | lit _ htext => exact htext
  | binary _ _ _ ihleft ihright => exact ⟨ihleft, ihright⟩
  | unary _ _ ih => exact ih

theorem hasWords_of_isStatement {declared new : List Variable} {s : Term}
    (h : IsStatement declared s new) : HasWords s := by
  cases h with
  | declaration hname => exact hname
  | initialized hname h | assignment _ hname h => exact ⟨hname, hasWords_of_isFormula h⟩
  | printString htext => exact htext
  | @printFormula e h => exact (hasWords_of_isFormula h : HasWords e)

theorem hasWords_of_isProgram {declared declared' : List Variable} {program : Program}
    (h : IsProgram declared program declared') : ∀ s ∈ program, HasWords s := by
  induction h with
  | nil => exact fun _ hs => absurd hs List.not_mem_nil
  | cons hs _ ih =>
    intro s hmem
    rcases List.mem_cons.mp hmem with rfl | hmem
    · exact hasWords_of_isStatement hs
    · exact ih s hmem

/-- The suffix does not change which operands need parentheses. -/
theorem needsParens_suffixed (op : BinaryOp) (side : Side) (operand : Term) :
    needsParens op side (suffixed operand) = needsParens op side operand := by
  cases operand with
  | lit kind text => cases kind <;> rfl
  | var | binary | unary => rfl

theorem isUnsignedAtom_suffixed (operand : Term) :
    isUnsignedAtom (suffixed operand) = isUnsignedAtom operand := by
  cases operand with
  | lit kind text =>
    cases kind with
    | decimal =>
      have hsigned : isSigned (text ++ "f") = isSigned text := by
        rw [isSigned, isSigned, String.toList_append]
        cases text.toList <;> rfl
      simp [suffixed, isUnsignedAtom, hsigned]
    | integer | character | string => rfl
  | var | binary | unary => rfl

/-- The suffix does not change the scope. -/
theorem scope_emit_suffixed (scope : Scope) (e : Term) :
    (emit scope (suffixed e)).scope = (emit scope e).scope := by
  induction e generalizing scope with
  | var v => rfl
  | lit kind text => cases kind <;> rfl
  | binary op left right ihleft ihright =>
    simp only [suffixed, emit_binary, ihleft, ihright]
  | unary op operand ih => simp only [suffixed, emit_unary, ih]

/-- The scan of the text of a tree makes the text of the tree with the suffix. -/
theorem turnsWord_emit {e : Term} (h : HasWords e) (scope : Scope) :
    TurnsWord (emit scope e).text (emit scope (suffixed e)).text := by
  induction e generalizing scope with
  | var v =>
    have htype : Turns (if scope.contains v.name then "" else typeKeyword v.type ++ " ")
        (if scope.contains v.name then "" else typeKeyword v.type ++ " ") := by
      split
      · exact .nil
      · exact .plain (by cases v.type <;> decide)
    exact htype.append_word (turnsWord_name h)
  | lit kind text =>
    cases kind with
    | integer => exact turnsWord_integer h
    | decimal => exact turnsWord_decimal h
    | character => exact (turns_character h).word
    | string => exact (turns_string h).word
  | binary op left right ihleft ihright =>
    -- the blank ends the left operand, and the right one ends where the whole text does
    have hblank : Turns " " " " := .plain (by decide)
    have hop : Turns op.symbol op.symbol := .plain (by cases op <;> decide)
    simp only [suffixed, emit_binary, needsParens_suffixed, scope_emit_suffixed]
    exact (((ihleft h.1 scope).wrap.append hblank (by decide)).append hop |>.append hblank)
      |>.append_word (ihright h.2 _).wrap
  | unary op operand ih =>
    have hopen : Turns (opening op) (opening op) := .plain (by cases op <;> decide)
    have hword (needed : Bool) :
        TurnsWord (opening op ++ wrap needed (emit scope operand).text)
          (opening op ++ wrap needed (emit scope (suffixed operand)).text) :=
      hopen.append_word (ih h scope).wrap
    simp only [suffixed, emit_unary, operandNeedsParens, isUnsignedAtom_suffixed]
    cases op with
    | print => exact ((hword _).append (.plain (by decide)) (by decide)).word
    | plus | minus => simpa only [closing, String.append_empty] using hword _

/-! ## Bodies -/

theorem emitStatements_suffixed {program : Program} (h : ∀ s ∈ program, HasWords s)
    (scope : Scope) :
    Turns (emitStatements scope program).text
        (emitStatements scope (program.map suffixed)).text ∧
      (emitStatements scope (program.map suffixed)).scope =
        (emitStatements scope program).scope := by
  induction program generalizing scope with
  | nil => exact ⟨.nil, rfl⟩
  | cons s program ih =>
    have hs : HasWords s := h s (by simp)
    have hline : Turns ";\n" ";\n" := .plain (by decide)
    obtain ⟨htext, hscope⟩ := ih (fun s hs => h s (by simp [hs])) (emit scope s).scope
    simp only [List.map_cons, emitStatements, scope_emit_suffixed]
    exact ⟨((turnsWord_emit hs scope).append hline (by decide)).append htext, hscope⟩

/-- The names in the scope behind a tree are words. -/
theorem isWord_of_mem_scope_emit {e : Term} (h : HasWords e) {scope : Scope}
    (hscope : ∀ v ∈ scope.toList, IsWord .name v.name) :
    ∀ v ∈ (emit scope e).scope.toList, IsWord .name v.name := by
  induction e generalizing scope with
  | var w =>
    intro v hv
    rw [emit_var] at hv
    by_cases hw : scope.contains w.name
    · rw [Scope.declare_of_contains hw] at hv
      exact hscope v hv
    · rw [Scope.toList_declare_of_not_contains hw, List.mem_append, List.mem_singleton] at hv
      rcases hv with hv | rfl
      · exact hscope v hv
      · exact h
  | lit => exact hscope
  | binary op left right ihleft ihright => exact ihright h.2 (ihleft h.1 hscope)
  | unary op operand ih => exact ih h hscope

theorem isWord_of_mem_scope_emitStatements {program : Program} (h : ∀ s ∈ program, HasWords s)
    {scope : Scope} (hscope : ∀ v ∈ scope.toList, IsWord .name v.name) :
    ∀ v ∈ (emitStatements scope program).scope.toList, IsWord .name v.name := by
  induction program generalizing scope with
  | nil => exact hscope
  | cons s program ih =>
    exact ih (fun s hs => h s (by simp [hs])) (isWord_of_mem_scope_emit (h s (by simp)) hscope)

/-- The string of a report, with its quotes. -/
def caption (v : Variable) : String :=
  "\"The variable " ++ v.name ++ " has type " ++ v.type.keyword ++ " and value \""

theorem caption_eq (v : Variable) :
    caption v =
      "\"The variable " ++ v.name ++ " has type " ++ v.type.keyword ++ " and value \"" := rfl

theorem report_eq (v : Variable) :
    report v = "System.out.print(" ++ caption v ++ ");\n" ++
      ("System.out.println(" ++ v.name ++ ");\n") := by
  have hreport : report v =
      "System.out.print(\"The variable " ++ v.name ++ " has type " ++ v.type.keyword ++
        " and value \");\n" ++ ("System.out.println(" ++ v.name ++ ");\n") := rfl
  have hopen : "System.out.print(\"The variable " = "System.out.print(" ++ "\"The variable " := by
    decide
  have hclose : " and value \");\n" = " and value \"" ++ ");\n" := by decide
  rw [hreport, hopen, hclose]
  simp only [caption_eq, String.append_assoc]

theorem isWord_caption {v : Variable} (h : IsWord .name v.name) : IsWord .string (caption v) := by
  have hname : ∀ c ∈ v.name.toList, c ≠ '"' ∧ c ≠ '\n' := by
    intro c hc
    have huses := uses_of_describes ((isWord_iff rfl).mp h) c hc
    constructor <;> rintro rfl <;> exact absurd huses (by decide)
  refine (isWord_iff rfl).mpr (describes_string_iff.mpr
    ⟨"The variable ".toList ++ v.name.toList ++ " has type ".toList ++ v.type.keyword.toList ++
      " and value ".toList, ?_, by simp [caption_eq]⟩)
  have hliteral {text : String} (h : text.toList.all fun c => c ≠ '"' ∧ c ≠ '\n') :
      ∀ c ∈ text.toList, c ≠ '"' ∧ c ≠ '\n' := by
    simpa using h
  simp only [List.forall_mem_append]
  refine ⟨⟨⟨⟨hliteral (by decide), hname⟩, hliteral (by decide)⟩, hliteral ?_⟩,
    hliteral (by decide)⟩
  cases v.type <;> decide

theorem turns_report {v : Variable} (h : IsWord .name v.name) : Turns (report v) (report v) := by
  have hopen : Turns "System.out.print(" "System.out.print(" := .plain (by decide)
  have hopenln : Turns "System.out.println(" "System.out.println(" := .plain (by decide)
  have hclose : Turns ");\n" ");\n" := .plain (by decide)
  rw [report_eq]
  exact ((hopen.append (turns_string (isWord_caption h))).append hclose).append
    ((hopenln.append_word (turnsWord_name h)).append hclose (by decide))

theorem turns_epilogue {scope : Scope} (h : ∀ v ∈ scope.toList, IsWord .name v.name) :
    Turns (epilogue scope) (epilogue scope) := by
  have hjoin {vs : List Variable} (h : ∀ v ∈ vs, IsWord .name v.name) :
      Turns (String.join (vs.map report)) (String.join (vs.map report)) := by
    induction vs with
    | nil => exact .nil
    | cons v vs ih =>
      rw [List.map_cons, String.join_cons]
      exact (turns_report (h v (by simp))).append (ih fun v hv => h v (by simp [hv]))
  exact hjoin h

/-- The scan of a body makes the body of the program with the suffix behind its decimal literals. -/
theorem turns_body {program : Program} (h : ∀ s ∈ program, HasWords s) :
    Turns (body program) (body (program.map suffixed)) := by
  obtain ⟨htext, hscope⟩ := emitStatements_suffixed h .empty
  have hopen : Turns "\x7b\n" "\x7b\n" := .plain (by decide)
  have hclose : Turns "\x7d" "\x7d" := .plain (by decide)
  have hnames : ∀ v ∈ (emitStatements .empty program).scope.toList, IsWord .name v.name :=
    isWord_of_mem_scope_emitStatements h (by simp)
  rw [body, body, emitBody, emitBody, hscope]
  exact ((hopen.append htext).append (turns_epilogue hnames)).append hclose

theorem classFile_eq (body : String) :
    classFile body = "public class Main \x7b\n    public static void main(String[] args) " ++
      String.ofList (suffixDecimals body.toList) ++ "\n\x7d\n" := rfl

/-- The class file of a program is made of the body in which the decimal literals of the program,
and nothing else, have got the suffix. -/
theorem classFile_body {policy : Policy} {source : String} {program : Program}
    (h : readProgram policy source = .ok program) :
    classFile (body program) =
      "public class Main \x7b\n    public static void main(String[] args) " ++
        body (program.map suffixed) ++ "\n\x7d\n" := by
  obtain ⟨declared, hprogram⟩ := isProgram_of_readProgram h
  have hscan := turns_body (hasWords_of_isProgram hprogram) []
  rw [List.append_nil, suffixDecimals_nil, List.append_nil] at hscan
  rw [classFile_eq, hscan, String.ofList_toList]

/-- Quotes, digits and points in strings, characters and names do not mislead the scan. -/
theorem classFile_body_quotes :
    ∃ program,
      readProgram .first "float32 x1 = -1.5; print(\"it's 2.5\"); x1 = '\"' + x1 / 30.25 - 7;" =
        .ok program ∧
      classFile (body program) =
        "public class Main \x7b\n    public static void main(String[] args) \x7b\n" ++
        "float x1 = -1.5f;\nSystem.out.print(\"it's 2.5\");;\nx1 = ('\"' + x1) / 30.25f - 7;\n" ++
        "System.out.print(\"The variable x1 has type float32 and value \");\n" ++
        "System.out.println(x1);\n\x7d\n\x7d\n" := by
  have h : readProgram .first
      "float32 x1 = -1.5; print(\"it's 2.5\"); x1 = '\"' + x1 / 30.25 - 7;" =
      .ok [.binary .assign (.var ⟨.float32, "x1"⟩) (.lit .decimal "-1.5"),
        .unary .print (.lit .string "\"it's 2.5\""),
        .binary .assign (.var ⟨.float32, "x1"⟩) (.binary .sub
          (.binary .div (.binary .add (.lit .character "'\"'") (.var ⟨.float32, "x1"⟩))
            (.lit .decimal "30.25")) (.lit .integer "7"))] := by
    cbv
  exact ⟨_, h, (classFile_body h).trans (by decide +kernel)⟩

end Java

end Straightline
