import Straightline.Proofs.Emission
import Straightline.Proofs.JavaExpression

/-!
# Grouping

The text that is written for a formula says in Java what the formula says: it has one reading, and
that is the tree of the formula. Numbers have no sign in Java, so a signed number is read as a sign
in front of a number.

Parentheses stand where an operand holds together less tightly than its place requires. So every
tree has a rank (`rank`), every place of an operand asks for one (`operandRank`), and a text of a
sufficient rank needs no parentheses (`tightness_le_of_needsParens`). `Cuts` says of a text into
which symbols it is cut, in any place where an operand ends, and `Spells` that these are an
expression of a rank. Main statements: `IsExpression.spells_plainText`, by which the text of an
expression says what its tree says, and `IsExpression.reads_iff`, by which it says nothing else. The
last section finds that text in a body.
-/

namespace Straightline.Java

open Pattern Lexicon

/-! ## The reading of a formula -/

/-- The kind of symbol that a literal is. -/
def literalSymbol : LiteralKind → SymbolKind
  | .integer => .integer
  | .decimal => .decimal
  | .character => .character
  | .string => .string

namespace Expr

/-- What a literal says: a number with a sign is a sign in front of a number without one. -/
def ofLiteral (kind : LiteralKind) (text : String) : Expr :=
  if kind.isNumber then
    match text.toList with
    | '+' :: cs => .signed .plus (.atom ⟨literalSymbol kind, String.ofList cs⟩)
    | '-' :: cs => .signed .minus (.atom ⟨literalSymbol kind, String.ofList cs⟩)
    | _ => .atom ⟨literalSymbol kind, text⟩
  else .atom ⟨literalSymbol kind, text⟩

/-- What a tree says. -/
def ofTerm : Term → Expr
  | .var v => .atom ⟨.name, v.name⟩
  | .lit kind text => ofLiteral kind text
  | .binary op left right => .binary op (ofTerm left) (ofTerm right)
  | .unary op operand => .signed op (ofTerm operand)

end Expr

theorem isSigned_eq_false_iff {text : String} :
    isSigned text = false ↔ ∀ c ∈ text.toList.head?, c ≠ '+' ∧ c ≠ '-' := by
  rw [isSigned]
  cases text.toList with
  | nil => simp
  | cons c cs => simp

/-- A literal without a sign is an atom. -/
theorem Expr.ofLiteral_of_isSigned {kind : LiteralKind} {text : String}
    (h : isSigned text = false) : ofLiteral kind text = .atom ⟨literalSymbol kind, text⟩ := by
  have hhead := isSigned_eq_false_iff.mp h
  rw [ofLiteral]
  split
  · split <;> simp_all
  · rfl

/-! ## Ranks of trees and places -/

/-- The ranks in their order. -/
def Rank.tightness : Rank → Nat
  | sum => 0
  | product => 1
  | signed => 2
  | primary => 3

/-- A tighter expression may stand where a looser one may. -/
theorem Reading.loosen {rank rank' : Rank} {ss : List Symbol} {e : Expr} (h : Reading rank ss e)
    (hle : rank'.tightness ≤ rank.tightness) : Reading rank' ss e := by
  have hsigned : 2 ≤ rank.tightness → Reading .signed ss e := by
    cases rank with
    | primary => exact fun _ => .unsigned h
    | signed => exact fun _ => h
    | product | sum => simp [Rank.tightness]
  have hproduct : 1 ≤ rank.tightness → Reading .product ss e := by
    cases rank with
    | primary | signed => exact fun _ => .factor (hsigned (by simp [Rank.tightness]))
    | product => exact fun _ => h
    | sum => simp [Rank.tightness]
  cases rank' with
  | primary => cases rank <;> simp_all [Rank.tightness]
  | signed => exact hsigned hle
  | product => exact hproduct hle
  | sum =>
    cases rank with
    | sum => exact h
    | _ => exact .summand (hproduct (by simp [Rank.tightness]))

/-- The rank of an operation. -/
def operatorRank : BinaryOp → Rank
  | .mul | .div | .mod => .product
  | .assign | .add | .sub => .sum

/-- The rank of a tree. -/
def rank : Term → Rank
  | .var _ => .primary
  | .lit kind text => if kind.isNumber && isSigned text then .signed else .primary
  | .binary op _ _ => operatorRank op
  | .unary _ _ => .signed

/-- The rank that an operator asks for at a side: operators of the same tier group from the left. -/
def operandRank (op : BinaryOp) : Side → Rank
  | .left => operatorRank op
  | .right =>
    match operatorRank op with
    | .sum => .product
    | _ => .signed

/-- An operand without parentheses has a sufficient rank. -/
theorem tightness_le_of_needsParens {op : BinaryOp} {side : Side} {operand : Term}
    (hop : op ≠ .assign) (h : needsParens op side operand = false) :
    (operandRank op side).tightness ≤ (rank operand).tightness := by
  -- only operations are looser than what any place asks for
  have hplace : (operandRank op side).tightness ≤ 2 := by
    cases op <;> cases side <;> decide
  cases operand with
  | binary inner _ _ =>
    cases op <;> cases side <;> cases inner <;>
      simp_all [needsParens, tier, operandRank, operatorRank, rank, Rank.tightness]
  | var => exact Nat.le_succ_of_le hplace
  | unary => exact hplace
  | lit kind text =>
    rw [rank]
    split
    · exact hplace
    · exact Nat.le_succ_of_le hplace

theorem rank_eq_primary {operand : Term} (h : isUnsignedAtom operand) :
    rank operand = .primary := by
  cases operand with
  | var => rfl
  | lit kind text =>
    rw [isUnsignedAtom, Bool.not_eq_true'] at h
    simp [rank, h]
  | binary | unary => cases h

/-! ## Texts of expressions -/

/-- What can follow an operand. -/
def Ends (rest : List Char) : Prop :=
  ∀ c ∈ rest.head?, c = ' ' ∨ c = ')'

/-- A text is cut into the given symbols where an operand can end behind it. -/
def Cuts (text : List Char) (ss : List Symbol) : Prop :=
  ∀ rest, Ends rest → symbols? (text ++ rest) = (symbols? rest).map (ss ++ ·)

/-- A text is an expression of a rank, and says `e`. -/
def Spells (rank : Rank) (text : List Char) (e : Expr) : Prop :=
  ∃ ss, Cuts text ss ∧ Reading rank ss e

theorem Ends.uses_eq_false {rest : List Char} (h : Ends rest) {p : Pattern}
    (hblank : p.uses ' ' = false) (hparen : p.uses ')' = false) :
    ∀ c ∈ rest.head?, p.uses c = false := by
  intro c hc
  rcases h c hc with rfl | rfl
  · exact hblank
  · exact hparen

/-- The symbol for a character that no other symbol starts with. -/
theorem symbols?_only {kind : SymbolKind} {c : Char} {rest : List Char} (hkind : kind ≠ .blank)
    (hrule : (kind, char c) ∈ symbolRules)
    (hrivals : ∀ rule ∈ symbolRules, rule = (kind, char c) ∨ rule.2.avoids (.exactly c)) :
    symbols? (c :: rest) = (symbols? rest).map (⟨kind, String.ofList [c]⟩ :: ·) :=
  symbols?_char hkind hrule fun rule hrule => (hrivals rule hrule).imp_right .inl

/-- A sign is cut off if it is not the first half of a symbol of two characters. -/
theorem symbols?_sign {kind : SymbolKind} {c : Char} {rest : List Char} (hkind : kind ≠ .blank)
    (hrule : (kind, char c) ∈ symbolRules)
    (hrivals : ∀ rule ∈ symbolRules, rule = (kind, char c) ∨ rule.2.avoids (.exactly c) ∨
      rule.2 = seq (char c) (char c)) (hrest : c ∉ rest.head?) :
    symbols? (c :: rest) = (symbols? rest).map (⟨kind, String.ofList [c]⟩ :: ·) :=
  symbols?_char hkind hrule fun rule hrule =>
    (hrivals rule hrule).imp_right (Or.imp_right fun h => ⟨h, hrest⟩)

theorem symbols?_lparen (rest : List Char) :
    symbols? ('(' :: rest) = (symbols? rest).map (⟨.lparen, "("⟩ :: ·) :=
  symbols?_only (by decide) (by decide) (by decide)

theorem symbols?_rparen (rest : List Char) :
    symbols? (')' :: rest) = (symbols? rest).map (⟨.rparen, ")"⟩ :: ·) :=
  symbols?_only (by decide) (by decide) (by decide)

/-- An operator between blanks is a symbol of its tier. -/
theorem exists_symbol_of_operator {op : BinaryOp} (hop : op ≠ .assign) :
    ∃ s : Symbol, (∀ rest, symbols? (op.symbol.toList ++ ' ' :: rest) =
      (symbols? (' ' :: rest)).map (s :: ·)) ∧
      (operatorRank op = .sum → s.kind.additive? = some op) ∧
      (operatorRank op = .product → s.kind.multiplicative? = some op) := by
  have hblank {c : Char} (hc : c ≠ ' ') (rest : List Char) : c ∉ (' ' :: rest).head? := by
    simpa using hc.symm
  cases op with
  | assign => exact absurd rfl hop
  | add =>
    refine ⟨⟨.plus, "+"⟩, fun rest => ?_, by decide, by decide⟩
    exact symbols?_sign (by decide) (by decide) (by decide) (hblank (by decide) rest)
  | sub =>
    refine ⟨⟨.minus, "-"⟩, fun rest => ?_, by decide, by decide⟩
    exact symbols?_sign (by decide) (by decide) (by decide) (hblank (by decide) rest)
  | mul =>
    exact ⟨⟨.times, "*"⟩, fun rest => symbols?_only (by decide) (by decide) (by decide),
      by decide, by decide⟩
  | div =>
    exact ⟨⟨.divide, "/"⟩, fun rest => symbols?_only (by decide) (by decide) (by decide),
      by decide, by decide⟩
  | mod =>
    exact ⟨⟨.modulo, "%"⟩, fun rest => symbols?_only (by decide) (by decide) (by decide),
      by decide, by decide⟩

/-- A sign is written as the character `c` in front of its operand, which Java reads as the symbol
`s` where the character does not stand twice. -/
structure IsSignSymbol (op : UnaryOp) (c : Char) (s : Symbol) : Prop where
  opening_eq : opening op = String.ofList [c]
  closing_eq : closing op = ""
  eq_plus_or_minus : c = '+' ∨ c = '-'
  sign?_eq : s.kind.sign? = some op
  symbols?_eq {rest : List Char} (h : c ∉ rest.head?) :
    symbols? (c :: rest) = (symbols? rest).map (s :: ·)

theorem exists_isSignSymbol {op : UnaryOp} (hop : op ≠ .print) : ∃ c s, IsSignSymbol op c s := by
  cases op with
  | print => exact absurd rfl hop
  | plus =>
    exact ⟨'+', ⟨.plus, "+"⟩, rfl, rfl, .inl rfl, rfl,
      symbols?_sign (by decide) (by decide) (by decide)⟩
  | minus =>
    exact ⟨'-', ⟨.minus, "-"⟩, rfl, rfl, .inr rfl, rfl,
      symbols?_sign (by decide) (by decide) (by decide)⟩

namespace IsSignSymbol

variable {op : UnaryOp} {c : Char} {s : Symbol}

/-- The text of a sign and its operand. -/
theorem toList_append (hs : IsSignSymbol op c s) (text : String) :
    (opening op ++ text ++ closing op).toList = c :: text.toList := by
  simp [hs.opening_eq, hs.closing_eq]

theorem not_mem_head? (hs : IsSignSymbol op c s) {text : String} (h : isSigned text = false) :
    c ∉ text.toList.head? := by
  intro hc
  obtain ⟨hplus, hminus⟩ := isSigned_eq_false_iff.mp h c hc
  exact hs.eq_plus_or_minus.elim hplus hminus

theorem ne_print (hs : IsSignSymbol op c s) : op ≠ .print := by
  rintro rfl
  exact absurd hs.closing_eq (by decide)

theorem operandNeedsParens_eq (hs : IsSignSymbol op c s) (operand : Term) :
    operandNeedsParens op operand = !isUnsignedAtom operand := by
  simp [operandNeedsParens, hs.ne_print]

end IsSignSymbol

theorem toList_wrap_true (text : String) :
    (wrap true text).toList = '(' :: text.toList ++ [')'] := by
  simp [wrap]

namespace Cuts

variable {text left right : List Char} {ss ls rs : List Symbol}

/-- Parentheses around a text. -/
theorem parens (h : Cuts text ss) :
    Cuts ('(' :: text ++ [')']) (⟨.lparen, "("⟩ :: ss ++ [⟨.rparen, ")"⟩]) := by
  intro rest _
  have hends : Ends (')' :: rest) := by simp [Ends]
  have happend : '(' :: text ++ [')'] ++ rest = '(' :: (text ++ ')' :: rest) := by simp
  rw [happend, symbols?_lparen, h _ hends, symbols?_rparen]
  simp [Function.comp_def]

/-- A sign in front of a text that does not start with the same sign. -/
theorem sign {op : UnaryOp} {c : Char} {s : Symbol} (hs : IsSignSymbol op c s) (h : Cuts text ss)
    (hhead : c ∉ text.head?) : Cuts (c :: text) (s :: ss) := by
  intro rest hrest
  have hnext : c ∉ (text ++ rest).head? := by
    cases text with
    | nil =>
      -- behind an empty text comes what ends an operand
      intro hc
      rcases hs.eq_plus_or_minus with rfl | rfl <;> simpa using hrest _ hc
    | cons => simpa using hhead
  rw [List.cons_append, hs.symbols?_eq hnext, h rest hrest]
  simp [Function.comp_def]

/-- An operator between two texts. -/
theorem operator {op : BinaryOp} {s : Symbol}
    (hoperator : ∀ rest, symbols? (op.symbol.toList ++ ' ' :: rest) =
      (symbols? (' ' :: rest)).map (s :: ·)) (hleft : Cuts left ls) (hright : Cuts right rs) :
    Cuts (left ++ ' ' :: (op.symbol.toList ++ ' ' :: right)) (ls ++ s :: rs) := by
  intro rest hrest
  have happend : left ++ ' ' :: (op.symbol.toList ++ ' ' :: right) ++ rest =
      left ++ ' ' :: (op.symbol.toList ++ ' ' :: (right ++ rest)) := by simp
  have hends : Ends (' ' :: (op.symbol.toList ++ ' ' :: (right ++ rest))) := by simp [Ends]
  -- the blank in front of the operator ends the left operand
  rw [happend, hleft _ hends, symbols?_blank, hoperator, symbols?_blank, hright rest hrest]
  simp [Function.comp_def]

/-! ### Atoms -/

theorem name {text : String} (h : IsWord .name text) : Cuts text.toList [⟨.name, text⟩] := by
  obtain ⟨c, cs, hc, hcs, htext⟩ := describes_name_iff.mp ((isWord_iff rfl).mp h)
  intro rest hrest
  have hword : Lexicon.name.Describes text.toList rest :=
    describes_name_iff.mpr ⟨c, cs, hc, hcs, htext⟩
  rw [symbols?_name hword (hrest.uses_eq_false (by decide) (by decide)), String.ofList_toList]
  rfl

theorem character {text : String} (h : IsWord .character text) :
    Cuts text.toList [⟨.character, text⟩] := by
  obtain ⟨c, hc, htext⟩ := describes_character_iff.mp ((isWord_iff rfl).mp h)
  intro rest _
  have hword : Lexicon.character.Describes text.toList rest :=
    describes_character_iff.mpr ⟨c, hc, htext⟩
  rw [symbols?_character hword, String.ofList_toList]
  rfl

/-- The digits of a number without a point. -/
theorem integer {ds : List Char} (hds : ds ≠ [] ∧ ∀ c ∈ ds, digits.contains c) :
    Cuts ds [⟨.integer, String.ofList ds⟩] :=
  fun _ hrest => symbols?_integer hds (hrest.uses_eq_false (by decide) (by decide))

/-- The digits and the point of a number. -/
theorem decimal {ds fs : List Char} (hds : ds ≠ [] ∧ ∀ c ∈ ds, digits.contains c)
    (hfs : fs ≠ [] ∧ ∀ c ∈ fs, digits.contains c) :
    Cuts (ds ++ '.' :: fs) [⟨.decimal, String.ofList (ds ++ '.' :: fs)⟩] := by
  intro rest hrest
  have hword : decimalLiteral.Describes (ds ++ '.' :: fs) rest :=
    describes_decimalLiteral_iff.mpr ⟨ds, fs, hds, hfs, rfl⟩
  exact symbols?_decimal hword (hrest.uses_eq_false (by decide) (by decide))

end Cuts

namespace Spells

variable {rank rank' : Rank} {text left right : List Char} {e e₁ e₂ : Expr}

theorem loosen (h : Spells rank text e) (hle : rank'.tightness ≤ rank.tightness) :
    Spells rank' text e := by
  obtain ⟨ss, hcuts, hreading⟩ := h
  exact ⟨ss, hcuts, hreading.loosen hle⟩

/-- Parentheses make a tight expression of a loose one. -/
theorem parens (h : Spells .sum text e) : Spells .primary ('(' :: text ++ [')']) e := by
  obtain ⟨ss, hcuts, hreading⟩ := h
  exact ⟨_, hcuts.parens, .parens rfl rfl hreading⟩

/-- Operands get parentheses where they are too loose. -/
theorem wrap {needed : Bool} {text : String} (h : Spells rank text.toList e)
    (hneeded : needed = false → rank'.tightness ≤ rank.tightness) :
    Spells rank' (wrap needed text).toList e := by
  cases needed with
  | false => exact h.loosen (hneeded rfl)
  | true =>
    rw [toList_wrap_true]
    refine (h.loosen ?_).parens.loosen ?_
    · exact Nat.zero_le _
    · cases rank' <;> decide

/-- A sign in front of an operand that does not start with the same sign. -/
theorem sign {op : UnaryOp} {c : Char} {s : Symbol} (hs : IsSignSymbol op c s)
    (h : Spells .signed text e) (hhead : c ∉ text.head?) :
    Spells .signed (c :: text) (.signed op e) := by
  obtain ⟨ss, hcuts, hreading⟩ := h
  exact ⟨_, hcuts.sign hs hhead, .sign hs.sign?_eq hreading⟩

/-- An operator between operands of the ranks that it asks for. -/
theorem binary {op : BinaryOp} (hop : op ≠ .assign)
    (hleft : Spells (operandRank op .left) left e₁)
    (hright : Spells (operandRank op .right) right e₂) :
    Spells (operatorRank op) (left ++ ' ' :: (op.symbol.toList ++ ' ' :: right))
      (.binary op e₁ e₂) := by
  obtain ⟨s, hoperator, hsum, hproduct⟩ := exists_symbol_of_operator hop
  obtain ⟨ls, hcutsl, hreadl⟩ := hleft
  obtain ⟨rs, hcutsr, hreadr⟩ := hright
  refine ⟨ls ++ s :: rs, .operator hoperator hcutsl hcutsr, ?_⟩
  cases hrank : operatorRank op with
  | sum =>
    simp only [operandRank, hrank] at hreadl hreadr
    exact .sum hreadl (hsum hrank) hreadr
  | product =>
    simp only [operandRank, hrank] at hreadl hreadr
    exact .product hreadl (hproduct hrank) hreadr
  | signed | primary => cases op <;> cases hrank

end Spells

/-! ## Literals -/

/-- The sign of a number is a symbol of its own. -/
theorem exists_isSignSymbol_of_isSign {sign : List Char} (h : IsSign sign) (hne : sign ≠ []) :
    ∃ op c s, IsSignSymbol op c s ∧ sign = [c] := by
  obtain ⟨op, hop, hopening⟩ : ∃ op, op ≠ .print ∧ opening op = String.ofList sign := by
    rcases isSign_iff.mp h with rfl | rfl | rfl
    · exact absurd rfl hne
    · exact ⟨.minus, by decide, rfl⟩
    · exact ⟨.plus, by decide, rfl⟩
  obtain ⟨c, s, hs⟩ := exists_isSignSymbol hop
  exact ⟨op, c, s, hs, String.ofList_injective (hopening.symm.trans hs.opening_eq)⟩

/-- A number with a sign is the sign in front of the number without one. -/
theorem Expr.ofLiteral_of_isSignSymbol {op : UnaryOp} {c : Char} {s : Symbol}
    (hs : IsSignSymbol op c s) {kind : LiteralKind} (hkind : kind.isNumber) {text : String}
    {ds : List Char} (htext : text.toList = c :: ds) :
    ofLiteral kind text = .signed op (.atom ⟨literalSymbol kind, String.ofList ds⟩) := by
  have hc := hs.opening_eq
  cases op with
  | print => exact absurd rfl hs.ne_print
  | plus | minus =>
    obtain rfl := List.singleton_inj.mp (String.ofList_injective hc)
    simp [ofLiteral, hkind, htext]

/-- The symbols of a literal: a sign, if it has one, and an atom. -/
theorem exists_cuts_number {kind : LiteralKind} (hkind : kind.isNumber) {text : String}
    {sign ds : List Char} (hsign : IsSign sign) (htext : text.toList = sign ++ ds)
    (hds : ∀ c ∈ ds.head?, digits.contains c)
    (h : Cuts ds [⟨literalSymbol kind, String.ofList ds⟩]) :
    ∃ ss, Cuts text.toList ss ∧ Reading (rank (.lit kind text)) ss (Expr.ofLiteral kind text) ∧
      ∀ s ∈ ss, s.kind ≠ .lparen := by
  have hdigits : isSigned (String.ofList ds) = false := by
    rw [isSigned_eq_false_iff, String.toList_ofList]
    intro c hc
    constructor <;> rintro rfl <;> exact absurd (hds _ hc) (by decide)
  have hparen : literalSymbol kind ≠ .lparen := by cases kind <;> decide
  have hatom : Reading .primary [⟨literalSymbol kind, String.ofList ds⟩]
      (.atom ⟨literalSymbol kind, String.ofList ds⟩) := .atom (by cases kind <;> rfl)
  by_cases hne : sign = []
  · obtain rfl : text = String.ofList ds := String.toList_inj.mp (by simp [htext, hne])
    rw [Expr.ofLiteral_of_isSigned hdigits, rank, hdigits, Bool.and_false]
    exact ⟨_, by simpa using h, hatom, by simpa using hparen⟩
  · -- the sign is a symbol of its own, and the number behind it is read as an operand of the sign
    obtain ⟨op, c, s, hs, rfl⟩ := exists_isSignSymbol_of_isSign hsign hne
    have hhead : c ∉ ds.head? := by simpa using hs.not_mem_head? hdigits
    have hsigned : isSigned text := by
      rcases hs.eq_plus_or_minus with rfl | rfl <;> simp [isSigned, htext]
    refine ⟨[s, ⟨literalSymbol kind, String.ofList ds⟩], ?_, ?_, ?_⟩
    · rw [htext]
      exact h.sign hs hhead
    · rw [Expr.ofLiteral_of_isSignSymbol hs hkind htext, rank, hkind, hsigned]
      exact .sign hs.sign?_eq (.unsigned hatom)
    · have hsymbol : s.kind ≠ .lparen := by
        intro hlparen
        have hnone := hs.sign?_eq
        rw [hlparen] at hnone
        cases hnone
      simpa using ⟨hsymbol, hparen⟩

/-- The text of a literal is an expression of its rank, without parentheses. -/
theorem exists_cuts_literal {kind : LiteralKind} {text : String} (hkind : kind ≠ .string)
    (htext : IsWord kind.tokenKind text) :
    ∃ ss, Cuts text.toList ss ∧ Reading (rank (.lit kind text)) ss (.ofTerm (.lit kind text)) ∧
      ∀ s ∈ ss, s.kind ≠ .lparen := by
  cases kind with
  | integer =>
    obtain ⟨sign, ds, hsign, hds, hword⟩ := describes_integer_iff.mp ((isWord_iff rfl).mp htext)
    have hdigits := digits_of_isWhole hds
    exact exists_cuts_number rfl hsign hword
      (fun c hc => hdigits.2 c (List.mem_of_mem_head? hc)) (.integer hdigits)
  | decimal =>
    obtain ⟨sign, ds, fs, hsign, hds, hne, hfs, hword⟩ :=
      describes_decimal_iff.mp ((isWord_iff rfl).mp htext)
    have hdigits := digits_of_isWhole hds
    obtain ⟨d, ds', rfl⟩ := List.exists_cons_of_ne_nil hdigits.1
    exact exists_cuts_number rfl hsign (hword.trans (List.append_assoc ..))
      (by simpa using hdigits.2 d) (.decimal hdigits ⟨hne, hfs⟩)
  | character => exact ⟨_, .character htext, .atom rfl, by simp⟩
  | string => exact absurd rfl hkind

/-! ## Expressions and formulas -/

/-- The trees of expressions, whatever their variables are. -/
inductive IsExpression : Term → Prop
  | var {v : Variable} (hname : IsWord .name v.name) : IsExpression (.var v)
  | lit {kind : LiteralKind} {text : String} (hkind : kind ≠ .string)
      (htext : IsWord kind.tokenKind text) : IsExpression (.lit kind text)
  | binary {op : BinaryOp} {left right : Term} (hop : op ≠ .assign)
      (hleft : IsExpression left) (hright : IsExpression right) :
      IsExpression (.binary op left right)
  | unary {op : UnaryOp} {operand : Term} (hop : op ≠ .print) (h : IsExpression operand) :
      IsExpression (.unary op operand)

theorem isExpression_of_isFormula {declared : List Variable} {e : Term}
    (h : IsFormula declared e) : IsExpression e := by
  induction h with
  | var _ hname => exact .var hname
  | lit hkind htext => exact .lit hkind htext
  | binary hop _ _ ihleft ihright => exact .binary hop ihleft ihright
  | unary hop _ ih => exact .unary hop ih

namespace IsExpression

/-- The text of a variable or a literal without a sign does not start with a sign. -/
theorem isSigned_plainText {e : Term} (h : IsExpression e) (hatom : isUnsignedAtom e) :
    isSigned (plainText e) = false := by
  cases h with
  | var hname =>
    obtain ⟨c, cs, hc, -, htext⟩ := describes_name_iff.mp ((isWord_iff rfl).mp hname)
    rw [plainText_var, isSigned_eq_false_iff, htext]
    rintro _ ⟨⟩
    constructor <;> rintro rfl <;> exact absurd hc (by decide)
  | @lit kind text hkind htext =>
    rw [plainText_lit]
    cases kind with
    | integer | decimal => simpa [isUnsignedAtom, LiteralKind.isNumber] using hatom
    | character =>
      obtain ⟨c, -, hword⟩ := describes_character_iff.mp ((isWord_iff rfl).mp htext)
      simp [isSigned, hword]
    | string => exact absurd rfl hkind
  | binary | unary => cases hatom

/-- The operand of a sign, in parentheses unless it is an atom, does not start with a sign. -/
theorem isSigned_wrap {e : Term} (h : IsExpression e) {text : String}
    (htext : isUnsignedAtom e → text = plainText e) :
    isSigned (wrap (!isUnsignedAtom e) text) = false := by
  cases hatom : isUnsignedAtom e with
  | true =>
    rw [htext hatom]
    exact h.isSigned_plainText hatom
  | false => simp [isSigned, wrap]

/-- The text of an expression is an expression of its rank, and says what the tree says. -/
theorem spells_plainText {e : Term} (h : IsExpression e) :
    Spells (rank e) (plainText e).toList (.ofTerm e) := by
  induction h with
  | var hname => exact ⟨_, .name hname, .atom rfl⟩
  | lit hkind htext =>
    obtain ⟨ss, hcuts, hreading, -⟩ := exists_cuts_literal hkind htext
    exact ⟨ss, hcuts, hreading⟩
  | @binary op left right hop _ _ ihleft ihright =>
    -- with its parentheses, each operand has the rank that its place asks for
    rw [plainText_binary]
    have hleft : Spells (operandRank op .left) _ (.ofTerm left) :=
      ihleft.wrap (tightness_le_of_needsParens hop)
    have hright : Spells (operandRank op .right) _ (.ofTerm right) :=
      ihright.wrap (tightness_le_of_needsParens hop)
    simpa [rank, Expr.ofTerm] using Spells.binary hop hleft hright
  | @unary op operand hop h ih =>
    have hoperand : Spells .signed (wrap (!isUnsignedAtom operand) (plainText operand)).toList
        (.ofTerm operand) := by
      refine ih.wrap fun hatom => ?_
      rw [rank_eq_primary (by simpa using hatom)]
      decide
    obtain ⟨c, s, hs⟩ := exists_isSignSymbol hop
    rw [plainText_unary, hs.operandNeedsParens_eq, hs.toList_append]
    exact hoperand.sign hs (hs.not_mem_head? (h.isSigned_wrap fun _ => rfl))

end IsExpression

/-- A text that is cut into symbols reads as one tree if its symbols do. -/
theorem Cuts.reads_iff {text : String} {ss : List Symbol} {e tree : Expr}
    (hcuts : Cuts text.toList ss) (h : Reading .sum ss e) : Reads text tree ↔ tree = e := by
  have hsymbols : symbols? text.toList = some ss := by
    simpa [symbols?_nil] using hcuts [] (by simp [Ends])
  constructor
  · rintro ⟨ss', hss', htree⟩
    obtain rfl : ss = ss' := Option.some.inj (hsymbols.symm.trans hss')
    exact htree.unique h
  · rintro rfl
    exact ⟨ss, hsymbols, h⟩

/-- The text of an expression has one reading, which is what the tree says. -/
theorem IsExpression.reads_iff {e : Term} (h : IsExpression e) {tree : Expr} :
    Reads (plainText e) tree ↔ tree = .ofTerm e := by
  obtain ⟨ss, hcuts, hreading⟩ := h.spells_plainText
  exact hcuts.reads_iff (hreading.loosen (Nat.zero_le _))

/-- The text of a formula has one reading, which is what the formula says. -/
theorem reads_plainText_iff {declared : List Variable} {e : Term} (h : IsFormula declared e)
    {tree : Expr} : Reads (plainText e) tree ↔ tree = .ofTerm e :=
  (isExpression_of_isFormula h).reads_iff

/-! ## Statements -/

/-- The formula of a statement: the value that it assigns, or what it prints if that is not a
string. -/
def formula? : Term → Option Term
  | .binary .assign _ value => some value
  | .unary .print (.lit .string _) => none
  | .unary .print operand => some operand
  | _ => none

/-- What a line has before and behind the formula of its statement. -/
def margins (scope : Scope) : Term → String × String
  | .binary .assign target _ => ((emit scope target).text ++ " = ", "")
  | .unary .print _ => ("System.out.print(", ");")
  | _ => ("", "")

/-- A statement is written as its formula between the margins. -/
theorem emit_statement_of_formula? {declared new : List Variable} {s e : Term}
    (h : IsStatement declared s new) (he : formula? s = some e) :
    IsFormula declared e ∧
      (emit (.ofDeclarations declared) s).text =
        (margins (.ofDeclarations declared) s).1 ++ plainText e ++
          (margins (.ofDeclarations declared) s).2 := by
  have hassign {v : Variable} {e : Term} (h : IsFormula declared e) :
      (emit (.ofDeclarations declared) (.binary .assign (.var v) e)).text =
        (emit (.ofDeclarations declared) (.var v)).text ++ " = " ++ plainText e ++ "" := by
    rw [emit_assign, emit_formula h fun name hname => ?_, String.append_empty]
    simp [emit_var, Scope.contains_declare, hname]
  cases h with
  | declaration | printString => cases he
  | initialized _ h | assignment _ _ h =>
    cases he
    exact ⟨h, hassign h⟩
  | @printFormula e' h =>
    obtain rfl : e' = e := by
      rw [formula?] at he
      · exact Option.some.inj he
      · rintro text rfl
        cases he
    rw [emit_print, emit_formula h fun _ hname => hname]
    exact ⟨h, rfl⟩

/-- What a body has before and behind the formula of one of its statements. -/
def surroundings (before : Program) (s : Term) (after : Program) : String × String :=
  let first := emitStatements .empty before
  let others := emitStatements (emit first.scope s).scope after
  ("\x7b\n" ++ first.text ++ (margins first.scope s).1,
    (margins first.scope s).2 ++ ";\n" ++ others.text ++ epilogue others.scope ++ "\x7d")

/-- A body around the line of one of its statements. -/
theorem body_eq_surroundings {before after : Program} {s : Term} {text : String}
    (h : (emit (emitStatements .empty before).scope s).text =
      (margins (emitStatements .empty before).scope s).1 ++ text ++
        (margins (emitStatements .empty before).scope s).2) :
    body (before ++ s :: after) =
      (surroundings before s after).1 ++ text ++ (surroundings before s after).2 := by
  rw [body, emitBody, emitStatements_append, emitStatements, h]
  simp only [surroundings, String.append_assoc]

/-- The text that a body holds for the formula of a statement has one reading in Java, and that is
what the formula says. -/
theorem body_formula_reads_iff {policy : Policy} {source : String} {before after : Program}
    {s formula : Term} (h : readProgram policy source = .ok (before ++ s :: after))
    (hformula : formula? s = some formula) :
    ∃ text, body (before ++ s :: after) =
        (surroundings before s after).1 ++ text ++ (surroundings before s after).2 ∧
      ∀ tree, Reads text tree ↔ tree = .ofTerm formula := by
  obtain ⟨declared', hprogram⟩ := isProgram_of_readProgram h
  obtain ⟨declared, hbefore, hafter⟩ := isProgram_append_iff.mp hprogram
  cases hafter with
  | cons hs _ =>
    -- the scope before the statement is that of the declarations before it
    have hscope : (emitStatements .empty before).scope = .ofDeclarations declared :=
      scope_emitStatements hbefore
    obtain ⟨he, hline⟩ := emit_statement_of_formula? hs hformula
    rw [← hscope] at hline
    exact ⟨plainText formula, body_eq_surroundings hline, fun _ => reads_plainText_iff he⟩

/-- The source has one tier of operations where Java has two, and signs stand at several places. -/
theorem body_formula_reads_iff_nested :
    ∃ before s after text,
      readProgram .first "char c; c = -(c - -1 - (c * '\"')) % (c % +2.5);" =
        .ok (before ++ s :: after) ∧
      body (before ++ s :: after) =
        (surroundings before s after).1 ++ text ++ (surroundings before s after).2 ∧
      ∀ tree, Reads text tree ↔ tree =
        .binary .mod
          (.signed .minus (.binary .sub
            (.binary .sub (.atom ⟨.name, "c"⟩) (.signed .minus (.atom ⟨.integer, "1"⟩)))
            (.binary .mul (.atom ⟨.name, "c"⟩) (.atom ⟨.character, "'\"'"⟩))))
          (.binary .mod (.atom ⟨.name, "c"⟩) (.signed .plus (.atom ⟨.decimal, "2.5"⟩))) := by
  have h : readProgram .first "char c; c = -(c - -1 - (c * '\"')) % (c % +2.5);" =
      .ok ([.var ⟨.char, "c"⟩] ++ .binary .assign (.var ⟨.char, "c"⟩) (.binary .mod
        (.unary .minus (.binary .sub
          (.binary .sub (.var ⟨.char, "c"⟩) (.lit .integer "-1"))
          (.binary .mul (.var ⟨.char, "c"⟩) (.lit .character "'\"'"))))
        (.binary .mod (.var ⟨.char, "c"⟩) (.lit .decimal "+2.5"))) :: []) := by
    cbv
  obtain ⟨text, hbody, hreads⟩ := body_formula_reads_iff h rfl
  exact ⟨_, _, _, text, h, hbody, hreads⟩

end Straightline.Java
