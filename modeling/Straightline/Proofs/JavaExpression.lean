import Straightline.Java.ClassFile
import Straightline.Program.Basic
import Straightline.Proofs.Lexemes

/-!
# Java expressions

How Java reads an expression, as far as the bodies need it. A text is cut into symbols, always by
the longest one that is possible, so that `++` and `--` are symbols of their own. Numbers,
characters, strings and names are atoms. Signs in front of an operand bind tightest, then `*`, `/`
and `%`, then `+` and `-` between operands; operators of the same tier group from the left, and
parentheses group what is inside them.

`Reading` is this grammar as a system of rules, and `Reads` combines it with the cutting. Main
statements: `Reading.unique`, by which symbols have at most one reading, and `symbols?_append`,
which cuts a text symbol by symbol.
-/

namespace Straightline.Java

open Pattern Lexicon

/-! ## Symbols -/

/-- The kinds of symbol in an expression. -/
inductive SymbolKind where
  /-- Blanks between symbols; dropped. -/
  | blank
  /-- A name. -/
  | name
  /-- A number without a point. -/
  | integer
  /-- A number with a point. -/
  | decimal
  /-- A character between single quotes. -/
  | character
  /-- A text between double quotes. -/
  | string
  /-- The sign `+`. -/
  | plus
  /-- The sign `-`. -/
  | minus
  /-- The sign `*`. -/
  | times
  /-- The sign `/`. -/
  | divide
  /-- The sign `%`. -/
  | modulo
  /-- The symbol `++`. -/
  | increment
  /-- The symbol `--`. -/
  | decrement
  /-- An opening parenthesis. -/
  | lparen
  /-- A closing parenthesis. -/
  | rparen
deriving DecidableEq, Repr

/-- A piece of an expression with its kind. -/
structure Symbol where
  /-- Its kind. -/
  kind : SymbolKind
  /-- The characters that it covers. -/
  text : String
deriving DecidableEq, Repr

/-- The words of each kind of symbol. -/
def symbolRules : List (SymbolKind × Pattern) :=
  [(.blank, many1 blanks),
   (.name, Lexicon.name),
   (.decimal, decimalLiteral),
   (.integer, many1 digits),
   (.character, Lexicon.character),
   (.string, Lexicon.string),
   (.increment, seq (char '+') (char '+')),
   (.decrement, seq (char '-') (char '-')),
   (.plus, char '+'),
   (.minus, char '-'),
   (.times, char '*'),
   (.divide, char '/'),
   (.modulo, char '%'),
   (.lparen, char '('),
   (.rparen, char ')')]

/-- All ways of taking a symbol at the front of `cs`, by its kind and its length. -/
def symbolsAt (cs : List Char) : List (SymbolKind × Nat) :=
  symbolRules.flatMap fun rule => (rule.2.lengths cs).map fun n => (rule.1, n)

/-- The longest symbol at the front of `cs`. -/
def longestSymbol? (cs : List Char) : Option (SymbolKind × Nat) :=
  (symbolsAt cs).maxOn? Prod.snd

/-- The symbol made of the characters `cs`, unless they are blanks. -/
def toSymbol? (kind : SymbolKind) (cs : List Char) : Option Symbol :=
  if kind = .blank then none else some ⟨kind, String.ofList cs⟩

/-- Cuts a text into symbols, if it consists of symbols. -/
def symbols? (cs : List Char) : Option (List Symbol) :=
  if cs = [] then some []
  else
    match longestSymbol? cs with
    | some (kind, n + 1) =>
      (symbols? (cs.drop (n + 1))).map ((toSymbol? kind (cs.take (n + 1))).toList ++ ·)
    | _ => none
termination_by cs.length
decreasing_by
  have := List.length_pos_iff.mpr ‹_›
  simp only [List.length_drop]
  omega

/-! ## Readings -/

/-- What an expression says. -/
inductive Expr where
  /-- A name, a number, a character or a string. -/
  | atom (s : Symbol)
  /-- A sign in front of an operand. -/
  | signed (op : UnaryOp) (operand : Expr)
  /-- An operator between two operands. -/
  | binary (op : BinaryOp) (left right : Expr)
deriving DecidableEq, Repr

namespace SymbolKind

/-- Whether symbols of this kind are atoms. -/
def isAtom : SymbolKind → Bool
  | name | integer | decimal | character | string => true
  | _ => false

/-- The sign that a symbol stands for in front of an operand. -/
def sign? : SymbolKind → Option UnaryOp
  | plus => some .plus
  | minus => some .minus
  | _ => none

/-- The operator of the lower tier that a symbol stands for between operands. -/
def additive? : SymbolKind → Option BinaryOp
  | plus => some .add
  | minus => some .sub
  | _ => none

/-- The operator of the higher tier that a symbol stands for. -/
def multiplicative? : SymbolKind → Option BinaryOp
  | times => some .mul
  | divide => some .div
  | modulo => some .mod
  | _ => none

end SymbolKind

/-- How tightly an expression holds together, the loosest first. -/
inductive Rank where
  /-- Operands with operators of the lower tier between them. -/
  | sum
  /-- Operands with operators of the higher tier between them. -/
  | product
  /-- An operand with signs in front of it. -/
  | signed
  /-- An atom, or an expression in parentheses. -/
  | primary
deriving DecidableEq, Repr

/-- The grammar of expressions: the symbols of an expression of each rank, and what it says. -/
inductive Reading : Rank → List Symbol → Expr → Prop
  /-- An atom stands for itself. -/
  | atom {s : Symbol} (hs : s.kind.isAtom) : Reading .primary [s] (.atom s)
  /-- Parentheses hold any expression. -/
  | parens {l r : Symbol} {ss : List Symbol} {e : Expr} (hl : l.kind = .lparen)
      (hr : r.kind = .rparen) (h : Reading .sum ss e) : Reading .primary (l :: ss ++ [r]) e
  /-- An expression without signs may stand where one with signs may. -/
  | unsigned {ss : List Symbol} {e : Expr} (h : Reading .primary ss e) : Reading .signed ss e
  /-- A sign belongs to the operand right behind it. -/
  | sign {s : Symbol} {op : UnaryOp} {ss : List Symbol} {e : Expr} (hs : s.kind.sign? = some op)
      (h : Reading .signed ss e) : Reading .signed (s :: ss) (.signed op e)
  /-- One operand is a product. -/
  | factor {ss : List Symbol} {e : Expr} (h : Reading .signed ss e) : Reading .product ss e
  /-- A product goes on with an operator of the higher tier. -/
  | product {t : Symbol} {op : BinaryOp} {ss ts : List Symbol} {left right : Expr}
      (hleft : Reading .product ss left) (ht : t.kind.multiplicative? = some op)
      (hright : Reading .signed ts right) :
      Reading .product (ss ++ t :: ts) (.binary op left right)
  /-- One product is a sum. -/
  | summand {ss : List Symbol} {e : Expr} (h : Reading .product ss e) : Reading .sum ss e
  /-- A sum goes on with an operator of the lower tier. -/
  | sum {t : Symbol} {op : BinaryOp} {ss ts : List Symbol} {left right : Expr}
      (hleft : Reading .sum ss left) (ht : t.kind.additive? = some op)
      (hright : Reading .product ts right) :
      Reading .sum (ss ++ t :: ts) (.binary op left right)

/-- What Java can read a text as. -/
def Reads (text : String) (e : Expr) : Prop :=
  ∃ ss, symbols? text.toList = some ss ∧ Reading .sum ss e

/-! ## At most one reading -/

/-- An expression that has been read up to an operand that is still missing. -/
structure Hole where
  /-- A sum to the left, and the operator behind it. -/
  sum : Option (Expr × BinaryOp)
  /-- A product to the left, and the operator behind it. -/
  product : Option (Expr × BinaryOp)
  /-- Signs, the last one first. -/
  signs : List UnaryOp

namespace Hole

/-- Nothing has been read. -/
def empty : Hole := ⟨none, none, []⟩

/-- Puts an operand to the right of what is there, if there is something. -/
def join (left : Option (Expr × BinaryOp)) (right : Expr) : Expr :=
  match left with
  | none => right
  | some (e, op) => .binary op e right

/-- The operand with the signs in front of it. -/
def applySigns (signs : List UnaryOp) (operand : Expr) : Expr :=
  signs.foldl (fun e op => .signed op e) operand

/-- The expression if it ends with the given operand. -/
def close (hole : Hole) (operand : Expr) : Expr :=
  join hole.sum (join hole.product operand)

end Hole

open Hole

/-- Reads symbols from left to right. Where an operand has just been read, it is given. The holes
of the expressions around the current one, innermost first, wait for its parenthesis. -/
def readSymbols (outer : List Hole) (hole : Hole) : Option Expr → List Symbol → Option Expr
  -- an operand is missing
  | none, [] => none
  | none, s :: ss =>
    if s.kind.isAtom then
      readSymbols outer { hole with signs := [] } (some (applySigns hole.signs (.atom s))) ss
    else if s.kind = .lparen then readSymbols (hole :: outer) .empty none ss
    else
      match s.kind.sign? with
      | some op => readSymbols outer { hole with signs := op :: hole.signs } none ss
      | none => none
  -- an operand has been read
  | some e, [] => if outer.isEmpty then some (hole.close e) else none
  | some e, s :: ss =>
    match s.kind.multiplicative?, s.kind.additive?, outer with
    | some op, _, _ =>
      readSymbols outer ⟨hole.sum, some (join hole.product e, op), []⟩ none ss
    | none, some op, _ => readSymbols outer ⟨some (hole.close e, op), none, []⟩ none ss
    | none, none, around :: outer' =>
      if s.kind = .rparen then
        readSymbols outer' { around with signs := [] }
          (some (applySigns around.signs (hole.close e))) ss
      else none
    | none, none, [] => none

section Steps

variable {outer : List Hole} {hole : Hole} {e : Expr} {s : Symbol} {ss : List Symbol}

theorem readSymbols_atom (h : s.kind.isAtom) :
    readSymbols outer hole none (s :: ss) =
      readSymbols outer { hole with signs := [] } (some (applySigns hole.signs (.atom s))) ss := by
  rw [readSymbols, if_pos h]

theorem readSymbols_lparen (h : s.kind = .lparen) :
    readSymbols outer hole none (s :: ss) = readSymbols (hole :: outer) .empty none ss := by
  simp [readSymbols, h, SymbolKind.isAtom]

theorem readSymbols_sign {op : UnaryOp} (h : s.kind.sign? = some op) :
    readSymbols outer hole none (s :: ss) =
      readSymbols outer { hole with signs := op :: hole.signs } none ss := by
  cases hkind : s.kind <;> simp_all [readSymbols, SymbolKind.sign?, SymbolKind.isAtom]

theorem readSymbols_multiplicative {op : BinaryOp} (h : s.kind.multiplicative? = some op) :
    readSymbols outer hole (some e) (s :: ss) =
      readSymbols outer ⟨hole.sum, some (join hole.product e, op), []⟩ none ss := by
  simp only [readSymbols, h]

theorem readSymbols_additive {op : BinaryOp} (h : s.kind.additive? = some op) :
    readSymbols outer hole (some e) (s :: ss) =
      readSymbols outer ⟨some (hole.close e, op), none, []⟩ none ss := by
  cases hkind : s.kind <;>
    simp_all [readSymbols, SymbolKind.additive?, SymbolKind.multiplicative?]

theorem readSymbols_rparen (h : s.kind = .rparen) :
    readSymbols (hole :: outer) .empty (some e) (s :: ss) =
      readSymbols outer { hole with signs := [] } (some (applySigns hole.signs e)) ss := by
  simp [readSymbols, h, SymbolKind.additive?, SymbolKind.multiplicative?, Hole.empty, close, join]

/-- A product that has been read is as good as one operand. -/
theorem readSymbols_join_product :
    readSymbols outer hole (some e) ss =
      readSymbols outer ⟨hole.sum, none, []⟩ (some (join hole.product e)) ss := by
  cases ss with
  | nil => rfl
  | cons s ss => simp only [readSymbols, close, join]

/-- A sum that has been read is as good as one operand, unless its last summand goes on. -/
theorem readSymbols_join_sum {sum : Option (Expr × BinaryOp)}
    (h : ∀ s ∈ ss.head?, s.kind.multiplicative? = none) :
    readSymbols outer ⟨sum, none, []⟩ (some e) ss =
      readSymbols outer .empty (some (join sum e)) ss := by
  cases ss with
  | nil => rfl
  | cons s ss =>
    simp only [readSymbols, h s rfl, close, join, Hole.empty]
    rcases s.kind.additive? with _ | op
    · cases outer <;> rfl
    · rfl

end Steps

/-- What may have been read before an expression of a rank. -/
def Rank.Fits : Rank → Hole → Prop
  | sum, hole => hole = .empty
  | product, hole => hole.product = none ∧ hole.signs = []
  | signed, _ | primary, _ => True

/-- An expression is read as one operand, whatever follows it. Behind a sum, no operator of the
higher tier may follow: it would belong to the last summand. -/
theorem readSymbols_append {rank : Rank} {ss : List Symbol} {e : Expr} (h : Reading rank ss e)
    {outer : List Hole} {hole : Hole} (hhole : rank.Fits hole) {rest : List Symbol}
    (hrest : rank = .sum → ∀ s ∈ rest.head?, s.kind.multiplicative? = none) :
    readSymbols outer hole none (ss ++ rest) =
      readSymbols outer { hole with signs := [] } (some (applySigns hole.signs e)) rest := by
  -- the induction is on the rules of the grammar, for every hole that fits the rank: what stands
  -- to the left of an expression stays in the hole until the expression has been read
  induction h generalizing outer hole rest with
  | atom hs => exact readSymbols_atom hs
  | @parens l r ss e hl hr _ ih =>
    have hnext : ∀ s ∈ (r :: rest).head?, s.kind.multiplicative? = none := by
      simp [hr, SymbolKind.multiplicative?]
    have happend : l :: ss ++ [r] ++ rest = l :: (ss ++ r :: rest) := by simp
    rw [happend, readSymbols_lparen hl, ih rfl fun _ => hnext]
    exact readSymbols_rparen hr
  | unsigned _ ih => exact ih trivial nofun
  | sign hs _ ih =>
    rw [List.cons_append, readSymbols_sign hs, ih trivial nofun]
    rfl
  | factor _ ih => exact ih trivial nofun
  | @product t op ss ts left right _ ht _ ihleft ihright =>
    obtain ⟨hproduct, hsigns⟩ := hhole
    -- the hole keeps the left side, and the new product is one operand for what follows
    rw [List.append_assoc, ihleft ⟨hproduct, hsigns⟩ nofun, List.cons_append,
      readSymbols_multiplicative ht, ihright trivial nofun, readSymbols_join_product]
    simp [hproduct, hsigns, join, applySigns]
  | summand _ ih =>
    subst hhole
    exact ih ⟨rfl, rfl⟩ nofun
  | @sum t op ss ts left right _ ht _ ihleft ihright =>
    subst hhole
    -- an operator of the lower tier ends the sum before it
    have hnext : ∀ s ∈ (t :: ts ++ rest).head?, s.kind.multiplicative? = none := by
      rintro s ⟨⟩
      cases hkind : t.kind <;> simp_all [SymbolKind.additive?, SymbolKind.multiplicative?]
    rw [List.append_assoc, ihleft rfl fun _ => hnext, List.cons_append, readSymbols_additive ht,
      ihright ⟨rfl, rfl⟩ nofun, readSymbols_join_sum (hrest rfl)]
    rfl

/-- Symbols have at most one reading. -/
theorem Reading.unique {ss : List Symbol} {e e' : Expr} (h : Reading .sum ss e)
    (h' : Reading .sum ss e') : e = e' := by
  have hread {e : Expr} (h : Reading .sum ss e) : readSymbols [] .empty none ss = some e := by
    have hend : readSymbols [] .empty none (ss ++ []) = readSymbols [] .empty (some e) [] :=
      readSymbols_append h rfl (by simp)
    rwa [List.append_nil] at hend
  exact Option.some.inj ((hread h).symm.trans (hread h'))

/-! ## Cutting a text -/

section Cutting

variable {kind : SymbolKind} {p : Pattern} {word rest : List Char}

theorem symbols?_nil : symbols? [] = some [] := by
  rw [symbols?, if_pos rfl]

theorem mem_symbolsAt_iff {cs : List Char} {n : Nat} :
    (kind, n) ∈ symbolsAt cs ↔ ∃ p, (kind, p) ∈ symbolRules ∧ n ∈ p.lengths cs := by
  simp only [symbolsAt, List.mem_flatMap, List.mem_map, Prod.mk.injEq]
  constructor
  · rintro ⟨⟨_, p⟩, hrule, n, hn, rfl, rfl⟩
    exact ⟨p, hrule, hn⟩
  · rintro ⟨p, hrule, hn⟩
    exact ⟨(kind, p), hrule, n, hn, rfl, rfl⟩

/-- A word is the longest symbol if its own rule takes no more and all other rules take less. -/
theorem longestSymbol?_append (hrule : (kind, p) ∈ symbolRules) (hword : p.Describes word rest)
    (hmax : ∀ n ∈ p.lengths (word ++ rest), n ≤ word.length)
    (hrivals : ∀ rule ∈ symbolRules, rule = (kind, p) ∨
      ∀ n ∈ rule.2.lengths (word ++ rest), n < word.length) :
    longestSymbol? (word ++ rest) = some (kind, word.length) := by
  have hmem : (kind, word.length) ∈ symbolsAt (word ++ rest) :=
    mem_symbolsAt_iff.mpr ⟨p, hrule, length_mem_lengths hword⟩
  have hsome := List.isSome_maxOn?_of_mem (f := Prod.snd) hmem
  obtain ⟨⟨kind', n⟩, hlongest⟩ := Option.isSome_iff_exists.mp hsome
  have hle : word.length ≤ n := by
    simpa [hlongest] using List.le_apply_get_maxOn?_of_mem (f := Prod.snd) hmem
  -- the longest symbol is of the same rule, since all others are shorter than the word
  obtain ⟨p', hrule', hn⟩ := mem_symbolsAt_iff.mp (List.maxOn?_mem hlongest)
  rcases hrivals _ hrule' with heq | hlt
  · cases heq
    rw [longestSymbol?, hlongest, Nat.le_antisymm (hmax n hn) hle]
  · have := hlt n hn
    omega

/-- The text is cut behind a word that is the longest symbol. Rules that cannot start with the
characters of `s` do not compete with a word that does. -/
theorem symbols?_append {s : CharClass} {c : Char} {cs : List Char} (hc : s.contains c)
    (hrule : (kind, p) ∈ symbolRules) (hword : p.Describes (c :: cs) rest)
    (hmax : ∀ n ∈ p.lengths (c :: cs ++ rest), n ≤ (c :: cs).length)
    (hrivals : ∀ rule ∈ symbolRules, rule = (kind, p) ∨ rule.2.avoids s ∨
      ∀ n ∈ rule.2.lengths (c :: cs ++ rest), n < (c :: cs).length) :
    symbols? (c :: cs ++ rest) =
      (symbols? rest).map ((toSymbol? kind (c :: cs)).toList ++ ·) := by
  have hlongest : longestSymbol? (c :: cs ++ rest) = some (kind, cs.length + 1) := by
    refine longestSymbol?_append hrule hword hmax fun rule hrule => ?_
    rcases hrivals rule hrule with heq | havoids | hlt
    · exact .inl heq
    · refine .inr fun n hn => ?_
      rw [List.cons_append, lengths_eq_nil_of_avoids havoids hc] at hn
      cases hn
    · exact .inr hlt
  rw [symbols?, if_neg (by simp), hlongest]
  simp

/-- Blanks up to another character are dropped. -/
theorem symbols?_blanks (hword : ∀ c ∈ word, blanks.contains c)
    (hrest : ∀ c ∈ rest.head?, blanks.contains c = false) :
    symbols? (word ++ rest) = symbols? rest := by
  cases word with
  | nil => rfl
  | cons c cs =>
    have hrivals : ∀ rule ∈ symbolRules, rule = (.blank, many1 blanks) ∨ rule.2.avoids blanks := by
      decide
    have hrule : (SymbolKind.blank, many1 blanks) ∈ symbolRules := by decide
    have hmax : ∀ n ∈ (many1 blanks).lengths (c :: cs ++ rest), n ≤ (c :: cs).length :=
      fun n hn => le_length_of_mem_lengths (by simpa [uses, classes]) hn
    rw [symbols?_append (hword c (by simp)) hrule ⟨by simp, hword⟩ hmax
      fun rule hrule => (hrivals rule hrule).imp_right .inl]
    simp [toSymbol?]

/-- A blank is dropped. -/
theorem symbols?_blank (cs : List Char) : symbols? (' ' :: cs) = symbols? cs := by
  obtain ⟨bs, rest, rfl, hbs, hrest⟩ := blanks.exists_append cs
  have hword : ∀ c ∈ ' ' :: bs, blanks.contains c := by
    intro c hc
    rcases List.mem_cons.mp hc with rfl | hc
    · decide
    · exact hbs c hc
  rw [symbols?_blanks hbs hrest, ← List.cons_append, symbols?_blanks hword hrest]

/-- A name is cut off where it ends. -/
theorem symbols?_name (hword : Lexicon.name.Describes word rest)
    (hrest : ∀ c ∈ rest.head?, Lexicon.name.uses c = false) :
    symbols? (word ++ rest) = (symbols? rest).map (⟨.name, String.ofList word⟩ :: ·) := by
  obtain ⟨c, cs, hc, -, rfl⟩ := describes_name_iff.mp hword
  have hrivals : ∀ rule ∈ symbolRules, rule = (.name, Lexicon.name) ∨ rule.2.avoids nameStart := by
    decide
  exact symbols?_append hc (by decide) hword (fun n hn => le_length_of_mem_lengths hrest hn)
    fun rule hrule => (hrivals rule hrule).imp_right .inl

/-- The rules for numbers are the only ones that start with a digit. -/
theorem eq_or_avoids_digits : ∀ rule ∈ symbolRules, rule = (.integer, many1 digits) ∨
    rule = (.decimal, decimalLiteral) ∨ rule.2.avoids digits := by
  decide

/-- A number without a point is cut off where neither a digit nor a point follows. -/
theorem symbols?_integer (hword : (many1 digits).Describes word rest)
    (hrest : ∀ c ∈ rest.head?, decimalLiteral.uses c = false) :
    symbols? (word ++ rest) = (symbols? rest).map (⟨.integer, String.ofList word⟩ :: ·) := by
  obtain ⟨hne, hdigits⟩ := hword
  obtain ⟨c, cs, rfl⟩ := List.exists_cons_of_ne_nil hne
  have hmax : ∀ n ∈ (many1 digits).lengths (c :: cs ++ rest), n ≤ (c :: cs).length :=
    fun n hn => le_length_of_mem_lengths (fun d hd => uses_digits_eq_false (hrest d hd)) hn
  have hrule : (SymbolKind.integer, many1 digits) ∈ symbolRules := by decide
  refine symbols?_append (hdigits c (by simp)) hrule ⟨hne, hdigits⟩ hmax fun rule hrule => ?_
  rcases eq_or_avoids_digits rule hrule with rfl | rfl | havoids
  · exact .inl rfl
  · right; right
    rw [lengths_decimalLiteral_eq_nil hdigits hrest]
    exact fun n hn => absurd hn List.not_mem_nil
  · exact .inr (.inl havoids)

/-- A number with a point is cut off where no digit follows. -/
theorem symbols?_decimal (hword : decimalLiteral.Describes word rest)
    (hrest : ∀ c ∈ rest.head?, decimalLiteral.uses c = false) :
    symbols? (word ++ rest) = (symbols? rest).map (⟨.decimal, String.ofList word⟩ :: ·) := by
  obtain ⟨ds, fs, ⟨hne, hds⟩, -, rfl⟩ := describes_decimalLiteral_iff.mp hword
  obtain ⟨d, ds, rfl⟩ := List.exists_cons_of_ne_nil hne
  have hrule : (SymbolKind.decimal, decimalLiteral) ∈ symbolRules := by decide
  refine symbols?_append (hds d (by simp)) hrule hword
    (fun n hn => le_length_of_mem_lengths hrest hn) fun rule hrule => ?_
  rcases eq_or_avoids_digits rule hrule with rfl | rfl | havoids
  · right; right
    intro n hn
    -- the digits alone end at the point
    have hmem : n ∈ (many1 digits).lengths (d :: ds ++ '.' :: (fs ++ rest)) := by simpa using hn
    have hle : n ≤ (d :: ds).length := by
      refine le_length_of_mem_lengths ?_ hmem
      rintro c ⟨⟩
      decide
    simp at hle ⊢
    omega
  · exact .inl rfl
  · exact .inr (.inl havoids)

/-- A character literal is cut off whatever follows. -/
theorem symbols?_character (hword : Lexicon.character.Describes word rest) :
    symbols? (word ++ rest) = (symbols? rest).map (⟨.character, String.ofList word⟩ :: ·) := by
  obtain ⟨c, -, rfl⟩ := describes_character_iff.mp hword
  have hrivals : ∀ rule ∈ symbolRules, rule = (.character, Lexicon.character) ∨
      rule.2.avoids (.exactly '\'') := by
    decide
  exact symbols?_append (s := .exactly '\'') (by decide) (by decide) hword
    (fun n hn => Nat.le_of_eq (eq_three_of_mem_lengths_character hn))
    fun rule hrule => (hrivals rule hrule).imp_right .inl

/-- A symbol of one character is cut off, if it is not the first half of one of two. -/
theorem symbols?_char {c : Char} (hkind : kind ≠ .blank) (hrule : (kind, char c) ∈ symbolRules)
    (hrivals : ∀ rule ∈ symbolRules, rule = (kind, char c) ∨ rule.2.avoids (.exactly c) ∨
      rule.2 = seq (char c) (char c) ∧ c ∉ rest.head?) :
    symbols? (c :: rest) = (symbols? rest).map (⟨kind, String.ofList [c]⟩ :: ·) := by
  have hc : (CharClass.exactly c).contains c := by simp [CharClass.contains]
  have hword : (char c).Describes [c] rest := describes_char_iff.mpr rfl
  have hmax : ∀ n ∈ (char c).lengths ([c] ++ rest), n ≤ [c].length := by
    simp [char, lengths, hc]
  have hcut := symbols?_append hc hrule hword hmax fun rule hrule => by
    refine (hrivals rule hrule).imp_right (Or.imp_right ?_)
    rintro ⟨hpattern, hrest⟩ n hn
    cases rest with
    | nil => simp [hpattern, char, lengths, CharClass.contains] at hn
    | cons d rest => simp_all [char, lengths, CharClass.contains]
  simpa [toSymbol?, hkind] using hcut

end Cutting

end Straightline.Java
