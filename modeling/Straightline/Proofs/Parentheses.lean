import Straightline.Proofs.Grouping

/-!
# No parentheses without need

An operand of an operator stands in parentheses only if the expression would be read as another one
without this pair, all other parentheses being where they are.

`textWith` writes an expression with any choice of parentheses around the operands of its operators.
Whatever the choice is, the text has a reading (`IsExpression.exists_lays`), but it may be that of
another tree. To tell, count the pairs: a reading of a tree has at least as many as the tree needs
(`Reading.neededPairs_le`), and the text that is written has no more than that
(`IsExpression.neededPairs_ofTerm`). So one pair less is one too few. Pairs right behind a sign do
not count. They also stand around operands that would be read without them, such as in `-(-1)`, to
keep two signs apart.

Main statement: `parens_iff_reads_otherwise`.
-/

namespace Straightline

namespace Java

open Pattern Lexicon

/-! ## Choices of parentheses -/

namespace Parens

/-- The same choice, but for one operand, which has no parentheses. -/
def without (parens : Parens) (address : Address) (side : Side) : Parens :=
  fun address' side' => parens address' side' && !(address' = address && side' = side)

/-- The number of operands in parentheses. -/
def count (parens : Parens) : Term → Nat
  | .var _ | .lit _ _ => 0
  | .binary _ left right =>
    (parens [] .left).toNat + (parens.part 0).count left +
      ((parens [] .right).toNat + (parens.part 1).count right)
  | .unary _ operand => (parens.part 0).count operand

theorem without_eq_self {parens : Parens} {address : Address} {side : Side}
    (h : parens address side = false) : parens.without address side = parens := by
  funext address' side'
  rw [without, Bool.and_eq_left_iff_imp]
  intro hparens
  -- the operand is another one, since this one has no parentheses
  rw [Bool.not_eq_true', Bool.eq_false_iff, ne_eq, Bool.and_eq_true, not_and_or]
  by_contra! heq
  obtain ⟨rfl, rfl⟩ : address' = address ∧ side' = side := by simpa using heq
  rw [h] at hparens
  cases hparens

section Without

variable (parens : Parens) (address : Address) (side : Side)

@[simp]
theorem without_self : parens.without address side address side = false := by
  simp [without]

@[simp]
theorem without_nil_of_ne {side' : Side} (h : side' ≠ side) :
    parens.without [] side [] side' = parens [] side' := by
  simp [without, h]

@[simp]
theorem part_without_nil (n : Nat) : (parens.without [] side).part n = parens.part n := by
  funext address' side'
  simp [part, without]

@[simp]
theorem without_cons_nil (n : Nat) (side' : Side) :
    parens.without (n :: address) side [] side' = parens [] side' := by
  simp [without]

@[simp]
theorem part_without_self (n : Nat) :
    (parens.without (n :: address) side).part n = (parens.part n).without address side := by
  funext address' side'
  simp [part, without]

@[simp]
theorem part_without_of_ne {m n : Nat} (h : m ≠ n) :
    (parens.without (n :: address) side).part m = parens.part m := by
  funext address' side'
  simp [part, without, h]

end Without

/-- Taking away one pair leaves one less. -/
theorem count_without {parens : Parens} {e left right : Term} {op : BinaryOp} {address : Address}
    {side : Side} (hnode : e.at? address = some (.binary op left right))
    (h : parens address side) : (parens.without address side).count e + 1 = parens.count e := by
  induction address generalizing e parens with
  | nil =>
    obtain rfl : e = .binary op left right := by simpa [Term.at?] using hnode
    cases side with
    | left =>
      rw [count, count, without_self, h, without_nil_of_ne _ _ (by decide), part_without_nil,
        part_without_nil, Bool.toNat_false, Bool.toNat_true]
      omega
    | right =>
      rw [count, count, without_self, h, without_nil_of_ne _ _ (by decide), part_without_nil,
        part_without_nil, Bool.toNat_false, Bool.toNat_true]
      omega
  | cons n address ih =>
    -- the pair is in one part, and the other parts keep theirs
    cases e with
    | var | lit => simp [Term.at?] at hnode
    | unary _ operand =>
      match n, hnode with
      | 0, hnode => simpa [count] using ih hnode h
      | n + 1, hnode => simp [Term.at?] at hnode
    | binary _ left right =>
      match n, hnode with
      | 0, hnode =>
        have hleft : ((parens.part 0).without address side).count left + 1 =
            (parens.part 0).count left := ih hnode h
        simp only [count, without_cons_nil, part_without_self, ne_eq, one_ne_zero,
          not_false_eq_true, part_without_of_ne]
        omega
      | 1, hnode =>
        have hright : ((parens.part 1).without address side).count right + 1 =
            (parens.part 1).count right := ih hnode h
        simp only [count, without_cons_nil, part_without_self, ne_eq, zero_ne_one,
          not_false_eq_true, part_without_of_ne]
        omega
      | n + 2, hnode => simp [Term.at?] at hnode

end Parens

theorem textWith_of_isUnsignedAtom {e : Term} (parens : Parens) (h : isUnsignedAtom e) :
    textWith parens e = plainText e := by
  cases e with
  | var | lit => rfl
  | binary | unary => cases h

/-! ## Counting pairs -/

/-- What stands in front of a symbol. -/
inductive Front where
  /-- An operand, so that a sign would be an operator. -/
  | operand
  /-- A sign that belongs to what follows. -/
  | sign
  /-- An operator, an opening parenthesis or nothing. -/
  | other
deriving DecidableEq, Repr

/-- What stands in front of the next symbol. -/
def Front.next (front : Front) (s : Symbol) : Front :=
  if s.kind.isAtom || s.kind = .rparen then .operand
  else if front ≠ .operand && s.kind.sign?.isSome then .sign
  else .other

/-- What stands behind symbols. -/
def Front.behind (front : Front) (ss : List Symbol) : Front := ss.foldl next front

/-- The number of opening parentheses, those right behind a sign not counted. -/
def pairs (front : Front) : List Symbol → Nat
  | [] => 0
  | s :: ss => (decide (s.kind = .lparen) && front ≠ .sign).toNat + pairs (front.next s) ss

theorem pairs_append (front : Front) (ss ts : List Symbol) :
    pairs front (ss ++ ts) = pairs front ss + pairs (front.behind ss) ts := by
  induction ss generalizing front with
  | nil => simp [pairs, Front.behind]
  | cons s ss ih =>
    rw [List.cons_append, pairs, pairs, ih, Nat.add_assoc]
    rfl

/-- Without parentheses there are no pairs. -/
theorem pairs_eq_zero {front : Front} {ss : List Symbol} (h : ∀ s ∈ ss, s.kind ≠ .lparen) :
    pairs front ss = 0 := by
  induction ss generalizing front with
  | nil => rfl
  | cons s ss ih =>
    have hs : s.kind ≠ .lparen := h s (by simp)
    simp [pairs, hs, ih fun t ht => h t (by simp [ht])]

/-- What has been read is an operand. -/
theorem Reading.behind_eq_operand {rank : Rank} {ss : List Symbol} {e : Expr}
    (h : Reading rank ss e) (front : Front) : front.behind ss = .operand := by
  induction h generalizing front with
  | atom hs => simp [Front.behind, Front.next, hs]
  | parens _ hr _ _ => simp [Front.behind, Front.next, hr]
  | unsigned _ ih | factor _ ih | summand _ ih => exact ih front
  | sign _ _ ih => exact ih _
  | product _ _ _ _ ihright | sum _ _ _ _ ihright =>
    rw [Front.behind, List.foldl_append]
    exact ihright _

/-- A symbol that stands for an operator between operands. -/
def IsOperator (t : Symbol) (op : BinaryOp) : Prop :=
  t.kind.additive? = some op ∨ t.kind.multiplicative? = some op

theorem exists_isOperator {op : BinaryOp} (hop : op ≠ .assign) :
    ∃ s : Symbol, (∀ rest, symbols? (op.symbol.toList ++ ' ' :: rest) =
      (symbols? (' ' :: rest)).map (s :: ·)) ∧ IsOperator s op := by
  obtain ⟨s, hoperator, hsum, hproduct⟩ := exists_symbol_of_operator hop
  refine ⟨s, hoperator, ?_⟩
  cases op with
  | assign => exact absurd rfl hop
  | add | sub => exact .inl (hsum rfl)
  | mul | div | mod => exact .inr (hproduct rfl)

/-- Behind an operand and an operator, it goes on as at the start. -/
theorem pairs_operator {t : Symbol} {op : BinaryOp} (ht : IsOperator t op) (ss : List Symbol) :
    pairs .operand (t :: ss) = pairs .other ss := by
  have hnext : t.kind ≠ .lparen ∧ Front.next .operand t = .other := by
    rcases ht with ht | ht <;> cases hkind : t.kind <;>
      simp_all [SymbolKind.additive?, SymbolKind.multiplicative?, Front.next, SymbolKind.isAtom]
  simp [pairs, hnext.1, hnext.2]

/-- The pairs of an operation are those of its operands. -/
theorem pairs_binary {rank : Rank} {ls rs : List Symbol} {t : Symbol} {op : BinaryOp} {e : Expr}
    (hleft : Reading rank ls e) (ht : IsOperator t op) :
    pairs .other (ls ++ t :: rs) = pairs .other ls + pairs .other rs := by
  rw [pairs_append, hleft.behind_eq_operand, pairs_operator ht]

/-- Behind a sign that is no operator, the pairs are those behind a sign. -/
theorem pairs_sign {front : Front} (hfront : front ≠ .operand) {s : Symbol} {op : UnaryOp}
    (hs : s.kind.sign? = some op) (ss : List Symbol) : pairs front (s :: ss) = pairs .sign ss := by
  have hnext : s.kind ≠ .lparen ∧ front.next s = .sign := by
    cases hkind : s.kind <;> simp_all [SymbolKind.sign?, Front.next, SymbolKind.isAtom]
  simp [pairs, hnext.1, hnext.2]

/-- The pair around an expression counts, unless it is right behind a sign. -/
theorem pairs_parens {rank : Rank} {l r : Symbol} {ss : List Symbol} {e : Expr}
    (hl : l.kind = .lparen) (hr : r.kind = .rparen) (h : Reading rank ss e) (front : Front) :
    pairs front (l :: ss ++ [r]) = (decide (front ≠ .sign)).toNat + pairs .other ss := by
  have hnext : front.next l = .other := by
    simp [Front.next, hl, SymbolKind.isAtom, SymbolKind.sign?]
  rw [List.cons_append, pairs, hnext, pairs_append, h.behind_eq_operand]
  simp [pairs, hl, hr]

/-! ## A tree needs its pairs -/

/-- Whether an expression of this rank needs parentheses where another rank is asked for. -/
def Rank.lacks (own asked : Rank) : Bool := own.tightness < asked.tightness

/-- The pairs that an expression needs where a rank is asked for. What stands behind a sign may
be of any rank, since the pair there does not count. -/
def Expr.neededPairs (asked : Rank) : Expr → Nat
  | .atom _ => 0
  | .signed _ operand => (Rank.signed.lacks asked).toNat + operand.neededPairs .sum
  | .binary op left right =>
    ((operatorRank op).lacks asked).toNat +
      (left.neededPairs (operandRank op .left) + right.neededPairs (operandRank op .right))

theorem Rank.lacks_mono {own asked asked' : Rank} (h : asked.tightness ≤ asked'.tightness) :
    (own.lacks asked).toNat ≤ (own.lacks asked').toNat := by
  apply Bool.toNat_le_toNat
  simp only [lacks, Bool.le_iff_imp, decide_eq_true_eq]
  omega

theorem Expr.neededPairs_mono {asked asked' : Rank} (h : asked.tightness ≤ asked'.tightness)
    (e : Expr) : e.neededPairs asked ≤ e.neededPairs asked' := by
  have hlacks (own : Rank) := own.lacks_mono h
  cases e with
  | atom => exact le_rfl
  | signed | binary => exact Nat.add_le_add_right (hlacks _) _

/-- One pair is enough for any place. -/
theorem Expr.neededPairs_le_succ (asked : Rank) (e : Expr) :
    e.neededPairs asked ≤ e.neededPairs .sum + 1 := by
  have hlacks (own : Rank) : (own.lacks asked).toNat ≤ 1 := Bool.toNat_le _
  cases e with
  | atom => simp [neededPairs]
  | signed op operand =>
    have := hlacks .signed
    simp only [neededPairs]
    omega
  | binary op left right =>
    have := hlacks (operatorRank op)
    simp only [neededPairs]
    omega

theorem operatorRank_of_multiplicative? {kind : SymbolKind} {op : BinaryOp}
    (h : kind.multiplicative? = some op) : operatorRank op = .product := by
  cases kind <;> cases h <;> rfl

theorem operatorRank_of_additive? {kind : SymbolKind} {op : BinaryOp}
    (h : kind.additive? = some op) : operatorRank op = .sum := by
  cases kind <;> cases h <;> rfl

/-- A reading has at least the pairs that its tree needs. -/
theorem Reading.neededPairs_le {rank : Rank} {ss : List Symbol} {e : Expr} (h : Reading rank ss e) :
    e.neededPairs rank ≤ pairs .other ss ∧
      (2 ≤ rank.tightness → e.neededPairs .sum ≤ pairs .sign ss) := by
  -- the second part is for the operands of signs: their own pair does not count, but without one
  -- they have to be tight enough
  induction h with
  | atom hs => simp [Expr.neededPairs]
  | @parens l r ss e hl hr h ih =>
    rw [pairs_parens hl hr h, pairs_parens hl hr h]
    constructor
    · -- whatever rank the place asks for, this pair is enough for it
      calc e.neededPairs .primary
          ≤ e.neededPairs .sum + 1 := e.neededPairs_le_succ .primary
        _ ≤ pairs .other ss + 1 := Nat.add_le_add_right ih.1 1
        _ = 1 + pairs .other ss := Nat.add_comm ..
    · simpa using fun _ => ih.1
  | @unsigned ss e _ ih =>
    exact ⟨(e.neededPairs_mono (by decide)).trans ih.1, fun _ => ih.2 (by decide)⟩
  | @sign s op ss e hs _ ih =>
    rw [pairs_sign (by decide) hs, pairs_sign (by decide) hs]
    have hinside : e.neededPairs .sum ≤ pairs .sign ss := ih.2 le_rfl
    simpa [Expr.neededPairs, Rank.lacks, Rank.tightness] using hinside
  | @factor ss e _ ih =>
    exact ⟨(e.neededPairs_mono (by decide)).trans ih.1, by simp [Rank.tightness]⟩
  | product hleft ht _ ihleft ihright =>
    rw [pairs_binary hleft (.inr ht)]
    have hrank := operatorRank_of_multiplicative? ht
    refine ⟨?_, by simp [Rank.tightness]⟩
    simpa [Expr.neededPairs, operandRank, hrank, Rank.lacks] using Nat.add_le_add ihleft.1 ihright.1
  | @summand ss e _ ih =>
    exact ⟨(e.neededPairs_mono (by decide)).trans ih.1, by simp [Rank.tightness]⟩
  | sum hleft ht _ ihleft ihright =>
    rw [pairs_binary hleft (.inl ht)]
    have hrank := operatorRank_of_additive? ht
    refine ⟨?_, by simp [Rank.tightness]⟩
    simpa [Expr.neededPairs, operandRank, hrank, Rank.lacks] using Nat.add_le_add ihleft.1 ihright.1

/-! ## A text has no pairs without need -/

/-- Operands get parentheses exactly where they are too loose. -/
theorem IsExpression.needsParens_eq_lacks {operand : Term} (h : IsExpression operand)
    {op : BinaryOp} (hop : op ≠ .assign) (side : Side) :
    needsParens op side operand = (rank operand).lacks (operandRank op side) := by
  cases hneeds : needsParens op side operand with
  | false =>
    have hle := tightness_le_of_needsParens hop hneeds
    simpa [Rank.lacks] using hle
  | true =>
    cases h with
    | @binary inner _ _ hinner =>
      cases op <;> cases side <;> cases inner <;>
        simp_all [needsParens, tier, operandRank, operatorRank, rank, Rank.lacks, Rank.tightness]
    | var | lit | unary => cases hneeds

theorem Expr.neededPairs_ofLiteral (asked : Rank) (kind : LiteralKind) (text : String) :
    (ofLiteral kind text).neededPairs asked = ((rank (.lit kind text)).lacks asked).toNat := by
  have hprimary : Rank.primary.lacks asked = false := by cases asked <;> rfl
  cases hkind : kind.isNumber with
  | false => simp [ofLiteral, rank, hkind, neededPairs, hprimary]
  | true =>
    cases hsigned : isSigned text with
    | false => simp [ofLiteral_of_isSigned hsigned, rank, hsigned, neededPairs, hprimary]
    | true =>
      cases htext : text.toList with
      | nil => simp [isSigned, htext] at hsigned
      | cons c cs =>
        have hc : c = '+' ∨ c = '-' := by simpa [isSigned, htext] using hsigned
        rcases hc with rfl | rfl <;> simp [ofLiteral, rank, hkind, htext, hsigned, neededPairs]

/-- The pairs that a tree needs are those that are written, and one more where it is too loose. -/
theorem IsExpression.neededPairs_ofTerm {e : Term} (h : IsExpression e) (asked : Rank) :
    (Expr.ofTerm e).neededPairs asked =
      ((rank e).lacks asked).toNat + (writtenParens e).count e := by
  induction h generalizing asked with
  | var => cases asked <;> rfl
  | lit => exact Expr.neededPairs_ofLiteral ..
  | @binary op left right hop hleft hright ihleft ihright =>
    rw [Expr.ofTerm, Expr.neededPairs, ihleft, ihright, ← hleft.needsParens_eq_lacks hop,
      ← hright.needsParens_eq_lacks hop]
    rfl
  | @unary op operand _ _ ih =>
    have hsum : (rank operand).lacks .sum = false := by simp [Rank.lacks, Rank.tightness]
    rw [Expr.ofTerm, Expr.neededPairs, ih, hsum, Bool.toNat_false, Nat.zero_add]
    rfl

/-! ## Every choice of parentheses can be read -/

/-- Products with an operator of the higher tier between them are a product. -/
theorem Reading.exists_product {ss ts : List Symbol} {e e' : Expr} (h : Reading .product ss e)
    (h' : Reading .product ts e') {t : Symbol} {op : BinaryOp}
    (ht : t.kind.multiplicative? = some op) : ∃ tree, Reading .product (ss ++ t :: ts) tree := by
  generalize hrank : Rank.product = rank at h'
  induction h' with
  | factor h' => exact ⟨_, .product h ht h'⟩
  | product _ hu hright ih =>
    -- the first factor joins the product before it
    obtain ⟨tree, htree⟩ := ih hrank
    rw [← List.cons_append, ← List.append_assoc]
    exact ⟨_, .product htree hu hright⟩
  | atom | parens | unsigned | sign | summand | sum => cases hrank

/-- Sums with an operator between them are a sum. -/
theorem Reading.exists_sum {ss ts : List Symbol} {e e' : Expr} (h : Reading .sum ss e)
    (h' : Reading .sum ts e') {t : Symbol} {op : BinaryOp} (ht : IsOperator t op) :
    ∃ tree, Reading .sum (ss ++ t :: ts) tree := by
  generalize hrank : Rank.sum = rank at h'
  induction h' with
  | summand h' =>
    rcases ht with ht | ht
    · exact ⟨_, .sum h ht h'⟩
    · -- the first summand joins the last one of the sum before it
      cases h with
      | summand h =>
        obtain ⟨tree, htree⟩ := h.exists_product h' ht
        exact ⟨tree, .summand htree⟩
      | sum hleft hu hright =>
        obtain ⟨tree, htree⟩ := hright.exists_product h' ht
        rw [List.append_assoc, List.cons_append]
        exact ⟨_, .sum hleft hu htree⟩
  | sum _ hu hright ih =>
    obtain ⟨tree, htree⟩ := ih hrank
    rw [← List.cons_append, ← List.append_assoc]
    exact ⟨_, .sum htree hu hright⟩
  | atom | parens | unsigned | sign | factor | product => cases hrank

/-- The symbols of a tree with a choice of parentheses. They can be read, though maybe as another
tree, and their pairs are those of the choice. -/
structure Lays (parens : Parens) (e : Term) (ss : List Symbol) : Prop where
  cuts : Cuts (textWith parens e).toList ss
  reading : ∃ tree, Reading .sum ss tree
  /-- Only operations are looser than what a sign asks for. -/
  signed : (∀ op left right, e ≠ .binary op left right) → ∃ tree, Reading .signed ss tree
  pairs_eq : pairs .other ss = parens.count e
  pairs_sign_eq : isUnsignedAtom e → pairs .sign ss = 0

namespace Lays

variable {parens : Parens} {e : Term} {ss : List Symbol}

/-- An operand of an operator, with or without parentheses. -/
theorem exists_operand (h : Lays parens e ss) (needed : Bool) :
    ∃ ts, Cuts (wrap needed (textWith parens e)).toList ts ∧ (∃ tree, Reading .sum ts tree) ∧
      pairs .other ts = needed.toNat + parens.count e := by
  obtain ⟨tree, htree⟩ := h.reading
  cases needed with
  | false => exact ⟨ss, h.cuts, ⟨tree, htree⟩, by simp [h.pairs_eq]⟩
  | true =>
    rw [toList_wrap_true]
    have hparens : Reading .primary (⟨.lparen, "("⟩ :: ss ++ [⟨.rparen, ")"⟩]) tree :=
      .parens rfl rfl htree
    refine ⟨_, h.cuts.parens, ⟨tree, hparens.loosen (Nat.zero_le _)⟩, ?_⟩
    rw [pairs_parens rfl rfl htree, h.pairs_eq]
    rfl

/-- The operand of a sign, which has parentheses as usual. -/
theorem exists_signed (h : Lays parens e ss) :
    ∃ ts, Cuts (wrap (!isUnsignedAtom e) (textWith parens e)).toList ts ∧
      (∃ tree, Reading .signed ts tree) ∧ pairs .sign ts = parens.count e := by
  cases hatom : isUnsignedAtom e with
  | true =>
    have hcount : parens.count e = 0 := by
      cases e with
      | var | lit => rfl
      | binary | unary => cases hatom
    refine ⟨ss, h.cuts, h.signed ?_, ?_⟩
    · rintro op left right rfl
      cases hatom
    · rw [h.pairs_sign_eq hatom, hcount]
  | false =>
    obtain ⟨tree, htree⟩ := h.reading
    rw [Bool.not_false, toList_wrap_true]
    refine ⟨_, h.cuts.parens, ⟨tree, .unsigned (.parens rfl rfl htree)⟩, ?_⟩
    rw [pairs_parens rfl rfl htree, h.pairs_eq]
    exact Nat.zero_add _

end Lays

/-- Every choice of parentheses lays an expression out. -/
theorem IsExpression.exists_lays {e : Term} (h : IsExpression e) (parens : Parens) :
    ∃ ss, Lays parens e ss := by
  induction h generalizing parens with
  | @var v hname =>
    have hatom : Reading .primary [⟨.name, v.name⟩] (.atom ⟨.name, v.name⟩) := .atom rfl
    exact ⟨_, .name hname, ⟨_, hatom.loosen (by decide)⟩, fun _ => ⟨_, hatom.loosen (by decide)⟩,
      rfl, fun _ => rfl⟩
  | @lit kind text hkind htext =>
    obtain ⟨ss, hcuts, hreading, hparen⟩ := exists_cuts_literal hkind htext
    have hsigned : Rank.tightness .signed ≤ (rank (.lit kind text)).tightness := by
      rw [rank]
      split <;> decide
    exact ⟨ss, hcuts, ⟨_, hreading.loosen (Nat.zero_le _)⟩, fun _ => ⟨_, hreading.loosen hsigned⟩,
      pairs_eq_zero hparen, fun _ => pairs_eq_zero hparen⟩
  | @binary op left right hop _ _ ihleft ihright =>
    obtain ⟨_, hleft⟩ := ihleft (parens.part 0)
    obtain ⟨_, hright⟩ := ihright (parens.part 1)
    obtain ⟨ls, hcutsl, ⟨_, hreadl⟩, hpairsl⟩ := hleft.exists_operand (parens [] .left)
    obtain ⟨rs, hcutsr, ⟨_, hreadr⟩, hpairsr⟩ := hright.exists_operand (parens [] .right)
    obtain ⟨s, hoperator, hs⟩ := exists_isOperator hop
    refine ⟨ls ++ s :: rs, ?_, hreadl.exists_sum hreadr hs, fun hne => absurd rfl (hne _ _ _), ?_,
      fun hatom => ?_⟩
    · rw [textWith, join_layout_binary, ← textWith, ← textWith]
      simpa using Cuts.operator hoperator hcutsl hcutsr
    · rw [pairs_binary hreadl hs, hpairsl, hpairsr]
      rfl
    · cases hatom
  | @unary op operand hop h ih =>
    obtain ⟨_, hoperand⟩ := ih (parens.part 0)
    obtain ⟨ts, hcuts, ⟨tree, htree⟩, hpairs⟩ := hoperand.exists_signed
    obtain ⟨c, s, hs⟩ := exists_isSignSymbol hop
    have hunsigned := h.isSigned_wrap (textWith_of_isUnsignedAtom (parens.part 0))
    have hreading : Reading .signed (s :: ts) (.signed op tree) := .sign hs.sign?_eq htree
    refine ⟨s :: ts, ?_, ⟨_, hreading.loosen (Nat.zero_le _)⟩, fun _ => ⟨_, hreading⟩, ?_,
      fun hatom => ?_⟩
    · rw [textWith, join_layout_unary, hs.operandNeedsParens_eq, hs.toList_append]
      exact hcuts.sign hs (hs.not_mem_head? hunsigned)
    · rw [pairs_sign (by decide) hs.sign?_eq, hpairs]
      rfl
    · cases hatom

/-! ## The main statement -/

/-- An operand of an operator stands in parentheses exactly if the whole expression is read as
another tree without this pair. -/
theorem parens_iff_reads_otherwise {scope : Scope} {e : Term} (h : IsExpression e)
    (hscope : ∀ o ∈ e.occurrences, scope.contains o.name) {address : Address} {op : BinaryOp}
    {left right : Term} (hnode : e.at? address = some (.binary op left right)) (side : Side) :
    (emit scope e).text = textWith (writtenParens e) e ∧
    writtenParens e address side = needsParens op side (side.operand left right) ∧
    ∃ tree, (∀ tree', Reads (textWith ((writtenParens e).without address side) e) tree' ↔
        tree' = tree) ∧
      (writtenParens e address side ↔ tree ≠ .ofTerm e) := by
  refine ⟨?_, by rw [writtenParens, hnode], ?_⟩
  · rw [emit_eq_plainText hscope, textWith_writtenParens]
  cases hwritten : writtenParens e address side with
  | false =>
    -- nothing to take away
    rw [Parens.without_eq_self hwritten, textWith_writtenParens]
    exact ⟨.ofTerm e, fun _ => h.reads_iff, by simp⟩
  | true =>
    obtain ⟨ss, hss⟩ := h.exists_lays ((writtenParens e).without address side)
    obtain ⟨tree, htree⟩ := hss.reading
    refine ⟨tree, fun _ => hss.cuts.reads_iff htree, iff_of_true rfl ?_⟩
    rintro rfl
    -- the text has one pair less than the tree needs
    have hcount := Parens.count_without hnode hwritten
    have hneeds : (Expr.ofTerm e).neededPairs .sum ≤ pairs .other ss := htree.neededPairs_le.1
    rw [h.neededPairs_ofTerm, hss.pairs_eq] at hneeds
    omega

/-- Without its pair, the right operand of a subtraction would fall apart: the chain in it would go
on the one before it. The tree has a name with two types, and a signed number. -/
theorem parens_iff_reads_otherwise_chain :
    ∃ scope e, (emit scope e).text = "-(a - (b - -1 - a)) * b" ∧
      ∃ tree, (∀ tree', Reads "-(a - b - -1 - a) * b" tree' ↔ tree' = tree) ∧
        tree ≠ .ofTerm e := by
  have hname (c : Char) (hc : nameStart.contains c) : IsWord .name (String.ofList [c]) :=
    (isWord_iff rfl).mpr (describes_name_iff.mpr ⟨c, [], hc, by simp, by simp⟩)
  have hone : IsWord .integer "-1" := by
    refine (isWord_iff rfl).mpr (describes_integer_iff.mpr ⟨['-'], ['1'], ?_, ?_, rfl⟩)
    · exact isSign_iff.mpr (by decide)
    · exact .inr ⟨'1', [], by decide, by simp, rfl⟩
  have h : IsExpression (.binary .mul (.unary .minus (.binary .sub (.var ⟨.int32, "a"⟩)
      (.binary .sub (.binary .sub (.var ⟨.char, "b"⟩) (.lit .integer "-1"))
        (.var ⟨.char, "a"⟩)))) (.var ⟨.char, "b"⟩)) := by
    refine .binary (by decide) (.unary (by decide) (.binary (by decide) (.var ?_)
      (.binary (by decide) (.binary (by decide) (.var ?_) (.lit (by decide) hone)) (.var ?_))))
      (.var ?_)
    · exact hname 'a' (by decide)
    · exact hname 'b' (by decide)
    · exact hname 'a' (by decide)
    · exact hname 'b' (by decide)
  obtain ⟨-, -, tree, hreads, hother⟩ := parens_iff_reads_otherwise h
    (by decide : ∀ o : Occurrence, o ∈ _ → Scope.contains ⟨[⟨.int32, "a"⟩, ⟨.char, "b"⟩]⟩ o.name)
    (rfl : Term.at? _ [0, 0] = _) .right
  exact ⟨⟨[⟨.int32, "a"⟩, ⟨.char, "b"⟩]⟩, _, rfl, tree, hreads, hother.mp rfl⟩

end Java

end Straightline
