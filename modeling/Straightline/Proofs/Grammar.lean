import Mathlib
import Straightline.Program.Parse

/-!
# The grammar of programs

The language as a system of rules, without regard to how tokens are read. `Expression` derives
operands and formulas, `Statement` derives statements, and `Derives` derives programs together with
the variables that they declare.

* A formula is a sign or none, an operand, and any number of further operands with an operator
  before each. The rule `chain` adds one operator and one operand behind a formula, so all operators
  group from the left, and a sign stays with the first operand (`formula_iff`).
* A name stands for the variable of its first declaration in an earlier statement (`FirstDeclared`).
  The declarations are kept in a plain list, repeated names included; `Scope.ofDeclarations` is the
  scope that they make.
-/

namespace Straightline

/-- The type that a keyword names. -/
def PrimType.ofKind? : Kind → Option PrimType
  | .int32 => some .int32
  | .float32 => some .float32
  | .char => some .char
  | _ => none

/-- The sign that a token stands for in front of an operand. -/
def UnaryOp.signOfKind? : Kind → Option UnaryOp
  | .plus => some .plus
  | .minus => some .minus
  | _ => none

/-- The kind of literal that a token makes as an operand. A string is no operand. -/
def LiteralKind.operandOfKind? : Kind → Option LiteralKind
  | .integer => some .integer
  | .decimal => some .decimal
  | .character => some .character
  | _ => none

namespace Grammar

/-- The variable `v` is the first of its name among declarations. -/
def FirstDeclared (declared : List Variable) (name : String) (v : Variable) : Prop :=
  ∃ earlier later, declared = earlier ++ v :: later ∧ v.name = name ∧
    ∀ u ∈ earlier, u.name ≠ name

/-- The two categories of expressions. -/
inductive Category where
  /-- A name, a literal, or a formula in parentheses. -/
  | operand
  /-- Operands with operators between them, and a sign in front or none. -/
  | formula
deriving DecidableEq, Repr

/-- The expressions behind the given declarations: the tokens of each, and its tree. -/
inductive Expression (declared : List Variable) : Category → List Token → Term → Prop
  /-- A name stands for the variable that was declared first. -/
  | name {t : Token} {v : Variable} (hkind : t.kind = .name)
      (hfirst : FirstDeclared declared t.text v) : Expression declared .operand [t] (.var v)
  /-- A literal keeps its text. -/
  | literal {t : Token} {kind : LiteralKind}
      (hkind : LiteralKind.operandOfKind? t.kind = some kind) :
      Expression declared .operand [t] (.lit kind t.text)
  /-- Parentheses leave no trace in the tree. -/
  | parens {l r : Token} {ts : List Token} {e : Term} (hl : l.kind = .lparen)
      (hr : r.kind = .rparen) (h : Expression declared .formula ts e) :
      Expression declared .operand (l :: ts ++ [r]) e
  /-- An operand is a formula. -/
  | unsigned {ts : List Token} {e : Term} (h : Expression declared .operand ts e) :
      Expression declared .formula ts e
  /-- A sign and an operand are a formula. -/
  | signed {t : Token} {op : UnaryOp} {ts : List Token} {e : Term}
      (hsign : UnaryOp.signOfKind? t.kind = some op) (h : Expression declared .operand ts e) :
      Expression declared .formula (t :: ts) (.unary op e)
  /-- A formula goes on with an operator and an operand; all of it so far is the left side. -/
  | chain {t : Token} {op : BinaryOp} {ts us : List Token} {left right : Term}
      (hleft : Expression declared .formula ts left) (hop : BinaryOp.ofKind? t.kind = some op)
      (hright : Expression declared .operand us right) :
      Expression declared .formula (ts ++ t :: us) (.binary op left right)

/-- The statements behind the given declarations, without their semicolons: the tokens of each, its
tree, and the variables that it declares itself. -/
inductive Statement (declared : List Variable) : List Token → Term → List Variable → Prop
  /-- A type and a name. -/
  | declaration {t name : Token} {type : PrimType} (htype : PrimType.ofKind? t.kind = some type)
      (hname : name.kind = .name) :
      Statement declared [t, name] (.var ⟨type, name.text⟩) [⟨type, name.text⟩]
  /-- A type, a name and a first value. The value cannot refer to the declaration itself. -/
  | initialized {t name eq : Token} {type : PrimType} {ts : List Token} {e : Term}
      (htype : PrimType.ofKind? t.kind = some type) (hname : name.kind = .name)
      (heq : eq.kind = .assign) (h : Expression declared .formula ts e) :
      Statement declared (t :: name :: eq :: ts) (.binary .assign (.var ⟨type, name.text⟩) e)
        [⟨type, name.text⟩]
  /-- The name of a declared variable, and a new value. -/
  | assignment {name eq : Token} {v : Variable} {ts : List Token} {e : Term}
      (hname : name.kind = .name) (hfirst : FirstDeclared declared name.text v)
      (heq : eq.kind = .assign) (h : Expression declared .formula ts e) :
      Statement declared (name :: eq :: ts) (.binary .assign (.var v) e) []
  /-- A string to be printed. -/
  | printString {p l s r : Token} (hp : p.kind = .print) (hl : l.kind = .lparen)
      (hs : s.kind = .string) (hr : r.kind = .rparen) :
      Statement declared [p, l, s, r] (.unary .print (.lit .string s.text)) []
  /-- A formula to be printed. -/
  | printFormula {p l r : Token} {ts : List Token} {e : Term} (hp : p.kind = .print)
      (hl : l.kind = .lparen) (hr : r.kind = .rparen) (h : Expression declared .formula ts e) :
      Statement declared (p :: l :: ts ++ [r]) (.unary .print e) []

/-- The programs: the tokens of each, its statements, and all their declarations in order. -/
inductive Derives : List Token → Program → List Variable → Prop
  /-- No tokens are the program without statements. -/
  | nil : Derives [] [] []
  /-- A program goes on with a statement and a semicolon. -/
  | snoc {ts us : List Token} {program : Program} {declared new : List Variable} {s : Term}
      {semicolon : Token} (h : Derives ts program declared) (hs : Statement declared us s new)
      (hsemicolon : semicolon.kind = .semicolon) :
      Derives (ts ++ us ++ [semicolon]) (program ++ [s]) (declared ++ new)

/-! ## Formulas as chains -/

/-- An operator and the operand behind it. -/
structure Segment where
  /-- The token of the operator. -/
  operator : Token
  /-- The operation that it stands for. -/
  op : BinaryOp
  /-- The tokens of the operand. -/
  tokens : List Token
  /-- The tree of the operand. -/
  operand : Term

/-- The segment is one of the language. -/
def Segment.Valid (declared : List Variable) (segment : Segment) : Prop :=
  BinaryOp.ofKind? segment.operator.kind = some segment.op ∧
    Expression declared .operand segment.tokens segment.operand

/-- The tree of segments behind `left`: their left fold. -/
def Segment.fold (left : Term) (segments : List Segment) : Term :=
  segments.foldl (fun e segment => .binary segment.op e segment.operand) left

/-- The tokens of segments. -/
def Segment.flatten (segments : List Segment) : List Token :=
  segments.flatMap fun segment => segment.operator :: segment.tokens

/-- Segments go on behind a formula. -/
theorem Expression.append_segments {declared : List Variable} {ts : List Token} {left : Term}
    (h : Expression declared .formula ts left) {segments : List Segment}
    (hvalid : ∀ segment ∈ segments, segment.Valid declared) :
    Expression declared .formula (ts ++ Segment.flatten segments) (Segment.fold left segments) := by
  induction segments generalizing ts left with
  | nil => simpa [Segment.flatten, Segment.fold] using h
  | cons segment segments ih =>
    obtain ⟨hop, hoperand⟩ := hvalid segment (by simp)
    have hrest := ih (h.chain hop hoperand) fun s hs => hvalid s (by simp [hs])
    simpa [Segment.flatten, Segment.fold] using hrest

/-- A formula is a sign or none, an operand, and segments. Its tree is the left fold of the
segments, and the sign belongs to the first operand alone. -/
theorem formula_iff {declared : List Variable} {ts : List Token} {e : Term} :
    Expression declared .formula ts e ↔
      ∃ us first segments, Expression declared .operand us first ∧
        (∀ segment ∈ segments, segment.Valid declared) ∧
        ((ts = us ++ Segment.flatten segments ∧ e = Segment.fold first segments) ∨
          ∃ t op, UnaryOp.signOfKind? t.kind = some op ∧
            ts = t :: us ++ Segment.flatten segments ∧
            e = Segment.fold (.unary op first) segments) := by
  constructor
  · intro h
    generalize hc : Category.formula = category at h
    induction h with
    | name => cases hc
    | literal => cases hc
    | parens => cases hc
    | unsigned h =>
      exact ⟨_, _, [], h, by simp, .inl ⟨by simp [Segment.flatten], rfl⟩⟩
    | signed hsign h =>
      exact ⟨_, _, [], h, by simp, .inr ⟨_, _, hsign, by simp [Segment.flatten], rfl⟩⟩
    | @chain t op ts us left right _ hop hright ihleft _ =>
      obtain ⟨vs, first, segments, hfirst, hvalid, hshape⟩ := ihleft rfl
      refine ⟨vs, first, segments ++ [⟨t, op, us, right⟩], hfirst, ?_, ?_⟩
      · intro segment hsegment
        rcases List.mem_append.mp hsegment with hs | hs
        · exact hvalid segment hs
        · rw [List.mem_singleton] at hs
          exact hs ▸ ⟨hop, hright⟩
      · rcases hshape with ⟨rfl, rfl⟩ | ⟨s, sign, hsign, rfl, rfl⟩
        · exact .inl ⟨by simp [Segment.flatten], by simp [Segment.fold]⟩
        · exact .inr ⟨s, sign, hsign, by simp [Segment.flatten], by simp [Segment.fold]⟩
  · rintro ⟨us, first, segments, hfirst, hvalid, ⟨rfl, rfl⟩ | ⟨t, op, hsign, rfl, rfl⟩⟩
    · exact hfirst.unsigned.append_segments hvalid
    · exact (hfirst.signed hsign).append_segments hvalid

end Grammar

/-! ## Scopes made by declarations -/

namespace Scope

/-- The scope that declarations make. -/
def ofDeclarations (declared : List Variable) : Scope :=
  declared.foldl declare empty

@[simp]
theorem ofDeclarations_nil : ofDeclarations [] = empty := rfl

theorem ofDeclarations_append (declared new : List Variable) :
    ofDeclarations (declared ++ new) = new.foldl declare (ofDeclarations declared) := by
  simp [ofDeclarations]

/-- A declaration makes its name known if it was not, and leaves all else as it was. -/
theorem find?_declare (scope : Scope) (v : Variable) (name : String) :
    (scope.declare v).find? name =
      (scope.find? name).or (if v.name = name then some v else none) := by
  by_cases hv : scope.contains v.name
  · rw [declare_of_contains hv]
    split
    · next h => rw [Option.or_of_isSome (h ▸ hv)]
    · rw [Option.or_none]
  · rw [find?, toList_declare_of_not_contains hv, List.find?_append, ← find?]
    congr 1
    by_cases hn : v.name = name <;> simp [hn]

/-- Declarations on top of a scope make those names known that it did not know, each by its first
declaration. -/
theorem find?_foldl_declare (scope : Scope) (declared : List Variable) (name : String) :
    (declared.foldl declare scope).find? name =
      (scope.find? name).or (declared.find? (·.name == name)) := by
  induction declared generalizing scope with
  | nil => simp
  | cons v declared ih =>
    rw [List.foldl_cons, ih, find?_declare, Option.or_assoc]
    congr 1
    by_cases hv : v.name = name <;> simp [hv]

/-- The scope gives each name the variable of its first declaration. -/
theorem find?_ofDeclarations_eq_some_iff {declared : List Variable} {name : String}
    {v : Variable} :
    (ofDeclarations declared).find? name = some v ↔ Grammar.FirstDeclared declared name v := by
  rw [ofDeclarations, find?_foldl_declare, show empty.find? name = none from rfl, Option.none_or,
    List.find?_eq_some_iff_append]
  simp only [Grammar.FirstDeclared, beq_iff_eq, Bool.not_eq_true', beq_eq_false_iff_ne]
  grind

theorem contains_ofDeclarations_of_firstDeclared {declared : List Variable} {v : Variable}
    (h : Grammar.FirstDeclared declared v.name v) : (ofDeclarations declared).contains v.name := by
  rw [contains, find?_ofDeclarations_eq_some_iff.mpr h, Option.isSome_some]

end Scope

end Straightline
