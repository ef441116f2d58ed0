import Straightline.Java.Body
import Straightline.Proofs.Places
import Straightline.Proofs.WellFormed

/-!
# The layout of a tree

A tree is written in pieces: names and literals, which are words of the source, and the keywords,
signs and parentheses around them. How they follow one another is the same whatever stands in front
of the variables and whichever operands have parentheses, so `layout` takes both as arguments, by
address.

Three texts are made from it. `textWith` has parentheses by choice and no types, `write` has types
by choice and the parentheses that are needed, and `plainText` has no types and these parentheses.

Main statements: `text_emit_of_marks`, by which a tree is written in a scope as it is laid out with
types at the occurrences that the scope does not know, and `emit_eq_plainText` for a scope that
knows all of them.
-/

namespace Straightline

/-! ## Occurrences -/

/-- A part of a tree, by the numbers of the parts on the way down to it. -/
abbrev Address := List Nat

/-- The part of a tree at an address. -/
def Term.at? : Term → Address → Option Term
  | e, [] => some e
  | .binary _ left _, 0 :: address => left.at? address
  | .binary _ _ right, 1 :: address => right.at? address
  | .unary _ operand, 0 :: address => operand.at? address
  | _, _ => none

/-- A variable, and where it stands. -/
structure Occurrence extends Variable where
  address : Address
deriving DecidableEq, Repr

namespace Occurrence

/-- The occurrence in a tree that has this tree at the given address. -/
def below (above : Address) (o : Occurrence) : Occurrence :=
  { o with address := above ++ o.address }

@[simp]
theorem toVariable_below (above : Address) (o : Occurrence) :
    (o.below above).toVariable = o.toVariable := rfl

@[simp]
theorem address_below (above : Address) (o : Occurrence) :
    (o.below above).address = above ++ o.address := rfl

end Occurrence

/-- The occurrences of variables in a tree, from left to right. -/
def Term.occurrences : Term → List Occurrence
  | .var v => [⟨v, []⟩]
  | .lit _ _ => []
  | .binary _ left right =>
    left.occurrences.map (.below [0]) ++ right.occurrences.map (.below [1])
  | .unary _ operand => operand.occurrences.map (.below [0])

/-- The occurrences of variables in statements, which are numbered from `n` on. -/
def occurrencesFrom (n : Nat) : Program → List Occurrence
  | [] => []
  | s :: program => s.occurrences.map (.below [n]) ++ occurrencesFrom (n + 1) program

namespace Scope

/-- The scope behind occurrences. -/
def behind (scope : Scope) (os : List Occurrence) : Scope :=
  (os.map Occurrence.toVariable).foldl declare scope

@[simp]
theorem behind_nil (scope : Scope) : scope.behind [] = scope := rfl

@[simp]
theorem behind_append (scope : Scope) (os os' : List Occurrence) :
    scope.behind (os ++ os') = (scope.behind os).behind os' := by
  simp [behind]

@[simp]
theorem behind_map_below (scope : Scope) (above : Address) (os : List Occurrence) :
    scope.behind (os.map (.below above)) = scope.behind os := by
  simp [behind, Function.comp_def]

/-- Occurrences of names that are in a scope change nothing. -/
theorem behind_of_contains {scope : Scope} {os : List Occurrence}
    (h : ∀ o ∈ os, scope.contains o.name) : scope.behind os = scope := by
  induction os with
  | nil => rfl
  | cons o os ih =>
    have ho : scope.declare o.toVariable = scope := declare_of_contains (h o (by simp))
    rw [behind, List.map_cons, List.foldl_cons, ho]
    exact ih fun p hp => h p (by simp [hp])

end Scope

namespace Java

/-! ## Pieces of a text -/

/-- A piece of Java text. -/
inductive Piece where
  /-- Keywords and signs. -/
  | fixed (text : String)
  /-- A name or a literal. -/
  | word (lexeme : Lexeme)
deriving DecidableEq, Repr

namespace Piece

/-- The text of a piece. -/
def text : Piece → String
  | fixed text => text
  | word lexeme => lexeme.text

/-- The text of some pieces. -/
def join (pieces : List Piece) : String :=
  String.join (pieces.map text)

/-- Puts parentheses around some pieces, if they need them. -/
def wrap (needed : Bool) (pieces : List Piece) : List Piece :=
  if needed then fixed "(" :: pieces ++ [fixed ")"] else pieces

section Join

variable (piece : Piece) (pieces pieces' : List Piece)

@[simp]
theorem join_nil : join [] = "" := rfl

@[simp]
theorem join_cons : join (piece :: pieces) = piece.text ++ join pieces := String.join_cons

@[simp]
theorem join_append : join (pieces ++ pieces') = join pieces ++ join pieces' := by
  rw [join, List.map_append, String.join_append]
  rfl

@[simp]
theorem join_wrap (needed : Bool) : join (wrap needed pieces) = Java.wrap needed (join pieces) := by
  cases needed <;> simp [wrap, Java.wrap, text, String.append_assoc]

end Join

end Piece

/-! ## Layouts -/

/-- The operand at a side. -/
def Side.operand (left right : Term) : Side → Term
  | .left => left
  | .right => right

/-- A choice of parentheses: by the address of an operation and a side, whether the operand there
stands in parentheses. -/
abbrev Parens := Address → Side → Bool

/-- The choice for the part of a tree with the given number. -/
def Parens.part (parens : Parens) (n : Nat) : Parens := fun address => parens (n :: address)

/-- The parentheses that are written around the operands of a tree. -/
def writtenParens (e : Term) : Parens := fun address side =>
  match e.at? address with
  | some (.binary op left right) => needsParens op side (side.operand left right)
  | _ => false

/-- The pieces of a tree, with types in front of the variables at the typed addresses, and with a
choice of parentheses around the operands of operators. The operand of a sign has parentheses as
usual. -/
def layout (typed : Address → Bool) (parens : Parens) : Term → List Piece
  | .var v =>
    (if typed [] then [.fixed (typeKeyword v.type ++ " ")] else []) ++ [.word ⟨.name, v.name⟩]
  | .lit kind text => [.word ⟨kind.tokenKind, text⟩]
  | .binary op left right =>
    Piece.wrap (parens [] .left) (layout (fun a => typed (0 :: a)) (parens.part 0) left) ++
      .fixed (" " ++ op.symbol ++ " ") ::
        Piece.wrap (parens [] .right) (layout (fun a => typed (1 :: a)) (parens.part 1) right)
  | .unary op operand =>
    .fixed (opening op) ::
      Piece.wrap (operandNeedsParens op operand)
        (layout (fun a => typed (0 :: a)) (parens.part 0) operand) ++ [.fixed (closing op)]

section Equations

variable (typed : Address → Bool) (parens : Parens) (left right operand : Term)

theorem join_layout_var (v : Variable) :
    Piece.join (layout typed parens (.var v)) =
      (if typed [] then typeKeyword v.type ++ " " else "") ++ v.name := by
  cases h : typed [] <;> simp [layout, h, Piece.text]

theorem join_layout_lit (kind : LiteralKind) (text : String) :
    Piece.join (layout typed parens (.lit kind text)) = text := by
  simp [layout, Piece.text]

theorem join_layout_binary (op : BinaryOp) :
    Piece.join (layout typed parens (.binary op left right)) =
      wrap (parens [] .left)
          (Piece.join (layout (fun a => typed (0 :: a)) (parens.part 0) left)) ++
        " " ++ op.symbol ++ " " ++
        wrap (parens [] .right)
          (Piece.join (layout (fun a => typed (1 :: a)) (parens.part 1) right)) := by
  simp [layout, Piece.text, String.append_assoc]

theorem join_layout_unary (op : UnaryOp) :
    Piece.join (layout typed parens (.unary op operand)) =
      opening op ++
        wrap (operandNeedsParens op operand)
          (Piece.join (layout (fun a => typed (0 :: a)) (parens.part 0) operand)) ++
        closing op := by
  simp [layout, Piece.text, String.append_assoc]

end Equations

/-- The text of a tree without types, with a choice of parentheses around the operands of its
operators. -/
def textWith (parens : Parens) (e : Term) : String :=
  Piece.join (layout (fun _ => false) parens e)

/-- The text of a tree with types in front of the variables at the given addresses. -/
def write (typed : Address → Bool) (e : Term) : String :=
  Piece.join (layout typed (writtenParens e) e)

section Write

variable (typed : Address → Bool) (left right operand : Term)

theorem write_binary (op : BinaryOp) :
    write typed (.binary op left right) =
      wrap (needsParens op .left left) (write (fun a => typed (0 :: a)) left) ++
        " " ++ op.symbol ++ " " ++
        wrap (needsParens op .right right) (write (fun a => typed (1 :: a)) right) := by
  have hleft : (writtenParens (.binary op left right)).part 0 = writtenParens left := rfl
  have hright : (writtenParens (.binary op left right)).part 1 = writtenParens right := rfl
  rw [write, join_layout_binary, hleft, hright]
  rfl

theorem write_unary (op : UnaryOp) :
    write typed (.unary op operand) =
      opening op ++
        wrap (operandNeedsParens op operand) (write (fun a => typed (0 :: a)) operand) ++
        closing op := by
  have hoperand : (writtenParens (.unary op operand)).part 0 = writtenParens operand := rfl
  rw [write, join_layout_unary, hoperand]
  rfl

end Write

/-- The text of a tree whose names have all occurred before it. -/
def plainText (e : Term) : String :=
  write (fun _ => false) e

/-- With the parentheses that are written, the text is the one that is written. -/
theorem textWith_writtenParens (e : Term) : textWith (writtenParens e) e = plainText e := rfl

section Plain

variable (left right operand : Term)

theorem plainText_var (v : Variable) : plainText (.var v) = v.name := by
  simp [plainText, write, join_layout_var]

theorem plainText_lit (kind : LiteralKind) (text : String) :
    plainText (.lit kind text) = text := by
  rw [plainText, write, join_layout_lit]

theorem plainText_binary (op : BinaryOp) :
    plainText (.binary op left right) =
      wrap (needsParens op .left left) (plainText left) ++ " " ++ op.symbol ++ " " ++
        wrap (needsParens op .right right) (plainText right) :=
  write_binary (fun _ => false) left right op

theorem plainText_unary (op : UnaryOp) :
    plainText (.unary op operand) =
      opening op ++ wrap (operandNeedsParens op operand) (plainText operand) ++ closing op :=
  write_unary (fun _ => false) operand op

end Plain

/-- The pieces of statements, which are numbered from `n` on. -/
def layoutFrom (typed : Address → Bool) (n : Nat) : Program → List Piece
  | [] => []
  | s :: program =>
    layout (fun a => typed (n :: a)) (writtenParens s) s ++
      .fixed ";\n" :: layoutFrom typed (n + 1) program

/-! ## Marks -/

/-- The typed addresses are those of the occurrences whose names are not in the scope when their
turn comes. -/
def Marks (typed : Address → Bool) (scope : Scope) (os : List Occurrence) : Prop :=
  ∀ before o after, os = before ++ o :: after →
    (typed o.address ↔ ¬(scope.behind before).contains o.name)

namespace Marks

variable {typed : Address → Bool} {scope : Scope} {os os' : List Occurrence}

theorem left (h : Marks typed scope (os ++ os')) : Marks typed scope os := by
  rintro before o after rfl
  exact h before o (after ++ os') (by simp)

theorem right (h : Marks typed scope (os ++ os')) : Marks typed (scope.behind os) os' := by
  rintro before o after rfl
  rw [← Scope.behind_append]
  exact h (os ++ before) o after (by simp)

theorem of_below {n : Nat} (h : Marks typed scope (os.map (.below [n]))) :
    Marks (fun a => typed (n :: a)) scope os := by
  rintro before o after rfl
  simpa using h (before.map (.below [n])) (o.below [n]) (after.map (.below [n])) (by simp)

/-- Where all names have occurred, nothing is typed. -/
theorem of_contains (h : ∀ o ∈ os, scope.contains o.name) : Marks (fun _ => false) scope os := by
  rintro before o after rfl
  have hbefore : scope.behind before = scope :=
    Scope.behind_of_contains fun p hp => h p (by simp [hp])
  simp [hbefore, h o (by simp)]

end Marks

/-! ## Writing in a scope -/

/-- The scope behind a tree is the one behind its occurrences. -/
theorem scope_emit (scope : Scope) (e : Term) :
    (emit scope e).scope = scope.behind e.occurrences := by
  induction e generalizing scope with
  | var v => rfl
  | lit kind text => rfl
  | binary op left right ihleft ihright =>
    rw [emit_binary, Term.occurrences, Scope.behind_append, Scope.behind_map_below,
      Scope.behind_map_below, ihright, ihleft]
  | unary op operand ih => rw [emit_unary, Term.occurrences, Scope.behind_map_below, ih]

/-- A tree is written in a scope as it is laid out with types where the scope lacks the names. -/
theorem text_emit_of_marks {typed : Address → Bool} {scope : Scope} {e : Term}
    (h : Marks typed scope e.occurrences) : (emit scope e).text = write typed e := by
  induction e generalizing typed scope with
  | var v =>
    have hv : typed [] ↔ ¬scope.contains v.name := h [] ⟨v, []⟩ [] rfl
    rw [emit_var, write, join_layout_var]
    by_cases hscope : scope.contains v.name <;> simp_all
  | lit kind text => rw [emit_lit, write, join_layout_lit]
  | binary op left right ihleft ihright =>
    -- the turn of the right operand comes behind the occurrences of the left one
    have hright := h.right.of_below
    rw [Scope.behind_map_below, ← scope_emit] at hright
    rw [emit_binary, ihleft h.left.of_below, ihright hright, write_binary]
  | unary op operand ih => rw [emit_unary, ih h.of_below, write_unary]

/-- So are statements, whose scopes follow one another. -/
theorem text_emitStatements_of_marks {typed : Address → Bool} {scope : Scope} {n : Nat}
    {program : Program} (h : Marks typed scope (occurrencesFrom n program)) :
    (emitStatements scope program).text = Piece.join (layoutFrom typed n program) := by
  induction program generalizing scope n with
  | nil => rfl
  | cons s program ih =>
    have hright := h.right
    rw [Scope.behind_map_below, ← scope_emit] at hright
    rw [emitStatements, text_emit_of_marks h.left.of_below, ih hright, layoutFrom,
      Piece.join_append, Piece.join_cons, String.append_assoc]
    rfl

/-- A tree whose names have all occurred is written without types. -/
theorem emit_eq_plainText {scope : Scope} {e : Term}
    (h : ∀ o ∈ e.occurrences, scope.contains o.name) : emit scope e = ⟨plainText e, scope⟩ := by
  have htext : (emit scope e).text = plainText e := text_emit_of_marks (.of_contains h)
  have hscope : (emit scope e).scope = scope := by rw [scope_emit, Scope.behind_of_contains h]
  calc emit scope e = ⟨(emit scope e).text, (emit scope e).scope⟩ := rfl
    _ = ⟨plainText e, scope⟩ := by rw [htext, hscope]

end Java

end Straightline
