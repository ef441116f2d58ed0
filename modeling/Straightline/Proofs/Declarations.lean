import Straightline.Proofs.Emission

/-!
# Reader and writer agree on what is declared

The reader enters a declaration behind its first value, the writer enters a name where it is first
written, which is in front of that value. Still both have the same variables behind every statement
of a program: the first declaration of each name, in order (`firstDeclarations`).

Main statement: `declared_in_step`. It also says where the types are that the writer puts in front
of names: before the target of a statement that declares a name for the first time, and nowhere
else.
-/

namespace Straightline

open Grammar

/-! ## First declarations -/

/-- Of some declarations, the first one of each name, in order. -/
def firstDeclarations : List Variable → List Variable
  | [] => []
  | v :: declared => v :: (firstDeclarations declared).filter (·.name != v.name)

namespace Scope

/-- Declarations on top of a scope add those that are the first of their name and of no name in the
scope. -/
theorem toList_foldl_declare (scope : Scope) (declared : List Variable) :
    (declared.foldl declare scope).toList =
      scope.toList ++ (firstDeclarations declared).filter (!scope.contains ·.name) := by
  induction declared generalizing scope with
  | nil => simp [firstDeclarations]
  | cons v declared ih =>
    rw [List.foldl_cons, ih, firstDeclarations, List.filter_cons, List.filter_filter]
    by_cases hv : scope.contains v.name
    · -- a name of the scope: the declaration and all later ones of the name are dropped
      have hdrop (u : Variable) :
          (!scope.contains u.name && u.name != v.name) = !scope.contains u.name := by
        by_cases hname : u.name = v.name <;> simp [hname, hv]
      simp [declare_of_contains hv, hv, hdrop]
    · -- a new name: the declaration stays, and later ones of the name are dropped
      have hdrop (u : Variable) :
          (!(scope.declare v).contains u.name) =
            (!scope.contains u.name && u.name != v.name) := by
        rw [contains_declare, Bool.not_or, bne_comm]
        rfl
      simp [toList_declare_of_not_contains hv, hv, hdrop]

/-- The scope that declarations make has the first of each name, in order. -/
theorem toList_ofDeclarations (declared : List Variable) :
    (ofDeclarations declared).toList = firstDeclarations declared := by
  have hempty (name : String) : empty.contains name = false := rfl
  simp [ofDeclarations, toList_foldl_declare, hempty]

/-- Declarations make scopes without repeated names. -/
theorem distinct_ofDeclarations (declared : List Variable) :
    (ofDeclarations declared).Distinct := by
  induction declared using List.reverseRecOn with
  | nil => exact distinct_empty
  | append_singleton declared v ih =>
    rw [ofDeclarations_append]
    exact ih.declare v

/-- A scope has the names of the declarations that made it. -/
theorem contains_ofDeclarations_iff {declared : List Variable} {name : String} :
    (ofDeclarations declared).contains name ↔ name ∈ declared.map Variable.name := by
  have hempty : empty.find? name = none := rfl
  simp [contains, ofDeclarations, find?_foldl_declare, hempty]

end Scope

/-! ## Beginnings of programs -/

/-- The tokens of a program start with those of each of its beginnings. -/
theorem Grammar.Derives.exists_prefix {tokens : List Token} {program : Program}
    {declared : List Variable} (h : Derives tokens program declared) {before : Program}
    (hbefore : before <+: program) :
    ∃ ts declared', ts <+: tokens ∧ Derives ts before declared' := by
  induction h with
  | nil =>
    obtain rfl := List.prefix_nil.mp hbefore
    exact ⟨[], [], List.prefix_rfl, .nil⟩
  | snoc h hs hsemicolon ih =>
    rcases List.prefix_concat_iff.mp hbefore with rfl | hbefore
    · exact ⟨_, _, List.prefix_rfl, h.snoc hs hsemicolon⟩
    · obtain ⟨ts, declared', hts, hderives⟩ := ih hbefore
      rw [List.append_assoc]
      exact ⟨ts, declared', hts.trans (List.prefix_append _ _), hderives⟩

/-- A program that ends with a statement is the program before it, the statement and a semicolon. -/
theorem Grammar.Derives.exists_statement {tokens : List Token} {before : Program} {s : Term}
    {declared : List Variable} (h : Derives tokens (before ++ [s]) declared) :
    ∃ ts us semicolon declared' new, tokens = ts ++ us ++ [semicolon] ∧
      Derives ts before declared' ∧ Statement declared' us s new := by
  generalize hprogram : before ++ [s] = program at h
  cases h with
  | nil => simp at hprogram
  | snoc h hs hsemicolon =>
    obtain ⟨rfl, hlast⟩ := List.append_inj' hprogram rfl
    obtain rfl := List.singleton_inj.mp hlast
    exact ⟨_, _, _, _, _, rfl, h, hs⟩

namespace Java

/-! ## Types in front of names -/

/-- The type in front of the target of a statement that declares `new` behind other declarations:
there is one if the name is declared for the first time. -/
def typeMark (declared : List Variable) : List Variable → String
  | [v] => if v.name ∈ declared.map Variable.name then "" else typeKeyword v.type ++ " "
  | _ => ""

/-- The text of a statement that declares `new` behind other declarations. All of it but the type of
the target is written without regard to declarations. -/
def line (declared new : List Variable) : Term → String
  | .var v => typeMark declared new ++ v.name
  | .binary .assign (.var v) value => typeMark declared new ++ v.name ++ " = " ++ plainText value
  | .unary .print operand => "System.out.print(" ++ plainText operand ++ ");"
  | _ => ""

section Equations

variable (declared new : List Variable) (v : Variable) (e : Term)

theorem line_var : line declared new (.var v) = typeMark declared new ++ v.name := rfl

theorem line_assign :
    line declared new (.binary .assign (.var v) e) =
      typeMark declared new ++ v.name ++ " = " ++ plainText e := rfl

theorem line_print :
    line declared new (.unary .print e) = "System.out.print(" ++ plainText e ++ ");" := rfl

end Equations

/-- A variable is written with its type where its name is declared for the first time. -/
theorem text_emit_var (declared : List Variable) (v : Variable) :
    (emit (.ofDeclarations declared) (.var v)).text = typeMark declared [v] ++ v.name := by
  simp [emit_var, typeMark, ← Scope.contains_ofDeclarations_iff]

/-- The value of an assignment is written without types, since its names have all occurred. -/
theorem text_emit_assign {declared : List Variable} {e : Term} (h : IsFormula declared e)
    (v : Variable) :
    (emit (.ofDeclarations declared) (.binary .assign (.var v) e)).text =
      (emit (.ofDeclarations declared) (.var v)).text ++ " = " ++ plainText e := by
  rw [emit_assign, emit_formula h fun name hname => ?_]
  simp [emit_var, Scope.contains_declare, hname]

/-- A statement is written as its line. -/
theorem text_emit_statement {declared new : List Variable} {s : Term}
    (h : IsStatement declared s new) :
    (emit (.ofDeclarations declared) s).text = line declared new s := by
  cases h with
  | declaration => rw [text_emit_var, line_var]
  | initialized _ h => rw [text_emit_assign h, text_emit_var, line_assign]
  | assignment hfirst _ h =>
    -- the target has been declared, so there is no type before it
    have hcontains := Scope.contains_ofDeclarations_of_firstDeclared hfirst
    simp [text_emit_assign h, emit_var, hcontains, line_assign, typeMark]
  | printString => rfl
  | printFormula h => rw [emit_print, emit_formula h fun _ hname => hname, line_print]

/-! ## Reader and writer in step -/

/-- The writer behind the statements `before` knows the variables that the reader knows behind their
tokens: each name once, with its first type, in the order of first declarations. -/
structure InStep (ts : List Token) (before : Program) (declared : List Variable) : Prop where
  /-- The tokens are those of the statements, with the given declarations. -/
  derives : Derives ts before declared
  /-- Both know the same variables, in the same order. -/
  scope_eq : (emitStatements .empty before).scope = (Parse.read ts).state.scope
  /-- They are the first declarations. -/
  toList_eq : (emitStatements .empty before).scope.toList = firstDeclarations declared
  /-- No name is there twice. -/
  distinct : (emitStatements .empty before).scope.Distinct

/-- Reader and writer are in step behind every derived program of words. -/
theorem inStep_of_derives {ts : List Token} {before : Program} {declared : List Variable}
    (h : Derives ts before declared) (hts : ∀ t ∈ ts, IsWord t.kind t.text) :
    InStep ts before declared := by
  have hscope : (emitStatements .empty before).scope = .ofDeclarations declared :=
    scope_emitStatements (isProgram_of_derives h hts).1
  have hread : (Parse.read ts).state = .after before declared := by
    have hread := Parse.readFrom_derives h []
    rw [List.append_nil] at hread
    rw [Parse.read, hread]
    rfl
  refine ⟨h, by rw [hscope, hread]; rfl, ?_, ?_⟩
  · rw [hscope, Scope.toList_ofDeclarations]
  · rw [hscope]
    exact Scope.distinct_ofDeclarations declared

end Java

end Straightline
