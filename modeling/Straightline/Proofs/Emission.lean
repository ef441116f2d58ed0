import Straightline.Proofs.Layout

/-!
# Writing well-formed programs

A tree is written together with the scope of the names that have occurred. In a well-formed program
that scope is, before every statement, the scope of the declarations before it, so it is in step
with the one in which the statement was read (`scope_emitStatements`). All names of a formula have
occurred before it, so a formula is written without types, and its text depends on its tree alone
(`emit_formula`).
-/

namespace Straightline

open Grammar

namespace Scope

theorem contains_declare (scope : Scope) (v : Variable) (name : String) :
    (scope.declare v).contains name = (scope.contains name || v.name == name) := by
  rw [contains, contains, find?_declare]
  by_cases hname : v.name = name <;> simp [hname]

end Scope

namespace Java

/-! ## Formulas -/

/-- The names of a formula are those of its declarations. -/
theorem contains_of_mem_occurrences {declared : List Variable} {e : Term}
    (h : IsFormula declared e) :
    ∀ o ∈ e.occurrences, (Scope.ofDeclarations declared).contains o.name := by
  induction h with
  | var hfirst =>
    rintro o (_ | ⟨_, ⟨⟩⟩)
    exact Scope.contains_ofDeclarations_of_firstDeclared hfirst
  | lit => exact fun o ho => absurd ho List.not_mem_nil
  | binary _ _ _ ihleft ihright =>
    intro o ho
    rcases List.mem_append.mp ho with ho | ho
    · obtain ⟨p, hp, rfl⟩ := List.mem_map.mp ho
      exact ihleft p hp
    · obtain ⟨p, hp, rfl⟩ := List.mem_map.mp ho
      exact ihright p hp
  | unary _ _ ih =>
    intro o ho
    obtain ⟨p, hp, rfl⟩ := List.mem_map.mp ho
    exact ih p hp

/-- A formula is written without types and leaves the scope as it is, where the scope has the names
of its declarations. -/
theorem emit_formula {declared : List Variable} {e : Term} (h : IsFormula declared e)
    {scope : Scope} (hscope : ∀ name, (Scope.ofDeclarations declared).contains name →
      scope.contains name) : emit scope e = ⟨plainText e, scope⟩ :=
  emit_eq_plainText fun o ho => hscope o.name (contains_of_mem_occurrences h o ho)

/-! ## Statements and programs -/

/-- A statement extends the scope by what it declares. -/
theorem scope_emit_statement {declared new : List Variable} {s : Term}
    (h : IsStatement declared s new) :
    (emit (.ofDeclarations declared) s).scope = .ofDeclarations (declared ++ new) := by
  rw [Scope.ofDeclarations_append]
  cases h with
  | declaration => rfl
  | @initialized v e _ h =>
    -- the target is declared before its value is written, which hides no name from the value
    rw [emit_assign, emit_formula h fun name hname => ?_]
    · rfl
    · simp [emit_var, Scope.contains_declare, hname]
  | @assignment v e hfirst _ h =>
    have hcontains := Scope.contains_ofDeclarations_of_firstDeclared hfirst
    rw [emit_assign, emit_formula h fun name hname => ?_]
    · simp [emit_var, Scope.declare_of_contains hcontains]
    · simp [emit_var, Scope.contains_declare, hname]
  | printString => rfl
  | printFormula h => rw [emit_print, emit_formula h fun _ hname => hname, List.foldl_nil]

/-- Programs are written one behind the other. -/
theorem emitStatements_append (scope : Scope) (p q : Program) :
    emitStatements scope (p ++ q) =
      ⟨(emitStatements scope p).text ++ (emitStatements (emitStatements scope p).scope q).text,
        (emitStatements (emitStatements scope p).scope q).scope⟩ := by
  induction p generalizing scope with
  | nil => simp [emitStatements]
  | cons s p ih => simp [emitStatements, ih, String.append_assoc]

/-- The scope behind a well-formed program is that of its declarations. -/
theorem scope_emitStatements {declared declared' : List Variable} {program : Program}
    (h : IsProgram declared program declared') :
    (emitStatements (.ofDeclarations declared) program).scope = .ofDeclarations declared' := by
  induction h with
  | nil => rfl
  | cons hs _ ih => rw [emitStatements, scope_emit_statement hs, ih]

end Java

end Straightline
