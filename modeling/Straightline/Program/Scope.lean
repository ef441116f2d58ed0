import Straightline.Program.Basic

/-!
# Scopes

A scope holds the variables declared so far, in the order of their declarations. The first
declaration of a name stays: a later one changes nothing.
-/

namespace Straightline

/-- The variables declared so far, in order. -/
structure Scope where
  toList : List Variable
deriving DecidableEq, Repr

namespace Scope

/-- The scope without variables. -/
def empty : Scope := ⟨[]⟩

/-- The number of variables. -/
def size (scope : Scope) : Nat := scope.toList.length

/-- The variable of the given name. -/
def find? (scope : Scope) (name : String) : Option Variable :=
  scope.toList.find? (·.name == name)

/-- Whether there is a variable of the given name. -/
def contains (scope : Scope) (name : String) : Bool :=
  (scope.find? name).isSome

/-- Adds a variable behind the others, unless there is one of its name. -/
def declare (scope : Scope) (v : Variable) : Scope :=
  if scope.contains v.name then scope else ⟨scope.toList ++ [v]⟩

/-- Whether no two variables have the same name. -/
def Distinct (scope : Scope) : Prop :=
  (scope.toList.map Variable.name).Nodup

@[simp]
theorem toList_empty : empty.toList = [] := rfl

/-- Declaring a name that is there changes nothing. -/
theorem declare_of_contains {scope : Scope} {v : Variable} (h : scope.contains v.name) :
    scope.declare v = scope := by
  simp [declare, h]

/-- Declaring a name that is not there adds it at the end. -/
theorem toList_declare_of_not_contains {scope : Scope} {v : Variable}
    (h : ¬scope.contains v.name) : (scope.declare v).toList = scope.toList ++ [v] := by
  simp [declare, h]

theorem contains_iff {scope : Scope} {name : String} :
    scope.contains name ↔ name ∈ scope.toList.map Variable.name := by
  simp [contains, find?, List.find?_isSome]

theorem distinct_empty : empty.Distinct := List.nodup_nil

/-- Declarations keep names distinct. -/
theorem Distinct.declare {scope : Scope} (h : scope.Distinct) (v : Variable) :
    (scope.declare v).Distinct := by
  by_cases hv : scope.contains v.name
  · rwa [declare_of_contains hv]
  · rw [Distinct, toList_declare_of_not_contains hv, List.map_append, List.nodup_append]
    refine ⟨h, by simp, ?_⟩
    intro a ha b hb hab
    rw [contains_iff] at hv
    simp only [List.map_cons, List.map_nil, List.mem_singleton] at hb
    exact hv (hb ▸ hab ▸ ha)

end Scope

end Straightline
