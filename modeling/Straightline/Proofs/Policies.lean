import Straightline.Compile
import Straightline.Proofs.Lexemes

/-!
# The two policies agree

Where several rules apply at one place, the first policy takes the one with the highest priority and
the other the one that takes the most characters. In this lexicon they are the same rule: of two
rules that match at the same place, the one with the higher priority takes at least as many
characters (`rules_dominate`). The order of the rules, the end of a word behind a keyword, and the
point in a decimal number are all needed for it.
-/

namespace Straightline

open Pattern Lexicon

/-- Wherever two rules match, the first takes at least as many characters as the second. -/
def Rule.Dominates (r s : Rule) : Prop :=
  ∀ cs m n, m + 1 ∈ r.pattern.lengths cs → n + 1 ∈ s.pattern.lengths cs → n ≤ m

/-- The characters that continue a name continue a word. -/
theorem isWordChar_of_nameRest {c : Char} (h : nameRest.contains c) : isWordChar c := by
  simp only [nameRest, CharClass.contains, ClassItem.contains, List.any_cons, List.any_nil,
    Bool.or_false, Bool.or_eq_true, Bool.and_eq_true, beq_iff_eq, decide_eq_true_eq] at h
  rcases h with rfl | h
  · decide
  · apply isWordChar_of_isAlphanum
    simp only [Char.isAlphanum, Char.isAlpha, Char.isUpper, Char.isLower, Char.isDigit]
    simp [UInt32.le_iff_toNat_le] at h ⊢
    omega

/-- A keyword takes all of the name at its place, since no word character follows it. -/
theorem dominates_keyword (kind : Kind) (word : String) :
    Rule.Dominates ⟨kind, keyword word⟩ ⟨.name, name⟩ := by
  intro cs m n hm hn
  obtain ⟨-, hend⟩ := describes_keyword_iff.mp (mem_lengths_iff.mp hm).2
  obtain ⟨hle, hname⟩ := mem_lengths_iff.mp hn
  obtain ⟨c, ds, -, hds, htake⟩ := describes_name_iff.mp hname
  by_cases hlt : n ≤ m
  · exact hlt
  · -- the character behind the keyword would be part of the name
    have hbehind : cs[m + 1] ∈ ds := by
      obtain rfl : (cs.take (n + 1)).tail = ds := by rw [htake, List.tail_cons]
      rw [List.mem_iff_getElem]
      exact ⟨m, by simp; omega, by simp⟩
    refine absurd (isWordChar_of_nameRest (hds _ hbehind)) (hend _ ?_)
    simp [List.head?_drop]

/-- A decimal number takes more than the whole number at its place, which stops at the point. -/
theorem dominates_decimal : Rule.Dominates ⟨.decimal, decimal⟩ ⟨.integer, integer⟩ := by
  intro cs m n hm hn
  obtain ⟨-, hdecimal⟩ := mem_lengths_iff.mp hm
  obtain ⟨sign, ds, fs, -, -, -, -, htake⟩ := describes_decimal_iff.mp hdecimal
  obtain ⟨-, hinteger⟩ := mem_lengths_iff.mp hn
  by_cases hle : n ≤ m
  · exact hle
  · -- a longer whole number would hold the point
    have hpoint : '.' ∈ cs.take (n + 1) := by
      refine (List.take_subset_take_left cs ?_ : cs.take (m + 1) ⊆ cs.take (n + 1)) ?_
      · omega
      · simp [htake]
    exact absurd (uses_of_describes hinteger _ hpoint) (by decide)

/-- Any rule takes at least as much as one for a single character. -/
theorem dominates_char (rule : Rule) (kind : Kind) (c : Char) :
    rule.Dominates ⟨kind, char c⟩ := by
  intro cs m n _ hn
  obtain ⟨hle, hchar⟩ := mem_lengths_iff.mp hn
  have hlen := congrArg List.length (describes_char_iff.mp hchar)
  simp only [List.length_take, List.length_cons, List.length_nil] at hlen
  omega

/-- A rule takes at least as much as any rule with a lower priority at the same place. -/
theorem rules_dominate : rules.Pairwise Rule.Dominates := by
  refine rules_pairwise.imp ?_
  rintro r s (hapart | hoverlap)
  · intro cs m n hm hn
    exact absurd hn (not_mem_lengths_of_apart hapart hm)
  · simp only [overlaps, List.mem_cons, Prod.mk.injEq, List.not_mem_nil, or_false] at hoverlap
    rcases hoverlap with ⟨rfl, rfl⟩ | ⟨rfl, rfl⟩ | ⟨rfl, rfl⟩ | ⟨rfl, rfl⟩ | ⟨rfl, rfl⟩ |
      ⟨rfl, rfl⟩ | ⟨rfl, rfl⟩ | ⟨rfl, rfl⟩ | ⟨rfl, rfl⟩ | ⟨rfl, rfl⟩
    · exact dominates_keyword .int32 "int32"
    · exact dominates_keyword .float32 "float32"
    · exact dominates_keyword .char "char"
    · exact dominates_keyword .void "void"
    · exact dominates_keyword .print "print"
    · exact dominates_decimal
    -- a number and the sign that it may start with
    all_goals exact dominates_char _ _ _

/-- The candidate that a rule makes at the front of `cs`, if `last` is the kind of the token
before. -/
def Rule.candidate? (last : Option Kind) (cs : List Char) (rule : Rule) : Option Candidate :=
  match rule.matchLength? cs with
  | some (n + 1) => if mayStart last rule.kind cs then some ⟨rule.kind, n + 1, n.succ_pos⟩ else none
  | _ => none

theorem candidates_eq (last : Option Kind) (cs : List Char) :
    candidates last cs = rules.filterMap (Rule.candidate? last cs) := rfl

/-- A rule makes a candidate where it matches and its kind may start. -/
theorem Rule.candidate?_eq_some_iff {last : Option Kind} {cs : List Char} {rule : Rule}
    {choice : Candidate} :
    rule.candidate? last cs = some choice ↔
      rule.kind = choice.kind ∧ rule.matchLength? cs = some choice.length ∧
        mayStart last rule.kind cs := by
  obtain ⟨kind, length, hpos⟩ := choice
  unfold candidate?
  split
  · next n hn => split <;> simp_all
  · next hn =>
    obtain ⟨n, rfl⟩ := Nat.exists_eq_add_one_of_ne_zero (Nat.pos_iff_ne_zero.mp hpos)
    simp_all

/-- The candidates at a place come from the longest to the shortest. -/
theorem candidates_pairwise (last : Option Kind) (cs : List Char) :
    (candidates last cs).Pairwise fun a b => b.length ≤ a.length := by
  rw [candidates_eq, List.pairwise_filterMap]
  refine rules_dominate.imp ?_
  intro r s hdominates a ha b hb
  obtain ⟨-, hr, -⟩ := Rule.candidate?_eq_some_iff.mp ha
  obtain ⟨-, hs, -⟩ := Rule.candidate?_eq_some_iff.mp hb
  have hpos := a.length_pos
  have hpos' := b.length_pos
  have hle := hdominates cs (a.length - 1) (b.length - 1)
  rw [Nat.sub_add_cancel hpos, Nat.sub_add_cancel hpos'] at hle
  have := hle (List.mem_of_mem_head? hr) (List.mem_of_mem_head? hs)
  omega

/-- The first of descending elements is the greatest. -/
private theorem maxOn?_eq_head? {α : Type} {f : α → Nat} {l : List α}
    (h : l.Pairwise fun a b => f b ≤ f a) : l.maxOn? f = l.head? := by
  cases l with
  | nil => rfl
  | cons a l =>
    rw [List.maxOn?_cons, List.head?_cons]
    cases hmax : l.maxOn? f with
    | none => rfl
    | some b =>
      have hb : f b ≤ f a := (List.pairwise_cons.mp h).1 b (List.maxOn?_mem hmax)
      exact congrArg some (maxOn_eq_left hb)

/-- Both policies choose the same candidate at every place. -/
theorem Cursor.choose_eq (cursor : Cursor) (policy policy' : Policy) :
    cursor.choose policy = cursor.choose policy' := by
  have h : cursor.choose .longest = cursor.choose .first :=
    maxOn?_eq_head? (candidates_pairwise cursor.last cursor.rest)
  cases policy <;> cases policy' <;> simp [h]

/-- Scans under the two policies find the same tokens, and get stuck at the same place. -/
theorem scanFrom_eq (policy policy' : Policy) (cursor : Cursor) :
    scanFrom policy cursor = scanFrom policy' cursor := by
  fun_induction scanFrom policy cursor with
  | case1 cursor hrest => exact (scanFrom_of_rest_eq_nil policy' hrest).symm
  | case2 cursor hrest hchoose =>
    rw [cursor.choose_eq policy policy'] at hchoose
    exact (scanFrom_of_choose_eq_none hrest hchoose).symm
  | case3 cursor hrest choice hchoose following ih =>
    rw [cursor.choose_eq policy policy'] at hchoose
    rw [scanFrom_of_choose_eq_some hrest hchoose, ← ih]

/-- The two policies give the same tokens or the same lexical error on every text, and so the same
body or the same error of any stage. -/
theorem tokenize_first_eq_longest (source : String) :
    tokenize .first source = tokenize .longest source ∧
      compile .first source = compile .longest source := by
  have h : tokenize .first source = tokenize .longest source := by
    rw [tokenize, tokenize, scan, scan, scanFrom_eq .first .longest]
  exact ⟨h, by rw [compile, compile, readProgram, readProgram, h]⟩

end Straightline
