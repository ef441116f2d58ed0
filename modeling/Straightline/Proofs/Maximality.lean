import Straightline.Proofs.Spacing
import Straightline.Proofs.Tiling

/-!
# Tokens are as long as they can be

At every place the scan takes the longest word that any rule has there, apart from a number whose
sign belongs to an operator (`Cursor.le_length_of_choose`). So every token is a word of its kind,
and no rule would have taken more of the text (`tokens_maximal`).

The choice at a place is settled by the words that end before the end of the text
(`Cursor.choose_append`). What follows the text cannot change it, as long as no word reaches
that far.
-/

namespace Straightline

open Pattern Lexicon

/-! ## The longest word -/

/-- All rules take their longest word, and no rule takes nothing. -/
theorem rules_deterministic :
    ∀ rule ∈ rules, rule.pattern.isDeterministic ∧ rule.pattern.isNullable = false := by
  decide

/-- A match of a rule takes at least one character. -/
theorem Rule.pos_of_mem_lengths {rule : Rule} (hrule : rule ∈ rules) {cs : List Char} {n : Nat}
    (hn : n ∈ rule.pattern.lengths cs) : 0 < n := by
  rw [Nat.pos_iff_ne_zero]
  rintro rfl
  -- the match would be the empty word
  have hnullable := isNullable_of_describes_nil (mem_lengths_iff.mp hn).2
  rw [(rules_deterministic rule hrule).2] at hnullable
  cases hnullable

/-- A rule that matches where its kind may start makes a candidate, from its longest match. -/
theorem Rule.exists_candidate? {rule : Rule} (hrule : rule ∈ rules) {last : Option Kind}
    {cs : List Char} {n : Nat} (hn : n ∈ rule.pattern.lengths cs)
    (hstart : mayStart last rule.kind cs) :
    ∃ candidate, rule.candidate? last cs = some candidate ∧ n ≤ candidate.length := by
  cases hlength : rule.matchLength? cs with
  | none =>
    rw [matchLength?, Pattern.matchLength?, List.head?_eq_none_iff] at hlength
    rw [hlength] at hn
    cases hn
  | some m =>
    obtain ⟨hm, hmax⟩ := (matchLength?_eq_some_iff (rules_deterministic rule hrule).1).mp hlength
    have hpos := pos_of_mem_lengths hrule (mem_lengths_iff.mpr hm)
    exact ⟨⟨rule.kind, m, hpos⟩, candidate?_eq_some_iff.mpr ⟨rfl, hlength, hstart⟩,
      hmax n (mem_lengths_iff.mp hn)⟩

namespace Cursor

variable {policy : Policy} {cursor : Cursor} {choice : Candidate}

/-- The choice takes at least as much as any rule whose kind may start there. -/
theorem le_length_of_choose (hchoose : cursor.choose policy = some choice) {rule : Rule}
    (hrule : rule ∈ rules) {n : Nat} (hn : n ∈ rule.pattern.lengths cursor.rest)
    (hstart : mayStart cursor.last rule.kind cursor.rest) : n ≤ choice.length := by
  obtain ⟨candidate, hcandidate, hle⟩ := Rule.exists_candidate? hrule hn hstart
  have hmem : candidate ∈ candidates cursor.last cursor.rest := by
    rw [candidates_eq]
    exact List.mem_filterMap.mpr ⟨rule, hrule, hcandidate⟩
  -- the choice is the first of the candidates, which come from the longest to the shortest
  rw [cursor.choose_eq policy .first] at hchoose
  obtain ⟨others, hothers⟩ := List.head?_eq_some_iff.mp hchoose
  have hpairwise := candidates_pairwise cursor.last cursor.rest
  rw [hothers] at hmem hpairwise
  rcases List.mem_cons.mp hmem with rfl | hmem
  · exact hle
  · exact hle.trans ((List.pairwise_cons.mp hpairwise).1 candidate hmem)

/-- A scan that reaches the end of the text is there, or makes a choice. -/
theorem Reaches.rest_eq_nil_or_choose {tokens : List Token} {final : Cursor}
    (h : cursor.Reaches policy tokens final) (hend : final.rest = []) :
    cursor.rest = [] ∨ ∃ choice, cursor.choose policy = some choice := by
  cases h with
  | refl => exact .inl hend
  | step hchoose _ => exact .inr ⟨_, hchoose⟩

end Cursor

/-- Every token of a text is a word of its kind, and a name is no keyword. No rule has a longer word
at its place, unless it is a number with a sign behind a token that ends an operand. -/
theorem tokens_maximal {policy : Policy} {source : String} {tokens : List Token}
    (h : tokenize policy source = .ok tokens) :
    ∀ earlier t later, tokens = earlier ++ t :: later →
      IsWord t.kind t.text ∧ (t.kind = .name → t.text ∉ keywords) ∧
      ∃ before after, t.Between source before after ∧
        ∀ rule ∈ rules, ∀ word rest, (t.text ++ after).toList = word ++ rest →
          rule.pattern.Describes word rest →
            word.length ≤ t.text.length ∨
              rule.kind.isNumber ∧ startsWithSign word ∧
                earlier.getLast?.any (·.kind.endsOperand) := by
  rintro earlier t later rfl
  obtain ⟨final, hreaches, hend⟩ := exists_reaches_of_tokenize h
  obtain ⟨place, choice, hplace, hchoose, -, rfl, hlater⟩ := hreaches.exists_step
  obtain ⟨before, -, hbetween⟩ := hplace.between choice
  refine ⟨isWord_of_choose hchoose, fun hname => ?_, before, _, hbetween, ?_⟩
  · exact Cursor.not_mem_keywords_of_choose hchoose hname (hlater.rest_eq_nil_or_choose hend)
  · intro rule hrule word rest hsplit hword
    have hrest : place.rest = word ++ rest := by
      rw [← hsplit, Token.covering, String.toList_append, String.toList_ofList,
        String.toList_ofList, Cursor.next, List.take_append_drop]
    have hmem : word.length ∈ rule.pattern.lengths place.rest := hrest ▸ length_mem_lengths hword
    -- the sign rule asks for the token before, which is the last of the earlier ones
    have hlast : place.last = earlier.getLast?.map Token.kind := by
      rw [hplace.last_eq, Cursor.start, Option.or_none]
    by_cases hstart : mayStart place.last rule.kind place.rest
    · left
      have hle := Cursor.le_length_of_choose hchoose hrule hmem hstart
      rwa [Token.covering, String.length_ofList, List.length_take,
        Nat.min_eq_left (Cursor.length_le_of_choose hchoose)]
    · -- the rule is out of question for its sign alone, which is that of the word
      right
      have hne : word ≠ [] := List.length_pos_iff.mp (Rule.pos_of_mem_lengths hrule hmem)
      rw [hrest, mayStart_append hne, hlast] at hstart
      simpa [mayStart, Option.any_map, Function.comp_def, and_assoc] using hstart

/-- Behind a name, the number `-1.5` is longer than the sign, but its own sign rules it out. -/
theorem tokens_maximal_difference :
    ∃ before after, (⟨.minus, "-", ⟨1, 2, 1, 2⟩⟩ : Token).Between "a-1.5" before after ∧
      ∀ rule ∈ rules, ∀ word rest, ("-" ++ after).toList = word ++ rest →
        rule.pattern.Describes word rest →
          word.length ≤ 1 ∨ rule.kind.isNumber ∧ startsWithSign word ∧
            ([⟨.name, "a", ⟨0, 1, 1, 1⟩⟩] : List Token).getLast?.any (·.kind.endsOperand) := by
  have h : tokenize .first "a-1.5" = .ok
      [⟨.name, "a", ⟨0, 1, 1, 1⟩⟩, ⟨.minus, "-", ⟨1, 2, 1, 2⟩⟩,
       ⟨.decimal, "1.5", ⟨2, 5, 1, 3⟩⟩] := by
    cbv
  exact (tokens_maximal h [_] _ [_] rfl).2.2

/-! ## Choices and the end of the text -/

/-- Whether a word ends inside a text does not depend on what follows the text. -/
theorem Pattern.mem_lengths_append_iff {p : Pattern} {cs rest : List Char} {n : Nat}
    (h : n < cs.length) : n ∈ p.lengths (cs ++ rest) ↔ n ∈ p.lengths cs := by
  -- a pattern looks one character ahead at most, and that character is still in the text
  have hhead : (cs.drop n ++ rest).head? = (cs.drop n).head? :=
    List.head?_append_of_ne_nil _ (by simpa using h)
  rw [mem_lengths_iff, mem_lengths_iff, List.take_append_of_le_length h.le,
    List.drop_append_of_le_length h.le]
  constructor
  · rintro ⟨-, hword⟩
    exact ⟨h.le, hword.of_head? fun c hc => hhead ▸ hc⟩
  · rintro ⟨-, hword⟩
    exact ⟨by simp; omega, hword.of_head? fun c hc => hhead ▸ hc⟩

/-- A rule of which no word reaches the end of a text makes the same candidate, whatever follows the
text. -/
theorem Rule.candidate?_append {rule : Rule} (hrule : rule ∈ rules) {last : Option Kind}
    {cs rest : List Char} (hne : cs ≠ [])
    (hshort : mayStart last rule.kind cs → ∀ n,
      n ∈ rule.pattern.lengths cs ∨ n ∈ rule.pattern.lengths (cs ++ rest) → n < cs.length) :
    rule.candidate? last (cs ++ rest) = rule.candidate? last cs := by
  have hdeterministic := (rules_deterministic rule hrule).1
  refine Option.ext fun candidate => ?_
  rw [candidate?_eq_some_iff, candidate?_eq_some_iff, mayStart_append hne]
  refine and_congr_right fun _ => and_congr_left fun hstart => ?_
  -- both texts have the same words, so they have the same longest one
  have hsame (n : Nat) : n ∈ rule.pattern.lengths (cs ++ rest) ↔ n ∈ rule.pattern.lengths cs :=
    ⟨fun hn => (mem_lengths_append_iff (hshort hstart n (.inr hn))).mp hn,
      fun hn => (mem_lengths_append_iff (hshort hstart n (.inl hn))).mpr hn⟩
  rw [matchLength?, matchLength?, matchLength?_eq_some_iff hdeterministic,
    matchLength?_eq_some_iff hdeterministic]
  simp only [← mem_lengths_iff, hsame]

/-- If no word reaches the end of a text, the choice at its front stays the same, whatever follows
the text. -/
theorem Cursor.choose_append {policy : Policy} {p : Position} {last : Option Kind}
    {cs rest : List Char} (hne : cs ≠ [])
    (hshort : ∀ rule ∈ rules, mayStart last rule.kind cs → ∀ n,
      n ∈ rule.pattern.lengths cs ∨ n ∈ rule.pattern.lengths (cs ++ rest) → n < cs.length) :
    Cursor.choose policy ⟨p, last, cs ++ rest⟩ = Cursor.choose policy ⟨p, last, cs⟩ := by
  rw [choose, choose, candidates_eq, candidates_eq]
  congr 1
  exact List.filterMap_congr fun rule hrule => Rule.candidate?_append hrule hne (hshort rule hrule)

end Straightline
