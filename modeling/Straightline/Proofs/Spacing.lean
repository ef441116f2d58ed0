import Straightline.Proofs.Places
import Straightline.Proofs.WellFormed

/-!
# White space between tokens

Scanning finds the same lexemes in a text however much white space stands around them, as long as
there is some between any two.

* `Lexemes` says of a sequence of lexemes that each can be scanned behind the one before: it is a
  word of its kind, a name is no keyword, and a number with a sign does not follow an operand.
* Every successful scan finds such a sequence (`lexemes_of_scanFrom`), and every such sequence is
  found again in any text that is made of its words and white space (`scanFrom_spaced`).

The first half needs that no name is spelled like a keyword. The scan would take a keyword for a
name only in front of a word character that no name can hold, and there it gets stuck.

Main statement: `compile_respaced`, by which such a text also compiles to the same body, or fails
with the same error at another place.
-/

namespace Straightline

open Pattern Lexicon

/-! ## Choosing by priority -/

/-- The choice at a place is that of the first rule that makes a candidate. -/
theorem Cursor.choose_eq_findSome? (policy : Policy) (cursor : Cursor) :
    cursor.choose policy = rules.findSome? (Rule.candidate? cursor.last cursor.rest) := by
  rw [cursor.choose_eq policy .first, ← List.head?_filterMap, ← candidates_eq]
  rfl

/-- A rule makes the choice if it makes a candidate, and those rules that can match at the same
place and have a higher priority do not. -/
theorem Cursor.choose_of_candidate? {policy : Policy} {cursor : Cursor} {rule : Rule}
    {choice : Candidate} (hrule : rule ∈ rules)
    (hchoice : rule.candidate? cursor.last cursor.rest = some choice)
    (hrivals : ∀ r, (r, rule) ∈ overlaps → r.candidate? cursor.last cursor.rest = none) :
    cursor.choose policy = some choice := by
  obtain ⟨before, after, hsplit⟩ := List.append_of_mem hrule
  have hpairwise := rules_pairwise
  rw [hsplit, List.pairwise_append] at hpairwise
  rw [choose_eq_findSome?, List.findSome?_eq_some_iff]
  refine ⟨before, rule, after, hsplit, hchoice, fun r hr => ?_⟩
  rcases hpairwise.2.2 r hr rule (by simp) with hapart | hoverlap
  · -- a rule that is told apart by the first character matches nothing here
    rw [Option.eq_none_iff_forall_not_mem]
    intro rival hrival
    obtain ⟨-, hlength, -⟩ := Rule.candidate?_eq_some_iff.mp hchoice
    obtain ⟨-, hlength', -⟩ := Rule.candidate?_eq_some_iff.mp hrival
    have hmem := List.mem_of_mem_head? hlength
    have hmem' := List.mem_of_mem_head? hlength'
    rw [← Nat.sub_add_cancel choice.length_pos] at hmem
    rw [← Nat.sub_add_cancel rival.length_pos] at hmem'
    exact not_mem_lengths_of_apart hapart hmem' hmem
  · exact hrivals r hoverlap

/-! ## Words and what follows them -/

/-- A word stays one in front of anything but a word character. -/
theorem Pattern.Describes.of_not_isWordChar {p : Pattern} {word rest rest' : List Char}
    (h : p.Describes word rest) (hrest : ∀ c ∈ rest'.head?, ¬isWordChar c) :
    p.Describes word rest' := by
  induction p generalizing word rest rest' with
  | one s | many s | many1 s | optional s => exact h
  | seq p q ihp ihq =>
    obtain ⟨u, v, rfl, hp, hq⟩ := h
    refine ⟨u, v, rfl, ?_, ihq hq hrest⟩
    -- what follows the first part is the second, unless that is empty
    cases v with
    | nil => exact ihp hp hrest
    | cons c v => exact hp.of_head? fun d hd => hd
  | either p q ihp ihq => exact h.imp (ihp · hrest) (ihq · hrest)
  | group p ih => exact ih h hrest
  | wordEnd => exact ⟨h.1, hrest⟩

theorem not_isWordChar_of_blank {c : Char} (h : blanks.contains c) : ¬isWordChar c := by
  have hc : c = ' ' ∨ c = '\t' ∨ c = '\r' ∨ c = '\n' := by
    simpa [blanks, CharClass.contains, ClassItem.contains] using h
  rcases hc with rfl | rfl | rfl | rfl <;> decide

/-- The word characters of ASCII are those that continue a name. -/
theorem nameRest_of_isWordChar {c : Char} (hascii : c.toNat < 0x80) (h : isWordChar c) :
    nameRest.contains c := by
  rw [isWordChar, if_pos hascii] at h
  simp only [Char.isAlphanum, Char.isAlpha, Char.isUpper, Char.isLower, Char.isDigit] at h
  simp [nameRest, CharClass.contains, ClassItem.contains, UInt32.le_iff_toNat_le] at h ⊢
  tauto

/-- What of a text is left behind a word: nothing, or white space first. -/
def Lexicon.StartsBlank (rest : List Char) : Prop :=
  ∀ c ∈ rest.head?, blanks.contains c

/-- A rule takes a whole word up to white space. Strings and characters can hold white space
themselves, but end with their quotes. -/
theorem Rule.matchLength?_append {rule : Rule} (hrule : rule ∈ rules) (hspace : rule.kind ≠ .space)
    {word rest : List Char} (hword : rule.pattern.Describes word []) (hrest : StartsBlank rest) :
    rule.matchLength? (word ++ rest) = some word.length := by
  have hdescribes : rule.pattern.Describes word rest :=
    hword.of_not_isWordChar fun c hc => not_isWordChar_of_blank (hrest c hc)
  have hkinds : ∀ rule ∈ rules, rule.kind = .space ∨ rule = ⟨.character, character⟩ ∨
      rule = ⟨.string, string⟩ ∨
        rule.pattern.isDeterministic ∧ rule.pattern.classes.all blanks.apart := by
    decide
  rcases hkinds rule hrule with h | rfl | rfl | ⟨hdeterministic, hapart⟩
  · exact absurd h hspace
  · -- a character has three, whatever follows
    have hthree {n : Nat} (hn : n ∈ character.lengths (word ++ rest)) : n = word.length :=
      (eq_three_of_mem_lengths_character hn).trans
        (eq_three_of_mem_lengths_character (length_mem_lengths hdescribes)).symm
    exact matchLength?_eq_some_of_forall (length_mem_lengths hdescribes) fun n hn => hthree hn
  · exact matchLength?_eq_some_of_forall (length_mem_lengths hdescribes)
      fun n hn => eq_length_of_mem_lengths_string hdescribes hn
  · exact Pattern.matchLength?_append hdeterministic hdescribes
      fun c hc => uses_eq_false_of_apart hapart (hrest c hc)

/-! ## Lexemes in front of white space -/

/-- The words that are keywords. -/
def Lexicon.keywords : List String := ["int32", "float32", "char", "void", "print"]

/-- The three ways in which rules overlap: a keyword and a name, a number with a point and one
without, and a number and its sign. -/
theorem overlaps_cases : ∀ pair ∈ overlaps,
    (∃ word ∈ keywords, pair.1.pattern = keyword word ∧ pair.2 = ⟨.name, name⟩) ∨
    (pair.1.pattern = decimal ∧ pair.2.pattern = integer) ∨
    ((pair.1.pattern = integer ∨ pair.1.pattern = decimal) ∧
      ∃ c ∈ ['+', '-'], pair.2.pattern = char c) := by
  simp [overlaps, keywords]

/-- A number has a digit. -/
theorem exists_digit_of_describes {p : Pattern} (hp : p = integer ∨ p = decimal)
    {word rest : List Char} (h : p.Describes word rest) : ∃ c ∈ word, digits.contains c := by
  have hwhole : ∃ ds, IsWhole ds ∧ ∀ d ∈ ds, d ∈ word := by
    rcases hp with rfl | rfl
    · obtain ⟨sign, ds, -, hds, rfl⟩ := describes_integer_iff.mp h
      exact ⟨ds, hds, fun d hd => by simp [hd]⟩
    · obtain ⟨sign, ds, fs, -, hds, -, -, rfl⟩ := describes_decimal_iff.mp h
      exact ⟨ds, hds, fun d hd => by simp [hd]⟩
  obtain ⟨ds, hds, hsub⟩ := hwhole
  obtain ⟨hne, hdigits⟩ := digits_of_isWhole hds
  obtain ⟨d, hd⟩ := List.exists_mem_of_ne_nil ds hne
  exact ⟨d, hsub d hd, hdigits d hd⟩

/-- A keyword that takes no more than the name at its place is all of the name. -/
theorem eq_of_keyword_at_name {keyword : String} {word rest : List Char} {n : Nat}
    (hname : name.Describes word []) (hn : n + 1 ∈ (Pattern.keyword keyword).lengths (word ++ rest))
    (hle : n + 1 ≤ word.length) : String.ofList word = keyword := by
  have hmem : word.length ∈ name.lengths (word ++ rest) := length_mem_lengths hname
  -- a keyword takes no less than the name at its place
  have hge : word.length - 1 ≤ n := by
    refine dominates_keyword .name keyword _ n (word.length - 1) hn ?_
    rwa [Nat.sub_add_cancel (by omega)]
  obtain ⟨-, hkeyword⟩ := mem_lengths_iff.mp hn
  obtain ⟨htake, -⟩ := describes_keyword_iff.mp hkeyword
  rw [List.take_append_of_le_length hle, List.take_of_length_le (by omega)] at htake
  rw [htake, String.ofList_toList]

/-- Where a word ends in white space, no rule with a higher priority matches, unless the word is a
name and a keyword. -/
theorem Rule.candidate?_eq_none_of_overlaps {r rule : Rule} (hoverlap : (r, rule) ∈ overlaps)
    {last : Option Kind} {word rest : List Char} (hword : rule.pattern.Describes word [])
    (hkeyword : rule.kind = .name → String.ofList word ∉ keywords) (hrest : StartsBlank rest) :
    r.candidate? last (word ++ rest) = none := by
  rw [Option.eq_none_iff_forall_not_mem]
  intro rival hrival
  obtain ⟨-, hlength, -⟩ := Rule.candidate?_eq_some_iff.mp hrival
  have hmem : rival.length ∈ r.pattern.lengths (word ++ rest) := List.mem_of_mem_head? hlength
  -- the rival holds no white space, so it does not go on behind the word
  have hapart : ∀ pair ∈ overlaps, pair.1.pattern.classes.all blanks.apart := by decide
  have hle : rival.length ≤ word.length :=
    le_length_of_mem_lengths
      (fun c hc => uses_eq_false_of_apart (hapart _ hoverlap) (hrest c hc)) hmem
  obtain ⟨-, hdescribes⟩ := mem_lengths_iff.mp hmem
  rw [List.take_append_of_le_length hle] at hdescribes
  rcases overlaps_cases _ hoverlap with ⟨keyword, hmember, hr, hrule⟩ | ⟨hr, hrule⟩ |
    ⟨hr, sign, hsign, hrule⟩
  · obtain rfl : rule = ⟨.name, name⟩ := hrule
    rw [show r.pattern = _ from hr, ← Nat.sub_add_cancel rival.length_pos] at hmem
    rw [← Nat.sub_add_cancel rival.length_pos] at hle
    exact hkeyword rfl (eq_of_keyword_at_name hword hmem hle ▸ hmember)
  · -- the rival has a point, and the word has none
    rw [show r.pattern = _ from hr] at hdescribes
    rw [show rule.pattern = _ from hrule] at hword
    obtain ⟨sign, ds, fs, -, -, -, -, htake⟩ := describes_decimal_iff.mp hdescribes
    have hpoint : '.' ∈ word.take rival.length := by simp [htake]
    exact absurd (uses_of_describes hword _ (List.mem_of_mem_take hpoint)) (by decide)
  · -- the rival has a digit, and the word is a sign
    rw [show rule.pattern = _ from hrule, describes_char_iff] at hword
    obtain ⟨d, hd, hdigit⟩ := exists_digit_of_describes hr hdescribes
    obtain rfl : d = sign := by simpa [hword] using List.mem_of_mem_take hd
    rcases List.mem_pair.mp hsign with rfl | rfl <;> exact absurd hdigit (by decide)

/-- A lexeme that can be scanned behind a token of kind `last`, if white space follows it. -/
structure Lexeme.Follows (last : Option Kind) (l : Lexeme) : Prop where
  /-- It is not white space. -/
  ne_space : l.kind ≠ .space
  /-- Its text is a word of its kind. -/
  isWord : IsWord l.kind l.text
  /-- A name is no keyword. -/
  not_keyword : l.kind = .name → l.text ∉ keywords
  /-- A number with a sign does not follow an operand. -/
  mayStart : mayStart last l.kind l.text.toList

/-- Every word belongs to a rule, and is not empty. -/
theorem exists_rule_of_isWord {kind : Kind} {text : String} (h : IsWord kind text) :
    ∃ rule ∈ rules, rule.kind = kind ∧ rule.pattern.Describes text.toList [] ∧
      text.toList ≠ [] := by
  obtain ⟨pattern, hpattern, hword⟩ := h
  obtain ⟨rule, hfind, rfl⟩ := Option.map_eq_some_iff.mp hpattern
  refine ⟨rule, List.mem_of_find?_eq_some hfind, ?_, hword, ?_⟩
  · simpa using List.find?_some hfind
  · intro hnil
    rw [hnil] at hword
    have hnullable : ∀ rule ∈ rules, rule.pattern.isNullable = false := by decide
    have hnull := isNullable_of_describes_nil hword
    rw [hnullable rule (List.mem_of_find?_eq_some hfind)] at hnull
    cases hnull

/-- Whether a token may start at a place is seen from its first character. -/
theorem mayStart_append {last : Option Kind} {kind : Kind} {word : List Char} (hword : word ≠ [])
    (rest : List Char) : mayStart last kind (word ++ rest) = mayStart last kind word := by
  obtain ⟨c, cs, rfl⟩ := List.exists_cons_of_ne_nil hword
  rfl

/-- A lexeme that ends in white space is the choice at its place. -/
theorem Lexeme.Follows.choose {l : Lexeme} {last : Option Kind} (h : l.Follows last)
    (policy : Policy) (p : Position) {rest : List Char} (hrest : StartsBlank rest) :
    ∃ choice : Candidate, choice.kind = l.kind ∧ choice.length = l.text.toList.length ∧
      Cursor.choose policy ⟨p, last, l.text.toList ++ rest⟩ = some choice := by
  obtain ⟨rule, hrule, hkind, hword, hne⟩ := exists_rule_of_isWord h.isWord
  refine ⟨⟨l.kind, l.text.toList.length, List.length_pos_iff.mpr hne⟩, rfl, rfl, ?_⟩
  refine Cursor.choose_of_candidate? hrule ?_ fun r hoverlap => ?_
  · rw [Rule.candidate?_eq_some_iff]
    refine ⟨hkind, ?_, ?_⟩
    · exact Rule.matchLength?_append hrule (hkind ▸ h.ne_space) hword hrest
    · rw [mayStart_append hne, hkind]
      exact h.mayStart
  · refine Rule.candidate?_eq_none_of_overlaps hoverlap hword ?_ hrest
    rw [hkind, String.ofList_toList]
    exact h.not_keyword

/-- A lexeme starts with a character that is no white space. -/
theorem Lexeme.Follows.head_not_blank {l : Lexeme} {last : Option Kind} (h : l.Follows last)
    (rest : List Char) : ∀ c ∈ (l.text.toList ++ rest).head?, blanks.contains c = false := by
  obtain ⟨rule, hrule, hkind, hword, hne⟩ := exists_rule_of_isWord h.isWord
  obtain ⟨c, cs, htext⟩ := List.exists_cons_of_ne_nil hne
  have havoids : ∀ rule ∈ rules, rule.kind = .space ∨ rule.pattern.avoids blanks := by decide
  rintro d hd
  obtain rfl : c = d := by simpa [htext] using hd
  rcases havoids rule hrule with hspace | havoids
  · exact absurd (hkind ▸ hspace) h.ne_space
  · by_contra hblank
    have hmem := length_mem_lengths hword
    rw [htext, List.cons_append,
      lengths_eq_nil_of_avoids havoids (Bool.not_eq_false _ ▸ hblank)] at hmem
    cases hmem

/-! ## Scanning white space -/

/-- White space up to another character is skipped. -/
theorem scanFrom_blanks {gap rest : List Char} (hgap : ∀ c ∈ gap, blanks.contains c)
    (hrest : ∀ c ∈ rest.head?, blanks.contains c = false) (policy : Policy) (p : Position)
    (last : Option Kind) :
    scanFrom policy ⟨p, last, gap ++ rest⟩ = scanFrom policy ⟨p.advance gap, last, rest⟩ := by
  by_cases hne : gap = []
  · rw [hne, List.nil_append, Position.advance_nil]
  · have hlength : space.matchLength? (gap ++ rest) = some gap.length := by
      refine Pattern.matchLength?_append (by decide) ⟨hne, hgap⟩ fun c hc => ?_
      simpa [space, uses, classes] using hrest c hc
    have hchoose : Cursor.choose policy ⟨p, last, gap ++ rest⟩ =
        some ⟨.space, gap.length, List.length_pos_iff.mpr hne⟩ := by
      refine Cursor.choose_of_candidate? (show (⟨.space, space⟩ : Rule) ∈ rules by decide) ?_ ?_
      · exact Rule.candidate?_eq_some_iff.mpr ⟨rfl, hlength, rfl⟩
      · -- no other rule matches where white space is
        intro r hoverlap
        simp [overlaps] at hoverlap
    rw [scanFrom_of_choose_eq_some (by simp [hne]) hchoose]
    simp [Cursor.token?, Cursor.next]

/-! ## Sequences of lexemes -/

/-- A sequence of lexemes, each of which can be scanned behind the one before. The first can be
scanned behind a token of kind `last`. -/
inductive Lexemes : Option Kind → List Lexeme → Prop
  | nil {last : Option Kind} : Lexemes last []
  | cons {last : Option Kind} {l : Lexeme} {ls : List Lexeme} (hl : l.Follows last)
      (hls : Lexemes (some l.kind) ls) : Lexemes last (l :: ls)

/-- A text that is made of the given words, with white space between them and maybe around them. -/
inductive Spaced : List String → List Char → Prop
  | nil {gap : List Char} (hgap : ∀ c ∈ gap, blanks.contains c) : Spaced [] gap
  | cons {gap rest : List Char} {word : String} {words : List String}
      (hgap : ∀ c ∈ gap, blanks.contains c) (hrest : StartsBlank rest) (h : Spaced words rest) :
      Spaced (word :: words) (gap ++ word.toList ++ rest)

/-- The scan of a text that is made of lexemes and white space finds the lexemes. -/
theorem scanFrom_spaced {ls : List Lexeme} {last : Option Kind} (hls : Lexemes last ls)
    {cs : List Char} (hcs : Spaced (ls.map Lexeme.text) cs) (policy : Policy) (p : Position) :
    (scanFrom policy ⟨p, last, cs⟩).stuck = none ∧
      (scanFrom policy ⟨p, last, cs⟩).tokens.map Token.lexeme = ls := by
  induction hls generalizing cs p with
  | nil =>
    obtain ⟨hgap⟩ := hcs
    rw [← List.append_nil cs, scanFrom_blanks hgap (by simp), scanFrom_of_rest_eq_nil _ rfl]
    exact ⟨rfl, rfl⟩
  | @cons last l ls hl hls ih =>
    rw [List.map_cons] at hcs
    obtain _ | @⟨gap, rest, _, _, hgap, hrest, hcs⟩ := hcs
    obtain ⟨choice, hkind, hlength, hchoose⟩ := hl.choose policy (p.advance gap) hrest
    obtain ⟨-, -, -, -, hne⟩ := exists_rule_of_isWord hl.isWord
    -- behind the gap, the scan takes the whole word and goes on at the text that is left
    rw [List.append_assoc, scanFrom_blanks hgap (hl.head_not_blank rest),
      scanFrom_of_choose_eq_some (by simp [hne]) hchoose]
    simp only [Cursor.next, Cursor.token?, hkind, if_neg hl.ne_space, hlength, List.take_left,
      List.drop_left]
    obtain ⟨hstuck, htokens⟩ := ih hcs (p.advance gap |>.advance l.text.toList)
    exact ⟨hstuck, by simp [htokens, Token.lexeme, Token.covering]⟩

/-! ## The lexemes of a scan -/

/-- Where a rule makes the choice, the rules before it make no candidate. -/
theorem Cursor.candidate?_eq_none_of_choose {policy : Policy} {cursor : Cursor}
    {choice : Candidate} (hchoose : cursor.choose policy = some choice) {rule : Rule}
    (hrule : rule ∈ rules.takeWhile (·.kind ≠ choice.kind)) :
    rule.candidate? cursor.last cursor.rest = none := by
  by_contra hne
  have hsome := List.findSome?_isSome_iff.mpr ⟨rule, hrule, Option.isSome_iff_ne_none.mpr hne⟩
  obtain ⟨rival, hrival⟩ := Option.isSome_iff_exists.mp hsome
  have hsplit := List.takeWhile_append_dropWhile (p := fun r => r.kind ≠ choice.kind) (l := rules)
  rw [choose_eq_findSome?, ← hsplit, List.findSome?_append, hrival, Option.some_or,
    Option.some_inj] at hchoose
  -- the choice would come from a rule for another kind
  obtain ⟨r, hr, hcandidate⟩ := List.exists_of_findSome?_eq_some hrival
  obtain ⟨hkind, -, -⟩ := Rule.candidate?_eq_some_iff.mp hcandidate
  rw [hchoose] at hkind
  simpa [hkind] using List.mem_takeWhile_imp hr

/-- The rule for a keyword makes a candidate at the keyword, if no word character follows it. -/
theorem candidate?_keyword {rule : Rule} {word : String} (hpattern : rule.pattern = keyword word)
    (hnumber : rule.kind.isNumber = false) (hne : word.toList ≠ []) (last : Option Kind)
    {rest : List Char} (hrest : ∀ c ∈ rest.head?, ¬isWordChar c) :
    (rule.candidate? last (word.toList ++ rest)).isSome := by
  rw [Option.isSome_iff_exists]
  refine ⟨⟨rule.kind, word.toList.length, List.length_pos_iff.mpr hne⟩, ?_⟩
  refine Rule.candidate?_eq_some_iff.mpr ⟨rfl, ?_, by simp [mayStart, hnumber]⟩
  rw [Rule.matchLength?, hpattern]
  refine matchLength?_eq_some_of_forall
    (length_mem_lengths (describes_keyword_iff.mpr ⟨rfl, hrest⟩)) fun n hn => ?_
  obtain ⟨hle, hdescribes⟩ := mem_lengths_iff.mp hn
  obtain ⟨htake, -⟩ := describes_keyword_iff.mp hdescribes
  have hlength := congrArg List.length htake
  rwa [List.length_take, Nat.min_eq_left hle] at hlength

section Names

variable {policy : Policy} {cursor : Cursor} {choice : Candidate}
  (hchoose : cursor.choose policy = some choice)

include hchoose

/-- Behind a name that is spelled like a keyword stands a word character, or the keyword would have
been chosen. -/
theorem Cursor.exists_isWordChar_of_choose (hname : choice.kind = .name)
    (hkeyword : String.ofList (cursor.rest.take choice.length) ∈ keywords) :
    ∃ c ∈ (cursor.next choice).rest.head?, isWordChar c := by
  by_contra hnone
  have hrules : ∀ word ∈ keywords, word.toList ≠ [] ∧ ∃ rule ∈ rules.takeWhile (·.kind ≠ .name),
      rule.pattern = keyword word ∧ rule.kind.isNumber = false := by
    decide
  obtain ⟨hne, rule, hrule, hpattern, hnumber⟩ := hrules _ hkeyword
  have hsome := candidate?_keyword hpattern hnumber hne cursor.last
    fun c hc hword => hnone ⟨c, hc, hword⟩
  rw [← hname] at hrule
  rw [String.toList_ofList, next, List.take_append_drop,
    candidate?_eq_none_of_choose hchoose hrule] at hsome
  cases hsome

/-- A name goes on as far as it can. -/
theorem Cursor.nameRest_eq_false_of_choose (hname : choice.kind = .name) :
    ∀ c ∈ (cursor.next choice).rest.head?, nameRest.contains c = false := by
  obtain ⟨rule, hrule, hkind, hlength, -⟩ := exists_rule_of_choose hchoose
  have hpattern : rule.pattern = name := by
    have hpattern := pattern?_of_mem_rules hrule
    rw [hkind, hname] at hpattern
    exact (Option.some_inj.mp hpattern).symm
  rw [Rule.matchLength?, hpattern, matchLength?_eq_some_iff (by decide)] at hlength
  obtain ⟨⟨hle, hword⟩, hmax⟩ := hlength
  obtain ⟨d, ds, hd, hds, htake⟩ := describes_name_iff.mp hword
  intro c hc
  by_contra hrest
  -- with the next character, the name would be longer
  rw [next, List.head?_drop, Option.mem_def] at hc
  obtain ⟨hlt, -⟩ := List.getElem?_eq_some_iff.mp hc
  refine absurd (hmax (choice.length + 1) ⟨hlt, describes_name_iff.mpr ?_⟩) (by omega)
  refine ⟨d, ds ++ [c], hd, ?_, by rw [List.take_add_one, htake, hc]; rfl⟩
  simpa [or_imp, forall_and, hrest] using hds

/-- No word of the language starts with a character outside ASCII. -/
theorem Cursor.toNat_lt_of_choose {c : Char} (hc : c ∈ cursor.rest.head?) : c.toNat < 0x80 := by
  obtain ⟨rule, hrule, -, hlength, -⟩ := exists_rule_of_choose hchoose
  by_contra hge
  have havoids : ∀ rule ∈ rules,
      rule.pattern.avoids (.oneOf [.range (.ofNat 0x80) (.ofNat 0x10FFFF)]) := by
    decide
  have hcontains :
      (CharClass.oneOf [.range (.ofNat 0x80) (.ofNat 0x10FFFF)]).contains c := by
    have hvalid : c.toNat < 0xD800 ∨ 0xDFFF < c.toNat ∧ c.toNat < 0x110000 := c.valid
    have hlow : (Char.ofNat 0x80).toNat = 0x80 := by decide
    have hhigh : (Char.ofNat 0x10FFFF).toNat = 0x10FFFF := by decide
    simp only [CharClass.contains, ClassItem.contains, List.any_cons, List.any_nil, Bool.or_false,
      Bool.and_eq_true, decide_eq_true_eq, hlow, hhigh]
    omega
  have hmem := List.mem_of_mem_head? hlength
  obtain ⟨cs, hcs⟩ := List.head?_eq_some_iff.mp hc
  rw [hcs, lengths_eq_nil_of_avoids (havoids rule hrule) hcontains] at hmem
  cases hmem

/-- A name is not spelled like a keyword, if the scan goes on behind it. -/
theorem Cursor.not_mem_keywords_of_choose (hname : choice.kind = .name)
    (hnext : (cursor.next choice).rest = [] ∨
      ∃ choice', (cursor.next choice).choose policy = some choice') :
    String.ofList (cursor.rest.take choice.length) ∉ keywords := by
  intro hkeyword
  obtain ⟨c, hc, hword⟩ := exists_isWordChar_of_choose hchoose hname hkeyword
  rcases hnext with hnil | ⟨choice', hchoose'⟩
  · rw [hnil] at hc
    cases hc
  · have hrest := nameRest_of_isWordChar (toNat_lt_of_choose hchoose' hc) hword
    rw [nameRest_eq_false_of_choose hchoose hname c hc] at hrest
    cases hrest

end Names

/-- A scan that does not get stuck has reached the end, or makes a choice. -/
theorem exists_choose_of_stuck_eq_none {policy : Policy} {cursor : Cursor}
    (h : (scanFrom policy cursor).stuck = none) :
    cursor.rest = [] ∨ ∃ choice, cursor.choose policy = some choice := by
  by_cases hrest : cursor.rest = []
  · exact .inl hrest
  · cases hchoose : cursor.choose policy with
    | none =>
      rw [scanFrom_of_choose_eq_none hrest hchoose] at h
      cases h
    | some choice => exact .inr ⟨choice, rfl⟩

/-- A scan that does not get stuck finds lexemes that can be scanned one behind the other. -/
theorem lexemes_of_scanFrom {policy : Policy} {cursor : Cursor}
    (h : (scanFrom policy cursor).stuck = none) :
    Lexemes cursor.last ((scanFrom policy cursor).tokens.map Token.lexeme) := by
  fun_induction scanFrom policy cursor with
  | case1 => exact .nil
  | case2 => cases h
  | case3 cursor hrest choice hchoose following ih =>
    have hfollowing := ih h
    by_cases hspace : choice.kind = .space
    · -- white space is no token, and the next token follows the same one
      rw [show (cursor.next choice).last = cursor.last from if_pos hspace] at hfollowing
      rw [Cursor.token?, if_pos hspace]
      exact hfollowing
    · rw [show (cursor.next choice).last = some choice.kind from if_neg hspace] at hfollowing
      rw [Cursor.token?, if_neg hspace]
      have hword := isWord_of_choose hchoose
      refine .cons ⟨hspace, hword, fun hname => ?_, ?_⟩ hfollowing
      · exact Cursor.not_mem_keywords_of_choose hchoose hname (exists_choose_of_stuck_eq_none h)
      · -- whether a number can have its sign here depends on its first character alone
        obtain ⟨-, -, -, -, hstart⟩ := Cursor.exists_rule_of_choose hchoose
        obtain ⟨-, -, -, -, hne⟩ := exists_rule_of_isWord hword
        rw [String.toList_ofList] at hne
        rw [← List.take_append_drop choice.length cursor.rest, mayStart_append hne] at hstart
        rwa [← String.toList_ofList (l := cursor.rest.take choice.length)] at hstart

theorem lexemes_of_tokenize {policy : Policy} {source : String} {tokens : List Token}
    (h : tokenize policy source = .ok tokens) : Lexemes none (tokens.map Token.lexeme) := by
  obtain ⟨hstuck, rfl⟩ := tokenize_eq_ok_iff.mp h
  exact lexemes_of_scanFrom hstuck

/-- A text that is made of lexemes and white space has tokens with these lexemes. -/
theorem tokenize_spaced {ls : List Lexeme} (hls : Lexemes none ls) {source : String}
    (hsource : Spaced (ls.map Lexeme.text) source.toList) (policy : Policy) :
    ∃ tokens, tokenize policy source = .ok tokens ∧ tokens.map Token.lexeme = ls := by
  obtain ⟨hstuck, htokens⟩ := scanFrom_spaced hls hsource policy .start
  exact ⟨_, tokenize_eq_ok_iff.mpr ⟨hstuck, rfl⟩, htokens⟩

/-! ## Other white space -/

/-- Blanks, tabs and line ends only. -/
def IsBlank (gap : String) : Prop :=
  ∀ c ∈ gap.toList, blanks.contains c

/-- The words in order, with a gap in front of each and one behind the last. -/
def interleave : List String → List String → String
  | gap :: gaps, word :: words => gap ++ word ++ interleave gaps words
  | gap :: _, [] => gap
  | [], _ => ""

/-- What follows a word starts with its gap, which is empty behind the last word at most. -/
theorem startsBlank_interleave {gaps words : List String} (hlength : gaps.length = words.length + 1)
    (hblank : ∀ gap ∈ gaps, IsBlank gap) (hbetween : ∀ gap ∈ gaps.dropLast, gap ≠ "") :
    StartsBlank (interleave gaps words).toList := by
  obtain ⟨gap, gaps, rfl⟩ := List.exists_cons_of_length_eq_add_one hlength
  have hgap : IsBlank gap := hblank gap (by simp)
  cases words with
  | nil => exact fun c hc => hgap c (List.mem_of_mem_head? hc)
  | cons word words =>
    -- another word follows, so this gap is between two words
    have hgaps : gaps ≠ [] := by
      rintro rfl
      simp at hlength
    have hne : gap.toList ≠ [] := by
      rw [Ne, String.toList_eq_nil_iff]
      exact hbetween gap (by simp [List.dropLast_cons_of_ne_nil hgaps])
    intro c hc
    rw [interleave, String.toList_append, String.toList_append, List.append_assoc,
      List.head?_append_of_ne_nil _ hne] at hc
    exact hgap c (List.mem_of_mem_head? hc)

/-- Words with gaps are spaced, if there is white space between any two. -/
theorem spaced_interleave {gaps words : List String} (hlength : gaps.length = words.length + 1)
    (hblank : ∀ gap ∈ gaps, IsBlank gap) (hbetween : ∀ gap ∈ gaps.tail.dropLast, gap ≠ "") :
    Spaced words (interleave gaps words).toList := by
  induction words generalizing gaps with
  | nil =>
    obtain ⟨gap, gaps, rfl⟩ := List.exists_cons_of_length_eq_add_one hlength
    exact .nil (hblank gap (by simp))
  | cons word words ih =>
    obtain ⟨gap, gaps, rfl⟩ := List.exists_cons_of_length_eq_add_one hlength
    rw [interleave, String.toList_append, String.toList_append]
    have hlength' : gaps.length = words.length + 1 := by simpa using hlength
    have hblank' : ∀ gap ∈ gaps, IsBlank gap := fun g hg => hblank g (by simp [hg])
    refine .cons (hblank gap (by simp)) (startsBlank_interleave hlength' hblank' hbetween) ?_
    -- the gaps inside what is left are inside the whole
    refine ih hlength' hblank' fun g hg => hbetween g ?_
    rw [← List.tail_dropLast] at hg
    exact List.mem_of_mem_tail hg

/-- Compiling tokens: reading them, then writing the program. -/
theorem compile_of_tokenize {policy : Policy} {source : String} {tokens : List Token}
    (h : tokenize policy source = .ok tokens) :
    compile policy source = ((parse tokens).mapError Error.parse).map Java.body := by
  rw [compile, readProgram, h]
  rfl

/-- If the tokens of a text are written down again with other white space around them, of which
there must be some between any two, both policies find the same lexemes, and the text compiles to
the same body, or fails to be read with the same error at another place. -/
theorem compile_respaced {policy : Policy} {source : String} {tokens : List Token}
    (htokens : tokenize policy source = .ok tokens) {gaps : List String}
    (hlength : gaps.length = tokens.length + 1) (hblank : ∀ gap ∈ gaps, IsBlank gap)
    (hbetween : ∀ gap ∈ gaps.tail.dropLast, gap ≠ "") (policy' : Policy) :
    (∃ tokens', tokenize policy' (interleave gaps (tokens.map Token.text)) = .ok tokens' ∧
      tokens'.map Token.lexeme = tokens.map Token.lexeme) ∧
    ((∃ body, compile policy source = .ok body ∧
        compile policy' (interleave gaps (tokens.map Token.text)) = .ok body) ∨
      ∃ e span, compile policy source = .error (.parse e) ∧
        compile policy' (interleave gaps (tokens.map Token.text)) =
          .error (.parse (e.moveTo span))) := by
  have hspaced : Spaced ((tokens.map Token.lexeme).map Lexeme.text)
      (interleave gaps (tokens.map Token.text)).toList := by
    rw [List.map_map]
    exact spaced_interleave (by simpa using hlength) hblank hbetween
  obtain ⟨tokens', htokens', hsame⟩ :=
    tokenize_spaced (lexemes_of_tokenize htokens) hspaced policy'
  refine ⟨⟨tokens', htokens', hsame⟩, ?_⟩
  obtain ⟨span, hparse⟩ := parse_of_lexemes_eq hsame
  rw [compile_of_tokenize htokens, compile_of_tokenize htokens', hparse]
  cases parse tokens with
  | ok program => exact .inl ⟨_, rfl, rfl⟩
  | error e => exact .inr ⟨e, span, rfl, rfl⟩

/-- The tokens of `a=-1;` with other white space: `-1` stays one token behind the blank, and the
error that `a` is not declared moves to the second line. -/
theorem compile_respaced_assignment :
    interleave ["\n", "\t", " ", "\r\n", ""] ["a", "=", "-1", ";"] = "\na\t= -1\r\n;" ∧
    (∃ tokens', tokenize .longest "\na\t= -1\r\n;" = .ok tokens' ∧
      tokens'.map Token.lexeme =
        [⟨.name, "a"⟩, ⟨.assign, "="⟩, ⟨.integer, "-1"⟩, ⟨.semicolon, ";"⟩]) ∧
    ((∃ body, compile .first "a=-1;" = .ok body ∧
        compile .longest "\na\t= -1\r\n;" = .ok body) ∨
      ∃ e span, compile .first "a=-1;" = .error (.parse e) ∧
        compile .longest "\na\t= -1\r\n;" = .error (.parse (e.moveTo span))) := by
  have htokens : tokenize .first "a=-1;" = .ok
      [⟨.name, "a", ⟨0, 1, 1, 1⟩⟩, ⟨.assign, "=", ⟨1, 2, 1, 2⟩⟩, ⟨.integer, "-1", ⟨2, 4, 1, 3⟩⟩,
        ⟨.semicolon, ";", ⟨4, 5, 1, 5⟩⟩] := by
    cbv
  have hlength : ["\n", "\t", " ", "\r\n", ""].length = 4 + 1 := rfl
  refine ⟨by decide, compile_respaced htokens hlength ?_ ?_ .longest⟩
  · simp [IsBlank, blanks, CharClass.contains, ClassItem.contains]
  · simp

end Straightline
