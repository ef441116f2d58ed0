import Straightline.Proofs.Maximality

/-!
# Rules take their longest word

A pattern is a regular expression, and `Pattern.language` reads it as one: the language of its
words, built with the union, the product and the star of languages. A rule accepts the words in the
language of its pattern. The rules for keywords are the exception, as they look at the character
behind the keyword (`Rule.Accepts`).

A match prefers the left side of an alternative to a longer word on the right, so a pattern need not
take its longest word. The rules of the lexicon do, as the next character always decides how their
patterns go on (`rules_deterministic`).

Main statement: `rules_take_longest_word`, by which the size of a match in bytes is the greatest
size of an accepted word at the front of the text.
-/

namespace Straightline

open Pattern Lexicon

open scoped Computability

/-! ## The language of a pattern -/

/-- The words of one character of the class. -/
def CharClass.language (s : CharClass) : Language Char :=
  {word | ∃ c, s.contains c ∧ word = [c]}

theorem CharClass.mem_language_iff {s : CharClass} {word : List Char} :
    word ∈ s.language ↔ ∃ c, s.contains c ∧ word = [c] := Iff.rfl

/-- The words over a class are those whose characters all belong to it. -/
theorem CharClass.mem_kstar_language_iff {s : CharClass} {word : List Char} :
    word ∈ s.language∗ ↔ ∀ c ∈ word, s.contains c := by
  rw [Language.mem_kstar]
  constructor
  · rintro ⟨words, rfl, hwords⟩ c hc
    obtain ⟨_, hmem, hc⟩ := List.mem_flatten.mp hc
    obtain ⟨d, hd, rfl⟩ := hwords _ hmem
    rwa [List.mem_singleton.mp hc]
  · intro h
    refine ⟨word.map ([·]), (List.flatMap_singleton' word).symm, ?_⟩
    intro w hw
    obtain ⟨c, hc, rfl⟩ := List.mem_map.mp hw
    exact ⟨c, h c hc, rfl⟩

namespace Pattern

/-- The words of a pattern as a regular expression. The end of a word adds nothing to a word; what
it asks of the text behind is left out here. -/
def language : Pattern → Language Char
  | one s => s.language
  | many s => s.language∗
  | many1 s => s.language * s.language∗
  | optional s => 1 + s.language
  | seq p q => p.language * q.language
  | either p q => p.language + q.language
  | group p => p.language
  | wordEnd => 1

/-- Whether a pattern looks at what follows its words. -/
def looksAhead : Pattern → Bool
  | one _ | many _ | many1 _ | optional _ => false
  | seq p q | either p q => p.looksAhead || q.looksAhead
  | group p => p.looksAhead
  | wordEnd => true

/-- A pattern that does not look ahead describes the words of its language, whatever follows. -/
theorem describes_iff_mem_language {p : Pattern} (hp : p.looksAhead = false)
    {word rest : List Char} : p.Describes word rest ↔ word ∈ p.language := by
  induction p generalizing word rest with
  | one s => exact CharClass.mem_language_iff.symm
  | many s => exact CharClass.mem_kstar_language_iff.symm
  | many1 s =>
    rw [language, Language.mem_mul]
    constructor
    · rintro ⟨hne, hall⟩
      obtain ⟨c, cs, rfl⟩ := List.exists_cons_of_ne_nil hne
      obtain ⟨hc, hcs⟩ := List.forall_mem_cons.mp hall
      exact ⟨[c], ⟨c, hc, rfl⟩, cs, CharClass.mem_kstar_language_iff.mpr hcs, rfl⟩
    · rintro ⟨_, ⟨c, hc, rfl⟩, cs, hcs, rfl⟩
      refine ⟨by simp, List.forall_mem_cons.mpr ⟨hc, ?_⟩⟩
      exact CharClass.mem_kstar_language_iff.mp hcs
  | optional s =>
    rw [language, Language.mem_add, Language.mem_one]
    exact Iff.rfl
  | seq p q ihp ihq =>
    obtain ⟨hp, hq⟩ := Bool.or_eq_false_iff.mp hp
    simp only [Describes, ihp hp, ihq hq, language, Language.mem_mul]
    constructor
    · rintro ⟨u, v, rfl, hu, hv⟩
      exact ⟨u, hu, v, hv, rfl⟩
    · rintro ⟨u, hu, v, hv, rfl⟩
      exact ⟨u, v, rfl, hu, hv⟩
  | either p q ihp ihq =>
    obtain ⟨hp, hq⟩ := Bool.or_eq_false_iff.mp hp
    rw [Describes, ihp hp, ihq hq, language, Language.mem_add]
  | group p ih => exact ih hp
  | wordEnd => cases hp

/-- A deterministic pattern takes the greatest of the lengths that it can. -/
theorem matchLength?_eq_some_iff_isGreatest {p : Pattern} (h : p.isDeterministic) {cs : List Char}
    {n : Nat} : p.matchLength? cs = some n ↔ IsGreatest {m | m ∈ p.lengths cs} n := by
  simp only [matchLength?_eq_some_iff h, ← mem_lengths_iff]
  exact Iff.rfl

end Pattern

/-! ## Accepted words -/

/-- The keyword that a kind stands for, if it stands for one. -/
def Kind.keyword? : Kind → Option String
  | int32 => some "int32"
  | float32 => some "float32"
  | char => some "char"
  | void => some "void"
  | print => some "print"
  | _ => none

/-- The patterns of keywords are as their kinds say, and no others look ahead. -/
theorem rules_keyword? : ∀ rule ∈ rules,
    (∃ word ∈ rule.kind.keyword?, rule.pattern = keyword word) ∨
      rule.kind.keyword? = none ∧ rule.pattern.looksAhead = false := by
  decide

/-- More characters take no fewer bytes. -/
theorem monotone_byteSize_take (cs : List Char) : Monotone fun m => byteSize (cs.take m) := by
  intro m n hmn
  obtain ⟨k, rfl⟩ := Nat.exists_eq_add_of_le hmn
  simp only [List.take_add, byteSize_append]
  exact Nat.le_add_right _ _

namespace Rule

/-- Whether a rule accepts `word` in a place where `rest` follows. The rule for a keyword accepts
the keyword, if no word character follows. Any other rule accepts the words of its language. -/
def Accepts (rule : Rule) (word rest : String) : Prop :=
  match rule.kind.keyword? with
  | some keyword => word = keyword ∧ ∀ c ∈ rest.toList.head?, ¬isWordChar c
  | none => word.toList ∈ rule.pattern.language

/-- The sizes in bytes of the words that a rule accepts at the front of a text. -/
def acceptedSizes (rule : Rule) (text : String) : Set Nat :=
  {n | ∃ word rest, text = word ++ rest ∧ rule.Accepts word rest ∧ n = word.utf8ByteSize}

variable {rule : Rule} {text : String}

/-- A rule accepts the words that its pattern describes. -/
theorem accepts_iff_describes (hrule : rule ∈ rules) {word rest : String} :
    rule.Accepts word rest ↔ rule.pattern.Describes word.toList rest.toList := by
  rw [Accepts]
  rcases rules_keyword? rule hrule with ⟨keyword, hkind, hpattern⟩ | ⟨hkind, hfree⟩
  · rw [hpattern, describes_keyword_iff, String.toList_inj, Option.mem_def.mp hkind]
  · rw [describes_iff_mem_language hfree, hkind]

/-- The accepted words at the front of a text are the beginnings that a match can take. -/
theorem acceptedSizes_eq_image (hrule : rule ∈ rules) :
    rule.acceptedSizes text =
      (fun m => byteSize (text.toList.take m)) '' {m | m ∈ rule.pattern.lengths text.toList} := by
  ext n
  constructor
  · -- taking as many characters as the word has gives the word back
    rintro ⟨word, rest, rfl, haccepts, rfl⟩
    have hword := length_mem_lengths ((accepts_iff_describes hrule).mp haccepts)
    exact ⟨word.toList.length, by simpa using hword, by simp⟩
  · rintro ⟨m, hm, rfl⟩
    obtain ⟨-, hword⟩ := mem_lengths_iff.mp hm
    refine ⟨String.ofList (text.toList.take m), String.ofList (text.toList.drop m), ?_, ?_, ?_⟩
    · rw [← String.ofList_append, List.take_append_drop, String.ofList_toList]
    · rw [accepts_iff_describes hrule, String.toList_ofList, String.toList_ofList]
      exact hword
    · rw [← byteSize_toList, String.toList_ofList]

/-- The match of a rule is the greatest of the accepted words. -/
theorem isGreatest_of_matchByteSize? (hrule : rule ∈ rules) {n : Nat}
    (h : rule.matchByteSize? text = some n) : IsGreatest (rule.acceptedSizes text) n := by
  obtain ⟨m, hm, rfl⟩ := Option.map_eq_some_iff.mp h
  have hdeterministic := (rules_deterministic rule hrule).1
  rw [acceptedSizes_eq_image hrule]
  -- the preferred match has the most characters, and so the most bytes
  exact (monotone_byteSize_take _).map_isGreatest
    ((matchLength?_eq_some_iff_isGreatest hdeterministic).mp hm)

/-- A rule does not match where it accepts nothing, and only there. -/
theorem matchByteSize?_eq_none_iff_empty (hrule : rule ∈ rules) :
    rule.matchByteSize? text = none ↔ rule.acceptedSizes text = ∅ := by
  rw [acceptedSizes_eq_image hrule, Set.image_eq_empty, matchByteSize?_eq_none_iff, matchLength?,
    Pattern.matchLength?, List.head?_eq_none_iff, List.eq_nil_iff_forall_not_mem,
    Set.eq_empty_iff_forall_notMem]
  exact Iff.rfl

/-- A word that a rule accepts is not empty. -/
theorem pos_of_mem_acceptedSizes (hrule : rule ∈ rules) {n : Nat}
    (h : n ∈ rule.acceptedSizes text) : 0 < n := by
  rw [acceptedSizes_eq_image hrule] at h
  obtain ⟨m, hm, rfl⟩ := h
  have hpos := pos_of_mem_lengths hrule hm
  have hle := (mem_lengths_iff.mp hm).1
  apply byteSize_pos
  rw [← List.length_pos_iff, List.length_take]
  omega

end Rule

/-- A rule takes the longest word that it accepts at the front of a text, measured in bytes, and
does not match if it accepts none. What it takes is not empty, and ends between two characters or at
the end of the text. -/
theorem rules_take_longest_word {rule : Rule} (hrule : rule ∈ rules) (text : String) :
    (∀ n, rule.matchByteSize? text = some n ↔ IsGreatest (rule.acceptedSizes text) n) ∧
      (rule.matchByteSize? text = none ↔
        ∀ word rest, text = word ++ rest → ¬rule.Accepts word rest) ∧
      ∀ n, rule.matchByteSize? text = some n → 0 < n ∧ String.Pos.Raw.IsValid text ⟨n⟩ := by
  refine ⟨fun n => ⟨Rule.isGreatest_of_matchByteSize? hrule, fun hgreatest => ?_⟩, ?_, ?_⟩
  · -- there is an accepted word, so the rule matches, and no other size is the greatest
    cases hmatch : rule.matchByteSize? text with
    | none =>
      rw [Rule.matchByteSize?_eq_none_iff_empty hrule] at hmatch
      exact absurd hgreatest.1 (hmatch ▸ Set.notMem_empty n)
    | some m =>
      rw [(Rule.isGreatest_of_matchByteSize? hrule hmatch).unique hgreatest]
  · rw [Rule.matchByteSize?_eq_none_iff_empty hrule, Set.eq_empty_iff_forall_notMem]
    constructor
    · intro hempty word rest htext haccepts
      exact hempty _ ⟨word, rest, htext, haccepts, rfl⟩
    · rintro hnone n ⟨word, rest, htext, haccepts, -⟩
      exact hnone word rest htext haccepts
  · intro n hmatch
    have hmem := (Rule.isGreatest_of_matchByteSize? hrule hmatch).1
    refine ⟨Rule.pos_of_mem_acceptedSizes hrule hmem, ?_⟩
    obtain ⟨word, rest, htext, -, rfl⟩ := hmem
    exact String.Pos.Raw.isValid_iff_exists_append.mpr ⟨word, rest, htext, rfl⟩

/-- A string ends at the first quote behind its own, and a letter outside ASCII takes two bytes. The
same letter behind a keyword leaves nothing to accept. -/
theorem rules_take_longest_word_letter :
    (IsGreatest (Rule.acceptedSizes ⟨.string, string⟩ "\"é\"+\"") 4 ∧
      String.Pos.Raw.IsValid "\"é\"+\"" ⟨4⟩) ∧
    ∀ word rest, "printé" = word ++ rest → ¬Rule.Accepts ⟨.print, keyword "print"⟩ word rest := by
  have hstring := @rules_take_longest_word ⟨.string, string⟩ (by decide) "\"é\"+\""
  have hprint := @rules_take_longest_word ⟨.print, keyword "print"⟩ (by decide) "printé"
  have hmatch : Rule.matchByteSize? ⟨.string, string⟩ "\"é\"+\"" = some 4 := by decide
  have hnone : Rule.matchByteSize? ⟨.print, keyword "print"⟩ "printé" = none := by decide +kernel
  exact ⟨⟨(hstring.1 4).mp hmatch, (hstring.2.2 4 hmatch).2⟩, hprint.2.1.mp hnone⟩

end Straightline
