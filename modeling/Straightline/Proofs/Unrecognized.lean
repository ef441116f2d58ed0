import Straightline.Proofs.LongestWord

/-!
# Where a scan gets stuck

A scan that fails names the first character that no token can start with.

* No rule matches there at all, not even one for a number whose sign would be an operator: the sign
  alone is a token then (`Cursor.lengths_eq_nil_of_choose_eq_none`).
* The text before it can be scanned (`Cursor.Reaches.stuck_beginning`). Without the character behind
  it, the last name of that text may become a keyword, but it ends at the same place.
* The context of the error shows the line around the place, and a caret under the character. The
  line is shown without carriage returns at its end, and none of them is the character itself
  (`getElem?_lineAround`).

Main statement: `unrecognized_at_first_character`.
-/

namespace Straightline

open Pattern Lexicon

/-! ## Places where no rule matches -/

/-- There is a choice where a rule matches and its kind may start. -/
theorem Cursor.exists_choose {cursor : Cursor} {rule : Rule} (hrule : rule ∈ rules) {n : Nat}
    (hn : n ∈ rule.pattern.lengths cursor.rest)
    (hstart : mayStart cursor.last rule.kind cursor.rest) (policy : Policy) :
    ∃ choice, cursor.choose policy = some choice := by
  obtain ⟨candidate, hcandidate, -⟩ := Rule.exists_candidate? hrule hn hstart
  rw [choose_eq_findSome?, ← Option.isSome_iff_exists, List.findSome?_isSome_iff]
  exact ⟨rule, hrule, Option.isSome_iff_exists.mpr ⟨candidate, hcandidate⟩⟩

/-- Where there is no choice, no rule matches. -/
theorem Cursor.lengths_eq_nil_of_choose_eq_none {policy : Policy} {cursor : Cursor}
    (h : cursor.choose policy = none) : ∀ rule ∈ rules, rule.pattern.lengths cursor.rest = [] := by
  have hnone {rule : Rule} (hrule : rule ∈ rules) {n : Nat}
      (hn : n ∈ rule.pattern.lengths cursor.rest) :
      ¬mayStart cursor.last rule.kind cursor.rest := by
    intro hstart
    obtain ⟨choice, hchoose⟩ := exists_choose hrule hn hstart policy
    rw [h] at hchoose
    cases hchoose
  intro rule hrule
  rw [List.eq_nil_iff_forall_not_mem]
  intro n hn
  -- the rule can only have been left out for a sign, and the sign alone would be a token
  have hsign : startsWithSign cursor.rest := by
    have hnot := hnone hrule hn
    simp only [mayStart, Bool.not_eq_true, Bool.not_eq_false', Bool.and_eq_true] at hnot
    exact hnot.1.2
  obtain ⟨c, cs, hrest⟩ : ∃ c cs, cursor.rest = c :: cs := by
    refine List.exists_cons_of_ne_nil fun hnil => ?_
    rw [hnil] at hsign
    cases hsign
  simp only [hrest, startsWithSign, Bool.or_eq_true, beq_iff_eq] at hsign
  have hone : 1 ∈ (char c).lengths cursor.rest := by
    simp [hrest, char, lengths, CharClass.contains]
  rcases hsign with rfl | rfl
  · exact hnone (show (⟨.plus, char '+'⟩ : Rule) ∈ rules by decide) hone rfl
  · exact hnone (show (⟨.minus, char '-'⟩ : Rule) ∈ rules by decide) hone rfl

/-! ## Beginnings of a text -/

/-- The words of a pattern that does not look ahead are the same everywhere. -/
theorem Pattern.Describes.of_looksAhead_eq_false {p : Pattern} (hp : p.looksAhead = false)
    {word rest : List Char} (h : p.Describes word rest) (rest' : List Char) :
    p.Describes word rest' := by
  rw [describes_iff_mem_language hp] at h ⊢
  exact h

/-- The rules for keywords alone look ahead, and every keyword is a word of the rule for names. -/
theorem rules_looksAhead :
    (∀ rule ∈ rules, rule.pattern.looksAhead = false ∨
      ∃ word ∈ keywords, rule.pattern = keyword word) ∧
    ∀ word ∈ keywords, word.toList.length ∈ name.lengths word.toList := by
  decide

/-- A word at the front of a text stays a word of some rule, whatever follows the text. -/
theorem exists_rule_append {rule : Rule} (hrule : rule ∈ rules) {last : Option Kind}
    {cs : List Char} {n : Nat} (hn : n ∈ rule.pattern.lengths cs)
    (hstart : mayStart last rule.kind cs) (rest : List Char) :
    ∃ rule' ∈ rules, n ∈ rule'.pattern.lengths (cs ++ rest) ∧
      mayStart last rule'.kind (cs ++ rest) := by
  obtain ⟨hle, hword⟩ := mem_lengths_iff.mp hn
  rcases rules_looksAhead.1 rule hrule with hfree | ⟨word, hkeyword, hpattern⟩
  · have hne : cs ≠ [] := by
      have hpos := Rule.pos_of_mem_lengths hrule hn
      exact List.length_pos_iff.mp (by omega)
    refine ⟨rule, hrule, mem_lengths_iff.mpr ⟨by simp; omega, ?_⟩, by rwa [mayStart_append hne]⟩
    rw [List.take_append_of_le_length hle]
    exact hword.of_looksAhead_eq_false hfree _
  · -- a keyword becomes a name, if what follows is part of the same word
    rw [hpattern, describes_keyword_iff] at hword
    obtain ⟨-, hname⟩ := mem_lengths_iff.mp (rules_looksAhead.2 word hkeyword)
    rw [List.take_length] at hname
    refine ⟨⟨.name, name⟩, by decide, mem_lengths_iff.mpr ⟨by simp; omega, ?_⟩, rfl⟩
    rw [List.take_append_of_le_length hle, hword.1]
    exact hname.of_looksAhead_eq_false (by decide) _

namespace Cursor

variable {policy : Policy} {p : Position} {last : Option Kind} {text rest : List Char}
  {choice : Candidate}

/-- A choice that ends inside a beginning of the text is made without the rest of the text, too. -/
theorem choose_beginning (hchoose : choose policy ⟨p, last, text ++ rest⟩ = some choice)
    (hlt : choice.length < text.length) : choose policy ⟨p, last, text⟩ = some choice := by
  have hne : text ≠ [] := List.length_pos_iff.mp (by omega)
  rw [← hchoose]
  refine (choose_append hne fun rule hrule hstart n hn => ?_).symm
  rcases hn with hn | hn
  · -- a word of the beginning is one of the whole text, so the choice is no shorter
    obtain ⟨rule', hrule', hn', hstart'⟩ := exists_rule_append hrule hn hstart rest
    exact (le_length_of_choose hchoose hrule' hn' hstart').trans_lt hlt
  · rw [← mayStart_append hne rest] at hstart
    exact (le_length_of_choose hchoose hrule hn hstart).trans_lt hlt

/-- A choice that takes all of a beginning of the text leaves a choice that takes as much without
the rest of the text, maybe of another kind. -/
theorem exists_choose_beginning (hchoose : choose policy ⟨p, last, text ++ rest⟩ = some choice)
    (hlength : choice.length = text.length) :
    ∃ choice', choose policy ⟨p, last, text⟩ = some choice' ∧ choice'.length = text.length := by
  obtain ⟨rule, hrule, hkind, hmatch, hstart⟩ := exists_rule_of_choose hchoose
  have hne : text ≠ [] := List.length_pos_iff.mp (hlength ▸ choice.length_pos)
  have hmem : text.length ∈ rule.pattern.lengths text := by
    obtain ⟨-, hword⟩ := mem_lengths_iff.mp (List.mem_of_mem_head? hmatch)
    rw [hlength, List.take_left, List.drop_left] at hword
    rw [mem_lengths_iff, List.take_length, List.drop_length]
    exact ⟨Nat.le_refl _, hword.of_head? (by simp)⟩
  rw [← hkind, mayStart_append hne] at hstart
  obtain ⟨choice', hchoose'⟩ := @exists_choose ⟨p, last, text⟩ rule hrule _ hmem hstart policy
  refine ⟨choice', hchoose', Nat.le_antisymm (length_le_of_choose hchoose') ?_⟩
  exact le_length_of_choose hchoose' hrule hmem hstart

end Cursor

/-- The text up to a place that a scan reaches can be scanned by itself. -/
theorem Cursor.Reaches.stuck_beginning {policy : Policy} {cursor final : Cursor}
    {tokens : List Token} (h : cursor.Reaches policy tokens final) {text : List Char}
    (htext : cursor.rest = text ++ final.rest) :
    (scanFrom policy { cursor with rest := text }).stuck = none := by
  induction h generalizing text with
  | refl cursor =>
    obtain rfl : text = [] := by simpa using htext
    rw [scanFrom_of_rest_eq_nil policy rfl]
  | @step cursor final choice tokens hchoose h ih =>
    obtain ⟨text', rfl, htext'⟩ := h.exists_text_of_next htext
    have hlength : (cursor.rest.take choice.length).length = choice.length :=
      List.length_take_of_le (length_le_of_choose hchoose)
    have hne : cursor.rest.take choice.length ++ text' ≠ [] := by
      simp [take_ne_nil_of_choose hchoose]
    have hwhole : choose policy ⟨cursor.position, cursor.last,
        cursor.rest.take choice.length ++ text' ++ final.rest⟩ = some choice := by
      rw [← htext]
      exact hchoose
    by_cases hnil : text' = []
    · -- the last step: whatever its kind is now, nothing is left behind it
      obtain ⟨choice', hchoose', hlength'⟩ :=
        exists_choose_beginning hwhole (by rw [hnil, List.append_nil, hlength])
      rw [scanFrom_of_choose_eq_some hne hchoose']
      rw [scanFrom_of_rest_eq_nil policy (by simp [next, hlength'])]
    · -- any other step ends inside the beginning, so it is the same step
      have hlt : choice.length < (cursor.rest.take choice.length ++ text').length := by
        rw [List.length_append, hlength]
        exact Nat.lt_add_of_pos_right (List.length_pos_iff.mpr hnil)
      rw [scanFrom_of_choose_eq_some hne (choose_beginning hwhole hlt),
        next_append (length_le_of_choose hchoose)]
      exact ih htext'

/-! ## The line of an error -/

/-- The line of a text around the place between `before` and `after`, without carriage returns at
its end. -/
def lineAround (before after : List Char) : List Char :=
  (before.rtakeWhile (· != '\n') ++ after.takeWhile (· != '\n')).rdropWhile (· == '\r')

/-- The first line goes up to the first line feed. -/
theorem getD_zero_splitOn (cs : List Char) :
    (cs.splitOn '\n').getD 0 [] = cs.takeWhile (· != '\n') := by
  by_cases h : '\n' ∈ cs
  · obtain ⟨line, others, rfl, hline⟩ := List.eq_append_cons_of_mem h
    have hne : ∀ c ∈ line, (c == '\n') = false := fun c hc =>
      beq_eq_false_iff_ne.mpr (ne_of_mem_of_not_mem hc hline)
    rw [List.splitOn, List.splitOnP_append_cons_of_forall_mem hne _ (by simp),
      List.takeWhile_append_of_pos fun c hc => by simp [bne, hne c hc]]
    simp
  · have hne : ∀ c ∈ cs, (c != '\n') = true := fun c hc =>
      bne_iff_ne.mpr (ne_of_mem_of_not_mem hc h)
    rw [List.splitOn_eq_singleton h, List.takeWhile_eq_self_iff.mpr hne]
    rfl

/-- What stands on a line behind a line feed does not depend on the lines before. -/
theorem rtakeWhile_append_cons (lines line : List Char) :
    (lines ++ '\n' :: line).rtakeWhile (· != '\n') = line.rtakeWhile (· != '\n') := by
  induction line using List.reverseRecOn with
  | nil => simp
  | append_singleton line c ih =>
    rw [← List.cons_append, ← List.append_assoc, List.rtakeWhile_concat, List.rtakeWhile_concat, ih]

/-- The line with the number of a place is the one around it. -/
theorem getD_splitOn (before after : List Char) :
    ((before ++ after).splitOn '\n').getD (before.count '\n') [] =
      before.rtakeWhile (· != '\n') ++ after.takeWhile (· != '\n') := by
  by_cases h : '\n' ∈ before
  · -- without the first line, the number is one less
    obtain ⟨line, others, rfl, hline⟩ := List.eq_append_cons_of_mem h
    have hne : ∀ c ∈ line, (c == '\n') = false := fun c hc =>
      beq_eq_false_iff_ne.mpr (ne_of_mem_of_not_mem hc hline)
    rw [List.append_assoc, List.cons_append, List.splitOn,
      List.splitOnP_append_cons_of_forall_mem hne _ (by simp), List.count_append,
      List.count_eq_zero.mpr hline, List.count_cons_self, Nat.zero_add, List.getD_cons_succ,
      rtakeWhile_append_cons]
    exact getD_splitOn others after
  · have hne : ∀ c ∈ before, (c != '\n') = true := fun c hc =>
      bne_iff_ne.mpr (ne_of_mem_of_not_mem hc h)
    rw [List.count_eq_zero.mpr h, getD_zero_splitOn, List.takeWhile_append_of_pos hne,
      List.rtakeWhile_eq_self_iff.mpr hne]
termination_by before.length
decreasing_by
  subst_vars
  simp
  omega

/-- The line that an error shows is the one around its place. -/
theorem lineText_behind (before after : List Char) :
    lineText (before ++ after) (Position.behind before).line = lineAround before after := by
  simp only [lineText, Position.behind, Nat.add_sub_cancel_left, getD_splitOn]
  rfl

/-- Nothing is dropped at the end of a text up to a character that stays. -/
theorem rdropWhile_append_cons {f : Char → Bool} {c : Char} (hc : f c = false) (cs ds : List Char) :
    (cs ++ c :: ds).rdropWhile f = cs ++ c :: ds.rdropWhile f := by
  induction ds using List.reverseRecOn with
  | nil => simp [hc]
  | append_singleton ds d ih =>
    rw [← List.cons_append, ← List.append_assoc, List.rdropWhile_concat, List.rdropWhile_concat, ih]
    split <;> simp

/-- The character behind a place stands on the line around it, in the column of the place. -/
theorem getElem?_lineAround {before after : List Char} {c : Char} (hfeed : c ≠ '\n')
    (hreturn : c ≠ '\r') :
    (lineAround before (c :: after))[(Position.behind before).column - 1]? = some c := by
  rw [lineAround, List.takeWhile_cons_of_pos (by simpa using hfeed),
    rdropWhile_append_cons (by simpa using hreturn)]
  simp [Position.behind]

/-! ## Lexical errors -/

/-- The span points at the character `c`, which stands in the text between `before` and `after`. -/
structure Span.PointsAt (source : String) (span : Span) (before : String) (c : Char)
    (after : String) : Prop where
  /-- The text is made up of the three. -/
  source_eq : source = before ++ String.singleton c ++ after
  /-- The span starts behind the bytes of `before`. -/
  start_eq : span.start = before.utf8ByteSize
  /-- It is empty. -/
  stop_eq : span.stop = before.utf8ByteSize
  /-- Its line is one more than the line feeds before it. -/
  line_eq : span.line = 1 + before.toList.count '\n'
  /-- Its column is one more than the characters before it on its line. -/
  column_eq : span.column = 1 + (before.toList.rtakeWhile (· != '\n')).length

/-- The empty span at a place points at the character behind it. -/
theorem Span.pointsAt_behind (before : List Char) (c : Char) (after : List Char) :
    (point (.behind before)).PointsAt (String.ofList (before ++ c :: after))
      (String.ofList before) c (String.ofList after) := by
  refine ⟨?_, ?_, ?_, ?_, ?_⟩
  · rw [← String.toList_inj]
    simp
  all_goals simp [point, Position.behind, ← byteSize_toList]

/-- A character that a span points at is part of the text, so the span starts before its end. -/
theorem Span.PointsAt.start_lt {source before after : String} {span : Span} {c : Char}
    (h : span.PointsAt source before c after) : span.start < source.utf8ByteSize := by
  have hpos := c.utf8Size_pos
  rw [h.start_eq, h.source_eq, String.utf8ByteSize_append, String.utf8ByteSize_append,
    String.utf8ByteSize_singleton]
  omega

/-- A text has no tokens if its scan gets stuck. -/
theorem tokenize_eq_error_iff {policy : Policy} {source : String} {e : LexError} :
    tokenize policy source = .error e ↔
      ∃ p, (scan policy source).stuck = some p ∧ unrecognizedAt source p = e := by
  rw [tokenize]
  cases (scan policy source).stuck <;> simp

/-- A text without tokens is read up to a character that no rule matches at. -/
theorem exists_reaches_scan_of_error {policy : Policy} {source : String} {e : LexError}
    (h : tokenize policy source = .error e) :
    ∃ final c cs, (Cursor.start source.toList).Reaches policy (scan policy source).tokens final ∧
      final.rest = c :: cs ∧ (∀ rule ∈ rules, rule.pattern.lengths (c :: cs) = []) ∧
      e = unrecognizedAt source final.position := by
  obtain ⟨p, hstuck, rfl⟩ := tokenize_eq_error_iff.mp h
  obtain ⟨final, hreaches, ⟨-, hnone⟩ | ⟨hrest, hchoose, hsome⟩⟩ :=
    exists_reaches policy (.start source.toList)
  · rw [scan, hnone] at hstuck
    cases hstuck
  · rw [scan, hsome, Option.some_inj] at hstuck
    obtain ⟨c, cs, hrest⟩ := List.exists_cons_of_ne_nil hrest
    refine ⟨final, c, cs, hreaches, hrest, ?_, by rw [hstuck]⟩
    exact hrest ▸ Cursor.lengths_eq_nil_of_choose_eq_none hchoose

/-- A character where no rule matches is not white space. -/
theorem not_blank_of_lengths_eq_nil {c : Char} {cs : List Char}
    (h : ∀ rule ∈ rules, rule.pattern.lengths (c :: cs) = []) : blanks.contains c = false := by
  by_contra hblank
  have hone : 1 ∈ space.lengths (c :: cs) := by
    refine mem_lengths_iff.mpr ⟨by simp, by simp, ?_⟩
    simpa using hblank
  rw [h ⟨.space, space⟩ (by decide)] at hone
  cases hone

/-- An error in cutting a text into tokens points at a character. The text before it has tokens, and
no rule matches where it stands. The context is the line around it, and a caret under it. -/
theorem unrecognized_at_first_character {policy : Policy} {source : String} {span : Span}
    {context : String} (h : tokenize policy source = .error (.unrecognized span context)) :
    ∃ before c after line, span.PointsAt source before c after ∧
      span.start < source.utf8ByteSize ∧
      (∃ tokens, tokenize policy before = .ok tokens) ∧
      matchesAt (String.singleton c ++ after) = [] ∧
      line = String.ofList (lineAround before.toList (c :: after.toList)) ∧
      context = line ++ "\n" ++ String.ofList (List.replicate (span.column - 1) ' ') ++ "^" ∧
      line.toList[span.column - 1]? = some c := by
  obtain ⟨final, c, cs, hreaches, hrest, hnone, he⟩ := exists_reaches_scan_of_error h
  obtain ⟨text, htext, hposition⟩ := hreaches.exists_append
  have hsource : source.toList = text ++ c :: cs := hrest ▸ htext
  have hplace : final.position = .behind text := by
    rw [hposition]
    exact Position.advance_start text
  obtain ⟨rfl, rfl⟩ := LexError.unrecognized.inj he
  have hblank := not_blank_of_lengths_eq_nil hnone
  have hpoints : (Span.point final.position).PointsAt source (String.ofList text) c
      (String.ofList cs) := by
    rw [hplace, ← String.ofList_toList (s := source), hsource]
    exact Span.pointsAt_behind text c cs
  refine ⟨_, c, _, _, hpoints, hpoints.start_lt, ?_, ?_, rfl, ?_, ?_⟩
  · -- the text before the character is scanned to its end
    have hstuck := hreaches.stuck_beginning htext
    exact ⟨_, tokenize_eq_ok_iff.mpr ⟨by simpa [scan, Cursor.start] using hstuck, rfl⟩⟩
  · rw [matchesAt, List.filterMap_eq_nil_iff]
    intro rule hrule
    simp [Rule.matchLength?, Pattern.matchLength?, hnone rule hrule]
  · rw [hplace, hsource, lineText_behind, String.ofList_append, ← String.append_assoc]
    simp [Span.point]
  · rw [hplace, String.toList_ofList, String.toList_ofList, String.toList_ofList]
    refine getElem?_lineAround ?_ ?_
    -- line feeds and carriage returns are white space
    all_goals
      rintro rfl
      exact absurd hblank (by decide)

/-- The letter outside ASCII keeps `print` from being a keyword, but is no part of a name either.
The line is shown without its carriage return. -/
theorem unrecognized_at_first_character_keyword :
    ∃ before c after line,
      (⟨9, 9, 2, 7⟩ : Span).PointsAt "1;\n printé\r\n;" before c after ∧
      9 < "1;\n printé\r\n;".utf8ByteSize ∧
      (∃ tokens, tokenize .first before = .ok tokens) ∧
      matchesAt (String.singleton c ++ after) = [] ∧
      line = String.ofList (lineAround before.toList (c :: after.toList)) ∧
      " printé\n      ^" = line ++ "\n" ++ String.ofList (List.replicate 6 ' ') ++ "^" ∧
      line.toList[6]? = some c := by
  have h : tokenize .first "1;\n printé\r\n;" =
      .error (.unrecognized ⟨9, 9, 2, 7⟩ " printé\n      ^") :=
    tokenize_eq_error_iff.mpr ⟨⟨9, 2, 7⟩, by decide +kernel, by decide⟩
  exact unrecognized_at_first_character h

end Straightline
