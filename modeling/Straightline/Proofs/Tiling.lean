import Straightline.Proofs.WellFormed

/-!
# Tokens tile the text

A scan goes through a text once, from left to right. `Cursor.Reaches` says that it gets from one
place to another, and which tokens it finds on its way. What holds of a whole scan follows from what
one step does:

* every scan reaches the end of the text, or a place where no rule applies (`exists_reaches`);
* the place that it reaches is the one behind the text that it has read, as `Position.behind` counts
  it in that text (`Cursor.Reaches.exists_append`, `Position.advance_start`);
* every token is found by a step of its own (`Cursor.Reaches.exists_step`).

Main statement: `tokens_tile`. The tokens of a text are pieces of it, in order and apart, each at
the place that it names, and only white space is left between them.
-/

namespace Straightline

open Pattern Lexicon

/-! ## Places counted in the text -/

/-- The place behind the characters `before`, counted in them: their bytes, the line feeds among
them, and the characters behind the last line feed. -/
def Position.behind (before : List Char) : Position where
  offset := byteSize before
  line := 1 + before.count '\n'
  column := 1 + (before.rtakeWhile (· != '\n')).length

/-- Going on character by character leads to the place that is counted. -/
theorem Position.advance_start (cs : List Char) : Position.start.advance cs = .behind cs := by
  induction cs using List.reverseRecOn with
  | nil => rfl
  | append_singleton cs c ih =>
    rw [advance_append, ih, advance_cons, advance_nil, step]
    by_cases hc : c = '\n'
    · -- nothing stands behind the last line feed yet
      simp [behind, hc, Nat.add_assoc]
    · simp [behind, hc, Nat.add_assoc]

/-- The place behind some characters and then others is the one behind all of them. -/
theorem Position.advance_behind (cs ds : List Char) :
    (behind cs).advance ds = behind (cs ++ ds) := by
  rw [← advance_start, ← advance_start, advance_append]

/-! ## Scanning step by step -/

namespace Cursor

variable {policy : Policy} {cursor final : Cursor} {choice : Candidate} {tokens : List Token}

/-- A candidate does not take more than there is. -/
theorem length_le_of_choose (h : cursor.choose policy = some choice) :
    choice.length ≤ cursor.rest.length := by
  obtain ⟨rule, -, -, hlength, -⟩ := exists_rule_of_choose h
  exact (mem_lengths_iff.mp (List.mem_of_mem_head? hlength)).1

/-- A candidate takes something. -/
theorem take_ne_nil_of_choose (h : cursor.choose policy = some choice) :
    cursor.rest.take choice.length ≠ [] := by
  have hle := length_le_of_choose h
  have hpos := choice.length_pos
  rw [← List.length_pos_iff, List.length_take]
  omega

theorem rest_ne_nil_of_choose (h : cursor.choose policy = some choice) : cursor.rest ≠ [] := by
  intro hnil
  exact take_ne_nil_of_choose h (by rw [hnil, List.take_nil])

/-- A step depends on the characters that it takes, and goes on with those behind them. -/
theorem next_append (h : choice.length ≤ cursor.rest.length) (text : List Char) :
    ({ cursor with rest := cursor.rest.take choice.length ++ text } : Cursor).next choice =
      { cursor.next choice with rest := text } := by
  have hlength := List.length_take_of_le h
  simp [next, List.take_left' hlength, List.drop_left' hlength]

/-- The token of a step depends on the characters that it takes. -/
theorem token?_append (h : choice.length ≤ cursor.rest.length) (text : List Char) :
    ({ cursor with rest := cursor.rest.take choice.length ++ text } : Cursor).token? choice =
      cursor.token? choice := by
  simp [token?, List.take_left' (List.length_take_of_le h)]

/-- What a candidate takes is a word of the pattern for its kind. -/
theorem describes_of_choose (h : cursor.choose policy = some choice) {pattern : Pattern}
    (hpattern : pattern? choice.kind = some pattern) :
    pattern.Describes (cursor.rest.take choice.length) [] := by
  have hword := (isWord_iff hpattern).mp (isWord_of_choose h)
  rwa [String.toList_ofList] at hword

/-- White space takes blanks only. -/
theorem blank_of_choose (h : cursor.choose policy = some choice) (hspace : choice.kind = .space) :
    ∀ c ∈ cursor.rest.take choice.length, blanks.contains c := by
  have hpattern : pattern? choice.kind = some space := hspace ▸ rfl
  exact (describes_of_choose h hpattern).2

/-- Scanning gets from one place to another and finds the tokens on its way. -/
inductive Reaches (policy : Policy) : Cursor → List Token → Cursor → Prop
  /-- Without a step. -/
  | refl (cursor : Cursor) : Reaches policy cursor [] cursor
  /-- By a step, and from where it leads. -/
  | step {cursor final : Cursor} {choice : Candidate} {tokens : List Token}
      (hchoose : cursor.choose policy = some choice)
      (h : Reaches policy (cursor.next choice) tokens final) :
      Reaches policy cursor ((cursor.token? choice).toList ++ tokens) final

namespace Reaches

/-- The text between two places leads from one position to the other. -/
theorem exists_append (h : cursor.Reaches policy tokens final) :
    ∃ text, cursor.rest = text ++ final.rest ∧ final.position = cursor.position.advance text := by
  induction h with
  | refl => exact ⟨[], rfl, rfl⟩
  | @step cursor final choice _ _ _ ih =>
    obtain ⟨text, hrest, hposition⟩ := ih
    refine ⟨cursor.rest.take choice.length ++ text, ?_, ?_⟩
    · rw [List.append_assoc, ← hrest]
      exact (List.take_append_drop _ _).symm
    · rw [hposition, Position.advance_append]
      rfl

/-- The text between a place and one behind its next step is what the step takes, and the rest. -/
theorem exists_text_of_next (h : (cursor.next choice).Reaches policy tokens final)
    {text : List Char} (htext : cursor.rest = text ++ final.rest) :
    ∃ text', text = cursor.rest.take choice.length ++ text' ∧
      (cursor.next choice).rest = text' ++ final.rest := by
  obtain ⟨text', htext', -⟩ := h.exists_append
  refine ⟨text', List.append_cancel_right (htext.symm.trans ?_), htext'⟩
  rw [List.append_assoc, ← htext', next, List.take_append_drop]

/-- The last kind is that of the last token on the way. -/
theorem last_eq (h : cursor.Reaches policy tokens final) :
    final.last = (tokens.getLast?.map Token.kind).or cursor.last := by
  induction h with
  | refl => rfl
  | @step cursor final choice tokens _ _ ih =>
    rw [ih, List.getLast?_append, next, token?]
    by_cases hspace : choice.kind = .space
    · simp [hspace]
    · -- the token of this step counts only if none follows
      cases tokens.getLast? <;> simp [hspace, Token.covering]

/-- Every token is found by a step, between the tokens before it and those behind it. -/
theorem exists_step {earlier later : List Token} {t : Token}
    (h : cursor.Reaches policy (earlier ++ t :: later) final) :
    ∃ place choice, cursor.Reaches policy earlier place ∧ place.choose policy = some choice ∧
      choice.kind ≠ .space ∧
      t = Token.covering choice.kind place.position (place.rest.take choice.length) ∧
      (place.next choice).Reaches policy later final := by
  generalize htokens : earlier ++ t :: later = tokens at h
  induction h generalizing earlier with
  | refl => simp at htokens
  | @step cursor final choice tokens hchoose h ih =>
    by_cases hspace : choice.kind = .space
    · -- white space is no token, so the token is found later
      rw [token?, if_pos hspace] at htokens
      obtain ⟨place, choice', hreaches, hfound⟩ := ih htokens
      have hstep := hreaches.step hchoose
      rw [token?, if_pos hspace] at hstep
      exact ⟨place, choice', hstep, hfound⟩
    · rw [token?, if_neg hspace] at htokens
      cases earlier with
      | nil =>
        obtain ⟨rfl, rfl⟩ := List.cons.inj htokens
        exact ⟨cursor, choice, .refl cursor, hchoose, hspace, rfl, h⟩
      | cons u earlier =>
        obtain ⟨rfl, hlater⟩ := List.cons.inj htokens
        obtain ⟨place, choice', hreaches, hfound⟩ := ih hlater
        have hstep := hreaches.step hchoose
        rw [token?, if_neg hspace] at hstep
        exact ⟨place, choice', hstep, hfound⟩

end Reaches

end Cursor

/-- Every scan reaches the end of the text, or a place where it gets stuck. -/
theorem exists_reaches (policy : Policy) (cursor : Cursor) :
    ∃ final, cursor.Reaches policy (scanFrom policy cursor).tokens final ∧
      (final.rest = [] ∧ (scanFrom policy cursor).stuck = none ∨
        final.rest ≠ [] ∧ final.choose policy = none ∧
          (scanFrom policy cursor).stuck = some final.position) := by
  fun_induction scanFrom policy cursor with
  | case1 cursor hrest => exact ⟨cursor, .refl cursor, .inl ⟨hrest, rfl⟩⟩
  | case2 cursor hrest hchoose => exact ⟨cursor, .refl cursor, .inr ⟨hrest, hchoose, rfl⟩⟩
  | case3 cursor hrest choice hchoose following ih =>
    obtain ⟨final, hreaches, hend⟩ := ih
    exact ⟨final, hreaches.step hchoose, hend⟩

/-- A text with tokens is scanned to its end. -/
theorem exists_reaches_of_tokenize {policy : Policy} {source : String} {tokens : List Token}
    (h : tokenize policy source = .ok tokens) :
    ∃ final, (Cursor.start source.toList).Reaches policy tokens final ∧ final.rest = [] := by
  obtain ⟨hstuck, rfl⟩ := tokenize_eq_ok_iff.mp h
  obtain ⟨final, hreaches, ⟨hrest, -⟩ | ⟨-, -, hsome⟩⟩ :=
    exists_reaches policy (.start source.toList)
  · exact ⟨final, hreaches, hrest⟩
  · rw [scan, hsome] at hstuck
    cases hstuck

/-! ## Tokens in their places -/

/-- The token stands in the text between `before` and `after`, and its span says so. -/
structure Token.Between (source : String) (t : Token) (before after : String) : Prop where
  /-- The text is made up of the three. -/
  source_eq : source = before ++ t.text ++ after
  /-- The token starts behind the bytes of `before`. -/
  start_eq : t.span.start = before.utf8ByteSize
  /-- It stops behind its own bytes. -/
  stop_eq : t.span.stop = (before ++ t.text).utf8ByteSize
  /-- Its line is one more than the line feeds before it. -/
  line_eq : t.span.line = 1 + before.toList.count '\n'
  /-- Its column is one more than the characters before it on its line. -/
  column_eq : t.span.column = 1 + (before.toList.rtakeWhile (· != '\n')).length

/-- A step from a place that a scan has reached finds a token in its place. -/
theorem Cursor.Reaches.between {policy : Policy} {source : String} {tokens : List Token}
    {place : Cursor} (h : (Cursor.start source.toList).Reaches policy tokens place)
    (choice : Candidate) :
    ∃ before, before ++ String.ofList place.rest = source ∧
      (Token.covering choice.kind place.position (place.rest.take choice.length)).Between source
        before (String.ofList (place.next choice).rest) := by
  obtain ⟨text, hrest, hposition⟩ := h.exists_append
  have hsource : String.ofList text ++ String.ofList place.rest = source := by
    rw [← String.ofList_append, ← hrest]
    exact String.ofList_toList
  have hplace : place.position = .behind text := by
    rw [hposition]
    exact Position.advance_start text
  refine ⟨String.ofList text, hsource, ?_, ?_, ?_, ?_, ?_⟩
  · have hsplit : String.ofList place.rest =
        String.ofList (place.rest.take choice.length) ++
          String.ofList (place.next choice).rest := by
      rw [← String.ofList_append, Cursor.next, List.take_append_drop]
    rw [← hsource, hsplit, ← String.append_assoc]
    rfl
  all_goals
    simp [Token.covering, Span.covering, hplace, Position.behind, ← byteSize_toList]

/-! ## Only white space is left -/

/-- The bytes of blanks, tabs and line ends. -/
def Lexicon.blankBytes : List UInt8 := [0x20, 0x09, 0x0D, 0x0A]

theorem byteSize_pos {cs : List Char} (h : cs ≠ []) : 0 < byteSize cs := by
  obtain ⟨c, cs, rfl⟩ := List.exists_cons_of_ne_nil h
  exact Nat.add_pos_left c.utf8Size_pos _

theorem size_utf8Encode (cs : List Char) : cs.utf8Encode.size = byteSize cs := by
  rw [← String.toByteArray_ofList, String.size_toByteArray, ← byteSize_toList,
    String.toList_ofList]

/-- The bytes of white space are those of blanks, tabs and line ends. -/
theorem getElem_utf8Encode_of_blank {cs : List Char} (h : ∀ c ∈ cs, blanks.contains c) {i : Nat}
    (hi : i < cs.utf8Encode.size) : cs.utf8Encode[i] ∈ blankBytes := by
  induction cs generalizing i with
  | nil => simp at hi
  | cons c cs ih =>
    have hc : c = ' ' ∨ c = '\t' ∨ c = '\r' ∨ c = '\n' := by
      simpa [blanks, CharClass.contains, ClassItem.contains] using h c (by simp)
    -- all blanks are in ASCII, so each takes one byte
    have hbyte : ∃ b ∈ blankBytes, [c].utf8Encode = ByteArray.mk #[b] := by
      rcases hc with rfl | rfl | rfl | rfl
      · exact ⟨0x20, by decide, rfl⟩
      · exact ⟨0x09, by decide, rfl⟩
      · exact ⟨0x0D, by decide, rfl⟩
      · exact ⟨0x0A, by decide, rfl⟩
    obtain ⟨b, hb, hencode⟩ := hbyte
    have hcons : (c :: cs).utf8Encode = ByteArray.mk #[b] ++ cs.utf8Encode := by
      rw [List.utf8Encode_cons, hencode]
    have hsize : (ByteArray.mk #[b]).size = 1 := rfl
    simp only [hcons, ByteArray.size_append, hsize] at hi ⊢
    cases i with
    | zero =>
      rw [ByteArray.getElem_append_left (by omega)]
      exact hb
    | succ i =>
      rw [ByteArray.getElem_append_right (by omega)]
      exact ih (fun d hd => h d (by simp [hd])) (by omega)

namespace Cursor.Reaches

variable {policy : Policy} {cursor final : Cursor} {tokens : List Token}

/-- A scan never goes back. -/
theorem offset_le (h : cursor.Reaches policy tokens final) :
    cursor.position.offset ≤ final.position.offset := by
  obtain ⟨text, -, hposition⟩ := h.exists_append
  rw [hposition, Position.offset_advance]
  exact Nat.le_add_right _ _

/-- The tokens on the way start behind the place where the way starts. -/
theorem offset_le_start (h : cursor.Reaches policy tokens final) :
    ∀ t ∈ tokens, cursor.position.offset ≤ t.span.start := by
  intro t ht
  obtain ⟨earlier, later, rfl⟩ := List.append_of_mem ht
  obtain ⟨place, choice, hreaches, -, -, rfl, -⟩ := h.exists_step
  exact hreaches.offset_le

/-- The tokens on the way come one behind the other. -/
theorem pairwise (h : cursor.Reaches policy tokens final) :
    tokens.Pairwise fun t u => t.span.stop ≤ u.span.start := by
  induction h with
  | refl => exact .nil
  | @step cursor final choice tokens _ h ih =>
    rw [token?]
    split
    · exact ih
    · -- the token stops where the way behind it starts
      refine List.pairwise_cons.mpr ⟨fun u hu => ?_, ih⟩
      have hstart := h.offset_le_start u hu
      rwa [next, Position.offset_advance] at hstart

/-- A byte on the way that is outside all tokens is one of white space. -/
theorem blank_of_outside (h : cursor.Reaches policy tokens final) {text : List Char}
    (htext : cursor.rest = text ++ final.rest) {i : Nat} (hi : i < text.utf8Encode.size)
    (hout : ∀ t ∈ tokens, cursor.position.offset + i < t.span.start ∨
      t.span.stop ≤ cursor.position.offset + i) : text.utf8Encode[i] ∈ blankBytes := by
  induction h generalizing text i with
  | refl =>
    obtain rfl : text = [] := by simpa using htext
    simp at hi
  | @step cursor final choice tokens hchoose h ih =>
    obtain ⟨text', rfl, htext'⟩ := h.exists_text_of_next htext
    generalize hword : cursor.rest.take choice.length = word at *
    have hoffset : (cursor.next choice).position.offset =
        cursor.position.offset + word.utf8Encode.size := by
      rw [next, Position.offset_advance, hword, size_utf8Encode]
    simp only [List.utf8Encode_append, ByteArray.size_append] at hi ⊢
    by_cases hlt : i < word.utf8Encode.size
    · rw [ByteArray.getElem_append_left hlt]
      by_cases hspace : choice.kind = .space
      · exact getElem_utf8Encode_of_blank (hword ▸ blank_of_choose hchoose hspace) hlt
      · -- the byte is inside the token of this step
        have hcovers := hout (Token.covering choice.kind cursor.position word)
          (by simp [token?, hspace, hword])
        simp only [Token.covering, Span.covering, ← size_utf8Encode] at hcovers
        omega
    · -- the byte is behind this step, so the later tokens decide
      rw [ByteArray.getElem_append_right (by omega)]
      refine ih htext' (by omega) fun t ht => ?_
      have := hout t (by simp [ht])
      rw [hoffset]
      omega

end Cursor.Reaches

/-- The tokens of a text are no white space and not empty. Each is the piece of the text at its
span, which says on what line and in what column it starts. No two overlap, and every byte outside
them is one of white space. -/
theorem tokens_tile {policy : Policy} {source : String} {tokens : List Token}
    (h : tokenize policy source = .ok tokens) :
    (∀ t ∈ tokens, t.kind ≠ .space ∧ t.span.start < t.span.stop ∧
      ∃ before after, t.Between source before after) ∧
    tokens.Pairwise (fun t u => t.span.stop ≤ u.span.start) ∧
    ∀ i (hi : i < source.toByteArray.size),
      (∀ t ∈ tokens, i < t.span.start ∨ t.span.stop ≤ i) → source.toByteArray[i] ∈ blankBytes := by
  obtain ⟨final, hreaches, hend⟩ := exists_reaches_of_tokenize h
  refine ⟨fun t ht => ?_, hreaches.pairwise, fun i hi hout => ?_⟩
  · obtain ⟨earlier, later, rfl⟩ := List.append_of_mem ht
    obtain ⟨place, choice, hplace, hchoose, hspace, rfl, -⟩ := hreaches.exists_step
    obtain ⟨before, -, hbetween⟩ := hplace.between choice
    refine ⟨hspace, ?_, before, _, hbetween⟩
    exact Nat.lt_add_of_pos_right (byteSize_pos (Cursor.take_ne_nil_of_choose hchoose))
  · have hsource : source.toByteArray = source.toList.utf8Encode := by
      rw [← String.toByteArray_ofList, String.ofList_toList]
    have htext : (Cursor.start source.toList).rest = source.toList ++ final.rest := by
      rw [hend, List.append_nil]
      rfl
    simp only [hsource] at hi ⊢
    refine hreaches.blank_of_outside htext hi ?_
    simpa [Cursor.start, Position.start] using hout

/-- A character outside ASCII moves the bytes behind it, but not the columns, and a line feed starts
a new line. The bytes 11 and 12 are outside all tokens. -/
theorem tokens_tile_second_line :
    (∃ before after,
      (⟨.character, "'λ'", ⟨19, 23, 2, 8⟩⟩ : Token).Between "print(\"é\")\n\tprint('λ')"
        before after) ∧
    "print(\"é\")\n\tprint('λ')".toByteArray[12] ∈ blankBytes := by
  have h : tokenize .longest "print(\"é\")\n\tprint('λ')" = .ok
      [⟨.print, "print", ⟨0, 5, 1, 1⟩⟩, ⟨.lparen, "(", ⟨5, 6, 1, 6⟩⟩,
       ⟨.string, "\"é\"", ⟨6, 10, 1, 7⟩⟩, ⟨.rparen, ")", ⟨10, 11, 1, 10⟩⟩,
       ⟨.print, "print", ⟨13, 18, 2, 2⟩⟩, ⟨.lparen, "(", ⟨18, 19, 2, 7⟩⟩,
       ⟨.character, "'λ'", ⟨19, 23, 2, 8⟩⟩, ⟨.rparen, ")", ⟨23, 24, 2, 11⟩⟩] := by
    cbv
  obtain ⟨hplaces, -, hblank⟩ := tokens_tile h
  refine ⟨(hplaces _ (by decide)).2.2, hblank 12 _ (by decide)⟩

end Straightline
