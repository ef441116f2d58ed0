import Straightline.Java.ClassFile
import Straightline.Proofs.Determinism

/-!
# Lexemes

The words of the lexical rules, rule by rule, as `Pattern.Describes` has them, and which rules can
match at the same place (`rules_pairwise`). The same for the decimal literals of Java, which have no
sign.
-/

namespace Straightline

namespace Pattern

@[simp]
theorem describes_char_iff {c : Char} {word rest : List Char} :
    (char c).Describes word rest ↔ word = [c] := by
  simp [char, Describes, CharClass.contains]

/-- The word of a keyword is the keyword, where no word character follows. -/
theorem describes_keyword_iff {keyword : String} {word rest : List Char} :
    (Pattern.keyword keyword).Describes word rest ↔
      word = keyword.toList ∧ ∀ c ∈ rest.head?, ¬isWordChar c := by
  rw [Pattern.keyword]
  induction keyword.toList generalizing word with
  | nil => rfl
  | cons c cs ih =>
    simp only [List.foldr_cons, Describes, describes_char_iff, ih]
    constructor
    · rintro ⟨_, _, rfl, rfl, rfl, hrest⟩
      exact ⟨rfl, hrest⟩
    · rintro ⟨rfl, hrest⟩
      exact ⟨[c], cs, rfl, rfl, rfl, hrest⟩

/-- A word stays one if less follows it. -/
theorem Describes.of_head? {p : Pattern} {word rest rest' : List Char} (h : p.Describes word rest)
    (hrest : ∀ c ∈ rest'.head?, c ∈ rest.head?) : p.Describes word rest' := by
  induction p generalizing word rest rest' with
  | one s | many s | many1 s | optional s => exact h
  | seq p q ihp ihq =>
    obtain ⟨u, v, rfl, hp, hq⟩ := h
    refine ⟨u, v, rfl, ihp hp ?_, ihq hq hrest⟩
    cases v with
    | nil => exact hrest
    | cons c v => exact fun d hd => hd
  | either p q ihp ihq => exact h.imp (ihp · hrest) (ihq · hrest)
  | group p ih => exact ih h hrest
  | wordEnd => exact ⟨h.1, fun c hc => h.2 c (hrest c hc)⟩

end Pattern

namespace Lexicon

open Pattern

variable {word rest : List Char}

/-- At most one sign. -/
def IsSign (cs : List Char) : Prop :=
  cs = [] ∨ ∃ c, signs.contains c ∧ cs = [c]

/-- The digits of a whole number, with no zero in front of others. -/
def IsWhole (cs : List Char) : Prop :=
  cs = ['0'] ∨ ∃ d ds, leadingDigits.contains d ∧ (∀ c ∈ ds, digits.contains c) ∧ cs = d :: ds

theorem isSign_iff {cs : List Char} : IsSign cs ↔ cs = [] ∨ cs = ['-'] ∨ cs = ['+'] := by
  have hsigns (c : Char) : signs.contains c ↔ c = '-' ∨ c = '+' := by
    simp [signs, CharClass.contains, ClassItem.contains]
  simp only [IsSign, hsigns]
  constructor
  · rintro (rfl | ⟨c, rfl | rfl, rfl⟩) <;> simp
  · rintro (rfl | rfl | rfl) <;> simp

theorem digits_of_isWhole {ds : List Char} (h : IsWhole ds) :
    ds ≠ [] ∧ ∀ c ∈ ds, digits.contains c := by
  rcases h with rfl | ⟨d, ds, hd, hds, rfl⟩
  · exact ⟨by simp, List.forall_mem_singleton.mpr (by decide)⟩
  · refine ⟨by simp, fun c hc => ?_⟩
    rcases List.mem_cons.mp hc with rfl | hc
    · simp [leadingDigits, digits, CharClass.contains, ClassItem.contains] at hd ⊢
      omega
    · exact hds c hc

/-- The words of the rule for names. -/
theorem describes_name_iff :
    name.Describes word rest ↔
      ∃ c cs, nameStart.contains c ∧ (∀ d ∈ cs, nameRest.contains d) ∧ word = c :: cs := by
  simp only [name, Describes]
  constructor
  · rintro ⟨_, cs, rfl, ⟨c, hc, rfl⟩, hcs⟩
    exact ⟨c, cs, hc, hcs, rfl⟩
  · rintro ⟨c, cs, hc, hcs, rfl⟩
    exact ⟨[c], cs, rfl, ⟨c, hc, rfl⟩, hcs⟩

/-- The words of the rule for whole numbers. -/
theorem describes_integer_iff :
    integer.Describes word rest ↔ ∃ sign ds, IsSign sign ∧ IsWhole ds ∧ word = sign ++ ds := by
  simp only [integer, Describes, describes_char_iff]
  constructor
  · rintro ⟨sign, ds, rfl, hsign, hds⟩
    refine ⟨sign, ds, hsign, ?_, rfl⟩
    rcases hds with hzero | ⟨_, ds, rfl, ⟨d, hd, rfl⟩, hds⟩
    · exact .inl hzero
    · exact .inr ⟨d, ds, hd, hds, rfl⟩
  · rintro ⟨sign, ds, hsign, hds, rfl⟩
    refine ⟨sign, ds, rfl, hsign, ?_⟩
    rcases hds with hzero | ⟨d, ds, hd, hds, rfl⟩
    · exact .inl hzero
    · exact .inr ⟨[d], ds, rfl, ⟨d, hd, rfl⟩, hds⟩

/-- The words of the rule for numbers with a point. -/
theorem describes_decimal_iff :
    decimal.Describes word rest ↔
      ∃ sign ds fs, IsSign sign ∧ IsWhole ds ∧ fs ≠ [] ∧ (∀ c ∈ fs, digits.contains c) ∧
        word = sign ++ ds ++ '.' :: fs := by
  simp only [decimal, Describes, describes_char_iff]
  constructor
  · rintro ⟨sign, _, rfl, hsign, ⟨_, _, rfl, rfl, _, fs, rfl, rfl, hne, hfs⟩ |
      ⟨_, _, rfl, ⟨d, hd, rfl⟩, ds, _, rfl, hds, _, fs, rfl, rfl, hne, hfs⟩⟩
    · exact ⟨sign, ['0'], fs, hsign, .inl rfl, hne, hfs, by simp⟩
    · exact ⟨sign, d :: ds, fs, hsign, .inr ⟨d, ds, hd, hds, rfl⟩, hne, hfs, by simp⟩
  · rintro ⟨sign, _, fs, hsign, rfl | ⟨d, ds, hd, hds, rfl⟩, hne, hfs, rfl⟩
    · exact ⟨sign, _, by simp, hsign, .inl ⟨_, _, rfl, rfl, _, fs, rfl, rfl, hne, hfs⟩⟩
    · exact ⟨sign, _, by simp, hsign,
        .inr ⟨[d], _, rfl, ⟨d, hd, rfl⟩, ds, _, rfl, hds, _, fs, rfl, rfl, hne, hfs⟩⟩

/-- The words of the rule for characters. -/
theorem describes_character_iff :
    character.Describes word rest ↔ ∃ c, c ≠ '\n' ∧ word = ['\'', c, '\''] := by
  simp only [character, Describes, describes_char_iff, CharClass.contains, bne_iff_ne]
  constructor
  · rintro ⟨_, _, rfl, rfl, _, _, rfl, ⟨c, hc, rfl⟩, rfl⟩
    exact ⟨c, hc, rfl⟩
  · rintro ⟨c, hc, rfl⟩
    exact ⟨_, _, rfl, rfl, _, _, rfl, ⟨c, hc, rfl⟩, rfl⟩

/-- All characters have the same length. -/
theorem eq_three_of_mem_lengths_character {cs : List Char} {n : Nat}
    (h : n ∈ character.lengths cs) : n = 3 := by
  obtain ⟨hn, hword⟩ := mem_lengths_iff.mp h
  obtain ⟨c, -, htake⟩ := describes_character_iff.mp hword
  have hlength := congrArg List.length htake
  rwa [List.length_take, Nat.min_eq_left hn] at hlength

/-- The words of the rule for strings. -/
theorem describes_string_iff :
    string.Describes word rest ↔
      ∃ body, (∀ c ∈ body, c ≠ '"' ∧ c ≠ '\n') ∧ word = '"' :: body ++ ['"'] := by
  simp only [string, Describes, describes_char_iff, CharClass.contains, ClassItem.contains]
  constructor
  · rintro ⟨_, _, rfl, rfl, body, _, rfl, hbody, rfl⟩
    exact ⟨body, by simpa using hbody, rfl⟩
  · rintro ⟨body, hbody, rfl⟩
    exact ⟨['"'], body ++ ['"'], rfl, rfl, body, ['"'], rfl, by simpa using hbody, rfl⟩

/-- The end of a string is its first double quote. -/
private theorem eq_of_append_quote {body body' rest rest' : List Char} (h : '"' ∉ body)
    (h' : '"' ∉ body') (heq : body ++ '"' :: rest = body' ++ '"' :: rest') : body = body' := by
  induction body generalizing body' with
  | nil =>
    cases body' with
    | nil => rfl
    | cons c cs => simp_all
  | cons c cs ih =>
    cases body' with
    | nil => simp_all
    | cons d ds =>
      simp only [List.cons_append, List.cons.injEq] at heq
      rw [heq.1, ih (by simp_all) (by simp_all) heq.2]

/-- A string ends where it ends, whatever follows. -/
theorem eq_length_of_mem_lengths_string (hword : string.Describes word rest) {n : Nat}
    (hn : n ∈ string.lengths (word ++ rest)) : n = word.length := by
  obtain ⟨body, hbody, rfl⟩ := describes_string_iff.mp hword
  -- another match would start with the same characters up to its own closing quote
  obtain ⟨hn, hdescribes⟩ := mem_lengths_iff.mp hn
  obtain ⟨body', hbody', htake⟩ := describes_string_iff.mp hdescribes
  obtain ⟨rest', hsplit⟩ : ∃ rest', body' ++ '"' :: rest' = body ++ '"' :: rest := by
    have hsplit := List.take_append_drop n ('"' :: body ++ ['"'] ++ rest)
    rw [htake] at hsplit
    exact ⟨_, by simpa using hsplit⟩
  have hbodies : body' = body :=
    eq_of_append_quote (fun h => (hbody' _ h).1 rfl) (fun h => (hbody _ h).1 rfl) hsplit
  have hlength := congrArg List.length htake
  rw [List.length_take, Nat.min_eq_left hn, hbodies] at hlength
  exact hlength

/-! ## Rules at the same place -/

/-- The pairs of rules that can match at the same place, the one with the higher priority first. -/
def overlaps : List (Rule × Rule) :=
  [(⟨.int32, keyword "int32"⟩, ⟨.name, name⟩),
   (⟨.float32, keyword "float32"⟩, ⟨.name, name⟩),
   (⟨.char, keyword "char"⟩, ⟨.name, name⟩),
   (⟨.void, keyword "void"⟩, ⟨.name, name⟩),
   (⟨.print, keyword "print"⟩, ⟨.name, name⟩),
   (⟨.decimal, decimal⟩, ⟨.integer, integer⟩),
   (⟨.decimal, decimal⟩, ⟨.plus, char '+'⟩),
   (⟨.decimal, decimal⟩, ⟨.minus, char '-'⟩),
   (⟨.integer, integer⟩, ⟨.plus, char '+'⟩),
   (⟨.integer, integer⟩, ⟨.minus, char '-'⟩)]

/-- Any other two rules are told apart by the first character. -/
theorem rules_pairwise :
    rules.Pairwise fun r s => r.pattern.apart s.pattern ∨ (r, s) ∈ overlaps := by
  decide

end Lexicon

namespace Java

open Pattern Lexicon

variable {word rest : List Char}

/-- The words of the pattern for decimal literals. -/
theorem describes_decimalLiteral_iff :
    decimalLiteral.Describes word rest ↔
      ∃ ds fs, (ds ≠ [] ∧ ∀ c ∈ ds, digits.contains c) ∧ (fs ≠ [] ∧ ∀ c ∈ fs, digits.contains c) ∧
        word = ds ++ '.' :: fs := by
  simp only [decimalLiteral, Describes, describes_char_iff]
  constructor
  · rintro ⟨ds, _, rfl, hds, _, fs, rfl, rfl, hfs⟩
    exact ⟨ds, fs, hds, hfs, rfl⟩
  · rintro ⟨ds, fs, hds, hfs, rfl⟩
    exact ⟨ds, _, rfl, hds, _, fs, rfl, rfl, hfs⟩

/-- Whatever ends a decimal literal ends a run of digits. -/
theorem uses_digits_eq_false {c : Char} (h : decimalLiteral.uses c = false) :
    (many1 digits).uses c = false := by
  simp_all [uses, classes, decimalLiteral]

/-- There is no decimal literal at digits where neither a digit nor a point follows. -/
theorem lengths_decimalLiteral_eq_nil (hword : ∀ c ∈ word, digits.contains c)
    (hrest : ∀ c ∈ rest.head?, decimalLiteral.uses c = false) :
    decimalLiteral.lengths (word ++ rest) = [] := by
  rw [List.eq_nil_iff_forall_not_mem]
  intro n hn
  have hle := le_length_of_mem_lengths hrest hn
  obtain ⟨-, hdescribes⟩ := mem_lengths_iff.mp hn
  rw [List.take_append_of_le_length hle] at hdescribes
  obtain ⟨ds, fs, -, -, htake⟩ := describes_decimalLiteral_iff.mp hdescribes
  have hpoint : '.' ∈ word.take n := by simp [htake]
  exact absurd (hword _ (List.mem_of_mem_take hpoint)) (by decide)

end Java

end Straightline
