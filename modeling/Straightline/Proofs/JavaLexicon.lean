import Straightline.Proofs.Suffix

/-!
# Words of Java

What Java takes for a string, a character and a name, by the lexical rules of its language
specification. They are stated for UTF-16 code units, since a character literal has room for one
unit only, and Unicode escapes are translated before all else.

The source has rules of its own. A string knows no escapes and ends at the next quote, a character
may be any one but a line feed, and all keywords of Java but two are names. So there are words of
the source that are none of Java, and for each kind there is a condition by which they are:
`isStringLiteral_eq`, `isCharacterLiteral_iff` and `isIdentifier_of_isWord`.
-/

namespace Straightline

open Lexicon Pattern

namespace Java

/-! ## Lexical rules -/

section Rules

/-- The code units of a character. -/
def codeUnits (c : Char) : List Nat :=
  if c.toNat < 0x10000 then [c.toNat]
  else [0xD800 + (c.toNat - 0x10000) / 0x400, 0xDC00 + (c.toNat - 0x10000) % 0x400]

/-- The value of a hexadecimal digit. -/
def hexValue? (u : Nat) : Option Nat :=
  if '0'.toNat ≤ u ∧ u ≤ '9'.toNat then some (u - '0'.toNat)
  else if 'a'.toNat ≤ u ∧ u ≤ 'f'.toNat then some (u - 'a'.toNat + 10)
  else if 'A'.toNat ≤ u ∧ u ≤ 'F'.toNat then some (u - 'A'.toNat + 10)
  else none

/-- How much of a Unicode escape has been read. -/
inductive EscapePhase where
  /-- Nothing. -/
  | outside
  /-- A backslash that can begin one. -/
  | backslash
  /-- The mark, and some digits with the value that they have. -/
  | digits (count value : Nat)
deriving DecidableEq, Repr

/-- Translates Unicode escapes, if they are complete. A backslash behind another one begins none,
and what an escape stands for is not read again. -/
def translate : EscapePhase → List Nat → Option (List Nat)
  | .outside, [] => some []
  | .outside, u :: us =>
    if u = '\\'.toNat then translate .backslash us else (translate .outside us).map (u :: ·)
  | .backslash, [] => some ['\\'.toNat]
  | .backslash, u :: us =>
    if u = 'u'.toNat then translate (.digits 0 0) us
    else (translate .outside us).map ('\\'.toNat :: u :: ·)
  | .digits _ _, [] => none
  | .digits count value, u :: us =>
    -- the mark may be repeated
    if count = 0 ∧ u = 'u'.toNat then translate (.digits 0 0) us
    else match hexValue? u with
      | none => none
      | some digit =>
        if count = 3 then (translate .outside us).map ((16 * value + digit) :: ·)
        else translate (.digits (count + 1) (16 * value + digit)) us

/-- What Java reads in a text. -/
def input? (text : String) : Option (List Nat) :=
  translate .outside (text.toList.flatMap codeUnits)

/-- The characters that can follow a backslash in a literal. -/
def escapable : List Char := "btnfrs\"'\\01234567".toList

/-- Whether the units behind an opening quote are those of a string and its closing quote. -/
def closesString : List Nat → Bool
  | [] => false
  | [u] => u == '"'.toNat
  | u :: e :: us =>
    if u = '\\'.toNat then (escapable.map Char.toNat).contains e && closesString us
    else !(['"', '\r', '\n'].map Char.toNat).contains u && closesString (e :: us)

/-- Whether the units between two quotes are a character. -/
def isCharacter : List Nat → Bool
  | [u] => !(['\'', '\\', '\r', '\n'].map Char.toNat).contains u
  | [b, u] => b == '\\'.toNat && (escapable.map Char.toNat).contains u
  | [b, u, v] => b == '\\'.toNat && isOctal u && isOctal v
  | [b, u, v, w] =>
    b == '\\'.toNat && isOctal u && u ≤ '3'.toNat && isOctal v && isOctal w
  | _ => false
where
  isOctal (u : Nat) : Bool := '0'.toNat ≤ u && u ≤ '7'.toNat

/-- Whether a text is a string literal. -/
def isStringLiteral (text : String) : Bool :=
  match input? text with
  | some (u :: us) => u == '"'.toNat && closesString us
  | _ => false

/-- Whether a text is a character literal. -/
def isCharacterLiteral (text : String) : Bool :=
  match input? text with
  | some (u :: us) =>
    u == '\''.toNat && us.getLast? == some '\''.toNat && isCharacter us.dropLast
  | _ => false

/-- The characters that can start an identifier. Beyond ASCII there are others. -/
def identifierStart : CharClass := .oneOf [.single '_', .single '$', .range 'a' 'z', .range 'A' 'Z']

/-- The characters that can continue an identifier. Beyond ASCII there are others. -/
def identifierRest : CharClass :=
  .oneOf [.single '_', .single '$', .range 'a' 'z', .range 'A' 'Z', .range '0' '9']

/-- Whether a text is spelled like an identifier. -/
def isIdentifier (text : String) : Bool :=
  match text.toList with
  | [] => false
  | c :: cs => identifierStart.contains c && cs.all identifierRest.contains

/-- The words that are spelled like identifiers and are none. -/
def reservedWords : List String :=
  ["abstract", "assert", "boolean", "break", "byte", "case", "catch", "char", "class", "const",
    "continue", "default", "do", "double", "else", "enum", "extends", "final", "finally", "float",
    "for", "goto", "if", "implements", "import", "instanceof", "int", "interface", "long", "native",
    "new", "package", "private", "protected", "public", "return", "short", "static", "strictfp",
    "super", "switch", "synchronized", "this", "throw", "throws", "transient", "try", "void",
    "volatile", "while", "_", "true", "false", "null"]

/-- The name of the parameter of the method that holds the body. -/
def parameterName : String := "args"

/-- Whether a variable of the body can have the name. -/
def isVariableName (text : String) : Bool :=
  isIdentifier text && !reservedWords.contains text && text != parameterName

end Rules

/-! ## Strings -/

section Strings

variable {c : Char} {cs inner : List Char}

/-- A character has one code unit, or two that stand for no character on their own. -/
theorem codeUnits_cases (c : Char) :
    c.toNat < 0x10000 ∧ codeUnits c = [c.toNat] ∨
      0x10000 ≤ c.toNat ∧ ∃ high low, codeUnits c = [high, low] ∧ 0xD800 ≤ high ∧ 0xD800 ≤ low := by
  rw [codeUnits]
  split
  · next hlt => exact .inl ⟨hlt, rfl⟩
  · next hle => exact .inr ⟨Nat.le_of_not_lt hle, _, _, rfl, by omega, by omega⟩

/-- Whether a backslash begins a Unicode escape. -/
def hasUnicodeEscape : List Char → Bool
  | [] => false
  | [_] => false
  | c :: d :: cs =>
    if c = '\\' then d == 'u' || hasUnicodeEscape cs else hasUnicodeEscape (d :: cs)

/-- Whether each backslash is followed by a character that it can be followed by in Java, and there
is no carriage return. -/
def escapesComplete : List Char → Bool
  | [] => true
  | [c] => c != '\\' && c != '\r'
  | c :: d :: cs =>
    if c = '\\' then escapable.contains d && escapesComplete cs
    else c != '\r' && escapesComplete (d :: cs)

theorem translate_cons_of_ne {u : Nat} (h : u ≠ '\\'.toNat) (us : List Nat) :
    translate .outside (u :: us) = (translate .outside us).map (u :: ·) := by
  rw [translate, if_neg h]

/-- A character that is no backslash is read as it is. -/
theorem translate_codeUnits_append (h : c ≠ '\\') (us : List Nat) :
    translate .outside (codeUnits c ++ us) = (translate .outside us).map (codeUnits c ++ ·) := by
  rcases codeUnits_cases c with ⟨-, hunits⟩ | ⟨-, high, low, hunits, hhigh, hlow⟩
  · rw [hunits]
    exact translate_cons_of_ne (fun hc => h (Char.toNat_inj.mp hc)) us
  · have hbackslash : '\\'.toNat < 0xD800 := by decide
    rw [hunits, List.cons_append, List.cons_append, translate_cons_of_ne (by omega),
      translate_cons_of_ne (by omega), Option.map_map]
    rfl

/-- A backslash and the character behind it are read as they are, unless they begin an escape. -/
theorem translate_backslash_append {d : Char} (h : d ≠ 'u') (us : List Nat) :
    translate .outside ('\\'.toNat :: (codeUnits d ++ us)) =
      (translate .outside us).map ('\\'.toNat :: codeUnits d ++ ·) := by
  rw [translate, if_pos rfl]
  rcases codeUnits_cases d with ⟨-, hunits⟩ | ⟨-, high, low, hunits, hhigh, hlow⟩
  · rw [hunits, List.singleton_append, translate, if_neg fun hd => h (Char.toNat_inj.mp hd)]
    rfl
  · have hbackslash : '\\'.toNat < 0xD800 := by decide
    have hmark : 'u'.toNat < 0xD800 := by decide
    rw [hunits, List.cons_append, translate, if_neg (by omega), List.singleton_append,
      translate_cons_of_ne (by omega), Option.map_map]
    rfl

/-- Text without Unicode escapes is read as it is. -/
theorem translate_of_not_hasUnicodeEscape (h : hasUnicodeEscape cs = false) :
    translate .outside (cs.flatMap codeUnits) = some (cs.flatMap codeUnits) := by
  fun_induction hasUnicodeEscape cs with
  | case1 => rfl
  | case2 c =>
    by_cases hc : c = '\\'
    · subst hc
      rfl
    · rw [List.flatMap_cons, translate_codeUnits_append hc]
      rfl
  | case3 d cs ih =>
    rw [Bool.or_eq_false_iff, beq_eq_false_iff_ne] at h
    have hread := translate_backslash_append h.1 (cs.flatMap codeUnits)
    rw [ih h.2] at hread
    simpa [codeUnits] using hread
  | case4 c d cs hc ih =>
    rw [List.flatMap_cons, translate_codeUnits_append hc, ih h]
    rfl

theorem contains_map_toNat (l : List Char) (c : Char) :
    (l.map Char.toNat).contains c.toNat = l.contains c := by
  simp [List.contains_eq_mem, Char.toNat_inj]

theorem contains_map_toNat_eq_false {l : List Char} (h : l.all (·.toNat < 0xD800)) {u : Nat}
    (hu : 0xD800 ≤ u) : (l.map Char.toNat).contains u = false := by
  simp only [List.contains_eq_mem, List.mem_map, decide_eq_false_iff_not, not_exists, not_and]
  rintro d hd rfl
  exact absurd (of_decide_eq_true (List.all_eq_true.mp h d hd)) (Nat.not_lt.mpr hu)

theorem closesString_cons {u : Nat} {us : List Nat} (hus : us ≠ []) (hu : u ≠ '\\'.toNat) :
    closesString (u :: us) =
      (!(['"', '\r', '\n'].map Char.toNat).contains u && closesString us) := by
  obtain ⟨e, us, rfl⟩ := List.exists_cons_of_ne_nil hus
  rw [closesString, if_neg hu]

/-- A character of a string that is no backslash only must not be a carriage return. -/
theorem closesString_codeUnits_append {us : List Nat} (hus : us ≠ []) (hbackslash : c ≠ '\\')
    (hquote : c ≠ '"') (hfeed : c ≠ '\n') :
    closesString (codeUnits c ++ us) = (c != '\r' && closesString us) := by
  rcases codeUnits_cases c with ⟨-, hunits⟩ | ⟨hle, high, low, hunits, hhigh, hlow⟩
  · rw [hunits, List.singleton_append,
      closesString_cons hus fun h => hbackslash (Char.toNat_inj.mp h), contains_map_toNat]
    by_cases hreturn : c = '\r' <;> simp [hquote, hfeed, hreturn]
  · have hreturn : c ≠ '\r' := by
      rintro rfl
      exact absurd hle (by decide)
    have hlow' : '\\'.toNat < 0xD800 := by decide
    rw [hunits, List.cons_append, List.singleton_append,
      closesString_cons (List.cons_ne_nil _ _) (by omega), closesString_cons hus (by omega),
      contains_map_toNat_eq_false (by decide) hhigh,
      contains_map_toNat_eq_false (by decide) hlow]
    simp [hreturn]

/-- A backslash in a string has to be followed by one of the characters that make an escape. -/
theorem closesString_backslash_append {d : Char} (us : List Nat) :
    closesString ('\\'.toNat :: (codeUnits d ++ us)) =
      (escapable.contains d && closesString us) := by
  rcases codeUnits_cases d with ⟨-, hunits⟩ | ⟨hle, high, low, hunits, hhigh, -⟩
  · rw [hunits, List.singleton_append, closesString, if_pos rfl, contains_map_toNat]
  · have hd : escapable.contains d = false := by
      rw [← contains_map_toNat]
      exact contains_map_toNat_eq_false (by decide) (by omega)
    rw [hunits, List.cons_append, closesString, if_pos rfl,
      contains_map_toNat_eq_false (by decide) hhigh, hd, Bool.false_and, Bool.false_and]

/-- In Java, a string of the source extends to its own closing quote if its escapes are complete. -/
theorem closesString_flatMap (h : ∀ c ∈ inner, c ≠ '"' ∧ c ≠ '\n') :
    closesString ((inner ++ ['"']).flatMap codeUnits) = escapesComplete inner := by
  have hne (cs : List Char) : (cs ++ ['"']).flatMap codeUnits ≠ [] := by simp [codeUnits]
  fun_induction escapesComplete inner with
  | case1 => rfl
  | case2 c =>
    by_cases hc : c = '\\'
    · subst hc
      rfl
    · obtain ⟨hquote, hfeed⟩ := h c (by simp)
      rw [List.singleton_append, List.flatMap_cons,
        closesString_codeUnits_append (by simp [codeUnits]) hc hquote hfeed]
      simp [bne_iff_ne.mpr hc, codeUnits, closesString]
  | case3 d cs ih =>
    have hstring := @closesString_backslash_append d ((cs ++ ['"']).flatMap codeUnits)
    rw [ih fun c hc => h c (by simp [hc])] at hstring
    simpa [codeUnits] using hstring
  | case4 c d cs hc ih =>
    obtain ⟨hquote, hfeed⟩ := h c (by simp)
    rw [List.cons_append, List.flatMap_cons, closesString_codeUnits_append (hne _) hc hquote hfeed,
      ih fun c hc => h c (List.mem_cons_of_mem _ hc)]

theorem hasUnicodeEscape_append_quote (cs : List Char) :
    hasUnicodeEscape (cs ++ ['"']) = hasUnicodeEscape cs := by
  fun_induction hasUnicodeEscape cs with
  | case1 => rfl
  | case2 c => by_cases hc : c = '\\' <;> simp [hasUnicodeEscape, hc]
  | case3 d cs ih => simp [hasUnicodeEscape, ih]
  | case4 c d cs hc ih => simpa [hasUnicodeEscape, hc] using ih

/-- Where there are no Unicode escapes, a string of the source is one of Java exactly if its escapes
are complete. -/
theorem isStringLiteral_eq (h : ∀ c ∈ inner, c ≠ '"' ∧ c ≠ '\n')
    (hescape : hasUnicodeEscape inner = false) :
    isStringLiteral (String.ofList ('"' :: inner ++ ['"'])) = escapesComplete inner := by
  have hread : input? (String.ofList ('"' :: inner ++ ['"'])) =
      some ('"'.toNat :: (inner ++ ['"']).flatMap codeUnits) := by
    rw [← hasUnicodeEscape_append_quote] at hescape
    rw [input?, String.toList_ofList, List.cons_append, List.flatMap_cons,
      translate_codeUnits_append (by decide), translate_of_not_hasUnicodeEscape hescape]
    rfl
  rw [isStringLiteral, hread]
  exact closesString_flatMap h

/-- Complete escapes are no Unicode escapes. -/
theorem hasUnicodeEscape_eq_false (h : escapesComplete cs) : hasUnicodeEscape cs = false := by
  fun_induction escapesComplete cs with
  | case1 => rfl
  | case2 c => rfl
  | case3 d cs ih =>
    rw [Bool.and_eq_true] at h
    have hd : d ≠ 'u' := by
      rintro rfl
      exact absurd h.1 (by decide)
    simp [hasUnicodeEscape, hd, ih h.2]
  | case4 c d cs hc ih =>
    rw [Bool.and_eq_true] at h
    simpa [hasUnicodeEscape, hc] using ih h.2

theorem isStringLiteral_of_escapesComplete (h : ∀ c ∈ inner, c ≠ '"' ∧ c ≠ '\n')
    (hcomplete : escapesComplete inner) :
    isStringLiteral (String.ofList ('"' :: inner ++ ['"'])) := by
  rw [isStringLiteral_eq h (hasUnicodeEscape_eq_false hcomplete), hcomplete]

/-- A string of the source is one of Java if its escapes are complete, and where it has no Unicode
escapes only then. -/
theorem exists_inner_of_isWord {text : String} (h : IsWord .string text) :
    ∃ inner, text = String.ofList ('"' :: inner ++ ['"']) ∧
      (escapesComplete inner → isStringLiteral text) ∧
      (hasUnicodeEscape inner = false → isStringLiteral text → escapesComplete inner) := by
  obtain ⟨inner, hinner, htext⟩ := describes_string_iff.mp ((isWord_iff rfl).mp h)
  obtain rfl : text = String.ofList ('"' :: inner ++ ['"']) := by
    rw [← htext, String.ofList_toList]
  refine ⟨inner, rfl, isStringLiteral_of_escapesComplete hinner, ?_⟩
  intro hescape hlegal
  rwa [isStringLiteral_eq hinner hescape] at hlegal

theorem escapesComplete_of_forall (h : ∀ c ∈ cs, c ≠ '\\' ∧ c ≠ '\r') : escapesComplete cs := by
  fun_induction escapesComplete cs with
  | case1 => rfl
  | case2 c => simpa using h
  | case3 d cs ih => exact absurd rfl (h '\\' (by simp)).1
  | case4 c d cs hc ih => simp [(h c (by simp)).2, ih fun c hc => h c (List.mem_cons_of_mem _ hc)]

/-- The string of a report is one of Java. -/
theorem isStringLiteral_caption {v : Variable} (h : IsWord .name v.name) :
    isStringLiteral (caption v) := by
  have hname : ∀ c ∈ v.name.toList, c ≠ '\\' ∧ c ≠ '\r' := by
    intro c hc
    have huses := uses_of_describes ((isWord_iff rfl).mp h) c hc
    constructor <;> rintro rfl <;> exact absurd huses (by decide)
  have hfixed {text : String} (htext : text.toList.all fun c => c ≠ '\\' ∧ c ≠ '\r') :
      ∀ c ∈ text.toList, c ≠ '\\' ∧ c ≠ '\r' := by
    simpa using htext
  have hcaption : ∀ c ∈ (caption v).toList, c ≠ '\\' ∧ c ≠ '\r' := by
    simp only [caption_eq, String.toList_append, List.forall_mem_append]
    refine ⟨⟨⟨⟨hfixed (by decide), hname⟩, hfixed (by decide)⟩, hfixed ?_⟩, hfixed (by decide)⟩
    cases v.type <;> decide
  obtain ⟨inner, hinner, htext⟩ := describes_string_iff.mp ((isWord_iff rfl).mp (isWord_caption h))
  rw [htext] at hcaption
  rw [← String.ofList_toList (s := caption v), htext]
  exact isStringLiteral_of_escapesComplete hinner
    (escapesComplete_of_forall fun c hc => hcaption c (by simp [hc]))

end Strings

/-! ## Characters and names -/

/-- A character of the source is one of Java exactly if it has one code unit and is neither a
quote, a backslash nor a carriage return. -/
theorem isCharacterLiteral_iff {c : Char} (h : c ≠ '\n') :
    isCharacterLiteral (String.ofList ['\'', c, '\'']) ↔
      c ≠ '\'' ∧ c ≠ '\\' ∧ c ≠ '\r' ∧ c.toNat < 0x10000 := by
  have hescape : hasUnicodeEscape ['\'', c, '\''] = false := by
    by_cases hc : c = '\\' <;> simp [hasUnicodeEscape, hc]
  have hread : input? (String.ofList ['\'', c, '\'']) =
      some ('\''.toNat :: (codeUnits c ++ ['\''.toNat])) := by
    rw [input?, String.toList_ofList, translate_of_not_hasUnicodeEscape hescape]
    rfl
  rw [isCharacterLiteral, hread]
  rcases codeUnits_cases c with ⟨hlt, hunits⟩ | ⟨hle, high, low, hunits, hhigh, hlow⟩
  · rw [hunits]
    show (!(['\'', '\\', '\r', '\n'].map Char.toNat).contains c.toNat) = true ↔ _
    rw [contains_map_toNat]
    simp [h, hlt]
  · have hbackslash : '\\'.toNat < 0xD800 := by decide
    rw [hunits]
    show (high == '\\'.toNat && (escapable.map Char.toNat).contains low) = true ↔ _
    rw [contains_map_toNat_eq_false (by decide) hlow]
    simp [Nat.not_lt.mpr hle]

/-- Names of the source are spelled like identifiers of Java. -/
theorem isIdentifier_of_isWord {text : String} (h : IsWord .name text) : isIdentifier text := by
  have hstart {c : Char} (hc : nameStart.contains c) : identifierStart.contains c := by
    simp only [nameStart, identifierStart, CharClass.contains, List.any_cons] at hc ⊢
    grind
  have hrest {c : Char} (hc : nameRest.contains c) : identifierRest.contains c := by
    simp only [nameRest, identifierRest, CharClass.contains, List.any_cons] at hc ⊢
    grind
  obtain ⟨c, cs, hc, hcs, htext⟩ := describes_name_iff.mp ((isWord_iff rfl).mp h)
  rw [isIdentifier, htext]
  simp only [hstart hc, Bool.true_and, List.all_eq_true]
  exact fun d hd => hrest (hcs d hd)

end Java

end Straightline
