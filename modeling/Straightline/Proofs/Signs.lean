import Straightline.Proofs.Maximality

/-!
# Signs in front of digits

A sign in front of a digit can be the first character of a number or an operator. Which of the two
it is depends on the token before it alone, however much white space lies between them: behind a
token that ends an operand it is an operator, and anywhere else it belongs to the number.

Every character of a text is taken by one step of the scan (`Cursor.Reaches.exists_step_at`). A step
that takes a sign outside strings and characters starts with it
(`Cursor.eq_nil_of_choose_sign`), and what it takes besides is settled by the token before
(`Cursor.kind_of_choose_sign`).

Main statement: `sign_follows_last_token`.
-/

namespace Straightline

open Pattern Lexicon

/-- The kinds of the tokens that end an operand: numbers, characters, strings, names, and a closing
parenthesis. -/
def Kind.operandEnds : List Kind :=
  [.integer, .decimal, .character, .string, .name, .rparen]

theorem Kind.endsOperand_iff {kind : Kind} : kind.endsOperand ↔ kind ∈ operandEnds := by
  cases kind <;> decide

theorem Kind.isNumber_iff {kind : Kind} : kind.isNumber ↔ kind = .integer ∨ kind = .decimal := by
  cases kind <;> decide

/-- The token before ends an operand. -/
theorem any_endsOperand_iff {last : Option Token} :
    (last.map Token.kind).any Kind.endsOperand ↔ ∃ u ∈ last, u.kind ∈ Kind.operandEnds := by
  cases last with
  | none => simp
  | some u => simp [Kind.endsOperand_iff]

/-- The kind of the token that a sign is by itself. -/
def signKind (c : Char) : Kind :=
  if c = '+' then .plus else .minus

/-! ## Every character is taken by a step -/

/-- A scan to the end of the text takes each character by a step, which starts at the character or
before it. -/
theorem Cursor.Reaches.exists_step_at {policy : Policy} {cursor final : Cursor}
    {tokens : List Token} (h : cursor.Reaches policy tokens final) (hend : final.rest = [])
    {before after : List Char} {c : Char} (htext : cursor.rest = before ++ c :: after) :
    ∃ earlier place choice later inside, cursor.Reaches policy earlier place ∧
      place.choose policy = some choice ∧
      tokens = earlier ++ (place.token? choice).toList ++ later ∧
      place.rest = inside ++ c :: after ∧ inside.length < choice.length := by
  induction h generalizing before with
  | refl cursor =>
    rw [hend] at htext
    simp at htext
  | @step cursor final choice tokens hchoose h ih =>
    by_cases hlt : before.length < choice.length
    · exact ⟨[], cursor, choice, tokens, before, .refl cursor, hchoose, rfl, htext, hlt⟩
    · -- the step ends before the character, so a later one takes it
      have hnext : (cursor.next choice).rest = before.drop choice.length ++ c :: after := by
        show cursor.rest.drop choice.length = _
        rw [htext, List.drop_append_of_le_length (by omega)]
      obtain ⟨earlier, place, choice', later, inside, hreaches, hfound⟩ := ih hend hnext
      obtain ⟨hchoose', rfl, hinside⟩ := hfound
      refine ⟨_, place, choice', later, inside, hreaches.step hchoose, hchoose', ?_, hinside⟩
      simp only [List.append_assoc]

/-! ## What a step takes at a sign -/

/-- The rules whose words can hold a sign, strings and characters apart. -/
theorem rules_uses_sign {c : Char} (hc : c = '+' ∨ c = '-') : ∀ rule ∈ rules, rule.pattern.uses c →
    rule.kind ≠ .character → rule.kind ≠ .string →
      rule = ⟨.integer, integer⟩ ∨ rule = ⟨.decimal, decimal⟩ ∨ rule = ⟨signKind c, char c⟩ := by
  rcases hc with rfl | rfl <;> decide

/-- A number has a sign at its front only. -/
theorem exists_sign_append_of_describes {p : Pattern} (hp : p = integer ∨ p = decimal)
    {word rest : List Char} (h : p.Describes word rest) :
    ∃ sign ds, IsSign sign ∧ word = sign ++ ds ∧ '+' ∉ ds ∧ '-' ∉ ds := by
  have hdigits {ds : List Char} (hds : ∀ c ∈ ds, digits.contains c) : '+' ∉ ds ∧ '-' ∉ ds := by
    constructor
    · exact fun hmem => absurd (hds _ hmem) (by decide)
    · exact fun hmem => absurd (hds _ hmem) (by decide)
  rcases hp with rfl | rfl
  · obtain ⟨sign, ds, hsign, hds, rfl⟩ := describes_integer_iff.mp h
    exact ⟨sign, ds, hsign, rfl, hdigits (digits_of_isWhole hds).2⟩
  · obtain ⟨sign, ds, fs, hsign, hds, -, hfs, rfl⟩ := describes_decimal_iff.mp h
    obtain ⟨hplus, hminus⟩ := hdigits (digits_of_isWhole hds).2
    obtain ⟨hplus', hminus'⟩ := hdigits hfs
    refine ⟨sign, ds ++ '.' :: fs, hsign, List.append_assoc .., ?_, ?_⟩
    · simp [hplus, hplus']
    · simp [hminus, hminus']

namespace Cursor

variable {policy : Policy} {cursor : Cursor} {choice : Candidate} {c : Char}
  {inside after : List Char}

/-- A step that takes a sign starts with it, strings and characters apart. It takes a number, or the
sign alone. -/
theorem eq_nil_of_choose_sign (hchoose : cursor.choose policy = some choice)
    (hrest : cursor.rest = inside ++ c :: after) (hlt : inside.length < choice.length)
    (hc : c = '+' ∨ c = '-') (hcharacter : choice.kind ≠ .character)
    (hstring : choice.kind ≠ .string) :
    inside = [] ∧ (choice.kind.isNumber ∨ choice.kind = signKind c ∧ choice.length = 1) := by
  obtain ⟨rule, hrule, hkind, hlength, -⟩ := exists_rule_of_choose hchoose
  obtain ⟨hle, hword⟩ := mem_lengths_iff.mp (List.mem_of_mem_head? hlength)
  -- the word of the step goes from `inside` through the sign
  obtain ⟨more, hmore⟩ : ∃ more, cursor.rest.take choice.length = inside ++ c :: more := by
    obtain ⟨k, hk⟩ := Nat.exists_eq_add_of_lt hlt
    refine ⟨after.take k, ?_⟩
    rw [hrest, hk, Nat.add_assoc, List.take_length_add_append, List.take_succ_cons]
  have huses : rule.pattern.uses c := uses_of_describes hword c (by simp [hmore])
  have hnumber (hp : rule.pattern = integer ∨ rule.pattern = decimal) : inside = [] := by
    obtain ⟨sign, ds, hsign, hsplit, hplus, hminus⟩ := exists_sign_append_of_describes hp hword
    have hds : c ∉ ds := by rcases hc with rfl | rfl <;> assumption
    rw [hmore] at hsplit
    -- anything in front of the sign would leave it among the digits
    cases inside with
    | nil => rfl
    | cons d inside =>
      refine absurd ?_ hds
      have htail : inside ++ c :: more <:+ ds := by
        rcases isSign_iff.mp hsign with rfl | rfl | rfl
        · exact ⟨[d], hsplit⟩
        · exact ⟨[], (List.cons.inj hsplit).2⟩
        · exact ⟨[], (List.cons.inj hsplit).2⟩
      exact htail.subset (by simp)
  rcases rules_uses_sign hc rule hrule huses (hkind ▸ hcharacter) (hkind ▸ hstring) with
    rfl | rfl | rfl
  · exact ⟨hnumber (.inl rfl), .inl (by rw [← hkind]; rfl)⟩
  · exact ⟨hnumber (.inr rfl), .inl (by rw [← hkind]; rfl)⟩
  · rw [hmore] at hword
    have hsingle := describes_char_iff.mp hword
    have hnil : inside = [] := by
      cases inside with
      | nil => rfl
      | cons d inside => simp at hsingle
    refine ⟨hnil, .inr ⟨hkind.symm, ?_⟩⟩
    rw [← List.length_take_of_le hle, hmore, hsingle]
    rfl

/-- Whether a step takes a number at a sign in front of a digit depends on the token before. -/
theorem kind_of_choose_sign {d : Char} (hchoose : cursor.choose policy = some choice)
    (hrest : cursor.rest = c :: d :: after) (hc : c = '+' ∨ c = '-') (hd : digits.contains d)
    (hshape : choice.kind.isNumber ∨ choice.kind = signKind c ∧ choice.length = 1) :
    if cursor.last.any Kind.endsOperand then choice.kind = signKind c ∧ choice.length = 1
    else choice.kind.isNumber := by
  have hsign : startsWithSign cursor.rest := by
    rcases hc with rfl | rfl <;> simp [hrest, startsWithSign]
  split
  · next hlast =>
    -- a number with a sign may not start here
    obtain ⟨rule, -, -, -, hstart⟩ := exists_rule_of_choose hchoose
    refine hshape.resolve_left fun hnumber => ?_
    simp [mayStart, hnumber, hsign, hlast] at hstart
  · next hlast =>
    -- the sign and the digit are a number, so the step takes at least these two
    have hdigit : IsWhole [d] := by
      by_cases hzero : d = '0'
      · exact .inl (by rw [hzero])
      · refine .inr ⟨d, [], ?_, by simp, rfl⟩
        have hne : d.toNat ≠ 48 := fun h => hzero (Char.toNat_inj.mp h)
        simp [digits, leadingDigits, CharClass.contains, ClassItem.contains] at hd ⊢
        omega
    have hword : integer.Describes [c, d] after := by
      refine describes_integer_iff.mpr ⟨[c], [d], ?_, hdigit, rfl⟩
      rcases hc with rfl | rfl <;> simp [isSign_iff]
    have htwo : 2 ∈ integer.lengths cursor.rest := hrest ▸ length_mem_lengths hword
    have hle : 2 ≤ choice.length :=
      le_length_of_choose hchoose (show ⟨.integer, integer⟩ ∈ rules by decide) htwo
        (by simp [mayStart, hlast])
    exact hshape.resolve_right fun h => by omega

end Cursor

/-! ## Signs in a text -/

/-- The sign `c` right behind `before` starts a token. The token is a number if there is no token
before it or that one does not end an operand, and otherwise it is the sign alone. -/
def SettledByLast (source : String) (tokens : List Token) (before : String) (c : Char) : Prop :=
  ∃ (earlier : List Token) (t : Token) (later : List Token) (rest : String),
    tokens = earlier ++ t :: later ∧ t.Between source before rest ∧
    ((∀ u ∈ earlier.getLast?, u.kind ∉ Kind.operandEnds) →
      (t.kind = .integer ∨ t.kind = .decimal) ∧ t.text.toList.head? = some c) ∧
    ((∃ u ∈ earlier.getLast?, u.kind ∈ Kind.operandEnds) →
      t.kind = signKind c ∧ t.text = String.singleton c)

/-- The step that takes a sign outside strings and characters starts with it. -/
theorem exists_step_of_sign {policy : Policy} {source : String} {tokens : List Token}
    (h : tokenize policy source = .ok tokens) {before : String} {c : Char} {after : List Char}
    (hsource : source.toList = before.toList ++ c :: after) (hc : c = '+' ∨ c = '-')
    (houtside : ∀ t ∈ tokens, t.kind = .character ∨ t.kind = .string →
      before.utf8ByteSize < t.span.start ∨ t.span.stop ≤ before.utf8ByteSize) :
    ∃ earlier place choice later, (Cursor.start source.toList).Reaches policy earlier place ∧
      place.choose policy = some choice ∧
      tokens = earlier ++ (place.token? choice).toList ++ later ∧ place.rest = c :: after ∧
      (choice.kind.isNumber ∨ choice.kind = signKind c ∧ choice.length = 1) := by
  obtain ⟨final, hreaches, hend⟩ := exists_reaches_of_tokenize h
  obtain ⟨earlier, place, choice, later, inside, hplace, hchoose, rfl, hrest, hlt⟩ :=
    hreaches.exists_step_at hend hsource
  -- the sign stands behind the start of the step by the bytes of `inside`
  obtain ⟨text, htext, hposition⟩ := hplace.exists_append
  have hbefore : before.toList = text ++ inside := by
    have hsplit : before.toList ++ c :: after = text ++ inside ++ c :: after := by
      rw [List.append_assoc, ← hrest, ← hsource]
      exact htext
    exact List.append_cancel_right hsplit
  have hoffset : place.position.offset = byteSize text := by
    rw [hposition, Position.offset_advance]
    exact Nat.zero_add _
  have hquoted (hkind : choice.kind = .character ∨ choice.kind = .string) : False := by
    have hspace : choice.kind ≠ .space := by rcases hkind with hkind | hkind <;> simp [hkind]
    -- the token would hold the sign
    have hout := houtside (Token.covering choice.kind place.position
      (place.rest.take choice.length)) (by simp [Cursor.token?, hspace]) hkind
    have hinside : byteSize inside < byteSize (place.rest.take choice.length) := by
      obtain ⟨k, hk⟩ := Nat.exists_eq_add_of_lt hlt
      rw [hrest, hk, Nat.add_assoc, List.take_length_add_append, List.take_succ_cons,
        byteSize_append, byteSize_cons]
      have := c.utf8Size_pos
      omega
    simp only [Token.covering, Span.covering, hoffset, ← byteSize_toList, hbefore,
      byteSize_append] at hout
    omega
  obtain ⟨rfl, hshape⟩ := Cursor.eq_nil_of_choose_sign hchoose hrest hlt hc
    (fun hkind => hquoted (.inl hkind)) fun hkind => hquoted (.inr hkind)
  exact ⟨earlier, place, choice, later, hplace, hchoose, rfl, hrest, hshape⟩

/-- A number behind a token that ends an operand has no sign. -/
theorem startsWithSign_eq_false_of_endsOperand {policy : Policy} {source : String}
    {earlier later : List Token} {t u : Token}
    (h : tokenize policy source = .ok (earlier ++ t :: u :: later))
    (hends : t.kind ∈ Kind.operandEnds) (hnumber : u.kind.isNumber) :
    startsWithSign u.text.toList = false := by
  rw [List.append_cons] at h
  obtain ⟨final, hreaches, -⟩ := exists_reaches_of_tokenize h
  obtain ⟨place, choice, hplace, hchoose, -, rfl, -⟩ := hreaches.exists_step
  obtain ⟨rule, -, -, -, hstart⟩ := Cursor.exists_rule_of_choose hchoose
  -- the step was taken behind `t`, where no number with a sign may start
  have hlast : place.last = some t.kind := by
    rw [hplace.last_eq, List.getLast?_concat]
    rfl
  have hword : mayStart (some t.kind) choice.kind (place.rest.take choice.length) := by
    rw [← mayStart_append (Cursor.take_ne_nil_of_choose hchoose) (place.rest.drop choice.length),
      List.take_append_drop, ← hlast]
    exact hstart
  have hkind : choice.kind.isNumber := hnumber
  simpa [mayStart, hkind, Kind.endsOperand_iff.mpr hends, Token.covering] using hword

/-- A sign in front of a digit, outside strings and characters, is part of a number or an operator,
as the token before it says. So a number behind a token that ends an operand has no sign. -/
theorem sign_follows_last_token {policy : Policy} {source : String} {tokens : List Token}
    (h : tokenize policy source = .ok tokens) :
    (∀ before c d after, source = before ++ String.ofList [c, d] ++ after → c = '+' ∨ c = '-' →
      digits.contains d →
      (∀ t ∈ tokens, t.kind = .character ∨ t.kind = .string →
        before.utf8ByteSize < t.span.start ∨ t.span.stop ≤ before.utf8ByteSize) →
      SettledByLast source tokens before c) ∧
    ∀ earlier t u later, tokens = earlier ++ t :: u :: later → t.kind ∈ Kind.operandEnds →
      u.kind.isNumber → startsWithSign u.text.toList = false := by
  constructor
  · intro before c d after hsource hc hd houtside
    have hsplit : source.toList = before.toList ++ c :: d :: after.toList := by simp [hsource]
    obtain ⟨earlier, place, choice, later, hplace, hchoose, htokens, hrest, hshape⟩ :=
      exists_step_of_sign h hsplit hc houtside
    have hspace : choice.kind ≠ .space := by
      rcases hshape with hnumber | ⟨hkind, -⟩
      · intro hkind
        simp [hkind, Kind.isNumber] at hnumber
      · rcases hc with rfl | rfl <;> simp [hkind, signKind]
    obtain ⟨before', hbefore', hbetween⟩ := hplace.between choice
    obtain rfl : before' = before := by
      rw [← String.toList_inj]
      apply (List.append_left_inj place.rest).mp
      rw [hrest, ← hsplit, ← hbefore', hrest]
      simp
    have hkind := Cursor.kind_of_choose_sign hchoose hrest hc hd hshape
    rw [hplace.last_eq, Cursor.start, Option.or_none] at hkind
    refine ⟨earlier, _, later, _, by simpa [Cursor.token?, hspace] using htokens, hbetween, ?_, ?_⟩
    · intro hends
      rw [if_neg fun hlast => ?_] at hkind
      · refine ⟨Kind.isNumber_iff.mp hkind, ?_⟩
        -- the step takes at least one character, and the sign is the first
        obtain ⟨n, hn⟩ := Nat.exists_eq_add_one_of_ne_zero choice.length_pos.ne'
        rw [Token.covering, String.toList_ofList, hrest, hn, List.take_succ_cons, List.head?_cons]
      · obtain ⟨u, hu, hmem⟩ := any_endsOperand_iff.mp hlast
        exact hends u hu hmem
    · intro hends
      rw [if_pos (any_endsOperand_iff.mpr hends)] at hkind
      refine ⟨hkind.1, ?_⟩
      rw [Token.covering, hrest, hkind.2, List.take_succ_cons, List.take_zero]
      rfl
  · rintro earlier t u later rfl hends hnumber
    exact startsWithSign_eq_false_of_endsOperand h hends hnumber

/-- The sign of `-1` stands behind another sign and belongs to the number. The sign on the second
line stands behind a parenthesis, which ends an operand on the line before, and is an operator. -/
theorem sign_follows_last_token_chain :
    ∃ tokens, tokenize .first "a--1(2)\n+3\"-4\"" = .ok tokens ∧
      SettledByLast "a--1(2)\n+3\"-4\"" tokens "a-" '-' ∧
      SettledByLast "a--1(2)\n+3\"-4\"" tokens "a--1(2)\n" '+' := by
  have h : tokenize .first "a--1(2)\n+3\"-4\"" = .ok
      [⟨.name, "a", ⟨0, 1, 1, 1⟩⟩, ⟨.minus, "-", ⟨1, 2, 1, 2⟩⟩, ⟨.integer, "-1", ⟨2, 4, 1, 3⟩⟩,
       ⟨.lparen, "(", ⟨4, 5, 1, 5⟩⟩, ⟨.integer, "2", ⟨5, 6, 1, 6⟩⟩, ⟨.rparen, ")", ⟨6, 7, 1, 7⟩⟩,
       ⟨.plus, "+", ⟨8, 9, 2, 1⟩⟩, ⟨.integer, "3", ⟨9, 10, 2, 2⟩⟩,
       ⟨.string, "\"-4\"", ⟨10, 14, 2, 3⟩⟩] := by
    cbv
  obtain ⟨hsigns, -⟩ := sign_follows_last_token h
  refine ⟨_, h, ?_, ?_⟩
  · exact hsigns "a-" '-' '1' "(2)\n+3\"-4\"" (by decide) (by decide) (by decide) (by decide)
  · exact hsigns "a--1(2)\n" '+' '3' "\"-4\"" (by decide) (by decide) (by decide) (by decide)

end Straightline
