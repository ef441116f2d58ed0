import Straightline.Pattern.Basic

/-!
# The words of a pattern

`Pattern.Describes` says which words belong to a pattern, without regard to preference: it is the
usual reading of a regular expression as a set of words, except that the end of a word depends on
what follows.

Main statement: `mem_lengths_iff`, by which `Pattern.lengths` finds all words of a pattern at the
front of a text, and only those.
-/

namespace Straightline.Pattern

/-- The words of a pattern, in a place where `rest` follows them. -/
def Describes : Pattern → List Char → List Char → Prop
  | one s, word, _ => ∃ c, s.contains c ∧ word = [c]
  | many s, word, _ => ∀ c ∈ word, s.contains c
  | many1 s, word, _ => word ≠ [] ∧ ∀ c ∈ word, s.contains c
  | optional s, word, _ => word = [] ∨ ∃ c, s.contains c ∧ word = [c]
  | seq p q, word, rest => ∃ u v, word = u ++ v ∧ p.Describes u (v ++ rest) ∧ q.Describes v rest
  | either p q, word, rest => p.Describes word rest ∨ q.Describes word rest
  | group p, word, rest => p.Describes word rest
  | wordEnd, word, rest => word = [] ∧ ∀ c ∈ rest.head?, ¬isWordChar c

/-- A text starts with `n` characters of a class iff its longest such start has so many. -/
theorem le_length_takeWhile_iff {f : Char → Bool} {cs : List Char} {n : Nat} :
    n ≤ (cs.takeWhile f).length ↔ n ≤ cs.length ∧ ∀ c ∈ cs.take n, f c := by
  induction cs generalizing n with
  | nil => simp
  | cons c cs ih =>
    cases n with
    | zero => simp
    | succ n => by_cases hc : f c <;> simp [hc, ih]

/-- If `u` and then `v` are at the front of a text, `v` is at the front behind `u`. -/
private theorem drop_length_of_take_eq_append {cs u v : List Char} {n : Nat}
    (h : cs.take n = u ++ v) :
    cs.take u.length = u ∧ cs.drop u.length = v ++ cs.drop n := by
  have hcs : cs = u ++ (v ++ cs.drop n) := by
    rw [← List.append_assoc, ← h, List.take_append_drop]
  constructor
  · exact (congrArg (List.take u.length) hcs).trans (by simp)
  · exact (congrArg (List.drop u.length) hcs).trans (by simp)

/-- A pattern can take `n` characters at the front of a text iff they are one of its words there. -/
theorem mem_lengths_iff {p : Pattern} {cs : List Char} {n : Nat} :
    n ∈ p.lengths cs ↔ n ≤ cs.length ∧ p.Describes (cs.take n) (cs.drop n) := by
  induction p generalizing cs n with
  | one s =>
    cases cs with
    | nil => simp [lengths, Describes]
    | cons c cs =>
      rcases n with _ | _ | n
      · simp [lengths, Describes]
      · simp [lengths, Describes]
      · simp only [lengths, Describes, List.take_succ_cons]
        split <;> simp <;> grind
  | many s =>
    rw [lengths, List.mem_reverse, List.mem_range, Nat.lt_succ_iff,
      le_length_takeWhile_iff, Describes]
  | many1 s =>
    rw [lengths, List.mem_reverse, List.mem_range'_1, Nat.add_comm 1, Nat.lt_succ_iff,
      le_length_takeWhile_iff, Describes]
    constructor
    · rintro ⟨hpos, hn, hall⟩
      refine ⟨hn, ?_, hall⟩
      rw [Ne, List.take_eq_nil_iff]
      rintro (rfl | rfl)
      · omega
      · simp at hn
        omega
    · rintro ⟨hn, hne, hall⟩
      refine ⟨?_, hn, hall⟩
      rcases n with _ | n
      · simp at hne
      · omega
  | optional s =>
    cases cs with
    | nil => simp [lengths, Describes]
    | cons c cs =>
      rcases n with _ | _ | n
      · simp only [lengths, Describes]
        split <;> simp
      · simp only [lengths, Describes]
        split <;> simp_all
      · simp only [lengths, Describes, List.take_succ_cons]
        split <;> simp <;> grind
  | seq p q ihp ihq =>
    simp only [lengths, List.mem_flatMap, List.mem_map, ihp, ihq, Describes]
    constructor
    · rintro ⟨m, ⟨hm, hp⟩, k, ⟨hk, hq⟩, rfl⟩
      rw [List.length_drop] at hk
      refine ⟨by omega, cs.take m, (cs.drop m).take k, List.take_add, ?_, ?_⟩
      · rwa [← List.drop_drop, List.take_append_drop]
      · rwa [← List.drop_drop]
    · rintro ⟨hn, u, v, huv, hp, hq⟩
      obtain ⟨htake, hdrop⟩ := drop_length_of_take_eq_append huv
      have hlen : u.length + v.length = n := by
        have := congrArg List.length huv
        rw [List.length_take, List.length_append] at this
        omega
      refine ⟨u.length, ⟨by omega, ?_⟩, v.length, ⟨?_, ?_⟩, hlen⟩
      · rwa [htake, hdrop]
      · rw [List.length_drop]
        omega
      · rw [hdrop]
        simpa using hq
  | either p q ihp ihq =>
    simp only [lengths, List.mem_append, ihp, ihq, Describes]
    grind
  | group p ih => exact ih
  | wordEnd =>
    cases cs with
    | nil => simp [lengths, Describes]
    | cons c cs => rcases n with _ | n <;> simp [lengths, Describes]

end Straightline.Pattern
