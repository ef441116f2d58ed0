import Mathlib
import Straightline.Pattern.Language

/-!
# Deterministic patterns

A pattern can match at the front of a text in several ways, and `Pattern.matchLength?` takes the one
that is preferred. For a pattern in which the next character always decides between going on with a
part and leaving it, the preferred way is the longest one.

* `CharClass.apart` and `Pattern.apart` are checks that no character belongs to two classes, and
  that no text starts with nonempty words of two patterns.
* `Pattern.isDeterministic` is a check of the condition above. It implies that the ways of a match
  are listed from the longest to the shortest (`lengths_pairwise`).

Main statement: `matchLength?_eq_some_iff`, by which a deterministic pattern takes its longest word.
-/

namespace Straightline

/-! ## Classes without common characters -/

namespace ClassItem

/-- The code points of the first and the last character of an item. -/
def bounds : ClassItem → Nat × Nat
  | single c => (c.toNat, c.toNat)
  | range lo hi => (lo.toNat, hi.toNat)

/-- Whether one of two items ends before the other starts. -/
def apart (a b : ClassItem) : Bool :=
  a.bounds.2 < b.bounds.1 || b.bounds.2 < a.bounds.1

theorem bounds_of_contains {item : ClassItem} {c : Char} (h : item.contains c) :
    item.bounds.1 ≤ c.toNat ∧ c.toNat ≤ item.bounds.2 := by
  cases item with
  | single d => simp_all [contains, bounds]
  | range lo hi => simpa [contains, bounds] using h

theorem not_contains_of_apart {a b : ClassItem} (h : a.apart b) {c : Char} (ha : a.contains c) :
    b.contains c = false := by
  by_cases hb : b.contains c
  · have hca := bounds_of_contains ha
    have hcb := bounds_of_contains hb
    simp only [apart, Bool.or_eq_true, decide_eq_true_eq] at h
    omega
  · simpa using hb

end ClassItem

namespace CharClass

/-- Whether two classes are seen to have no character in common. -/
def apart : CharClass → CharClass → Bool
  | exactly c, t => !t.contains c
  | s, exactly c => !s.contains c
  | oneOf as, oneOf bs => as.all fun a => bs.all fun b => a.apart b
  | _, _ => false

theorem not_contains_of_apart {s t : CharClass} (h : s.apart t) {c : Char} (hs : s.contains c) :
    t.contains c = false := by
  unfold apart at h
  split at h
  · simp_all [contains]
  · simp_all [contains]
    grind
  · next as bs =>
    simp only [contains, List.any_eq_true] at hs
    obtain ⟨a, ha, hac⟩ := hs
    simp only [contains, List.any_eq_false]
    intro b hb
    rw [ClassItem.not_contains_of_apart (List.all_eq_true.mp (List.all_eq_true.mp h a ha) b hb) hac]
    simp
  · cases h

/-- Every text starts with as many characters of a class as it can. -/
theorem exists_append (s : CharClass) (cs : List Char) :
    ∃ word rest, cs = word ++ rest ∧ (∀ c ∈ word, s.contains c) ∧
      ∀ c ∈ rest.head?, s.contains c = false := by
  refine ⟨cs.takeWhile s.contains, cs.dropWhile s.contains, by simp, ?_, ?_⟩
  · exact List.all_eq_true.mp List.all_takeWhile
  · intro c hc
    simpa [Option.mem_def.mp hc] using List.head?_dropWhile_not s.contains cs

end CharClass

namespace Pattern

/-! ## First characters -/

/-- Whether the empty word may belong to a pattern. -/
def isNullable : Pattern → Bool
  | one _ | many1 _ => false
  | many _ | optional _ | wordEnd => true
  | seq p q => p.isNullable && q.isNullable
  | either p q => p.isNullable || q.isNullable
  | group p => p.isNullable

/-- The classes of the characters that a nonempty word of a pattern may start with. -/
def starts : Pattern → List CharClass
  | one s | many s | many1 s | optional s => [s]
  | seq p q => p.starts ++ if p.isNullable then q.starts else []
  | either p q => p.starts ++ q.starts
  | group p => p.starts
  | wordEnd => []

theorem isNullable_of_describes_nil {p : Pattern} {rest : List Char} (h : p.Describes [] rest) :
    p.isNullable := by
  induction p generalizing rest with
  | one s => simp [Describes] at h
  | many s => rfl
  | many1 s => simp [Describes] at h
  | optional s => rfl
  | seq p q ihp ihq =>
    obtain ⟨u, v, huv, hp, hq⟩ := h
    obtain ⟨rfl, rfl⟩ := List.nil_eq_append_iff.mp huv
    simp [isNullable, ihp hp, ihq hq]
  | either p q ihp ihq =>
    rcases h with h | h
    · simp [isNullable, ihp h]
    · simp [isNullable, ihq h]
  | group p ih => exact ih h
  | wordEnd => rfl

theorem exists_mem_starts {p : Pattern} {c : Char} {word rest : List Char}
    (h : p.Describes (c :: word) rest) : ∃ s ∈ p.starts, s.contains c := by
  induction p generalizing word rest with
  | one s =>
    obtain ⟨d, hd, hword⟩ := h
    rw [List.cons.injEq] at hword
    exact ⟨s, by simp [starts], hword.1 ▸ hd⟩
  | many s => exact ⟨s, by simp [starts], h c (by simp)⟩
  | many1 s => exact ⟨s, by simp [starts], h.2 c (by simp)⟩
  | optional s =>
    rcases h with h | ⟨d, hd, hword⟩
    · cases h
    · rw [List.cons.injEq] at hword
      exact ⟨s, by simp [starts], hword.1 ▸ hd⟩
  | seq p q ihp ihq =>
    obtain ⟨u, v, huv, hp, hq⟩ := h
    cases u with
    | nil =>
      rw [List.nil_append] at huv
      obtain ⟨s, hs, hc⟩ := ihq (huv ▸ hq)
      exact ⟨s, by simp [starts, isNullable_of_describes_nil hp, hs], hc⟩
    | cons d u =>
      obtain ⟨rfl, -⟩ := List.cons.inj huv
      obtain ⟨s, hs, hc⟩ := ihp hp
      exact ⟨s, by simp [starts, hs], hc⟩
  | either p q ihp ihq =>
    rcases h with h | h
    · obtain ⟨s, hs, hc⟩ := ihp h
      exact ⟨s, by simp [starts, hs], hc⟩
    · obtain ⟨s, hs, hc⟩ := ihq h
      exact ⟨s, by simp [starts, hs], hc⟩
  | group p ih => exact ih h
  | wordEnd => cases h.1

/-- Whether a class is seen to hold no first character of a pattern that needs one. -/
def avoids (p : Pattern) (s : CharClass) : Bool :=
  !p.isNullable && p.starts.all s.apart

/-- A pattern does not match in front of a character that it cannot start with. -/
theorem lengths_eq_nil_of_avoids {p : Pattern} {s : CharClass} (h : p.avoids s) {c : Char}
    (hc : s.contains c) (cs : List Char) : p.lengths (c :: cs) = [] := by
  rw [List.eq_nil_iff_forall_not_mem]
  intro n hn
  simp only [avoids, Bool.and_eq_true, Bool.not_eq_true', List.all_eq_true] at h
  obtain ⟨-, hword⟩ := mem_lengths_iff.mp hn
  cases n with
  | zero => simp [isNullable_of_describes_nil hword] at h
  | succ n =>
    obtain ⟨t, ht, hct⟩ := exists_mem_starts hword
    simp [CharClass.not_contains_of_apart (h.2 t ht) hc] at hct

/-- Whether two patterns are seen to have no nonempty words that start alike. -/
def apart (p q : Pattern) : Bool :=
  p.starts.all fun s => q.starts.all fun t => s.apart t

/-- Patterns that are apart do not both match at the same place. -/
theorem not_mem_lengths_of_apart {p q : Pattern} (h : p.apart q) {cs : List Char} {m n : Nat}
    (hp : m + 1 ∈ p.lengths cs) : n + 1 ∉ q.lengths cs := by
  intro hq
  cases cs with
  | nil => simpa using (mem_lengths_iff.mp hp).1
  | cons c cs =>
    obtain ⟨s, hs, hcs⟩ := exists_mem_starts (mem_lengths_iff.mp hp).2
    obtain ⟨t, ht, hct⟩ := exists_mem_starts (mem_lengths_iff.mp hq).2
    have hst : s.apart t := List.all_eq_true.mp (List.all_eq_true.mp h s hs) t ht
    simp [CharClass.not_contains_of_apart hst hcs] at hct

/-! ## Longest words -/

/-- Whether the next character always decides how a pattern goes on: one that repeats or skips a
class cannot be left before a character of the class, and alternatives start apart. -/
def isDeterministic : Pattern → Bool
  | one _ | many _ | many1 _ | optional _ | wordEnd => true
  | seq (one _) q => q.isDeterministic
  | seq (many s) q | seq (many1 s) q | seq (optional s) q => q.avoids s && q.isDeterministic
  | seq _ _ => false
  | either p q =>
    !p.isNullable && !q.isNullable && p.apart q && p.isDeterministic && q.isDeterministic
  | group p => p.isDeterministic

/-- If at most one way of matching `p` lets `q` follow, the ways of both in sequence are listed from
the longest to the shortest. -/
theorem lengths_seq_pairwise {p q : Pattern} {cs : List Char}
    (hp : (p.lengths cs).Pairwise (· > ·)) (hq : ∀ m, (q.lengths (cs.drop m)).Pairwise (· > ·))
    (hunique : ∀ m ∈ p.lengths cs, ∀ n ∈ p.lengths cs, n < m → q.lengths (cs.drop n) = []) :
    ((seq p q).lengths cs).Pairwise (· > ·) := by
  rw [lengths, List.pairwise_flatMap]
  constructor
  · intro m _
    rw [List.pairwise_map]
    exact (hq m).imp fun h => by omega
  · -- a shorter match of `p` contributes nothing, so there is nothing to compare
    refine hp.imp_of_mem ?_
    intro m n hm hn hlt x _ y hy
    simp [hunique m hm n hn hlt] at hy

/-- What follows a class that has been left early starts with a character of the class. -/
theorem lengths_drop_eq_nil {q : Pattern} {s : CharClass} (hq : q.avoids s) {cs : List Char}
    {m n : Nat} (hm : m ≤ cs.length) (hall : ∀ c ∈ cs.take m, s.contains c) (hnm : n < m) :
    q.lengths (cs.drop n) = [] := by
  have hn : n < cs.length := by omega
  rw [List.drop_eq_getElem_cons hn]
  refine lengths_eq_nil_of_avoids hq (hall _ ?_) _
  rw [List.mem_take_iff_getElem]
  exact ⟨n, by omega, rfl⟩

/-- A deterministic pattern lists its ways of matching from the longest to the shortest. -/
theorem lengths_pairwise {p : Pattern} (h : p.isDeterministic) (cs : List Char) :
    (p.lengths cs).Pairwise (· > ·) := by
  induction p generalizing cs with
  | one s | optional s | wordEnd =>
    cases cs with
    | nil => simp [lengths]
    | cons c cs =>
      rw [lengths]
      split <;> simp
  | many s =>
    rw [lengths, List.pairwise_reverse]
    exact List.pairwise_lt_range
  | many1 s =>
    rw [lengths, List.pairwise_reverse]
    exact List.pairwise_lt_range'
  | seq p q ihp ihq =>
    -- two ways of matching `p` would mean that `q` can follow inside a run of the class of `p`
    cases p with
    | one s =>
      refine lengths_seq_pairwise (ihp rfl cs) (fun m => ihq h _) ?_
      intro m hm n hn hlt
      obtain ⟨c, -, hc⟩ := (mem_lengths_iff.mp hn).2
      have hlen := congrArg List.length hc
      obtain ⟨hle, d, -, hd⟩ := mem_lengths_iff.mp hm
      have hlen' := congrArg List.length hd
      simp only [List.length_take, List.length_cons, List.length_nil] at hlen hlen'
      omega
    | many s =>
      obtain ⟨havoids, hq⟩ := Bool.and_eq_true _ _ ▸ h
      refine lengths_seq_pairwise (ihp rfl cs) (fun m => ihq hq _) ?_
      intro m hm n _ hlt
      obtain ⟨hle, hall⟩ := mem_lengths_iff.mp hm
      exact lengths_drop_eq_nil havoids hle hall hlt
    | many1 s =>
      obtain ⟨havoids, hq⟩ := Bool.and_eq_true _ _ ▸ h
      refine lengths_seq_pairwise (ihp rfl cs) (fun m => ihq hq _) ?_
      intro m hm n _ hlt
      obtain ⟨hle, -, hall⟩ := mem_lengths_iff.mp hm
      exact lengths_drop_eq_nil havoids hle hall hlt
    | optional s =>
      obtain ⟨havoids, hq⟩ := Bool.and_eq_true _ _ ▸ h
      refine lengths_seq_pairwise (ihp rfl cs) (fun m => ihq hq _) ?_
      intro m hm n _ hlt
      obtain ⟨hle, hword⟩ := mem_lengths_iff.mp hm
      refine lengths_drop_eq_nil havoids hle ?_ hlt
      rcases hword with hword | ⟨c, hc, hword⟩
      · simp [hword]
      · simpa [hword] using hc
    | _ => cases h
  | either p q ihp ihq =>
    simp only [isDeterministic, Bool.and_eq_true, Bool.not_eq_true'] at h
    obtain ⟨⟨⟨⟨hp, hq⟩, hapart⟩, hdp⟩, hdq⟩ := h
    rw [lengths, List.pairwise_append]
    refine ⟨ihp hdp cs, ihq hdq cs, ?_⟩
    -- the two alternatives never match at the same place
    intro m hm n hn
    exfalso
    cases m with
    | zero => simp [isNullable_of_describes_nil (mem_lengths_iff.mp hm).2] at hp
    | succ m =>
      cases n with
      | zero => simp [isNullable_of_describes_nil (mem_lengths_iff.mp hn).2] at hq
      | succ n => exact not_mem_lengths_of_apart hapart hm hn
  | group p ih => exact ih h cs

/-- The first of numbers in descending order is the greatest. -/
private theorem head?_eq_some_iff_of_pairwise {ns : List Nat} (h : ns.Pairwise (· > ·)) {n : Nat} :
    ns.head? = some n ↔ n ∈ ns ∧ ∀ m ∈ ns, m ≤ n := by
  cases ns with
  | nil => simp
  | cons k ns =>
    have hk : ∀ m ∈ ns, m < k := (List.pairwise_cons.mp h).1
    rw [List.head?_cons, Option.some.injEq]
    constructor
    · rintro rfl
      refine ⟨by simp, fun m hm => ?_⟩
      rcases List.mem_cons.mp hm with rfl | hm
      · exact Nat.le_refl m
      · exact Nat.le_of_lt (hk m hm)
    · rintro ⟨hmem, hmax⟩
      rcases List.mem_cons.mp hmem with rfl | hmem
      · rfl
      · have := hk n hmem
        have := hmax k (by simp)
        omega

/-- A deterministic pattern takes its longest word at the front of a text. -/
theorem matchLength?_eq_some_iff {p : Pattern} (h : p.isDeterministic) {cs : List Char} {n : Nat} :
    p.matchLength? cs = some n ↔
      (n ≤ cs.length ∧ p.Describes (cs.take n) (cs.drop n)) ∧
        ∀ m, m ≤ cs.length ∧ p.Describes (cs.take m) (cs.drop m) → m ≤ n := by
  simp only [← mem_lengths_iff]
  exact head?_eq_some_iff_of_pairwise (lengths_pairwise h cs)

/-! ## Words in front of a text -/

/-- The classes of the characters in the words of a pattern. -/
def classes : Pattern → List CharClass
  | one s | many s | many1 s | optional s => [s]
  | seq p q | either p q => p.classes ++ q.classes
  | group p => p.classes
  | wordEnd => []

/-- Whether a character can occur in the words of a pattern. -/
def uses (p : Pattern) (c : Char) : Bool :=
  p.classes.any (·.contains c)

/-- A pattern uses no character of a class that is apart from its own. -/
theorem uses_eq_false_of_apart {p : Pattern} {s : CharClass} (h : p.classes.all s.apart) {c : Char}
    (hc : s.contains c) : p.uses c = false := by
  rw [uses, List.any_eq_false]
  intro t ht
  rw [CharClass.not_contains_of_apart (List.all_eq_true.mp h t ht) hc]
  exact Bool.false_ne_true

/-- The words of a pattern are made of the characters that it uses. -/
theorem uses_of_describes {p : Pattern} {word rest : List Char} (h : p.Describes word rest) :
    ∀ c ∈ word, p.uses c := by
  induction p generalizing word rest with
  | one s =>
    obtain ⟨d, hd, rfl⟩ := h
    simpa [uses, classes] using hd
  | many s => simpa [uses, classes, Describes] using h
  | many1 s => simpa [uses, classes] using h.2
  | optional s =>
    rcases h with rfl | ⟨d, hd, rfl⟩
    · simp
    · simpa [uses, classes] using hd
  | seq p q ihp ihq =>
    obtain ⟨u, v, rfl, hp, hq⟩ := h
    intro c hc
    rw [uses, classes, List.any_append, Bool.or_eq_true]
    rcases List.mem_append.mp hc with hc | hc
    · exact .inl (ihp hp c hc)
    · exact .inr (ihq hq c hc)
  | either p q ihp ihq =>
    intro c hc
    rw [uses, classes, List.any_append, Bool.or_eq_true]
    rcases h with h | h
    · exact .inl (ihp h c hc)
    · exact .inr (ihq h c hc)
  | group p ih => exact ih h
  | wordEnd =>
    rw [h.1]
    simp

/-- A match at the front of a text does not reach a character that the pattern does not use. -/
theorem le_length_of_mem_lengths {p : Pattern} {word rest : List Char} {n : Nat}
    (hrest : ∀ c ∈ rest.head?, p.uses c = false) (h : n ∈ p.lengths (word ++ rest)) :
    n ≤ word.length := by
  obtain ⟨hn, hword⟩ := mem_lengths_iff.mp h
  by_cases hlt : n ≤ word.length
  · exact hlt
  · cases rest with
    | nil => simpa using hn
    | cons c rest =>
      -- a longer match would hold the first character behind `word`
      have hc : c ∈ (word ++ c :: rest).take n :=
        List.mem_take_iff_getElem.mpr ⟨word.length, by simp; omega, by simp⟩
      have := uses_of_describes hword c hc
      simp [hrest c (by simp)] at this

/-- A word at the front of a text is one of the matches there. -/
theorem length_mem_lengths {p : Pattern} {word rest : List Char} (h : p.Describes word rest) :
    word.length ∈ p.lengths (word ++ rest) :=
  mem_lengths_iff.mpr ⟨by simp, by simpa using h⟩

/-- A pattern takes the only length that it can. -/
theorem matchLength?_eq_some_of_forall {p : Pattern} {cs : List Char} {n : Nat}
    (hmem : n ∈ p.lengths cs) (h : ∀ m ∈ p.lengths cs, m = n) : p.matchLength? cs = some n := by
  rw [matchLength?]
  cases hlengths : p.lengths cs with
  | nil => simp [hlengths] at hmem
  | cons m ms => rw [List.head?_cons, h m (by simp [hlengths])]

/-- A deterministic pattern takes a word of its own up to a character that it does not use. -/
theorem matchLength?_append {p : Pattern} (hp : p.isDeterministic) {word rest : List Char}
    (h : p.Describes word rest) (hrest : ∀ c ∈ rest.head?, p.uses c = false) :
    p.matchLength? (word ++ rest) = some word.length := by
  rw [matchLength?_eq_some_iff hp]
  refine ⟨mem_lengths_iff.mp (length_mem_lengths h), ?_⟩
  intro m hm
  exact le_length_of_mem_lengths hrest (mem_lengths_iff.mpr hm)

end Pattern

end Straightline
