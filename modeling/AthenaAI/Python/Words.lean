import AthenaAI.Python.Str
import Mathlib.Order.Nat

/-!
# Words

The words of a text, for what the chunker does to them.

* `PyStr.IsWord text a b`: a word stands at `[a, b)`, a maximal run of characters that are no
  whitespace (`PyStr.NonSpace`). `PyStr.exists_isWord`: every run of such characters is part of a
  word.
* `PyStr.Collapsed text`: the text has no whitespace but single spaces between words.
  `PyStr.collapsed_join`: so it is when words are joined with spaces, as the parser does with the
  words that `split` finds (`PyStr.collapsed_join_split`).
* `PyStr.isInfix_strip`: `strip` takes no word away.
-/

namespace PyStr

/-- At position `p` there is a character that is no whitespace. -/
def NonSpace (text : PyStr) (p : ℕ) : Prop := ∃ c, text[p]? = some c ∧ isSpace c = false

instance (text : PyStr) (p : ℕ) : Decidable (NonSpace text p) :=
  decidable_of_iff (text[p]?.any fun c => !isSpace c) (by simp [NonSpace, Option.any_eq_true])

/-- A word stands at `[a, b)`. -/
structure IsWord (text : PyStr) (a b : ℕ) : Prop where
  lt : a < b
  nonSpace : ∀ p, a ≤ p → p < b → NonSpace text p
  /-- What is before the word, if anything, is whitespace. -/
  before : ∀ p, p + 1 = a → ¬NonSpace text p
  /-- So is what is after it. -/
  after : ¬NonSpace text b

/-- All whitespace is single spaces between words. -/
structure Collapsed (text : PyStr) : Prop where
  eq_space : ∀ c ∈ text, isSpace c → c = ' '
  head : text[0]? ≠ some ' '
  /-- A space is followed by a word. -/
  next : ∀ p, text[p]? = some ' ' → NonSpace text (p + 1)

variable {text : PyStr} {a b p : ℕ}

/-- A place that holds a character other than white space is one of the text, and the character
there is no space. -/
theorem NonSpace.lt_length (h : NonSpace text p) : p < text.length := by
  obtain ⟨c, hc, -⟩ := h
  exact (List.getElem?_eq_some_iff.mp hc).1

theorem NonSpace.ne_space (h : NonSpace text p) : text[p]? ≠ some ' ' := by
  obtain ⟨c, hc, hspace⟩ := h
  intro hp
  obtain rfl : c = ' ' := Option.some.inj (hc.symm.trans hp)
  exact absurd hspace (by decide)

theorem IsWord.le_length (h : IsWord text a b) : b ≤ text.length := by
  have hlt := h.lt
  have hlast := (h.nonSpace (b - 1) (by omega) (by omega)).lt_length
  omega

/-- In a `Collapsed` text, a position within it has a character of a word, or a space: there is no
other white space. -/
theorem Collapsed.nonSpace_iff (h : Collapsed text) (hp : p < text.length) :
    NonSpace text p ↔ text[p]? ≠ some ' ' := by
  refine ⟨NonSpace.ne_space, fun hne => ⟨text[p], List.getElem?_eq_getElem hp, ?_⟩⟩
  by_contra hspace
  have heq := h.eq_space text[p] (List.getElem_mem hp) (by simpa using hspace)
  exact hne (by rw [List.getElem?_eq_getElem hp, heq])

/-- A run of characters other than white space lies within a word (`IsWord`): it can be extended on
both sides until there is none. -/
theorem exists_isWord {u v : ℕ} (huv : u ≤ v) (hrun : ∀ p, u ≤ p → p ≤ v → NonSpace text p) :
    ∃ a b, IsWord text a b ∧ a ≤ u ∧ v < b := by
  classical
  -- the least beginning of such a run that ends at `v`, and the next position without one
  have hbegin : ∃ a, a ≤ u ∧ ∀ p, a ≤ p → p ≤ v → NonSpace text p := ⟨u, le_rfl, hrun⟩
  have hstop : ∃ b, v < b ∧ ¬NonSpace text b :=
    ⟨max text.length (v + 1), by omega, fun h => absurd h.lt_length (by omega)⟩
  obtain ⟨hau, ha⟩ := Nat.find_spec hbegin
  obtain ⟨hvb, hb⟩ := Nat.find_spec hstop
  refine ⟨Nat.find hbegin, Nat.find hstop, ⟨by omega, fun p hap hpb => ?_, ?_, hb⟩, hau, hvb⟩
  · rcases le_or_gt p v with hpv | hvp
    · exact ha p hap hpv
    · by_contra hnot
      exact Nat.find_min hstop hpb ⟨hvp, hnot⟩
  · intro p hp hnonSpace
    refine Nat.find_min hbegin (by omega) ⟨show p ≤ u by omega, fun q hpq hqv => ?_⟩
    rcases hpq.lt_or_eq with hlt | rfl
    · exact ha q (by omega) hqv
    · exact hnonSpace

/-! ## Joining words -/

theorem nonSpace_of_forall {w : PyStr} (hw : ∀ c ∈ w, isSpace c = false) (hp : p < w.length) :
    NonSpace w p :=
  ⟨w[p], List.getElem?_eq_getElem hp, hw _ (List.getElem_mem hp)⟩

/-- A word, a space and a `Collapsed` text that begins with a word make a `Collapsed` text. -/
theorem Collapsed.append_space {w : PyStr} (hw : ∀ c ∈ w, isSpace c = false) (hne : w ≠ [])
    (h : Collapsed text) (hfirst : NonSpace text 0) : Collapsed (w ++ ' ' :: text) := by
  have hpos := List.length_pos_iff.mpr hne
  have hword {p : ℕ} (hp : p < w.length) : NonSpace (w ++ ' ' :: text) p := by
    simpa [NonSpace, List.getElem?_append_left hp] using nonSpace_of_forall hw hp
  have hrest (k : ℕ) : (w ++ ' ' :: text)[w.length + 1 + k]? = text[k]? := by
    rw [List.getElem?_append_right (by omega)]
    simp [show w.length + 1 + k - w.length = k + 1 by omega]
  refine ⟨fun c hc hspace => ?_, (hword hpos).ne_space, fun p hp => ?_⟩
  · simp only [List.mem_append, List.mem_cons] at hc
    rcases hc with hc | rfl | hc
    · exact absurd hspace (by simp [hw c hc])
    · rfl
    · exact h.eq_space c hc hspace
  · rcases lt_trichotomy p w.length with hlt | rfl | hgt
    · exact absurd hp (hword hlt).ne_space
    -- the space between the two
    · simpa [NonSpace, hrest 0] using hfirst
    · obtain ⟨k, rfl⟩ : ∃ k, p = w.length + 1 + k := ⟨p - (w.length + 1), by omega⟩
      rw [hrest] at hp
      obtain ⟨c, hc, hspace⟩ := h.next k hp
      exact ⟨c, (hrest (k + 1)).trans hc, hspace⟩

/-- Words joined with spaces are a collapsed text. -/
theorem collapsed_join {ws : List PyStr} (hne : ∀ w ∈ ws, w ≠ [])
    (hspace : ∀ w ∈ ws, ∀ c ∈ w, isSpace c = false) : Collapsed (join [' '] ws) := by
  induction ws with
  | nil => exact ⟨by simp [join], by simp [join], by simp [join]⟩
  | cons w ws ih =>
    rw [List.forall_mem_cons] at hne hspace
    have hrest := ih hne.2 hspace.2
    cases ws with
    | nil =>
      have hjoin : join [' '] [w] = w := by simp [join]
      have hpos := List.length_pos_iff.mpr hne.1
      rw [hjoin]
      refine ⟨fun c hc h => ?_, (nonSpace_of_forall hspace.1 hpos).ne_space, fun p hp => ?_⟩
      · exact absurd h (by simp [hspace.1 c hc])
      · have hlt := (List.getElem?_eq_some_iff.mp hp).1
        exact absurd hp (nonSpace_of_forall hspace.1 hlt).ne_space
    | cons w' ws =>
      have hjoin : join [' '] (w :: w' :: ws) = w ++ ' ' :: join [' '] (w' :: ws) := by
        simp [join, List.intercalate]
      have hfirst : NonSpace (join [' '] (w' :: ws)) 0 := by
        obtain ⟨rest, heq⟩ := join_cons [' '] w' ws
        have hpos := List.length_pos_iff.mpr (hne.2 w' List.mem_cons_self)
        have hword := nonSpace_of_forall (hspace.2 w' List.mem_cons_self) hpos
        simpa [NonSpace, heq, List.getElem?_append_left hpos] using hword
      rw [hjoin]
      exact hrest.append_space hspace.1 hne.1 hfirst

/-- What `' '.join(s.split())` makes of any text is `Collapsed`. -/
theorem collapsed_join_split (s : PyStr) : Collapsed (join [' '] s.split) :=
  collapsed_join (fun _ hw => ne_nil_of_mem_split hw)
    fun _ hw _ hc => not_isSpace_of_mem_split hw hc

/-! ## Words in a part of a text -/

/-- What has no whitespace in it is not lost when whitespace before it is dropped. -/
theorem isInfix_of_append_left {w before s : PyStr} (hne : w ≠ []) (hw : ∀ c ∈ w, isSpace c = false)
    (hbefore : ∀ c ∈ before, isSpace c) (h : w <:+: before ++ s) : w <:+: s := by
  induction before with
  | nil => exact h
  | cons c before ih =>
    rw [List.forall_mem_cons] at hbefore
    rw [List.cons_append, List.infix_cons_iff] at h
    rcases h with hprefix | hinfix
    -- a word does not begin with whitespace
    · obtain ⟨d, w, rfl⟩ := List.exists_cons_of_ne_nil hne
      obtain rfl := (List.cons_prefix_cons.mp hprefix).1
      exact absurd hbefore.1 (by simp [hw d List.mem_cons_self])
    · exact ih hbefore.2 hinfix

/-- What has no white space in it and stands in a text stands in it after `str.strip`. -/
theorem isInfix_strip {w s : PyStr} (hne : w ≠ []) (hw : ∀ c ∈ w, isSpace c = false)
    (h : w <:+: s) : w <:+: s.strip := by
  obtain ⟨before, after, hs, hbefore, hafter⟩ := exists_eq_append_strip s
  rw [hs] at h
  have hfront := isInfix_of_append_left hne hw hbefore h
  -- the same from the other end
  rw [← List.reverse_infix, List.reverse_append] at hfront
  rw [← List.reverse_infix]
  refine isInfix_of_append_left (by simpa using hne) (fun c hc => hw c (by simpa using hc))
    (fun c hc => hafter c (by simpa using hc)) hfront

end PyStr
