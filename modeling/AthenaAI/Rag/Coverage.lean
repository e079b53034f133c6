import AthenaAI.Rag.Chunker

/-!
# Which text the chunks cover

The end of a window is pulled back to the last space in it, but the next window starts a fixed step
after the old start. The characters between the pulled-back end and the next start are in no chunk.

* `CutBefore text s p` says that the window at `s` ends at a space before `p`.
* `covered_iff`: a non-whitespace character lies in a chunk exactly if the last window starting at
  or before it is not cut before it. Earlier windows never help: a window that reaches `p` is
  followed by windows that reach `p`.
* `chunk_covers_iff` is the same for all characters of a document.
-/

namespace SlidingWindowChunker

variable (ck : SlidingWindowChunker)

/-- The full window that starts at `s` ends before position `p`: the text goes on after the window,
and the last space in it, later than `s`, comes before `p`. -/
def CutBefore (text : PyStr) (s p : ℕ) : Prop :=
  s + ck.chunkChars < text.length ∧ (∃ i, s < i ∧ i < p ∧ text[i]? = some ' ') ∧
    ∀ j, p < j → j < s + ck.chunkChars → text[j]? ≠ some ' '

/-- The start of the last window that starts at or before `p`, if every window gets its turn. -/
def lastStart (p : ℕ) : ℕ := p / ck.step * ck.step

/-! ## One window -/

/-- `windowEnd` is behind a non-space position of the window exactly if the window is not
`CutBefore` it, that is, not snapped back to a space between the two. -/
theorem lt_windowEnd_iff {text : PyStr} {s p : ℕ} (hlen : p < text.length)
    (hwidth : p < s + ck.chunkChars) (hspace : text[p]? ≠ some ' ') :
    p < ck.windowEnd text s ↔ ¬ ck.CutBefore text s p := by
  rcases ck.windowEnd_cases text s with
    ⟨hlast, hend⟩ | ⟨-, hend, hnone⟩ | ⟨hfull, b, hend, hsb, hb, hbspace, hnone⟩
  -- a window that ends with the text is not cut
  · rw [hend]
    exact iff_of_true hlen fun hcut => absurd hcut.1 (not_lt.mpr hlast)
  -- nor is one without a space
  · rw [hend]
    refine iff_of_true hwidth ?_
    rintro ⟨-, ⟨i, hsi, hip, hi⟩, -⟩
    exact hnone i hsi (hip.trans hwidth) hi
  -- one that ends at the space `b` is cut before the positions after `b`
  · rw [hend]
    constructor
    · rintro hpb ⟨-, -, hafter⟩
      exact hafter b hpb hb hbspace
    · intro hcut
      by_contra hbp
      have hbp : b < p := lt_of_le_of_ne (not_lt.mp hbp) fun h => hspace (h ▸ hbspace)
      exact hcut ⟨hfull, ⟨b, hsb, hbp, hbspace⟩, fun j hpj => hnone j (hbp.trans hpj)⟩

/-- If a window reaches `p`, no window that starts between it and `p` is `CutBefore` `p`: a later
start finds the same spaces before `p`, or fewer. -/
theorem not_cutBefore_of_lt_windowEnd {text : PyStr} {s s' p : ℕ} (hs : s ≤ s')
    (hp : p < ck.windowEnd text s) : ¬ ck.CutBefore text s' p := by
  rintro ⟨hfull', ⟨i, hsi, hip, hi⟩, hafter⟩
  -- the space that cuts the later window lies in the earlier one and would cut it too
  rcases ck.windowEnd_cases text s with
    ⟨hlast, -⟩ | ⟨-, hend, hnone⟩ | ⟨-, b, hend, -, hb, hbspace, -⟩
  · omega
  · exact hnone i (by omega) (by omega) hi
  · exact hafter b (by omega) (by omega) hbspace

/-! ## All windows -/

/-- `lastStart` is 0 for the positions before the second window: the case at which the recursion of
`chunk` over the windows ends. -/
theorem lastStart_of_lt {d : ℕ} (h : d < ck.step) : ck.lastStart d = 0 := by
  rw [lastStart, Nat.div_eq_of_lt h, Nat.zero_mul]

/-- `lastStart` counts the same from the second window on: one step of the recursion of `chunk` over
the windows. -/
theorem add_step_add_lastStart {start p : ℕ} (h : start + ck.step ≤ p) :
    start + ck.step + ck.lastStart (p - (start + ck.step)) = start + ck.lastStart (p - start) := by
  have hdiv : (p - start) / ck.step = (p - (start + ck.step)) / ck.step + 1 := by
    rw [← Nat.add_div_right _ ck.step_pos]
    congr 1
    omega
  rw [lastStart, lastStart, hdiv, Nat.add_mul, Nat.one_mul]
  omega

/-- A non-space position lies in a window exactly if the last window that starts at or before it is
not cut before it. -/
theorem mem_windows_iff {text : PyStr} {fuel start p : ℕ} (hfuel : text.length ≤ start + fuel)
    (hstart : start ≤ p) (hlen : p < text.length) (hspace : text[p]? ≠ some ' ') :
    (∃ w ∈ ck.windows text fuel start, w.1 ≤ p ∧ p < w.2) ↔
      ¬ ck.CutBefore text (start + ck.lastStart (p - start)) p := by
  have hstep := ck.step_pos
  induction fuel generalizing start with
  | zero => omega
  | succ fuel ih =>
    rw [windows, if_pos (by omega)]
    by_cases hlast : ck.windowEnd text start ≥ text.length
    · -- this window reaches the end of the text and is the last one
      rw [if_pos hlast]
      have hp : p < ck.windowEnd text start := hlen.trans_le hlast
      exact iff_of_true ⟨_, List.mem_singleton_self _, hstart, hp⟩
        (ck.not_cutBefore_of_lt_windowEnd (Nat.le_add_right _ _) hp)
    · rw [if_neg hlast, List.exists_mem_cons_iff]
      rcases lt_or_ge p (start + ck.step) with hnear | hfar
      · -- later windows start after `p`
        have hlater : ¬∃ w ∈ ck.windows text fuel (start + ck.step), w.1 ≤ p ∧ p < w.2 := by
          rintro ⟨w, hw, hwp, -⟩
          have := ck.le_start_of_mem_windows hw
          omega
        have hwidth := ck.step_le_chunkChars
        rw [or_iff_left hlater, and_iff_right hstart, ck.lastStart_of_lt (by omega), Nat.add_zero,
          ck.lt_windowEnd_iff hlen (by omega) hspace]
      · -- the last start is that of a later window, and this window adds nothing
        have hrest : (∃ w ∈ ck.windows text fuel (start + ck.step), w.1 ≤ p ∧ p < w.2) ↔
            ¬ ck.CutBefore text (start + ck.lastStart (p - start)) p :=
          ck.add_step_add_lastStart hfar ▸ ih (by omega) hfar
        refine (or_congr_right hrest).trans (or_iff_right_of_imp fun hp => ?_)
        exact ck.not_cutBefore_of_lt_windowEnd (Nat.le_add_right _ _) hp.2

/-! ## The chunks -/

/-- Position `p` of the document lies in one of the chunks. -/
def Covered (uuid4 : ℕ → PyStr) (document : ParsedDocument) (p : ℕ) : Prop :=
  ∃ c ∈ ck.chunk uuid4 document, c.startChar ≤ p ∧ p < c.endChar

/-- A non-whitespace position lies in a chunk exactly if it lies in a window: a window around it is
not blank. -/
theorem covered_iff_mem_windows (uuid4 : ℕ → PyStr) {document : ParsedDocument} {p : ℕ} {c : Char}
    (hc : document.content[p]? = some c) (htext : ¬ PyStr.isSpace c) :
    ck.Covered uuid4 document p ↔
      ∃ w ∈ ck.windows document.content document.content.length 0, w.1 ≤ p ∧ p < w.2 := by
  constructor
  · rintro ⟨ch, hch, hstart, hend⟩
    exact ⟨(ch.startChar, ch.endChar),
      ((ck.exists_chunk_iff uuid4 document _).mp ⟨ch, hch, rfl, rfl⟩).1, hstart, hend⟩
  · rintro ⟨w, hw, hstart, hend⟩
    -- the window is not blank: it has the character `c` in it
    have hasText : hasText document.content w := by
      rw [hasText, Bool.not_eq_true', List.isEmpty_eq_false_iff]
      intro hblank
      exact htext ((PyStr.strip_eq_nil_iff _).mp hblank c
        (PyStr.mem_slice_iff.mpr ⟨p, hstart, hend, hc⟩))
    obtain ⟨ch, hch, hs, he⟩ := (ck.exists_chunk_iff uuid4 document w).mpr ⟨hw, hasText⟩
    exact ⟨ch, hch, hs ▸ hstart, he ▸ hend⟩

/-- A non-whitespace position lies in a chunk exactly if the last window that starts at or before it
is not cut before it. -/
theorem covered_iff (uuid4 : ℕ → PyStr) {document : ParsedDocument} {p : ℕ} {c : Char}
    (hc : document.content[p]? = some c) (htext : ¬ PyStr.isSpace c) :
    ck.Covered uuid4 document p ↔ ¬ ck.CutBefore document.content (ck.lastStart p) p := by
  have hspace : document.content[p]? ≠ some ' ' := by
    intro hp
    obtain rfl : ' ' = c := Option.some.inj (hp.symm.trans hc)
    exact htext (by decide)
  rw [ck.covered_iff_mem_windows uuid4 hc htext,
    ck.mem_windows_iff (by omega) (Nat.zero_le p) (List.getElem?_eq_some_iff.mp hc).1 hspace,
    Nat.sub_zero, Nat.zero_add]

/-- A text that starts with a non-whitespace character has it in a chunk: the first window starts
there and is never cut before its own start. -/
theorem covered_zero (uuid4 : ℕ → PyStr) {document : ParsedDocument} {c : Char}
    (hc : document.content[0]? = some c) (htext : ¬ PyStr.isSpace c) :
    ck.Covered uuid4 document 0 := by
  refine (ck.covered_iff uuid4 hc htext).mpr ?_
  rintro ⟨-, ⟨i, -, hi, -⟩, -⟩
  exact Nat.not_lt_zero i hi

/-- The chunks cover every non-whitespace character of the document (`Covered`) exactly if no such
character is `CutBefore`, in the last window that starts at or before it: if it stands behind the
last space of this window, the window ends at that space, and the next one may start behind the
character. -/
theorem chunk_covers_iff (uuid4 : ℕ → PyStr) (document : ParsedDocument) :
    (∀ p c, document.content[p]? = some c → ¬ PyStr.isSpace c → ck.Covered uuid4 document p) ↔
      ∀ p c, document.content[p]? = some c → ¬ PyStr.isSpace c →
        ¬ ck.CutBefore document.content (ck.lastStart p) p :=
  forall₂_congr fun _ _ => forall₂_congr fun hc htext => ck.covered_iff uuid4 hc htext

/-- With windows of four characters and no overlap, the `c` of `ab cdefg` is lost: the first window
ends at the space, the second starts at the `d`, since its start was not moved with that end. -/
theorem abcdefg_not_covered :
    ∃ (ck : SlidingWindowChunker) (document : ParsedDocument) (p : ℕ) (c : Char),
      document.content[p]? = some c ∧ ¬ PyStr.isSpace c ∧
        ∀ uuid4 : ℕ → PyStr, ¬ ck.Covered uuid4 document p := by
  refine ⟨⟨1, 0, by decide⟩, ⟨"doc".toList, "ab cdefg".toList, [], []⟩, 3, 'c', by decide,
    by decide, ?_⟩
  rintro uuid4 ⟨ch, hch, hstart, hend⟩
  -- a chunk around position `3` would belong to one of the two windows
  have hw := ((exists_chunk_iff _ uuid4 _ (ch.startChar, ch.endChar)).mp ⟨ch, hch, rfl, rfl⟩).1
  have hwindows : windows ⟨1, 0, by decide⟩ "ab cdefg".toList 8 0 = [(0, 2), (4, 8)] := by decide
  rw [show "ab cdefg".toList.length = 8 from rfl, hwindows] at hw
  simp at hw
  omega

end SlidingWindowChunker
