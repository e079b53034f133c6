import AthenaAI.Python.Words
import AthenaAI.Rag.ChunkList
import Mathlib.Tactic.IntervalCases

/-!
# Words at the edges of chunks

What the chunks of a parsed document make of its words. In such a document every window has text
(`hasText_of_collapsed`), so a condition on the chunks is one on where windows start
(`forall_chunk_iff`).

* `windowEnd_edge`: a window ends at the end of the text, at a space, or after a run without one.
* `pointsAtContent_iff`: the offsets of the chunks are those of their contents, if and only if no
  window starts at a space.
* `splitsNoWord_iff`: no chunk starts or ends inside a word, if and only if no window starts inside
  one, in a document whose words are shorter than a window.
* `chunk_has_word`: a word of at most the overlap is in a chunk as a whole.
-/

namespace SlidingWindowChunker

open PyStr

variable (ck : SlidingWindowChunker) {text : PyStr} {s : ℕ}

/-! ## The windows of a collapsed text -/

/-- A window starts at `s`: at the beginning of the text, or where more than an overlap of text is
left after a number of steps. -/
def Starts (text : PyStr) (s : ℕ) : Prop :=
  ck.step ∣ s ∧ s < text.length ∧ (s = 0 ∨ s + ck.overlapChars < text.length)

/-- The loop visits exactly the windows that start at a multiple of the step, as `Starts` says, and
each ends where `windowEnd` puts its end. -/
theorem mem_windows_iff_starts {w : ℕ × ℕ} :
    w ∈ ck.windows text text.length 0 ↔ ck.Starts text w.1 ∧ w.2 = ck.windowEnd text w.1 := by
  have hstep := ck.step_pos
  rw [ck.mem_windows_iff_visited (by omega), Starts]
  constructor
  · rintro ⟨hend, hlt, hzero | ⟨k, hk, hover⟩⟩
    · exact ⟨⟨by simp [hzero], hlt, Or.inl hzero⟩, hend⟩
    · exact ⟨⟨⟨k + 1, by rw [hk, Nat.zero_add, Nat.mul_comm]⟩, hlt, Or.inr hover⟩, hend⟩
  · rintro ⟨⟨⟨k, hk⟩, hlt, hover⟩, hend⟩
    refine ⟨hend, hlt, ?_⟩
    cases k with
    | zero => exact Or.inl (by simpa using hk)
    | succ k =>
      refine Or.inr ⟨k, by rw [hk, Nat.zero_add, Nat.mul_comm], hover.resolve_left fun hzero => ?_⟩
      rw [hzero, Nat.mul_succ] at hk
      omega

/-- `windowEnd` is at the end of the text, at a space it was snapped back to, or `chunkChars` behind
the start after a run without a space. -/
theorem windowEnd_edge (text : PyStr) (s : ℕ) :
    ck.windowEnd text s = text.length ∨ text[ck.windowEnd text s]? = some ' ' ∨
      (ck.windowEnd text s = s + ck.chunkChars ∧
        ∀ p, s < p → p < ck.windowEnd text s → text[p]? ≠ some ' ') := by
  rcases ck.windowEnd_cases text s with ⟨-, hend⟩ | ⟨-, hend, hnone⟩ | ⟨-, b, hend, -, -, hb, -⟩
  · exact Or.inl hend
  · exact Or.inr (Or.inr ⟨hend, by rwa [hend]⟩)
  · exact Or.inr (Or.inl (by rwa [hend]))

/-- In a `Collapsed` text the last character of a window is no whitespace: two spaces never follow
each other, and the text ends in no space. -/
theorem nonSpace_pred_windowEnd (h : Collapsed text) (hs : s < text.length) :
    NonSpace text (ck.windowEnd text s - 1) := by
  have hbounds := ck.windowEnd_bounds hs
  rw [h.nonSpace_iff (by omega)]
  intro hspace
  -- after a space the text goes on with a word
  have hnext := h.next _ hspace
  rw [Nat.sub_add_cancel (by omega)] at hnext
  rcases ck.windowEnd_edge text s with hend | hend | ⟨hend, hnone⟩
  · exact absurd hnext.lt_length (by omega)
  · exact hnext.ne_space hend
  · have hwidth : 4 ≤ ck.chunkChars := Nat.le_mul_of_pos_left 4 (Nat.zero_lt_of_lt ck.overlap_lt)
    exact hnone _ (by omega) (by omega) hspace

/-- In a `Collapsed` text every window has text in it, so `chunk` skips none of them. -/
theorem hasText_of_collapsed (h : Collapsed text) (hs : s < text.length) :
    hasText text (s, ck.windowEnd text s) := by
  have hbounds := ck.windowEnd_bounds hs
  obtain ⟨c, hc, hspace⟩ := ck.nonSpace_pred_windowEnd h hs
  have hmem : c ∈ text.slice s (ck.windowEnd text s) :=
    mem_slice_iff.mpr ⟨_, by omega, by omega, hc⟩
  have hne : (text.slice s (ck.windowEnd text s)).strip ≠ [] := by
    intro hblank
    exact absurd ((strip_eq_nil_iff _).mp hblank c hmem) (by simp [hspace])
  simpa [hasText, windowText] using hne

/-- The chunks of a `Collapsed` document are those of the windows that `Starts` gives, so a
condition on all chunks is one on all starts. -/
theorem forall_chunk_iff {uuid4 : ℕ → PyStr} {document : ParsedDocument}
    (h : Collapsed document.content) {P : Chunk → Prop} {Q : ℕ → ℕ → Prop}
    (hPQ : ∀ c ∈ ck.chunk uuid4 document, P c ↔ Q c.startChar c.endChar) :
    (∀ c ∈ ck.chunk uuid4 document, P c) ↔
      ∀ s, ck.Starts document.content s → Q s (ck.windowEnd document.content s) := by
  constructor
  · intro hall s hs
    have hw := ck.mem_windows_iff_starts.mpr
      (⟨hs, rfl⟩ : ck.Starts _ (s, ck.windowEnd document.content s).1 ∧ _)
    obtain ⟨c, hc, rfl, hend⟩ := (ck.exists_chunk_iff uuid4 document _).mpr
      ⟨hw, ck.hasText_of_collapsed h hs.2.1⟩
    have hend : c.endChar = ck.windowEnd document.content c.startChar := hend
    rw [← hend]
    exact (hPQ c hc).mp (hall c hc)
  · intro hall c hc
    obtain ⟨hw, -⟩ := (ck.exists_chunk_iff uuid4 document (c.startChar, c.endChar)).mp
      ⟨c, hc, rfl, rfl⟩
    obtain ⟨hs, hend⟩ := ck.mem_windows_iff_starts.mp hw
    have hend : c.endChar = ck.windowEnd document.content c.startChar := hend
    rw [hPQ c hc, hend]
    exact hall _ hs

/-- What `DocumentParser.parse` returns is `Collapsed`: its whitespace runs are single spaces or
newlines, and none stands at either end. -/
theorem collapsed_of_parse {content documentId source : PyStr} {metadata : Option PyDict}
    {document : ParsedDocument}
    (h : DocumentParser.parse content documentId source metadata = .ok document) :
    Collapsed document.content := by
  obtain ⟨-, rfl⟩ := DocumentParser.parse_eq_ok_iff.mp h
  exact collapsed_join_split content

/-! ## Offsets -/

/-- The offsets of every chunk are those of its content. -/
def PointsAtContent (uuid4 : ℕ → PyStr) (document : ParsedDocument) : Prop :=
  ∀ c ∈ ck.chunk uuid4 document, document.content.slice c.startChar c.endChar = c.content

/-- A window keeps its text under `strip` exactly if it does not start at a space: at its other end
a `Collapsed` text has nothing to strip. -/
theorem windowText_eq_iff (h : Collapsed text) (hs : s < text.length) :
    text.slice s (ck.windowEnd text s) = windowText text (s, ck.windowEnd text s) ↔
      text[s]? ≠ some ' ' := by
  have hbounds := ck.windowEnd_bounds hs
  obtain ⟨c, hc⟩ : ∃ c, text[s]? = some c := ⟨_, List.getElem?_eq_getElem hs⟩
  have hhead : (text.slice s (ck.windowEnd text s))[0]? = some c := by
    rw [getElem?_slice, if_pos (by omega), Nat.add_zero, hc]
  constructor
  · intro heq hspace
    obtain rfl : c = ' ' := Option.some.inj (hc.symm.trans hspace)
    -- the space is stripped
    cases hslice : text.slice s (ck.windowEnd text s) with
    | nil => simp [hslice] at hhead
    | cons d rest =>
      obtain rfl : d = ' ' := by simpa [hslice] using hhead
      rw [windowText, hslice, strip_cons (by decide)] at heq
      have hlength := congrArg List.length heq
      have hle := length_strip_le rest
      rw [List.length_cons] at hlength
      omega
  · intro hne
    refine (strip_eq_self (fun d hd => ?_) fun d hd => ?_).symm
    · obtain rfl : c = d := by
        rw [List.head?_eq_getElem?, hhead] at hd
        exact Option.some.inj hd
      obtain ⟨e, he, hspace⟩ := (h.nonSpace_iff hs).mpr hne
      exact (Option.some.inj (hc.symm.trans he)) ▸ hspace
    · obtain ⟨e, he, hspace⟩ := ck.nonSpace_pred_windowEnd h hs
      have hlength : (text.slice s (ck.windowEnd text s)).length = ck.windowEnd text s - s := by
        rw [slice, List.length_drop, List.length_take, min_eq_left hbounds.2.2]
      rw [List.getLast?_eq_getElem?, hlength, getElem?_slice, if_pos (by omega),
        show s + (ck.windowEnd text s - s - 1) = ck.windowEnd text s - 1 by omega, he] at hd
      exact Option.some.inj hd ▸ hspace

/-- The offsets of the chunks of a parsed document are those of their contents (`PointsAtContent`),
if and only if there is no space at a multiple of the step with more than an overlap of text after
it. There a window starts, and `strip` takes the space off the content, while `start_char` still
counts it. -/
theorem pointsAtContent_iff {content documentId source : PyStr} {metadata : Option PyDict}
    {document : ParsedDocument} (uuid4 : ℕ → PyStr)
    (hparse : DocumentParser.parse content documentId source metadata = .ok document) :
    ck.PointsAtContent uuid4 document ↔ ∀ s, ck.step ∣ s →
      s + ck.overlapChars < document.content.length → document.content[s]? ≠ some ' ' := by
  have hcollapsed := collapsed_of_parse hparse
  have hcontent := (ck.chunk_wellFormed uuid4 document).2.content
  unfold PointsAtContent
  rw [ck.forall_chunk_iff hcollapsed (Q := fun s e => document.content.slice s e =
    windowText document.content (s, e)) fun c hc => by rw [hcontent c hc]; rfl]
  constructor
  · intro hall s hdvd hover
    have hs : s < document.content.length := by omega
    exact (ck.windowText_eq_iff hcollapsed hs).mp (hall s ⟨hdvd, hs, Or.inr hover⟩)
  · rintro hall s ⟨hdvd, hs, hzero | hover⟩
    · exact (ck.windowText_eq_iff hcollapsed hs).mpr (hzero ▸ hcollapsed.head)
    · exact (ck.windowText_eq_iff hcollapsed hs).mpr (hall s hdvd hover)

/-- Windows of four characters that do not overlap. -/
def fourWide : SlidingWindowChunker := ⟨1, 0, Nat.zero_lt_one⟩

/-- A parsed document of a text. -/
def parsed (text : PyStr) : ParsedDocument := ⟨"doc".toList, text, [], []⟩

/-- The second chunk of `abcd efg` is `efg`, and its offsets are those of the space and the word:
`strip` has taken off the space, and `start_char` is where the window starts. -/
theorem abcdSpaceEfg_not_pointsAtContent :
    DocumentParser.parse "abcd efg".toList "doc".toList = .ok (parsed "abcd efg".toList) ∧
      ∀ uuid4, ¬fourWide.PointsAtContent uuid4 (parsed "abcd efg".toList) := by
  have hparse : DocumentParser.parse "abcd efg".toList "doc".toList =
      .ok (parsed "abcd efg".toList) := rfl
  refine ⟨hparse, fun uuid4 hall => ?_⟩
  exact (fourWide.pointsAtContent_iff uuid4 hparse).mp hall 4 (by decide) (by decide) (by decide)

/-- `pointsAtContent_iff` for `abc defg`: the window that starts at a multiple of the step starts
with the second word, and not with a space. -/
theorem abcSpaceDefg_pointsAtContent :
    fourWide.PointsAtContent (fun _ => []) (parsed "abc defg".toList) := by
  have hparse : DocumentParser.parse "abc defg".toList "doc".toList =
      .ok (parsed "abc defg".toList) := rfl
  refine (fourWide.pointsAtContent_iff _ hparse).mpr ?_
  rintro s ⟨k, rfl⟩ hover
  have hlength : 4 * k + 0 < 8 := hover
  have hk : k < 2 := by omega
  interval_cases k <;> decide

/-! ## Words -/

/-- The text goes on with the same word at position `p`. -/
def Inside (text : PyStr) (p : ℕ) : Prop := ∃ q, q + 1 = p ∧ NonSpace text q ∧ NonSpace text p

/-- No chunk starts or ends inside a word. -/
def SplitsNoWord (uuid4 : ℕ → PyStr) (document : ParsedDocument) : Prop :=
  ∀ c ∈ ck.chunk uuid4 document,
    ¬Inside document.content c.startChar ∧ ¬Inside document.content c.endChar

/-- If every word is shorter than a window, no window ends `Inside` a word: there is a space to snap
back to. -/
theorem not_inside_windowEnd (h : Collapsed text)
    (hwords : ∀ a b, IsWord text a b → b - a < ck.chunkChars) :
    ¬Inside text (ck.windowEnd text s) := by
  rintro ⟨q, hq, hqspace, hspace⟩
  have hlength := hspace.lt_length
  rcases ck.windowEnd_edge text s with hend | hend | ⟨hend, hnone⟩
  · omega
  · exact hspace.ne_space hend
  -- the window is a run without a space, and the run goes on
  · have hrun : ∀ p, s + 1 ≤ p → p ≤ ck.windowEnd text s → NonSpace text p := by
      intro p hsp hp
      rcases hp.lt_or_eq with hlt | rfl
      · exact (h.nonSpace_iff (by omega)).mpr (hnone p hsp hlt)
      · exact hspace
    have hwidth := ck.step_pos.trans_le ck.step_le_chunkChars
    obtain ⟨a, b, hword, ha, hb⟩ := exists_isWord (by omega) hrun
    have hshort := hwords a b hword
    omega

/-- In a parsed document whose words are shorter than a window, no chunk starts or ends inside a
word (`SplitsNoWord`), if and only if no multiple of the step with more than an overlap of text
after it is `Inside` a word. Ends are moved to a space, and starts are where the step puts them. -/
theorem splitsNoWord_iff {content documentId source : PyStr} {metadata : Option PyDict}
    {document : ParsedDocument} (uuid4 : ℕ → PyStr)
    (hparse : DocumentParser.parse content documentId source metadata = .ok document)
    (hwords : ∀ a b, IsWord document.content a b → b - a < 4 * ck.chunkSize) :
    ck.SplitsNoWord uuid4 document ↔ ∀ s, ck.step ∣ s →
      s + ck.overlapChars < document.content.length → ¬Inside document.content s := by
  have hcollapsed := collapsed_of_parse hparse
  have hwidth : ck.chunkChars = 4 * ck.chunkSize := Nat.mul_comm _ _
  have hend (s : ℕ) : ¬Inside document.content (ck.windowEnd document.content s) :=
    ck.not_inside_windowEnd hcollapsed (hwidth ▸ hwords)
  unfold SplitsNoWord
  rw [ck.forall_chunk_iff hcollapsed (Q := fun s e => ¬Inside document.content s ∧
    ¬Inside document.content e) fun c _ => Iff.rfl]
  constructor
  · intro hall s hdvd hover
    exact (hall s ⟨hdvd, by omega, Or.inr hover⟩).1
  · rintro hall s ⟨hdvd, hs, rfl | hover⟩
    -- nothing is before the first character
    · exact ⟨fun ⟨q, hq, _⟩ => Nat.succ_ne_zero q hq, hend 0⟩
    · exact ⟨hall s hdvd hover, hend s⟩

/-- In a text of at most seven characters with a space in the middle, all words have fewer than four
characters. -/
theorem isWord_lt_four {p : ℕ} (hp : text[p]? = some ' ') (hlow : p < 4)
    (hhigh : text.length ≤ p + 4) {a b : ℕ} (hword : IsWord text a b) : b - a < 4 := by
  have hlt := hword.lt
  have hle := hword.le_length
  by_contra hlong
  exact (hword.nonSpace p (by omega) (by omega)).ne_space hp

/-- The second chunk of `ab cde`, in windows of four characters without an overlap, starts inside
the second word, though both words are shorter than a window. -/
theorem abSpaceCde_splits_word :
    DocumentParser.parse "ab cde".toList "doc".toList = .ok (parsed "ab cde".toList) ∧
      (∀ a b, IsWord "ab cde".toList a b → b - a < 4 * fourWide.chunkSize) ∧
        ∀ uuid4, ¬fourWide.SplitsNoWord uuid4 (parsed "ab cde".toList) := by
  have hparse : DocumentParser.parse "ab cde".toList "doc".toList =
      .ok (parsed "ab cde".toList) := rfl
  have hwords : ∀ a b, IsWord "ab cde".toList a b → b - a < 4 * fourWide.chunkSize :=
    fun a b => isWord_lt_four (p := 2) rfl (by decide) (by decide)
  refine ⟨hparse, hwords, fun uuid4 hall => ?_⟩
  have hedges := (fourWide.splitsNoWord_iff uuid4 hparse hwords).mp hall
  exact hedges 4 (by decide) (by decide) ⟨3, rfl, by decide, by decide⟩

/-- `splitsNoWord_iff` for `abc def` in windows of four characters: the second window starts at the
second word. -/
theorem abcSpaceDef_splitsNoWord :
    fourWide.SplitsNoWord (fun _ => []) (parsed "abc def".toList) := by
  have hparse : DocumentParser.parse "abc def".toList "doc".toList =
      .ok (parsed "abc def".toList) := rfl
  have hwords : ∀ a b, IsWord "abc def".toList a b → b - a < 4 * fourWide.chunkSize :=
    fun a b => isWord_lt_four (p := 3) rfl (by decide) (by decide)
  refine (fourWide.splitsNoWord_iff _ hparse hwords).mpr ?_
  rintro s ⟨k, rfl⟩ hover ⟨q, hq, hqspace, -⟩
  have hlength : 4 * k + 0 < 7 := hover
  have hstep : q + 1 = 4 * k := hq
  obtain rfl : q = 3 := by omega
  exact hqspace.ne_space rfl

/-- One of the windows ends at the end of the text, which is where the loop of `chunk` stops. -/
theorem exists_starts_windowEnd_eq (hne : text ≠ []) :
    ∃ s, ck.Starts text s ∧ ck.windowEnd text s = text.length := by
  have hstep := ck.step_pos
  have hwidth := ck.step_add_overlapChars
  have hlast : ∀ fuel start, start < text.length → text.length ≤ start + fuel →
      ∃ w ∈ ck.windows text fuel start, w.2 = text.length := by
    intro fuel
    induction fuel with
    | zero =>
      intro start hstart hfuel
      omega
    | succ fuel ih =>
      intro start hstart hfuel
      rw [windows, if_pos hstart]
      have hbounds := ck.windowEnd_bounds hstart
      by_cases hend : ck.windowEnd text start ≥ text.length
      · exact ⟨_, List.mem_cons_self, by dsimp only; omega⟩
      · have hfull := (ck.windowEnd_lt_iff hstart).mp (not_le.mp hend)
        obtain ⟨w, hw, hwend⟩ := ih (start + ck.step) (by omega) (by omega)
        rw [if_neg hend]
        exact ⟨w, List.mem_cons_of_mem _ hw, hwend⟩
  obtain ⟨w, hw, hwend⟩ := hlast text.length 0 (List.length_pos_iff.mpr hne) (by omega)
  obtain ⟨hs, heq⟩ := ck.mem_windows_iff_starts.mp hw
  exact ⟨w.1, hs, heq.symm.trans hwend⟩

/-- The last window that could start before a word of at most an overlap has the whole word in
it. -/
theorem le_windowEnd_of_isWord (h : Collapsed text) {a b : ℕ} (hword : IsWord text a b)
    (hshort : b - a ≤ ck.overlapChars) (has : a < s + ck.step) : b ≤ ck.windowEnd text s := by
  have hwidth := ck.step_add_overlapChars
  have hlt := hword.lt
  have hle := hword.le_length
  rcases ck.windowEnd_cases text s with
    ⟨-, hend⟩ | ⟨-, hend, -⟩ | ⟨hfull, e, hend, hse, he, hspace, hnone⟩
  · omega
  · omega
  -- the window ends at its last space, and there is a space after the word
  · by_contra hcut
    have hafter : text[b]? = some ' ' := by
      by_contra hne
      exact hword.after ((h.nonSpace_iff (by omega)).mpr hne)
    exact hnone b (by omega) (by omega) hafter

/-- A word that is no longer than the overlap lies whole within some window: the last one that
starts at or before it reaches its end. -/
theorem exists_starts_of_isWord (h : Collapsed text) {a b : ℕ} (hword : IsWord text a b)
    (hshort : b - a ≤ ck.overlapChars) :
    ∃ s, ck.Starts text s ∧ s ≤ a ∧ b ≤ ck.windowEnd text s := by
  have hstep := ck.step_pos
  have hlt := hword.lt
  have hle := hword.le_length
  have hmod := Nat.mod_lt a hstep
  have hmodle := Nat.mod_le a ck.step
  by_cases hs : ck.Starts text (a - a % ck.step)
  · exact ⟨_, hs, by omega, ck.le_windowEnd_of_isWord h hword hshort (by omega)⟩
  -- an earlier window is the last one
  · have hne : text ≠ [] := List.length_pos_iff.mp (by omega)
    obtain ⟨s, hstarts, hend⟩ := ck.exists_starts_windowEnd_eq hne
    refine ⟨s, hstarts, ?_, by omega⟩
    by_contra hsa
    obtain ⟨-, -, hzero | hover⟩ := hstarts
    · omega
    · exact hs ⟨Nat.dvd_sub_mod a, by omega, Or.inr (by omega)⟩

/-- What lies within a slice is an infix of it, so a word within a window is a part of the text of
its chunk. -/
theorem slice_isInfix {a b e : ℕ} (hsa : s ≤ a) (hbe : b ≤ e) :
    text.slice a b <:+: text.slice s e := by
  have hprefix : text.slice s b <+: text.slice s e := by
    rw [slice, slice, List.drop_take, List.drop_take]
    exact List.take_prefix_take_left (by omega)
  have hsuffix : text.slice a b <:+ text.slice s b := List.drop_suffix_drop_left _ hsa
  exact hsuffix.isInfix.trans hprefix.isInfix

/-- In a parsed document, every word of at most an overlap is in a chunk as a whole: there is a
chunk whose offsets enclose it and whose content has it. An overlap is `4 * overlap` characters, as
the chunker counts a token. -/
theorem chunk_has_word {content documentId source : PyStr} {metadata : Option PyDict}
    {document : ParsedDocument} (uuid4 : ℕ → PyStr)
    (hparse : DocumentParser.parse content documentId source metadata = .ok document) {a b : ℕ}
    (hword : IsWord document.content a b) (hshort : b - a ≤ 4 * ck.overlap) :
    ∃ c ∈ ck.chunk uuid4 document, c.startChar ≤ a ∧ b ≤ c.endChar ∧
      document.content.slice a b <:+: c.content := by
  have hcollapsed := collapsed_of_parse hparse
  have hwidth : ck.overlapChars = 4 * ck.overlap := Nat.mul_comm _ _
  obtain ⟨s, hs, hsa, hbe⟩ := ck.exists_starts_of_isWord hcollapsed hword (hwidth ▸ hshort)
  obtain ⟨c, hc, rfl, hend⟩ := (ck.exists_chunk_iff uuid4 document (s, _)).mpr
    ⟨ck.mem_windows_iff_starts.mpr ⟨hs, rfl⟩, ck.hasText_of_collapsed hcollapsed hs.2.1⟩
  have hend : c.endChar = ck.windowEnd document.content c.startChar := hend
  refine ⟨c, hc, hsa, hend ▸ hbe, ?_⟩
  rw [(ck.chunk_wellFormed uuid4 document).2.content c hc]
  refine isInfix_strip ?_ (fun d hd => ?_) (slice_isInfix hsa (hend ▸ hbe))
  · obtain ⟨d, hd, -⟩ := hword.nonSpace a le_rfl hword.lt
    exact List.ne_nil_of_mem (mem_slice_iff.mpr ⟨a, le_rfl, hword.lt, hd⟩)
  · obtain ⟨p, hap, hpb, hp⟩ := mem_slice_iff.mp hd
    obtain ⟨e, he, hspace⟩ := hword.nonSpace p hap hpb
    exact (Option.some.inj (hp.symm.trans he)) ▸ hspace

/-- `chunk_has_word` for the second word of `abcd efgh ijk`, in windows of eight characters that
overlap by four. -/
theorem efgh_in_chunk :
    ∃ c ∈ chunk ⟨2, 1, by decide⟩ (fun _ => []) (parsed "abcd efgh ijk".toList),
      c.startChar ≤ 5 ∧ 9 ≤ c.endChar ∧ "efgh".toList <:+: c.content := by
  have hparse : DocumentParser.parse "abcd efgh ijk".toList "doc".toList =
      .ok (parsed "abcd efgh ijk".toList) := rfl
  have hword : IsWord "abcd efgh ijk".toList 5 9 := by
    refine ⟨by decide, fun p hp hp' => ?_, fun p hp => ?_, by decide⟩
    · interval_cases p <;> decide
    · obtain rfl : p = 4 := by omega
      decide
  exact chunk_has_word ⟨2, 1, by decide⟩ (fun _ => []) hparse hword (by decide)

end SlidingWindowChunker
