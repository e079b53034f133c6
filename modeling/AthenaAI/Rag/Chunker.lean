import AthenaAI.Rag.Parser
import Mathlib.Data.List.Enum
import Mathlib.Tactic.Ring

/-!
# The sliding window chunker

`athenai.rag.chunker`. The loop of `chunk` visits windows of `4 * chunkSize` characters that start
`4 * (chunkSize - overlap)` apart; it pulls the end of a window back to the last space in it and
keeps the stripped text of every window that is not blank.

* `chunk` is the loop as the source has it, on a supply of chunk identifiers (`uuid4 k` is the
  `k`-th one drawn). Its recursion is bounded by the length of the text, which is enough:
  `chunkLoop_of_le` shows that a larger bound changes nothing.
* `windows` are the windows the loop visits, without the chunks; `chunkLoop_eq` reads the chunks
  off them.
* `windowEnd_cases` and `exists_chunk_iff` say how a window ends and which windows become chunks.
-/

/-- One window of a document. `startChar` and `endChar` are offsets into the parsed content. -/
structure Chunk where
  /-- A fresh UUID. -/
  chunkId : PyStr
  /-- The document the chunk belongs to. -/
  documentId : PyStr
  /-- The stripped text of the window. -/
  content : PyStr
  /-- The number of chunks before this one. -/
  chunkIndex : ℕ
  /-- Where the window starts. -/
  startChar : ℕ
  /-- Where the window ends. -/
  endChar : ℕ
  /-- The metadata of the document. -/
  metadata : PyDict

/-- A chunker the constructor accepts. -/
structure SlidingWindowChunker where
  /-- The size of a window, in tokens. -/
  chunkSize : ℕ
  /-- The overlap of consecutive windows, in tokens. -/
  overlap : ℕ
  /-- The constructor's check. -/
  overlap_lt : overlap < chunkSize

namespace SlidingWindowChunker

/-- Characters per token. -/
def charsPerToken : ℕ := 4

/-- The constructor. -/
def init (chunkSize : ℕ := 512) (overlap : ℕ := 64) : Except PyExc SlidingWindowChunker :=
  -- `if overlap >= chunk_size: raise`
  if h : chunkSize ≤ overlap then
    .error (.of .ValueError "overlap must be smaller than chunk_size".toList)
  else .ok ⟨chunkSize, overlap, not_le.mp h⟩

/-- `chunk_chars`: the characters of a full window. -/
def chunkChars (ck : SlidingWindowChunker) : ℕ := ck.chunkSize * charsPerToken

/-- `overlap_chars`. -/
def overlapChars (ck : SlidingWindowChunker) : ℕ := ck.overlap * charsPerToken

/-- `step`: the distance between window starts. -/
def step (ck : SlidingWindowChunker) : ℕ := ck.chunkChars - ck.overlapChars

/-- Where the window starting at `start` ends: pulled back to the last space after `start`, unless
the window reaches the end of the text. -/
def windowEnd (ck : SlidingWindowChunker) (text : PyStr) (start : ℕ) : ℕ :=
  let fullEnd := min (start + ck.chunkChars) text.length
  if fullEnd < text.length then
    -- `-1` if there is no space, and a space at `start` would make the window empty
    let boundary := text.rfind ' ' start fullEnd
    if boundary > start then boundary.toNat else fullEnd
  else fullEnd

/-- The `while` loop of `chunk`. -/
def chunkLoop (ck : SlidingWindowChunker) (uuid4 : ℕ → PyStr) (document : ParsedDocument) :
    (fuel start index : ℕ) → List Chunk
  | 0, _, _ => []
  | fuel + 1, start, index =>
    let text := document.content
    if start < text.length then
      let windowEnd := ck.windowEnd text start
      let chunkText := (text.slice start windowEnd).strip
      let blank := chunkText.isEmpty
      -- `break` after the window that reaches the end; else `start += step`, not `windowEnd`
      let rest :=
        if windowEnd ≥ text.length then []
        else ck.chunkLoop uuid4 document fuel (start + ck.step) (if blank then index else index + 1)
      -- a blank window makes no chunk and takes no index
      if blank then rest
      else
        { chunkId := uuid4 index
          documentId := document.documentId
          content := chunkText
          chunkIndex := index
          startChar := start
          endChar := windowEnd
          metadata := document.metadata } :: rest
    else []

/-- `SlidingWindowChunker.chunk`. -/
def chunk (ck : SlidingWindowChunker) (uuid4 : ℕ → PyStr) (document : ParsedDocument) :
    List Chunk :=
  if document.content.isEmpty then [] else ck.chunkLoop uuid4 document document.content.length 0 0

/-! ## The windows -/

/-- The windows the loop visits from `start` on, each with its start and its end. -/
def windows (ck : SlidingWindowChunker) (text : PyStr) : (fuel start : ℕ) → List (ℕ × ℕ)
  | 0, _ => []
  | fuel + 1, start =>
    if start < text.length then
      (start, ck.windowEnd text start) ::
        if ck.windowEnd text start ≥ text.length then []
        else ck.windows text fuel (start + ck.step)
    else []

/-- The stripped text of a window. -/
def windowText (text : PyStr) (w : ℕ × ℕ) : PyStr := (text.slice w.1 w.2).strip

/-- The chunk of the window `w` when `index` chunks come before it. -/
def chunkOf (uuid4 : ℕ → PyStr) (document : ParsedDocument) (index : ℕ) (w : ℕ × ℕ) : Chunk where
  chunkId := uuid4 index
  documentId := document.documentId
  content := windowText document.content w
  chunkIndex := index
  startChar := w.1
  endChar := w.2
  metadata := document.metadata

/-- The window has text in it. -/
def hasText (text : PyStr) (w : ℕ × ℕ) : Bool := !(windowText text w).isEmpty

variable (ck : SlidingWindowChunker)

/-- Past the end of the text the loop stops. -/
theorem chunkLoop_of_length_le (uuid4 : ℕ → PyStr) {document : ParsedDocument} {start : ℕ}
    (h : document.content.length ≤ start) (fuel index : ℕ) :
    ck.chunkLoop uuid4 document fuel start index = [] := by
  cases fuel with
  | zero => rfl
  | succ fuel => rw [chunkLoop, if_neg (not_lt.mpr h)]

/-- One iteration of the loop. -/
theorem chunkLoop_succ (uuid4 : ℕ → PyStr) {document : ParsedDocument} {start : ℕ}
    (h : start < document.content.length) (fuel index : ℕ) :
    let w := (start, ck.windowEnd document.content start)
    let text := hasText document.content w
    ck.chunkLoop uuid4 document (fuel + 1) start index =
      (if text then [chunkOf uuid4 document index w] else []) ++
        if w.2 ≥ document.content.length then []
        else ck.chunkLoop uuid4 document fuel (start + ck.step) (if text then index + 1 else index)
      := by
  intro w text
  rw [chunkLoop, if_pos h]
  -- the window makes a chunk unless its stripped text is empty
  by_cases hstrip : (document.content.slice start (ck.windowEnd document.content start)).strip = []
  · have htext : text = false := by simp [text, hasText, windowText, w, hstrip]
    simp [hstrip, htext, w]
  · have htext : text = true := by simp [text, hasText, windowText, w, hstrip]
    simp [hstrip, htext, w, chunkOf, windowText]

/-- The chunks are those of the visited windows that have text (`hasText`), numbered in order; a
blank window makes none and takes no number. -/
theorem chunkLoop_eq (uuid4 : ℕ → PyStr) (document : ParsedDocument) (fuel start index : ℕ) :
    ck.chunkLoop uuid4 document fuel start index =
      ((ck.windows document.content fuel start).filter (hasText document.content)).mapIdx
        fun k w => chunkOf uuid4 document (index + k) w := by
  induction fuel generalizing start index with
  | zero => rfl
  | succ fuel ih =>
    by_cases hstart : start < document.content.length
    · rw [chunkLoop_succ ck uuid4 hstart, windows, if_pos hstart, List.filter_cons]
      -- the rest of the loop, at whatever index the first window leaves
      have hrest (index : ℕ) :
          (if ck.windowEnd document.content start ≥ document.content.length then []
            else ck.chunkLoop uuid4 document fuel (start + ck.step) index) =
          ((if ck.windowEnd document.content start ≥ document.content.length then []
            else ck.windows document.content fuel (start + ck.step)).filter
              (hasText document.content)).mapIdx
                fun k w => chunkOf uuid4 document (index + k) w := by
        split_ifs
        · rfl
        · exact ih _ _
      rw [hrest]
      split_ifs <;> simp [List.mapIdx_cons, Nat.add_assoc, Nat.add_comm 1]
    · rw [chunkLoop_of_length_le ck uuid4 (not_lt.mp hstart), windows, if_neg hstart]
      rfl

/-! ## Where windows start and end -/

/-- The step of a `SlidingWindowChunker` is positive, by the checks of its constructor, so the loop
comes to an end. -/
theorem step_pos : 0 < ck.step :=
  Nat.sub_pos_of_lt (Nat.mul_lt_mul_of_pos_right ck.overlap_lt (by decide))

/-- The step is not longer than a window, so windows leave nothing out between them. -/
theorem step_le_chunkChars : ck.step ≤ ck.chunkChars := Nat.sub_le _ _

/-- How a window ends: at the end of the text, at the full width if there is no space after its
first character, or at the last such space. -/
theorem windowEnd_cases (text : PyStr) (start : ℕ) :
    (text.length ≤ start + ck.chunkChars ∧ ck.windowEnd text start = text.length) ∨
      (start + ck.chunkChars < text.length ∧
        ck.windowEnd text start = start + ck.chunkChars ∧
        ∀ p, start < p → p < start + ck.chunkChars → text[p]? ≠ some ' ') ∨
      (start + ck.chunkChars < text.length ∧
        ∃ b, ck.windowEnd text start = b ∧ start < b ∧ b < start + ck.chunkChars ∧
          text[b]? = some ' ' ∧
          ∀ p, b < p → p < start + ck.chunkChars → text[p]? ≠ some ' ') := by
  rcases le_or_gt text.length (start + ck.chunkChars) with hlast | hfull
  · left
    simp [windowEnd, hlast]
  · right
    -- the window is full, and the search for a space decides
    have hmin : min (start + ck.chunkChars) text.length = start + ck.chunkChars :=
      min_eq_left hfull.le
    simp only [windowEnd, hmin, hfull, if_true, true_and]
    rcases text.rfind_cases ' ' start (start + ck.chunkChars) with
      ⟨hval, hnone⟩ | ⟨b, hval, hsb, hb, hspace, hlast⟩
    · rw [hval, if_neg (by omega)]
      exact Or.inl ⟨rfl, fun p hp => hnone p hp.le⟩
    · rw [hval]
      rcases hsb.lt_or_eq with hlt | rfl
      · rw [if_pos (by exact_mod_cast hlt)]
        exact Or.inr ⟨b, rfl, hlt, hb, hspace, hlast⟩
      · -- the only space is at `start`: the window keeps its full width
        rw [if_neg (lt_irrefl _)]
        exact Or.inl ⟨rfl, hlast⟩

/-- No window starts before the loop does. -/
theorem le_start_of_mem_windows {text : PyStr} {fuel start : ℕ} {w : ℕ × ℕ}
    (hw : w ∈ ck.windows text fuel start) : start ≤ w.1 := by
  induction fuel generalizing start with
  | zero => exact absurd hw List.not_mem_nil
  | succ fuel ih =>
    rw [windows] at hw
    split_ifs at hw with hlt hend
    · rw [List.mem_singleton.mp hw]
    · rcases List.mem_cons.mp hw with rfl | hw
      · exact le_rfl
      · exact (Nat.le_add_right _ _).trans (ih hw)
    · exact absurd hw List.not_mem_nil

/-- A larger bound on the iterations changes nothing, if the given one is enough: the loop has
stopped by then. -/
theorem windows_of_le {text : PyStr} {fuel fuel' start : ℕ} (h : text.length ≤ start + fuel)
    (hle : fuel ≤ fuel') : ck.windows text fuel' start = ck.windows text fuel start := by
  induction fuel generalizing fuel' start with
  | zero =>
    cases fuel' with
    | zero => rfl
    | succ fuel' => rw [windows, windows, if_neg (by omega)]
  | succ fuel ih =>
    -- the next window starts later, so the bound on what is left goes down with the fuel
    obtain ⟨fuel', rfl⟩ : ∃ n, fuel' = n + 1 := ⟨fuel' - 1, by omega⟩
    have := ck.step_pos
    rw [windows, windows, ih (by omega) (by omega)]

/-- The bound `chunk` puts on its loop is enough: a larger one gives the same chunks. -/
theorem chunkLoop_of_le (uuid4 : ℕ → PyStr) (document : ParsedDocument) {fuel : ℕ}
    (hle : document.content.length ≤ fuel) :
    ck.chunkLoop uuid4 document fuel 0 0 =
      ck.chunkLoop uuid4 document document.content.length 0 0 := by
  rw [chunkLoop_eq, chunkLoop_eq, windows_of_le ck (by omega) hle]

/-- The chunks of a document, read off its windows. -/
theorem chunk_eq (uuid4 : ℕ → PyStr) (document : ParsedDocument) :
    ck.chunk uuid4 document =
      ((ck.windows document.content document.content.length 0).filter
        (hasText document.content)).mapIdx (chunkOf uuid4 document) := by
  unfold chunk
  by_cases hempty : document.content = []
  · rw [if_pos (by simp [hempty]), hempty]
    rfl
  · rw [if_neg (by simpa using hempty), chunkLoop_eq]
    simp

/-- What the chunker says about a text: the index and the content of each chunk. -/
def items (text : PyStr) : List (ℕ × PyStr) :=
  ((ck.windows text text.length 0).filter (hasText text)).mapIdx fun k w => (k, windowText text w)

/-- The chunks of a document carry the items of its text. -/
theorem map_chunk_eq_items (uuid4 : ℕ → PyStr) (document : ParsedDocument) :
    ((ck.chunk uuid4 document).map fun c => (c.chunkIndex, c.content)) =
      ck.items document.content := by
  rw [chunk_eq, items]
  refine List.ext_getElem (by simp) fun k _ _ => ?_
  simp [chunkOf]

/-- The chunks draw their identifiers in order. -/
theorem map_chunkId_chunk (uuid4 : ℕ → PyStr) (document : ParsedDocument) :
    (ck.chunk uuid4 document).map Chunk.chunkId =
      (List.range (ck.chunk uuid4 document).length).map uuid4 := by
  rw [chunk_eq]
  refine List.ext_getElem (by simp) fun k _ _ => ?_
  simp [chunkOf]

/-- Every chunk belongs to the document and carries its metadata. -/
theorem of_mem_chunk {uuid4 : ℕ → PyStr} {document : ParsedDocument} {c : Chunk}
    (hc : c ∈ ck.chunk uuid4 document) :
    c.documentId = document.documentId ∧ c.metadata = document.metadata := by
  rw [chunk_eq, List.mem_mapIdx] at hc
  obtain ⟨k, hk, rfl⟩ := hc
  exact ⟨rfl, rfl⟩

/-- There is a chunk for a window exactly if the loop visits the window and it has text. -/
theorem exists_chunk_iff (uuid4 : ℕ → PyStr) (document : ParsedDocument) (w : ℕ × ℕ) :
    (∃ c ∈ ck.chunk uuid4 document, c.startChar = w.1 ∧ c.endChar = w.2) ↔
      w ∈ ck.windows document.content document.content.length 0 ∧
        hasText document.content w := by
  rw [chunk_eq, ← List.mem_filter]
  simp only [List.mem_mapIdx]
  constructor
  · rintro ⟨c, ⟨k, hk, rfl⟩, hstart, hend⟩
    have hw : ((ck.windows document.content document.content.length 0).filter
        (hasText document.content))[k] = w := Prod.ext hstart hend
    exact hw ▸ List.getElem_mem hk
  · intro hw
    obtain ⟨k, hk, rfl⟩ := List.getElem_of_mem hw
    exact ⟨_, ⟨k, hk, rfl⟩, rfl, rfl⟩

end SlidingWindowChunker
