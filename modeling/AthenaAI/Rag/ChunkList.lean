import AthenaAI.Rag.Chunker

/-!
# The list of chunks

What the loop of `chunk` makes of any text, taken as a whole.

* `Loop` is the `while` loop of `chunk` as a relation: a run of it that comes to an end, and the
  chunks that it makes. `loop_chunk`: there is such a run for every document.
* `mem_windows_iff_visited`: the windows that the loop visits start at the multiples of the step
  that have more than an overlap of text after them, and at the first character.
* `windowEnd_mono`: a window that starts later does not end earlier. With `windows_sorted` this is
  the order of the chunks.
* `WellFormed` lists what holds of a list of chunks: their numbers, their bounds, their order and
  their texts. `chunk_wellFormed`: the chunks are numbered, in order and not blank.
-/

namespace SlidingWindowChunker

variable (ck : SlidingWindowChunker)

/-! ## The loop comes to an end -/

/-- What one iteration appends to `chunks`. -/
def appended (uuid4 : ℕ → PyStr) (document : ParsedDocument) (start index : ℕ) : List Chunk :=
  let w := (start, ck.windowEnd document.content start)
  if hasText document.content w then [chunkOf uuid4 document index w] else []

/-- The index after one iteration. -/
def nextIndex (document : ParsedDocument) (start index : ℕ) : ℕ :=
  if hasText document.content (start, ck.windowEnd document.content start) then index + 1
  else index

/-- The `while` loop ends when it begins with `start` and `index`, and has appended the chunks. -/
inductive Loop (uuid4 : ℕ → PyStr) (document : ParsedDocument) : ℕ → ℕ → List Chunk → Prop
  /-- The condition of the loop fails. -/
  | stop {start index : ℕ} (hstart : document.content.length ≤ start) :
      Loop uuid4 document start index []
  /-- The window reaches the end of the text. -/
  | last {start index : ℕ} (hstart : start < document.content.length)
      (hend : document.content.length ≤ ck.windowEnd document.content start) :
      Loop uuid4 document start index (ck.appended uuid4 document start index)
  /-- Another iteration follows. -/
  | next {start index : ℕ} {chunks : List Chunk} (hstart : start < document.content.length)
      (hend : ck.windowEnd document.content start < document.content.length)
      (hrest : Loop uuid4 document (start + ck.step) (ck.nextIndex document start index) chunks) :
      Loop uuid4 document start index (ck.appended uuid4 document start index ++ chunks)

/-- With enough fuel for the text that is left, `chunkLoop` makes the chunks of the `Loop` relation,
which has no fuel. By induction on the fuel. -/
theorem loop_chunkLoop (uuid4 : ℕ → PyStr) (document : ParsedDocument) {fuel start : ℕ}
    (hfuel : document.content.length ≤ start + fuel) (index : ℕ) :
    ck.Loop uuid4 document start index (ck.chunkLoop uuid4 document fuel start index) := by
  induction fuel generalizing start index with
  | zero =>
    rw [Nat.add_zero] at hfuel
    exact .stop hfuel
  | succ fuel ih =>
    rcases lt_or_ge start document.content.length with hstart | hstart
    · have hstep := ck.step_pos
      have hsucc : ck.chunkLoop uuid4 document (fuel + 1) start index =
          ck.appended uuid4 document start index ++
            if ck.windowEnd document.content start ≥ document.content.length then []
            else ck.chunkLoop uuid4 document fuel (start + ck.step)
              (ck.nextIndex document start index) := chunkLoop_succ ck uuid4 hstart fuel index
      rw [hsucc]
      split_ifs with hend
      · rw [List.append_nil]
        exact .last hstart hend
      · exact .next hstart (not_le.mp hend) (ih (by omega) _)
    · rw [chunkLoop_of_length_le ck uuid4 hstart]
      exact .stop hstart

/-- For every document the loop comes to an end, with the fuel that `chunk` gives it, and `chunk`
returns the chunks of the `Loop`. -/
theorem loop_chunk (uuid4 : ℕ → PyStr) (document : ParsedDocument) :
    ck.Loop uuid4 document 0 0 (ck.chunk uuid4 document) := by
  by_cases hempty : document.content = []
  · have hchunk : ck.chunk uuid4 document = [] := by simp [chunk, hempty]
    rw [hchunk]
    exact .stop (by simp [hempty])
  · have hchunk : ck.chunk uuid4 document =
        ck.chunkLoop uuid4 document document.content.length 0 0 := by simp [chunk, hempty]
    rw [hchunk]
    exact ck.loop_chunkLoop uuid4 document (by omega) 0

/-! ## Which windows are visited -/

/-- A window is a step and an overlap long: this is how the loop advances. -/
theorem step_add_overlapChars : ck.step + ck.overlapChars = ck.chunkChars :=
  Nat.sub_add_cancel (Nat.mul_le_mul_right _ ck.overlap_lt.le)

/-- A window has a character at least, is not wider than `chunkChars`, and ends within the text. -/
theorem windowEnd_bounds {text : PyStr} {s : ℕ} (hs : s < text.length) :
    s < ck.windowEnd text s ∧ ck.windowEnd text s ≤ s + ck.chunkChars ∧
      ck.windowEnd text s ≤ text.length := by
  have hwidth : 0 < ck.chunkChars := ck.step_pos.trans_le ck.step_le_chunkChars
  rcases ck.windowEnd_cases text s with ⟨hlast, hend⟩ | ⟨hfull, hend, -⟩ | ⟨hfull, b, hend, hb⟩
  · omega
  · omega
  · omega

/-- A window reaches the end of the text if its full width does. -/
theorem windowEnd_lt_iff {text : PyStr} {s : ℕ} (hs : s < text.length) :
    ck.windowEnd text s < text.length ↔ s + ck.chunkChars < text.length := by
  have hbounds := ck.windowEnd_bounds hs
  rcases ck.windowEnd_cases text s with ⟨hlast, hend⟩ | ⟨hfull, -⟩ | ⟨hfull, -⟩
  · omega
  · omega
  · omega

/-- The loop visits a window at `start`, and one at each multiple of the step behind it at which
more than an overlap of text is left. -/
theorem mem_windows_iff_visited {text : PyStr} {fuel start : ℕ} {w : ℕ × ℕ}
    (hfuel : text.length ≤ start + fuel) :
    w ∈ ck.windows text fuel start ↔ w.2 = ck.windowEnd text w.1 ∧ w.1 < text.length ∧
      (w.1 = start ∨ ∃ k, w.1 = start + (k + 1) * ck.step ∧ w.1 + ck.overlapChars < text.length)
    := by
  have hstep := ck.step_pos
  have hwidth := ck.step_add_overlapChars
  induction fuel generalizing start with
  | zero =>
    have hlate : ∀ k, start ≤ start + (k + 1) * ck.step := fun k => Nat.le_add_right _ _
    simp only [windows, List.not_mem_nil, false_iff, not_and]
    rintro - hlt (heq | ⟨k, heq, -⟩)
    · omega
    · have := hlate k
      omega
  | succ fuel ih =>
    rw [windows]
    split_ifs with hstart hlast
    -- the window reaches the end of the text, and no other one is visited
    · have hfull := mt (ck.windowEnd_lt_iff hstart).mpr (not_lt.mpr hlast)
      rw [List.mem_singleton]
      constructor
      · rintro rfl
        exact ⟨rfl, hstart, Or.inl rfl⟩
      · rintro ⟨hend, -, heq | ⟨k, heq, hlt⟩⟩
        · exact Prod.ext heq (by rw [hend, heq])
        · rw [Nat.succ_mul] at heq
          omega
    · have hfull := (ck.windowEnd_lt_iff hstart).mp (not_le.mp hlast)
      have hrest := @ih (start + ck.step) (by omega)
      refine List.mem_cons.trans ((or_congr_right hrest).trans ?_)
      constructor
      · rintro (rfl | ⟨hend, hlt, heq | ⟨k, heq, hover⟩⟩)
        · exact ⟨rfl, hstart, Or.inl rfl⟩
        · exact ⟨hend, hlt, Or.inr ⟨0, by omega, by omega⟩⟩
        · refine ⟨hend, hlt, Or.inr ⟨k + 1, ?_, hover⟩⟩
          rw [heq, Nat.succ_mul (k + 1)]
          omega
      · rintro ⟨hend, hlt, heq | ⟨k, heq, hover⟩⟩
        · exact Or.inl (Prod.ext heq (by rw [hend, heq]))
        · refine Or.inr ⟨hend, hlt, ?_⟩
          cases k with
          | zero => exact Or.inl (by omega)
          | succ k =>
            refine Or.inr ⟨k, ?_, hover⟩
            rw [heq, Nat.succ_mul (k + 1)]
            omega
    · refine iff_of_false List.not_mem_nil ?_
      rintro ⟨-, hlt, heq | ⟨k, heq, -⟩⟩
      · omega
      · omega

/-! ## The order of the windows -/

/-- The windows come in the order of their starts. -/
theorem windows_sorted (text : PyStr) (fuel start : ℕ) :
    (ck.windows text fuel start).Pairwise fun w w' => w.1 < w'.1 := by
  have hstep := ck.step_pos
  induction fuel generalizing start with
  | zero => exact List.Pairwise.nil
  | succ fuel ih =>
    rw [windows]
    split_ifs
    · exact List.pairwise_singleton _ _
    · refine List.pairwise_cons.mpr ⟨fun w hw => ?_, ih _⟩
      have hle := ck.le_start_of_mem_windows hw
      dsimp only
      omega
    · exact List.Pairwise.nil

/-- A window that starts later does not end earlier, though its end may be moved back to a space:
the space is in the later window too, or that one reaches beyond it. -/
theorem windowEnd_mono {text : PyStr} {s s' : ℕ} (hs : s ≤ s') (hs' : s' < text.length) :
    ck.windowEnd text s ≤ ck.windowEnd text s' := by
  have hbounds := ck.windowEnd_bounds (hs.trans_lt hs')
  have hbounds' := ck.windowEnd_bounds hs'
  rcases ck.windowEnd_cases text s' with
    ⟨-, hend'⟩ | ⟨-, hend', -⟩ | ⟨hfull', b', hend', hsb', hb', hspace', hnone'⟩
  · omega
  · omega
  -- the later window ends at a space
  · rcases ck.windowEnd_cases text s with
      ⟨hlast, -⟩ | ⟨-, hend, hnone⟩ | ⟨-, b, hend, hsb, hb, hspace, -⟩
    · omega
    · by_contra hlt
      exact hnone b' (by omega) (by omega) hspace'
    · by_contra hlt
      exact hnone' b (by omega) (by omega) hspace

/-! ## Well-formed lists -/

/-- The chunks are numbered, their windows are in order and within the text, and their contents are
the stripped texts of the windows. -/
structure WellFormed (text : PyStr) (chunks : List Chunk) : Prop where
  index : chunks.map Chunk.chunkIndex = List.range chunks.length
  starts : chunks.Pairwise fun c d => c.startChar < d.startChar
  ends : chunks.Pairwise fun c d => c.endChar ≤ d.endChar
  bounds : ∀ c ∈ chunks, c.startChar < c.endChar ∧ c.endChar ≤ text.length
  content : ∀ c ∈ chunks, c.content = (text.slice c.startChar c.endChar).strip
  content_ne_nil : ∀ c ∈ chunks, c.content ≠ []
  length_content : ∀ c ∈ chunks, c.content.length ≤ 4 * ck.chunkSize

/-- The windows of the chunks are, in order, those of the visited windows that have text
(`hasText`). -/
theorem map_chunk_eq (uuid4 : ℕ → PyStr) (document : ParsedDocument) :
    ((ck.chunk uuid4 document).map fun c => (c.startChar, c.endChar)) =
      (ck.windows document.content document.content.length 0).filter
        (hasText document.content) := by
  rw [chunk_eq]
  apply List.ext_getElem
  · simp
  · intro k _ _
    simp [chunkOf]

/-- For every document the loop of `chunk` ends (`Loop`), and its chunks are `WellFormed`: they are
numbered `0`, `1`, `2` and so on, their windows start one after the other, end no earlier than the
ones before and lie within the text, and their contents are the texts of the windows, stripped, not
empty and not longer than a window. -/
theorem chunk_wellFormed (uuid4 : ℕ → PyStr) (document : ParsedDocument) :
    ck.Loop uuid4 document 0 0 (ck.chunk uuid4 document) ∧
      ck.WellFormed document.content (ck.chunk uuid4 document) := by
  have hwindow : ∀ c ∈ ck.chunk uuid4 document,
      c.endChar = ck.windowEnd document.content c.startChar ∧
        c.startChar < document.content.length ∧
          hasText document.content (c.startChar, c.endChar) := by
    intro c hc
    obtain ⟨hw, htext⟩ := (ck.exists_chunk_iff uuid4 document (c.startChar, c.endChar)).mp
      ⟨c, hc, rfl, rfl⟩
    obtain ⟨hend, hstart, -⟩ := (ck.mem_windows_iff_visited (by omega)).mp hw
    exact ⟨hend, hstart, htext⟩
  have hcontent : ∀ c ∈ ck.chunk uuid4 document,
      c.content = (document.content.slice c.startChar c.endChar).strip := by
    intro c hc
    rw [chunk_eq, List.mem_mapIdx] at hc
    obtain ⟨k, hk, rfl⟩ := hc
    rfl
  have hstarts : (ck.chunk uuid4 document).Pairwise fun c d => c.startChar < d.startChar := by
    have hsorted := (ck.windows_sorted document.content document.content.length 0).sublist
      (List.filter_sublist (p := hasText document.content))
    rw [← map_chunk_eq ck uuid4] at hsorted
    rwa [List.pairwise_map] at hsorted
  refine ⟨ck.loop_chunk uuid4 document, ?_, hstarts, ?_, fun c hc => ?_, hcontent, fun c hc => ?_,
    fun c hc => ?_⟩
  · rw [chunk_eq]
    apply List.ext_getElem
    · simp
    · intro k _ _
      simp [chunkOf]
  · refine hstarts.imp_of_mem fun {c d} hc hd hlt => ?_
    rw [(hwindow c hc).1, (hwindow d hd).1]
    exact ck.windowEnd_mono hlt.le (hwindow d hd).2.1
  · obtain ⟨hend, hstart, -⟩ := hwindow c hc
    have hbounds := ck.windowEnd_bounds hstart
    rw [hend]
    exact ⟨hbounds.1, hbounds.2.2⟩
  · rw [hcontent c hc]
    simpa [hasText, windowText] using (hwindow c hc).2.2
  · obtain ⟨hend, hstart, -⟩ := hwindow c hc
    have hbounds := ck.windowEnd_bounds hstart
    have hwidth : ck.chunkChars = 4 * ck.chunkSize := Nat.mul_comm _ _
    rw [hcontent c hc]
    refine (PyStr.length_strip_le _).trans ?_
    rw [PyStr.slice, List.length_drop, List.length_take]
    omega

end SlidingWindowChunker
