import AthenaAI.Context.Ranking

/-!
# Cosine similarities

What `RelevanceRanker.rank` does where the arithmetic is that of the real numbers.

* `similarity` is the cosine of the angle between the embeddings of the query and of a chunk, and
  `0` for a chunk that is `Unscorable`. It is the score (`scoreOf_real`).
* `mem_rankPlaced_iff`: a chunk is returned exactly if few enough chunks come before it.
* `RankedLast`: chunks without an embedding come last, behind those that have one.
* `unscorable_rankedLast_iff`: this is so exactly if, whenever such a chunk is returned, there is no
  negative similarity.
-/

namespace RelevanceRanker

/-- The cosine similarity of a chunk to the query. -/
noncomputable def similarity (queryEmbedding : List ℝ) (chunk : CandidateChunk ℝ) : ℝ :=
  let v := chunk.embedding.getD []
  (List.zipWith (· * ·) queryEmbedding v).sum / (Numpy.real.norm queryEmbedding * Numpy.real.norm v)

/-- The chunk has no embedding, or a zero one. -/
def Unscorable (chunk : CandidateChunk ℝ) : Prop :=
  ∀ v, chunk.embedding = some v → ∀ x ∈ v, x = 0

/-- In the ranking no unscorable chunk comes before one with a similarity other than `0`, and with
an unscorable chunk all chunks that count are returned. -/
def RankedLast (str : PyValue → Except PyExc PyStr) (queryEmbedding : List ℝ)
    (chunks : List (CandidateChunk ℝ)) (topK : ℤ) (counts : CandidateChunk ℝ → Prop) : Prop :=
  ∀ placed, rankPlaced Numpy.real str queryEmbedding chunks topK = .ok placed →
    rank Numpy.real str queryEmbedding chunks topK = .ok (placed.map Prod.fst) ∧
      (placed.Pairwise fun x y => ∀ c c', chunks[x.2]? = some c → chunks[y.2]? = some c' →
        Unscorable c → ¬Unscorable c' → similarity queryEmbedding c' = 0) ∧
      ∀ x ∈ placed, ∀ c, chunks[x.2]? = some c → Unscorable c →
        ∀ j c', chunks[j]? = some c' → counts c' → j ∈ placed.map Prod.snd

/-- How many chunks come before one with similarity `0` in position `i`. -/
noncomputable def ahead (queryEmbedding : List ℝ) (chunks : List (CandidateChunk ℝ)) (i : ℕ) : ℕ :=
  OrderBy.place (similarity queryEmbedding) chunks 0 i

variable {str : PyValue → Except PyExc PyStr} {queryEmbedding : List ℝ}
  {chunks : List (CandidateChunk ℝ)} {chunk : CandidateChunk ℝ} {topK : ℤ}
  {placed : List (RankedChunk ℝ × ℕ)}

/-! ## The scores -/

/-- Scaling two vectors scales the sum of the products. -/
theorem sumProducts_scale (u v : List ℝ) (a b : ℝ) :
    Numpy.real.sumProducts (Numpy.real.scale u a) (Numpy.real.scale v b) =
      (List.zipWith (· * ·) u v).sum / (a * b) := by
  simp only [Numpy.scale, Numpy.real]
  induction u generalizing v with
  | nil => simp
  | cons x u ih =>
    cases v with
    | nil => simp
    | cons y v =>
      simp only [List.map_cons, List.zipWith_cons_cons, List.sum_cons, ih, add_div,
        div_mul_div_comm]

/-- A chunk without an embedding, or with one of length zero, has the similarity zero to every
query. -/
theorem similarity_of_unscorable (queryEmbedding : List ℝ) (h : Unscorable chunk) :
    similarity queryEmbedding chunk = 0 := by
  have hnorm : Numpy.real.norm (chunk.embedding.getD []) = 0 := by
    rw [Numpy.norm_real_eq_zero_iff]
    cases hembedding : chunk.embedding with
    | none => exact List.forall_mem_nil _
    | some v => exact h v hembedding
  rw [similarity, hnorm, mul_zero, div_zero]

/-- In real arithmetic the score of an `Aligned` chunk is its `similarity` to the query, which is
zero for a chunk without an embedding. -/
theorem scoreOf_real (haligned : Aligned Numpy.real queryEmbedding chunk) :
    scoreOf Numpy.real (unit Numpy.real queryEmbedding) chunk.embedding =
      .ok (similarity queryEmbedding chunk) := by
  cases hembedding : chunk.embedding with
  | none =>
    rw [similarity_of_unscorable queryEmbedding fun v hv => by simp [hembedding] at hv]
    rfl
  | some v =>
    simp only [scoreOf, Numpy.array_real, PyFloat.value_real_eq_zero_iff]
    split_ifs with hnorm
    · have hzero : Unscorable chunk := fun w hw => by
        obtain rfl := Option.some.inj (hembedding.symm.trans hw)
        exact Numpy.norm_real_eq_zero_iff.mp hnorm
      rw [similarity_of_unscorable queryEmbedding hzero]
    · have hlength := haligned v hembedding
        (by rwa [Numpy.array_real, Ne, PyFloat.value_real_eq_zero_iff])
      rw [Numpy.dot, if_pos (by simp [unit, hlength]), unit, Numpy.array_real, sumProducts_scale,
        similarity, hembedding]
      rfl

/-- The rows of the ranking have the similarities as their scores, chunk by chunk. -/
theorem map_score_of_forall₂ {rows : List (RankedChunk ℝ)}
    (haligned : ∀ c ∈ chunks, Aligned Numpy.real queryEmbedding c)
    (hrows : List.Forall₂ (fun chunk ranked =>
      scored Numpy.real str (unit Numpy.real queryEmbedding) chunk = .ok ranked) chunks rows) :
    rows.map RankedChunk.score = chunks.map (similarity queryEmbedding) := by
  induction hrows with
  | nil => rfl
  | @cons chunk ranked chunks rows hscored _ ih =>
    obtain ⟨hchunk, hchunks⟩ := List.forall_mem_cons.mp haligned
    have hscore := (scored_eq_ok_iff.mp hscored).2
    rw [scoreOf_real hchunk] at hscore
    rw [List.map_cons, List.map_cons, ih hchunks, Except.ok.inj hscore]

/-! ## The returned chunks -/

/-- The ranking takes the first rows in the stable order of their scores (`OrderBy.placed`), and
these scores are the similarities. -/
theorem exists_rows_of_rankPlaced (haligned : ∀ c ∈ chunks, Aligned Numpy.real queryEmbedding c)
    (hplaced : rankPlaced Numpy.real str queryEmbedding chunks topK = .ok placed) :
    ∃ rows : List (RankedChunk ℝ),
      rows.map RankedChunk.score = chunks.map (similarity queryEmbedding) ∧
        placed = (OrderBy.placed RankedChunk.score rows).take (stop topK chunks.length) := by
  obtain ⟨rows, hrows, rfl⟩ := rankPlaced_eq_ok_iff.mp hplaced
  refine ⟨rows, map_score_of_forall₂ haligned hrows, ?_⟩
  rw [FloatSort.sorted_real, upTo, OrderBy.length_placed, hrows.length_eq]

/-- The score beside a position is the similarity of the chunk there. -/
theorem score_eq_of_mem_placed {rows : List (RankedChunk ℝ)} {x : RankedChunk ℝ × ℕ}
    (hscores : rows.map RankedChunk.score = chunks.map (similarity queryEmbedding))
    (hx : x ∈ OrderBy.placed RankedChunk.score rows) (hchunk : chunks[x.2]? = some chunk) :
    x.1.score = similarity queryEmbedding chunk := by
  have hsome := congrArg (·[x.2]?) hscores
  simp only [List.getElem?_map, OrderBy.mem_placed_iff.mp hx, hchunk, Option.map_some] at hsome
  exact Option.some.inj hsome

/-- Every chunk has a row. -/
theorem exists_mem_placed {rows : List (RankedChunk ℝ)} {j : ℕ}
    (hscores : rows.map RankedChunk.score = chunks.map (similarity queryEmbedding))
    (hj : chunks[j]? = some chunk) : ∃ r, (r, j) ∈ OrderBy.placed RankedChunk.score rows := by
  have hlength : rows.length = chunks.length := by
    rw [← List.length_map, hscores, List.length_map]
  obtain ⟨hlt, -⟩ := List.getElem?_eq_some_iff.mp hj
  exact ⟨_, OrderBy.mem_placed_iff.mpr (List.getElem?_eq_getElem (hlength ▸ hlt))⟩

/-- A chunk is returned exactly if its place in the stable order (`OrderBy.place`) is before the cut
(`stop`). -/
theorem mem_rankPlaced_iff {j : ℕ}
    (haligned : ∀ c ∈ chunks, Aligned Numpy.real queryEmbedding c)
    (hplaced : rankPlaced Numpy.real str queryEmbedding chunks topK = .ok placed)
    (hj : chunks[j]? = some chunk) :
    j ∈ placed.map Prod.snd ↔
      OrderBy.place (similarity queryEmbedding) chunks (similarity queryEmbedding chunk) j <
        stop topK chunks.length := by
  obtain ⟨rows, hscores, rfl⟩ := exists_rows_of_rankPlaced haligned hplaced
  obtain ⟨r, hmem⟩ := exists_mem_placed hscores hj
  have hr := OrderBy.mem_placed_iff.mp hmem
  have hplace : (r, j) ∈ (OrderBy.placed RankedChunk.score rows).take (stop topK chunks.length) ↔
      OrderBy.place RankedChunk.score rows r.score j < stop topK chunks.length :=
    OrderBy.mem_take_placed_iff hr
  rw [← OrderBy.place_id_map, hscores, OrderBy.place_id_map, score_eq_of_mem_placed hscores hmem hj]
    at hplace
  rw [← hplace, List.mem_map]
  constructor
  · rintro ⟨⟨r', _⟩, htake, rfl⟩
    have hr' := OrderBy.mem_placed_iff.mp (List.mem_of_mem_take htake)
    rwa [show r = r' from Option.some.inj (hr.symm.trans hr')]
  · exact fun htake => ⟨_, htake, rfl⟩

/-- A chunk with similarity `0` is returned exactly if there is room behind those `ahead` of it: the
chunks with a positive similarity, and those with `0` that were given before it. -/
theorem mem_rankPlaced_iff_ahead {i : ℕ}
    (haligned : ∀ c ∈ chunks, Aligned Numpy.real queryEmbedding c)
    (hplaced : rankPlaced Numpy.real str queryEmbedding chunks topK = .ok placed)
    (hi : chunks[i]? = some chunk) (hzero : similarity queryEmbedding chunk = 0) :
    i ∈ placed.map Prod.snd ↔ ahead queryEmbedding chunks i < stop topK chunks.length := by
  rw [mem_rankPlaced_iff haligned hplaced hi, hzero, ahead]

/-- With a chunk all those with a greater similarity are returned, since they come before it. -/
theorem mem_rankPlaced_of_lt {i j : ℕ} {c c' : CandidateChunk ℝ}
    (haligned : ∀ c ∈ chunks, Aligned Numpy.real queryEmbedding c)
    (hplaced : rankPlaced Numpy.real str queryEmbedding chunks topK = .ok placed)
    (hi : chunks[i]? = some c) (hj : chunks[j]? = some c')
    (hlt : similarity queryEmbedding c < similarity queryEmbedding c')
    (hmem : i ∈ placed.map Prod.snd) : j ∈ placed.map Prod.snd := by
  obtain ⟨rows, hscores, rfl⟩ := exists_rows_of_rankPlaced haligned hplaced
  obtain ⟨x, hx, rfl⟩ := List.mem_map.mp hmem
  obtain ⟨r, hr⟩ := exists_mem_placed hscores hj
  have hbefore : OrderBy.Before RankedChunk.score (r, j) x := by
    refine .inl ?_
    rwa [score_eq_of_mem_placed hscores (List.mem_of_mem_take hx) hi,
      score_eq_of_mem_placed hscores hr hj]
  exact List.mem_map.mpr ⟨_, OrderBy.mem_take_of_before hx hr hbefore, rfl⟩

/-! ## Chunks without an embedding -/

/-- An unscorable chunk comes before one with another similarity than `0` exactly if it is returned
together with one that has a negative similarity. -/
theorem pairwise_rankPlaced_iff (haligned : ∀ c ∈ chunks, Aligned Numpy.real queryEmbedding c)
    (hplaced : rankPlaced Numpy.real str queryEmbedding chunks topK = .ok placed) :
    (placed.Pairwise fun x y => ∀ c c', chunks[x.2]? = some c → chunks[y.2]? = some c' →
        Unscorable c → ¬Unscorable c' → similarity queryEmbedding c' = 0) ↔
      ∀ i ∈ placed.map Prod.snd, ∀ c, chunks[i]? = some c → Unscorable c →
        ∀ j ∈ placed.map Prod.snd, ∀ c', chunks[j]? = some c' →
          0 ≤ similarity queryEmbedding c' := by
  obtain ⟨rows, hscores, rfl⟩ := exists_rows_of_rankPlaced haligned hplaced
  have hscore {x : RankedChunk ℝ × ℕ} {c : CandidateChunk ℝ}
      (hx : x ∈ (OrderBy.placed RankedChunk.score rows).take (stop topK chunks.length))
      (hc : chunks[x.2]? = some c) : x.1.score = similarity queryEmbedding c :=
    score_eq_of_mem_placed hscores (List.mem_of_mem_take hx) hc
  have hordered := (OrderBy.pairwise_placed RankedChunk.score rows).sublist
    (List.take_sublist (stop topK chunks.length) _)
  rw [List.pairwise_iff_forall_of_asymm (fun _ _ => OrderBy.Before.asymm) hordered]
  simp only [List.forall_mem_map]
  constructor
  · intro hpairwise x hx c hc hunscorable y hy c' hc'
    by_contra hneg
    have hlt := not_le.mp hneg
    have hscorable : ¬Unscorable c' := fun h => hlt.ne (similarity_of_unscorable queryEmbedding h)
    refine hlt.ne (hpairwise x hx y hy (.inl ?_) c c' hc hc' hunscorable hscorable)
    rwa [hscore hx hc, hscore hy hc', similarity_of_unscorable queryEmbedding hunscorable]
  · intro hnonneg x hx y hy hbefore c c' hc hc' hunscorable _
    refine le_antisymm ?_ (hnonneg x hx c hc hunscorable y hy c' hc')
    rw [← similarity_of_unscorable queryEmbedding hunscorable, ← hscore hx hc,
      ← hscore hy hc']
    exact hbefore.elim le_of_lt fun heq => heq.1.ge

/-- Unscorable chunks come last in a ranking exactly if, with one of them, there is no negative
similarity and there is room for the chunks with similarity `0`. -/
theorem rankedLast_placed_iff {counts : CandidateChunk ℝ → Prop}
    (hcounts : ∀ c, similarity queryEmbedding c ≠ 0 → counts c)
    (haligned : ∀ c ∈ chunks, Aligned Numpy.real queryEmbedding c)
    (hplaced : rankPlaced Numpy.real str queryEmbedding chunks topK = .ok placed) :
    ((placed.Pairwise fun x y => ∀ c c', chunks[x.2]? = some c → chunks[y.2]? = some c' →
        Unscorable c → ¬Unscorable c' → similarity queryEmbedding c' = 0) ∧
      ∀ x ∈ placed, ∀ c, chunks[x.2]? = some c → Unscorable c →
        ∀ j c', chunks[j]? = some c' → counts c' → j ∈ placed.map Prod.snd) ↔
      ∀ i ∈ placed.map Prod.snd, ∀ c, chunks[i]? = some c → Unscorable c →
        (∀ c' ∈ chunks, 0 ≤ similarity queryEmbedding c') ∧
          ∀ j c', chunks[j]? = some c' → counts c' → similarity queryEmbedding c' = 0 →
            ahead queryEmbedding chunks j < stop topK chunks.length := by
  rw [pairwise_rankPlaced_iff haligned hplaced]
  constructor
  · rintro ⟨hpairwise, hall⟩ i hi c hc hunscorable
    obtain ⟨x, hx, rfl⟩ := List.mem_map.mp hi
    have hreturned := hall x hx c hc hunscorable
    constructor
    · intro c' hc'
      obtain ⟨j, hj⟩ := List.getElem?_of_mem hc'
      by_contra hneg
      have hj' := hreturned j c' hj (hcounts c' (not_le.mp hneg).ne)
      exact hneg (hpairwise _ hi c hc hunscorable j hj' c' hj)
    · intro j c' hj hc' hzero
      exact (mem_rankPlaced_iff_ahead haligned hplaced hj hzero).mp (hreturned j c' hj hc')
  · intro hcondition
    constructor
    · intro i hi c hc hunscorable j _ c' hc'
      exact (hcondition i hi c hc hunscorable).1 c' (List.mem_of_getElem? hc')
    · intro x hx c hc hunscorable j c' hc' hcount
      have hi : x.2 ∈ placed.map Prod.snd := List.mem_map_of_mem hx
      obtain ⟨hnonneg, hzero⟩ := hcondition x.2 hi c hc hunscorable
      rcases (hnonneg c' (List.mem_of_getElem? hc')).lt_or_eq with hlt | heq
      · refine mem_rankPlaced_of_lt haligned hplaced hc hc' ?_ hi
        rwa [similarity_of_unscorable queryEmbedding hunscorable]
      · exact (mem_rankPlaced_iff_ahead haligned hplaced hc' heq.symm).mpr
          (hzero j c' hc' hcount heq.symm)

/-- When unscorable chunks are `RankedLast`, in terms of the similarities: for any choice of the
chunks that `count`, if these are at least those with a similarity other than `0`. -/
theorem rankedLast_iff {counts : CandidateChunk ℝ → Prop}
    (hcounts : ∀ c, similarity queryEmbedding c ≠ 0 → counts c)
    (hquery : ∃ x ∈ queryEmbedding, x ≠ 0)
    (haligned : ∀ c ∈ chunks, Aligned Numpy.real queryEmbedding c) :
    RankedLast str queryEmbedding chunks topK counts ↔
      ((∀ c ∈ chunks, ∃ s, str c.content = .ok s) →
        ∀ i c, chunks[i]? = some c → Unscorable c →
          ahead queryEmbedding chunks i < stop topK chunks.length →
            (∀ c' ∈ chunks, 0 ≤ similarity queryEmbedding c') ∧
              ∀ j c', chunks[j]? = some c' → counts c' → similarity queryEmbedding c' = 0 →
                ahead queryEmbedding chunks j < stop topK chunks.length) := by
  have hzero : ¬IsZero Numpy.real queryEmbedding := by
    rw [isZero_real_iff]
    simpa using hquery
  constructor
  · intro hlast hstr i c hc hunscorable hahead
    obtain ⟨placed, hplaced⟩ :=
      (exists_rankPlaced_eq_ok_iff topK).mpr fun c hc => ⟨hstr c hc, haligned c hc⟩
    have hzero := similarity_of_unscorable queryEmbedding hunscorable
    have hi := (mem_rankPlaced_iff_ahead haligned hplaced hc hzero).mpr hahead
    exact (rankedLast_placed_iff hcounts haligned hplaced).mp (hlast placed hplaced).2 i hi c hc
      hunscorable
  · intro hcondition placed hplaced
    have hchunks := (exists_rankPlaced_eq_ok_iff topK).mp ⟨placed, hplaced⟩
    refine ⟨?_, (rankedLast_placed_iff hcounts haligned hplaced).mpr ?_⟩
    · rw [rank_eq_rankPlaced hzero, hplaced]
      rfl
    · intro i hi c hc hunscorable
      have hzero := similarity_of_unscorable queryEmbedding hunscorable
      exact hcondition (fun c hc => (hchunks c hc).1) i c hc hunscorable
        ((mem_rankPlaced_iff_ahead haligned hplaced hc hzero).mp hi)

/-- Two readings of `RankedLast`. If the chunks that have to be returned along with an unscorable
one are those with a similarity other than `0`: it holds exactly if no similarity is negative as
soon as an unscorable chunk is returned, that is, fewer than `top_k` are `ahead` of it. If they are
all chunks with an embedding that is not zero: exactly if then, moreover, those with similarity `0`
are returned, too. -/
theorem unscorable_rankedLast_iff (str : PyValue → Except PyExc PyStr) (queryEmbedding : List ℝ)
    (chunks : List (CandidateChunk ℝ)) (topK : ℤ) (hquery : ∃ x ∈ queryEmbedding, x ≠ 0)
    (haligned : ∀ c ∈ chunks, Aligned Numpy.real queryEmbedding c) :
    (RankedLast str queryEmbedding chunks topK (fun c => similarity queryEmbedding c ≠ 0) ↔
      ((∀ c ∈ chunks, ∃ s, str c.content = .ok s) →
        ∀ i c, chunks[i]? = some c → Unscorable c →
          ahead queryEmbedding chunks i < stop topK chunks.length →
            ∀ c' ∈ chunks, 0 ≤ similarity queryEmbedding c')) ∧
    (RankedLast str queryEmbedding chunks topK (fun c => ¬Unscorable c) ↔
      ((∀ c ∈ chunks, ∃ s, str c.content = .ok s) →
        ∀ i c, chunks[i]? = some c → Unscorable c →
          ahead queryEmbedding chunks i < stop topK chunks.length →
            (∀ c' ∈ chunks, 0 ≤ similarity queryEmbedding c') ∧
              ∀ j c', chunks[j]? = some c' → ¬Unscorable c' → similarity queryEmbedding c' = 0 →
                ahead queryEmbedding chunks j < stop topK chunks.length)) := by
  have hscorable (c : CandidateChunk ℝ) (h : similarity queryEmbedding c ≠ 0) : ¬Unscorable c :=
    fun hc => h (similarity_of_unscorable queryEmbedding hc)
  constructor
  · refine (rankedLast_iff (fun _ h => h) hquery haligned).trans ?_
    refine imp_congr_right fun _ => forall₄_congr fun i c _ _ => imp_congr_right fun _ => ?_
    -- no chunk with similarity `0` counts
    exact and_iff_left fun j c' _ hne hzero => absurd hzero hne
  · exact rankedLast_iff hscorable hquery haligned

/-- `unscorable_rankedLast_iff` for a chunk without an embedding, and one that points in the
direction of the query: no similarity is negative, so the former comes last. -/
theorem unscorable_rankedLast_two :
    RankedLast (fun v => .ok v.text) [1] [⟨[], none⟩, ⟨[], some [2]⟩] 5
      (fun c => similarity [1] c ≠ 0) := by
  refine (unscorable_rankedLast_iff _ _ _ _ ⟨1, by simp⟩ ?_).1.mpr fun _ _ _ _ _ _ => ?_
  · simp [Aligned]
  · simp [similarity, Numpy.real]

/-- A chunk that points in the opposite direction has the similarity `-1`, and comes behind one
without an embedding, which has the similarity `0`. -/
theorem opposite_not_rankedLast :
    ¬RankedLast (fun v => .ok v.text) [1] [⟨[], none⟩, ⟨[], some [-1]⟩] 5
      (fun c => similarity [1] c ≠ 0) := by
  rw [rankedLast_iff (fun _ h => h) ⟨1, by simp⟩ (by simp [Aligned])]
  intro hcondition
  have hopposite : similarity [1] ⟨[], some [-1]⟩ = -1 := by simp [similarity, Numpy.real]
  have habsent : similarity [1] ⟨[], none⟩ = 0 := by simp [similarity]
  have hahead : ahead [1] [⟨[], none⟩, ⟨[], some [-1]⟩] 0 < stop 5 2 := by
    simp [ahead, OrderBy.place, hopposite, habsent, stop]
  obtain ⟨hnonneg, -⟩ := hcondition (fun _ _ => ⟨_, rfl⟩) 0 _ rfl (by simp [Unscorable]) hahead
  have hle := hnonneg ⟨[], some [-1]⟩ (by simp)
  rw [hopposite] at hle
  exact absurd hle (by norm_num)

end RelevanceRanker
