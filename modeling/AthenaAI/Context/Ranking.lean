import AthenaAI.Python.FloatSort
import AthenaAI.Python.Value
import AthenaAI.ToMathlib.Except
import Mathlib.Analysis.Real.Sqrt

/-!
# Relevance ranking

`athenai.context.ranking`. `RelevanceRanker.rank` scores chunks by their cosine similarity to a
query, sorts them and returns the first ones.

The arithmetic is a parameter. A number that is finite as a Python float can be infinite as a
`float32`, the quotient of two infinite ones is a NaN, and with a NaN no comparison holds, so the
floats are those of `PyFloat` and the sort is that of `FloatSort`.

* `Numpy` is the arithmetic of numpy, and `Numpy.real` that of the real numbers.
* `rank` is the ranking. `rankPlaced` is the same for a query that is not zero, with the position of
  its chunk beside every entry (`rank_eq_rankPlaced`).
* `Aligned` says that the embedding of a chunk, unless it is zero, has as many components as the
  query, and `Comparable` that their normed product is a number. `lookedAt` are the chunks whose
  contents a ranking reads.
* `RanksAll`: the ranking returns as many chunks as it can, each of them once and in the order of
  their scores.
* `ranksAll_iff`: this is so, however `list.sort` treats a NaN, exactly if the contents have a text
  and, unless the query is zero, all chunks are aligned and, if two are returned, comparable.
-/

/-- The arithmetic of numpy: `X` are the numbers of an embedding, `F` the floats. -/
structure Numpy (X F : Type) where
  /-- A number as a `float32`. -/
  float32 : X → F
  /-- `np.linalg.norm(v)`. -/
  norm : List F → F
  /-- `x / y`. -/
  div : F → F → F
  /-- The sum of the products of the components of two arrays of the same length. -/
  sumProducts : List F → List F → F

namespace Numpy

variable {X F : Type} (numpy : Numpy X F)

/-- `np.array(xs, dtype=np.float32)`. -/
def array (xs : List X) : List F := xs.map numpy.float32

/-- `v / x`. -/
def scale (v : List F) (x : F) : List F := v.map (numpy.div · x)

/-- `np.dot(u, v)`. -/
def dot (u v : List F) : Except PyExc F :=
  let m := PyStr.ofInt u.length
  let n := PyStr.ofInt v.length
  if u.length = v.length then .ok (numpy.sumProducts u v)
  else
    .error (.of .ValueError ("shapes (".toList ++ m ++ ",) and (".toList ++ n ++
      ",) not aligned: ".toList ++ m ++ " (dim 0) != ".toList ++ n ++ " (dim 0)".toList))

/-- The arithmetic of the real numbers, where nothing is rounded. -/
noncomputable def real : Numpy ℝ ℝ where
  float32 := id
  norm v := √(v.map (· ^ 2)).sum
  div := (· / ·)
  sumProducts u v := (List.zipWith (· * ·) u v).sum

@[simp]
theorem length_array (xs : List X) : (numpy.array xs).length = xs.length := List.length_map _

@[simp]
theorem length_scale (v : List F) (x : F) : (numpy.scale v x).length = v.length :=
  List.length_map _

@[simp]
theorem array_real (xs : List ℝ) : real.array xs = xs := List.map_id xs

/-- The norm is zero exactly for a zero vector. -/
theorem norm_real_eq_zero_iff {v : List ℝ} : real.norm v = 0 ↔ ∀ x ∈ v, x = 0 := by
  have hnonneg : ∀ y ∈ v.map (· ^ 2), 0 ≤ y := List.forall_mem_map.mpr fun x _ => sq_nonneg x
  rw [real, Real.sqrt_eq_zero (List.sum_nonneg hnonneg)]
  constructor
  · intro hsum x hx
    have hsq := List.all_zero_of_le_zero_le_of_sum_eq_zero hnonneg hsum (List.mem_map_of_mem hx)
    exact pow_eq_zero_iff two_ne_zero |>.mp hsq
  · intro hzero
    refine List.sum_eq_zero (List.forall_mem_map.mpr fun x hx => ?_)
    rw [hzero x hx, zero_pow two_ne_zero]

end Numpy

/-- `str(v)`, where it does not raise. -/
def PyValue.text : PyValue → PyStr
  | .str s => s
  | v => v.repr

/-- A candidate chunk: a dict that may have an embedding. -/
structure CandidateChunk (X : Type) where
  /-- The items but for the embedding. -/
  items : PyDict
  /-- `chunk.get("embedding")`. -/
  embedding : Option (List X)

namespace CandidateChunk

variable {X : Type} (chunk : CandidateChunk X)

/-- `chunk.get("content", "")`. -/
def content : PyValue := (chunk.items.get "content".toList).getD (.str [])

/-- `{k: v for k, v in chunk.items() if k not in ("content", "embedding")}`. -/
def metadata : PyDict :=
  chunk.items.filter fun item =>
    item.1 ≠ .str "content".toList ∧ item.1 ≠ .str "embedding".toList

end CandidateChunk

/-- `RankedChunk`. -/
structure RankedChunk (F : Type) where
  /-- The text. -/
  content : PyStr
  /-- The score. -/
  score : F
  /-- The other items. -/
  metadata : PyDict

namespace RelevanceRanker

variable {X F α : Type}

/-- How many elements `xs[:k]` takes of a list of length `n`, if there are so many. -/
def stop (k : ℤ) (n : ℕ) : ℕ := if 0 ≤ k then k.toNat else n - k.natAbs

/-- `xs[:k]`. -/
def upTo (xs : List α) (k : ℤ) : List α := xs.take (stop k xs.length)

variable {K : Type} [Zero F] [Zero K] [LinearOrder K] [PyFloat F K] (numpy : Numpy X F)
  (str : PyValue → Except PyExc PyStr)

/-- The score of a chunk, by the embedding that it has, if any. -/
def scoreOf (qUnit : List F) : Option (List X) → Except PyExc F
  | none => .ok 0
  | some embedding =>
    let v := numpy.array embedding
    let vNorm := numpy.norm v
    if PyFloat.value vNorm = 0 then .ok 0 else numpy.dot qUnit (numpy.scale v vNorm)

/-- What the loop makes of a chunk. -/
def scored (qUnit : List F) (chunk : CandidateChunk X) : Except PyExc (RankedChunk F) := do
  let content ← str chunk.content
  let score ← scoreOf numpy qUnit chunk.embedding
  return ⟨content, score, chunk.metadata⟩

/-- A chunk where there is nothing to compare it with. -/
def unscored (chunk : CandidateChunk X) : Except PyExc (RankedChunk F) := do
  return ⟨← str chunk.content, 0, chunk.metadata⟩

/-- `q / q_norm`. -/
def unit (queryEmbedding : List X) : List F :=
  numpy.scale (numpy.array queryEmbedding) (numpy.norm (numpy.array queryEmbedding))

/-- `q_norm == 0`. -/
def IsZero (queryEmbedding : List X) : Prop :=
  PyFloat.value (numpy.norm (numpy.array queryEmbedding)) = 0

instance (queryEmbedding : List X) : Decidable (IsZero numpy queryEmbedding) :=
  inferInstanceAs (Decidable (PyFloat.value (numpy.norm (numpy.array queryEmbedding)) = 0))

/-- `RelevanceRanker.rank`. `str` is Python's; it may raise for an object of a class of its own. -/
def rank [FloatSort F] (queryEmbedding : List X) (chunks : List (CandidateChunk X))
    (topK : ℤ := 5) : Except PyExc (List (RankedChunk F)) := do
  if chunks.isEmpty then return []
  -- a zero query has no direction
  if IsZero numpy queryEmbedding then (upTo chunks topK).mapM (unscored str)
  else
    let scored ← chunks.mapM (scored numpy str (unit numpy queryEmbedding))
    let sorted := (FloatSort.sorted RankedChunk.score scored).map Prod.fst
    return upTo sorted topK

/-- The ranking for a query that is not zero, with the position of its chunk beside every entry. -/
def rankPlaced [FloatSort F] (queryEmbedding : List X) (chunks : List (CandidateChunk X))
    (topK : ℤ := 5) : Except PyExc (List (RankedChunk F × ℕ)) := do
  let scored ← chunks.mapM (scored numpy str (unit numpy queryEmbedding))
  return upTo (FloatSort.sorted RankedChunk.score scored) topK

/-- An entry of a ranking that has been made of a chunk. -/
structure Entry (ranked : RankedChunk F) (chunk : CandidateChunk X) : Prop where
  /-- The text is that of the content. -/
  content_eq : str chunk.content = .ok ranked.content
  /-- The other items are there. -/
  metadata_eq : ranked.metadata = chunk.metadata

/-- The ranking returns `min(k, len(chunks))` distinct chunks, with scores in non-increasing
order. -/
def RanksAll [FloatSort F] (queryEmbedding : List X) (chunks : List (CandidateChunk X))
    (k : ℕ) : Prop :=
  ∃ placed : List (RankedChunk F × ℕ),
    rank numpy str queryEmbedding chunks k = .ok (placed.map Prod.fst) ∧
      placed.length = min k chunks.length ∧ (placed.map Prod.snd).Nodup ∧
      (∀ x ∈ placed, ∃ chunk, chunks[x.2]? = some chunk ∧ Entry str x.1 chunk) ∧
      placed.Pairwise fun x y => PyFloat.Le y.1.score x.1.score

/-- The embedding of a chunk, unless it is zero, has as many components as the query. -/
def Aligned (queryEmbedding : List X) (chunk : CandidateChunk X) : Prop :=
  ∀ v, chunk.embedding = some v → PyFloat.value (numpy.norm (numpy.array v)) ≠ 0 →
    v.length = queryEmbedding.length

/-- The embedding of a chunk, unless it is zero, has a normed product with the query that is a
number. It is a NaN if a component of one of them is infinite as a `float32`. -/
def Comparable (queryEmbedding : List X) (chunk : CandidateChunk X) : Prop :=
  ∀ v, chunk.embedding = some v → PyFloat.value (numpy.norm (numpy.array v)) ≠ 0 →
    PyFloat.IsNumber (numpy.sumProducts (unit numpy queryEmbedding)
      (numpy.scale (numpy.array v) (numpy.norm (numpy.array v))))

/-- The chunks that the ranking looks at. -/
def lookedAt (queryEmbedding : List X) (chunks : List (CandidateChunk X)) (k : ℕ) :
    List (CandidateChunk X) :=
  if IsZero numpy queryEmbedding then chunks.take k else chunks

variable {numpy str} {queryEmbedding : List X} {chunks : List (CandidateChunk X)}
  {chunk : CandidateChunk X} {ranked : RankedChunk F} {qUnit : List F} {topK : ℤ} {k : ℕ}

/-! ## One chunk -/

omit [Zero K] [LinearOrder K] [PyFloat F K] in
/-- Where the query is zero, the ranked chunk is the chunk with the text of its content and the
score zero. -/
theorem unscored_eq_ok_iff :
    unscored str chunk = .ok ranked ↔ Entry str ranked chunk ∧ ranked.score = 0 := by
  unfold unscored
  rw [Except.bind_eq_ok_iff]
  constructor
  · rintro ⟨content, hcontent, hranked⟩
    obtain rfl := Except.ok.inj hranked
    exact ⟨⟨hcontent, rfl⟩, rfl⟩
  · rintro ⟨⟨hcontent, hmetadata⟩, hscore⟩
    refine ⟨ranked.content, hcontent, ?_⟩
    rw [← hscore, ← hmetadata]
    rfl

/-- Otherwise it is the chunk with the text of its content and the score that `scoreOf` computes for
its embedding. -/
theorem scored_eq_ok_iff :
    scored numpy str qUnit chunk = .ok ranked ↔
      Entry str ranked chunk ∧ scoreOf numpy qUnit chunk.embedding = .ok ranked.score := by
  unfold scored
  simp only [Except.bind_eq_ok_iff]
  constructor
  · rintro ⟨content, hcontent, score, hscore, hranked⟩
    obtain rfl := Except.ok.inj hranked
    exact ⟨⟨hcontent, rfl⟩, hscore⟩
  · rintro ⟨⟨hcontent, hmetadata⟩, hscore⟩
    refine ⟨ranked.content, hcontent, ranked.score, hscore, ?_⟩
    rw [← hmetadata]
    rfl

omit [Zero K] [LinearOrder K] [PyFloat F K] in
/-- A chunk can be ranked without a score exactly if `str()` of its content does not raise. -/
theorem exists_unscored_eq_ok_iff :
    (∃ ranked : RankedChunk F, unscored str chunk = .ok ranked) ↔
      ∃ s, str chunk.content = .ok s := by
  simp only [unscored_eq_ok_iff]
  constructor
  · rintro ⟨ranked, hentry, -⟩
    exact ⟨ranked.content, hentry.content_eq⟩
  · rintro ⟨s, hs⟩
    exact ⟨⟨s, 0, chunk.metadata⟩, ⟨hs, rfl⟩, rfl⟩

/-- A chunk has a score exactly if it is `Aligned` with the query: its embedding is missing or zero,
or it has as many components as the query. -/
theorem exists_scoreOf_eq_ok_iff :
    (∃ score, scoreOf numpy (unit numpy queryEmbedding) chunk.embedding = .ok score) ↔
      Aligned numpy queryEmbedding chunk := by
  unfold Aligned
  cases chunk.embedding with
  | none => exact iff_of_true ⟨0, rfl⟩ nofun
  | some v =>
    simp only [Option.some.injEq, forall_eq', scoreOf]
    by_cases hnorm : PyFloat.value (numpy.norm (numpy.array v)) = 0
    · simp [hnorm]
    · -- the dot product compares the lengths
      rw [if_neg hnorm]
      unfold Numpy.dot unit
      split_ifs with hlength
      · exact iff_of_true ⟨_, rfl⟩ fun _ => by simpa using hlength.symm
      · exact iff_of_false nofun fun h => hlength (by simpa using (h hnorm).symm)

/-- The score of an aligned chunk is a number exactly if the chunk is `Comparable`; a product of two
numbers may be a NaN if a component has overflowed. -/
theorem isNumber_score_iff {score : F}
    (hscore : scoreOf numpy (unit numpy queryEmbedding) chunk.embedding = .ok score) :
    PyFloat.IsNumber score ↔ Comparable numpy queryEmbedding chunk := by
  unfold Comparable
  cases hembedding : chunk.embedding with
  | none =>
    rw [hembedding, scoreOf, Except.ok.injEq] at hscore
    rw [← hscore]
    exact iff_of_true PyFloat.isNumber_zero nofun
  | some v =>
    rw [hembedding] at hscore
    simp only [Option.some.injEq, forall_eq']
    dsimp only [scoreOf] at hscore
    split_ifs at hscore with hnorm
    · rw [← Except.ok.inj hscore]
      exact iff_of_true PyFloat.isNumber_zero fun h => absurd hnorm h
    · unfold Numpy.dot at hscore
      split_ifs at hscore with hlength
      rw [← Except.ok.inj hscore]
      exact ⟨fun h _ => h, fun h => h hnorm⟩

/-- It can be ranked with a score exactly if, besides, its embedding is absent, or zero, or has as
many components as the query (`Aligned`). -/
theorem exists_scored_eq_ok_iff :
    (∃ ranked, scored numpy str (unit numpy queryEmbedding) chunk = .ok ranked) ↔
      (∃ s, str chunk.content = .ok s) ∧ Aligned numpy queryEmbedding chunk := by
  simp only [scored_eq_ok_iff, ← exists_scoreOf_eq_ok_iff]
  constructor
  · rintro ⟨ranked, hentry, hscore⟩
    exact ⟨⟨ranked.content, hentry.content_eq⟩, ranked.score, hscore⟩
  · rintro ⟨⟨s, hs⟩, score, hscore⟩
    exact ⟨⟨s, score, chunk.metadata⟩, ⟨hs, rfl⟩, hscore⟩

/-- With real numbers a query counts as zero exactly if all its components are. -/
theorem isZero_real_iff {queryEmbedding : List ℝ} :
    IsZero Numpy.real queryEmbedding ↔ ∀ x ∈ queryEmbedding, x = 0 := by
  rw [IsZero, PyFloat.value_real_eq_zero_iff, Numpy.array_real, Numpy.norm_real_eq_zero_iff]

/-! ## All chunks -/

/-- `xs[:k]` for a natural number `k` ends at `k`, also beyond the end of the list. -/
@[simp]
theorem stop_natCast (k n : ℕ) : stop k n = k := by
  simp [stop]

/-- To cut off a list and to map it can be done in either order. -/
theorem map_upTo {β : Type} (f : α → β) (xs : List α) (k : ℤ) :
    (upTo xs k).map f = upTo (xs.map f) k := by
  simp [upTo, List.map_take]

/-- For a query that counts as zero (`IsZero`) the ranking is the first chunks as they come, all of
them `unscored`. -/
theorem rank_of_isZero [FloatSort F] (hzero : IsZero numpy queryEmbedding) :
    rank numpy str queryEmbedding chunks topK = (upTo chunks topK).mapM (unscored str) := by
  unfold rank
  rw [if_pos hzero]
  cases chunks with
  | nil => simp [upTo]
  | cons chunk chunks => rfl

/-- For another query it is the order of the scores, with earlier chunks before later ones where
these are equal. -/
theorem rank_eq_rankPlaced [FloatSort F] (hzero : ¬IsZero numpy queryEmbedding) :
    rank numpy str queryEmbedding chunks topK =
      List.map Prod.fst <$> rankPlaced numpy str queryEmbedding chunks topK := by
  unfold rank rankPlaced
  rw [if_neg hzero]
  cases chunks with
  | nil =>
    have hempty : FloatSort.sorted RankedChunk.score ([] : List (RankedChunk F)) = [] :=
      List.eq_nil_of_length_eq_zero (FloatSort.length_sorted _ _)
    simp [upTo, hempty]
  | cons chunk chunks =>
    rw [List.isEmpty_cons, if_neg Bool.false_ne_true, map_bind]
    refine bind_congr fun scored => ?_
    rw [map_pure, map_upTo]

/-- The ranking returns exactly if every chunk can be scored, and then it is the list of the scored
chunks, sorted by `FloatSort.sorted` and cut off at `topK`. -/
theorem rankPlaced_eq_ok_iff [FloatSort F] {placed : List (RankedChunk F × ℕ)} :
    rankPlaced numpy str queryEmbedding chunks topK = .ok placed ↔
      ∃ rows, List.Forall₂ (fun chunk ranked =>
          scored numpy str (unit numpy queryEmbedding) chunk = .ok ranked) chunks rows ∧
        placed = upTo (FloatSort.sorted RankedChunk.score rows) topK := by
  unfold rankPlaced
  simp only [Except.bind_eq_ok_iff, Except.mapM_eq_ok_iff]
  exact exists_congr fun rows => and_congr_right fun _ =>
    ⟨fun h => (Except.ok.inj h).symm, fun h => congrArg Except.ok h.symm⟩

/-- So whether it returns does not depend on `topK`: it does if the content of every chunk has a
text and its embedding is `Aligned` with the query. -/
theorem exists_rankPlaced_eq_ok_iff [FloatSort F] (topK : ℤ) :
    (∃ placed, rankPlaced numpy str queryEmbedding chunks topK = .ok placed) ↔
      ∀ c ∈ chunks, (∃ s, str c.content = .ok s) ∧ Aligned numpy queryEmbedding c := by
  simp only [rankPlaced_eq_ok_iff, ← exists_scored_eq_ok_iff, ← Except.exists_mapM_eq_ok_iff,
    Except.mapM_eq_ok_iff]
  constructor
  · rintro ⟨placed, rows, hrows, -⟩
    exact ⟨rows, hrows⟩
  · rintro ⟨rows, hrows⟩
    exact ⟨_, rows, hrows, rfl⟩

omit [Zero F] [Zero K] [LinearOrder K] [PyFloat F K] in
/-- The rows of a ranking come from the chunks in their positions. -/
theorem exists_getElem?_of_forall₂ {R : CandidateChunk X → RankedChunk F → Prop}
    {rows : List (RankedChunk F)} (hrows : List.Forall₂ R chunks rows) {i : ℕ}
    (hi : rows[i]? = some ranked) : ∃ chunk, chunks[i]? = some chunk ∧ R chunk ranked :=
  (List.forall₂_iff_getElem?.mp hrows.flip).2 i ranked hi

/-- The ranking raises only for a chunk that it looks at: where the content has no text, or where
the embedding cannot be compared with that of the query. -/
theorem exists_rank_eq_ok_iff [FloatSort F] :
    (∃ ranking, rank numpy str queryEmbedding chunks k = .ok ranking) ↔
      (∀ c ∈ lookedAt numpy queryEmbedding chunks k, ∃ s, str c.content = .ok s) ∧
        (IsZero numpy queryEmbedding ∨ ∀ c ∈ chunks, Aligned numpy queryEmbedding c) := by
  unfold lookedAt
  by_cases hzero : IsZero numpy queryEmbedding
  · rw [rank_of_isZero hzero, Except.exists_mapM_eq_ok_iff, if_pos hzero]
    simp only [exists_unscored_eq_ok_iff, upTo, stop_natCast, hzero, true_or, and_true]
  · rw [rank_eq_rankPlaced hzero, if_neg hzero]
    simp only [hzero, false_or, ← forall₂_and, ← exists_rankPlaced_eq_ok_iff (k : ℤ),
      Except.map_eq_ok_iff]
    constructor
    · rintro ⟨ranking, placed, hplaced, -⟩
      exact ⟨placed, hplaced⟩
    · rintro ⟨placed, hplaced⟩
      exact ⟨_, placed, hplaced, rfl⟩

/-- If the ranking is as it should be, nothing has raised: the chunks that are looked at have texts,
and, unless the query is zero, all embeddings are aligned with it. -/
theorem aligned_of_ranksAll [FloatSort F] (h : RanksAll numpy str queryEmbedding chunks k) :
    (∀ c ∈ lookedAt numpy queryEmbedding chunks k, ∃ s, str c.content = .ok s) ∧
      (IsZero numpy queryEmbedding ∨ ∀ c ∈ chunks, Aligned numpy queryEmbedding c) := by
  obtain ⟨placed, hplaced, -⟩ := h
  exact exists_rank_eq_ok_iff.mp ⟨_, hplaced⟩

/-- For a zero query `RanksAll` holds of whatever the ranking returns: the first chunks, all with
score `0`. -/
theorem ranksAll_of_isZero [FloatSort F] (hzero : IsZero numpy queryEmbedding)
    {ranking : List (RankedChunk F)}
    (h : rank numpy str queryEmbedding chunks k = .ok ranking) :
    RanksAll numpy str queryEmbedding chunks k := by
  have hrank := h
  rw [rank_of_isZero hzero, Except.mapM_eq_ok_iff, upTo, stop_natCast] at h
  have hentry : ∀ x ∈ ranking.zipIdx, ∃ chunk, chunks[x.2]? = some chunk ∧
      Entry str x.1 chunk ∧ x.1.score = 0 := by
    intro x hx
    obtain ⟨chunk, hchunk, hunscored⟩ :=
      exists_getElem?_of_forall₂ h (List.mem_zipIdx_iff_getElem?.mp hx)
    rw [List.getElem?_take, Option.ite_none_right_eq_some] at hchunk
    exact ⟨chunk, hchunk.2, unscored_eq_ok_iff.mp hunscored⟩
  refine ⟨ranking.zipIdx, ?_, ?_, ?_, fun x hx => ?_, ?_⟩
  · rw [hrank, List.zipIdx_map_fst]
  · rw [List.length_zipIdx, ← h.length_eq, List.length_take]
  · rw [List.zipIdx_map_snd]
    exact List.nodup_range'
  · obtain ⟨chunk, hchunk, hx, -⟩ := hentry x hx
    exact ⟨chunk, hchunk, hx⟩
  · refine List.pairwise_of_forall_mem_list fun x hx y hy => ?_
    obtain ⟨_, _, _, hx⟩ := hentry x hx
    obtain ⟨_, _, _, hy⟩ := hentry y hy
    rw [hx, hy]
    exact ⟨PyFloat.isNumber_zero, le_rfl⟩

/-- At most one row is returned, or all are comparable: the first rows are in the order of their
scores. -/
theorem pairwise_take_sorted [FloatSort F] {rows : List (RankedChunk F)}
    (h : min k rows.length ≤ 1 ∨ ∀ row ∈ rows, PyFloat.IsNumber row.score) :
    ((FloatSort.sorted RankedChunk.score rows).take k).Pairwise
      fun x y => PyFloat.Le y.1.score x.1.score := by
  rcases h with hone | hnumbers
  · refine List.pairwise_iff_getElem.mpr fun i j _ hj hij => absurd hj ?_
    rw [List.length_take, FloatSort.length_sorted]
    omega
  · rw [FloatSort.sorted_eq_placed hnumbers]
    have hordered := (OrderBy.pairwise_placed (fun row : RankedChunk F => PyFloat.value row.score)
      rows).sublist (List.take_sublist k _)
    refine hordered.imp_of_mem fun _ hy hbefore => ⟨?_, ?_⟩
    · have hrow := OrderBy.mem_placed_iff.mp (List.mem_of_mem_take hy)
      exact hnumbers _ (List.mem_of_getElem? hrow)
    · exact hbefore.elim le_of_lt fun heq => heq.1.ge

/-- For another query `RanksAll` holds if all chunks are `Comparable`, or no more than one is to be
returned: the sort is stable and descending then. -/
theorem ranksAll_of_not_isZero [FloatSort F] (hzero : ¬IsZero numpy queryEmbedding)
    (hnan : min k chunks.length ≤ 1 ∨ ∀ c ∈ chunks, Comparable numpy queryEmbedding c)
    {ranking : List (RankedChunk F)}
    (h : rank numpy str queryEmbedding chunks k = .ok ranking) :
    RanksAll numpy str queryEmbedding chunks k := by
  have hrank := h
  rw [rank_eq_rankPlaced hzero, Except.map_eq_ok_iff] at h
  obtain ⟨placed, hplaced, hfst⟩ := h
  obtain ⟨rows, hrows, hrowsPlaced⟩ := rankPlaced_eq_ok_iff.mp hplaced
  rw [upTo, stop_natCast] at hrowsPlaced
  have hsublist : placed.Sublist (FloatSort.sorted RankedChunk.score rows) :=
    hrowsPlaced ▸ List.take_sublist _ _
  refine ⟨placed, ?_, ?_, ?_, fun x hx => ?_, ?_⟩
  · rw [hrank, hfst]
  · rw [hrowsPlaced, List.length_take, FloatSort.length_sorted, hrows.length_eq]
  · exact (FloatSort.nodup_sorted _ rows).sublist (hsublist.map _)
  · have hi := FloatSort.mem_sorted_iff.mp (hsublist.subset hx)
    obtain ⟨chunk, hchunk, hscored⟩ := exists_getElem?_of_forall₂ hrows hi
    exact ⟨chunk, hchunk, (scored_eq_ok_iff.mp hscored).1⟩
  · rw [hrowsPlaced]
    refine pairwise_take_sorted ?_
    rw [← hrows.length_eq]
    refine hnan.imp_right fun hcomparable row hrow => ?_
    obtain ⟨i, hi⟩ := List.getElem?_of_mem hrow
    obtain ⟨chunk, hchunk, hscored⟩ := exists_getElem?_of_forall₂ hrows hi
    rw [isNumber_score_iff (scored_eq_ok_iff.mp hscored).2]
    exact hcomparable chunk (List.mem_of_getElem? hchunk)

/-- A ranking of two chunks or more is not in the order of the scores if one of these is a NaN, by a
sort that puts a row with a NaN first. -/
theorem not_ranksAll_of_nan [FloatSort F] (hzero : ¬IsZero numpy queryEmbedding)
    (hk : 1 < min k chunks.length) (hchunk : chunk ∈ chunks)
    (hcomparable : ¬Comparable numpy queryEmbedding chunk)
    (hfirst : ∀ (rows : List (RankedChunk F)), ∀ row ∈ rows, ¬PyFloat.IsNumber row.score →
      ∃ x rest, FloatSort.sorted RankedChunk.score rows = x :: rest ∧
        ¬PyFloat.IsNumber x.1.score) :
    ¬RanksAll numpy str queryEmbedding chunks k := by
  rintro ⟨placed, hplaced, hlength, -, -, hpairwise⟩
  rw [rank_eq_rankPlaced hzero, Except.map_eq_ok_iff] at hplaced
  obtain ⟨taken, htaken, hfst⟩ := hplaced
  obtain ⟨rows, hrows, rfl⟩ := rankPlaced_eq_ok_iff.mp htaken
  obtain ⟨i, hi⟩ := List.getElem?_of_mem hchunk
  obtain ⟨row, hrow, hscored⟩ := (List.forall₂_iff_getElem?.mp hrows).2 i chunk hi
  have hnan := (isNumber_score_iff (scored_eq_ok_iff.mp hscored).2).not.mpr hcomparable
  obtain ⟨x, rest, hsorted, hx⟩ := hfirst rows row (List.mem_of_getElem? hrow) hnan
  have hscores : (placed.map Prod.fst).Pairwise fun r r' => PyFloat.Le r'.score r.score :=
    List.pairwise_map.mpr hpairwise
  have htwo := congrArg List.length hfst
  rw [List.length_map, List.length_map, hlength] at htwo
  rw [← hfst, List.pairwise_map] at hscores
  rw [upTo, stop_natCast, hsorted] at hscores htwo
  -- the row behind the first one has a score that is not below a NaN
  obtain ⟨k, rfl⟩ := Nat.exists_eq_succ_of_ne_zero (show k ≠ 0 by omega)
  rw [List.take_succ_cons] at hscores htwo
  obtain ⟨y, hy⟩ := List.exists_mem_of_length_pos (l := rest.take k) (by simp at htwo ⊢; omega)
  exact hx (List.rel_of_pairwise_cons hscores hy).isNumber_right

/-- However `list.sort` treats a NaN, the ranking returns as many chunks as it can, in the order of
their scores (`RanksAll`). This is so exactly if the contents that are `lookedAt` have a text and,
unless the query is zero, every embedding is `Aligned`, that is zero or of as many components as the
query, and, if two chunks are to be returned, `Comparable`: its product with the query is a number,
so that no overflow has made a NaN of it. -/
theorem ranksAll_iff (numpy : Numpy X F) (str : PyValue → Except PyExc PyStr)
    (queryEmbedding : List X) (chunks : List (CandidateChunk X)) (k : ℕ) :
    (∀ [FloatSort F], RanksAll numpy str queryEmbedding chunks k) ↔
      (∀ c ∈ lookedAt numpy queryEmbedding chunks k, ∃ s, str c.content = .ok s) ∧
        (IsZero numpy queryEmbedding ∨
          (∀ c ∈ chunks, Aligned numpy queryEmbedding c) ∧
            (min k chunks.length ≤ 1 ∨ ∀ c ∈ chunks, Comparable numpy queryEmbedding c)) := by
  constructor
  · intro hranks
    let sort := FloatSort.nanFirst F
    obtain ⟨hstr, haligned⟩ := aligned_of_ranksAll hranks
    refine ⟨hstr, or_iff_not_imp_left.mpr fun hzero => ⟨haligned.resolve_left hzero, ?_⟩⟩
    by_contra hnot
    push Not at hnot
    obtain ⟨hk, c, hc, hcomparable⟩ := hnot
    refine not_ranksAll_of_nan hzero hk hc hcomparable ?_ hranks
    exact fun _ _ hrow hnan => FloatSort.exists_sorted_nanFirst hrow hnan
  · rintro ⟨hstr, hquery⟩ sort
    obtain ⟨ranking, hranking⟩ := exists_rank_eq_ok_iff.mpr ⟨hstr, hquery.imp_right And.left⟩
    by_cases hzero : IsZero numpy queryEmbedding
    · exact ranksAll_of_isZero hzero hranking
    · exact ranksAll_of_not_isZero hzero (hquery.resolve_left hzero).2 hranking

/-- A chunk whose embedding has a component too many: `numpy.dot` raises a `ValueError`, nothing
catches it, and there is no ranking at all. -/
theorem longEmbedding_not_ranksAll :
    ¬RanksAll Numpy.real (fun v => .ok v.text) [1] [⟨[], some [1, 2]⟩] 1 := by
  rintro ⟨placed, hplaced, -⟩
  obtain ⟨-, hzero | haligned⟩ := exists_rank_eq_ok_iff.mp ⟨_, hplaced⟩
  · simp [isZero_real_iff] at hzero
  · have hlength := haligned _ List.mem_cons_self _ rfl (by simp [Numpy.norm_real_eq_zero_iff])
    simp at hlength

end RelevanceRanker
