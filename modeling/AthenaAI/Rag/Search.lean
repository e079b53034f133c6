import AthenaAI.Python.JsonRoundTrip
import AthenaAI.Rag.DocumentStore
import AthenaAI.ToMathlib.List
import AthenaAI.ToMathlib.OrderBy
import Mathlib.Data.List.DropRight
import Mathlib.Data.Nat.Dist

/-!
# Searching the chunks

`PgVectorRetriever.search` and `athenai.rag.reranker`.

* `PgVectorRetriever` is the database as a search sees it. Distances and scores are taken from two
  linear orders: what the arithmetic of the floats makes of them is left open, but no distance is
  NaN.
* `search_spec`: the filter is applied after the limit, so a search may find too few chunks. What it
  finds are the nearest ones that match, and it finds too few exactly if one of the `k` nearest does
  not match and one beyond them does.
* `rerank_search`: what a search has found is in the order of its scores already. Searching for more
  and cutting the result off finds the nearest ones that match, if there are enough among the more.
* `search_store`: after a history of calls of the loader, the chunks that a search can find of a
  document are those of its current content.
-/

/-- A search result. -/
structure RetrievedChunk (S : Type*) where
  /-- The chunk. -/
  chunkId : PyStr
  /-- Its document. -/
  documentId : PyStr
  /-- Its text. -/
  content : PyStr
  /-- Its place in the document. -/
  chunkIndex : ℕ
  /-- How similar it is to the query. -/
  score : S
  /-- The metadata of the document. -/
  metadata : PyDict := []

/-- The database as a search sees it. -/
structure PgVectorRetriever (D S : Type*) [LinearOrder D] [LinearOrder S] where
  /-- `embedding <=> $1`, for the text of the query. -/
  distance : (query : PyStr) → Row → D
  /-- `ORDER BY embedding <=> $1`. -/
  nearest : (query : PyStr) → List Row → List Row
  /-- The rows are put in order. Rows at the same distance may come in any order. -/
  isAnswer_nearest : ∀ query rows,
    OrderBy.IsAnswer (fun row => OrderDual.toDual (distance query row)) rows (nearest query rows)
  /-- `1 - (embedding <=> $1)`, from the distance. -/
  scoreOf : D → S
  /-- The nearer, the more similar. -/
  antitone_scoreOf : Antitone scoreOf
  /-- The value of a JSON text in the column `metadata`. -/
  jsonb : PyStr → PyDict
  /-- `==`. -/
  eq : PyValue → PyValue → Bool

namespace PgVectorRetriever

variable {D S : Type*} [LinearOrder D] [LinearOrder S] (retriever : PgVectorRetriever D S)

/-- The result of a row. -/
def retrieved (query : PyStr) (row : Row) : RetrievedChunk S where
  chunkId := row.id
  documentId := row.documentId
  content := row.content
  chunkIndex := row.chunkIndex
  score := retriever.scoreOf (retriever.distance query row)
  metadata := retriever.jsonb row.metadata

/-- `not metadata_filter or all(meta.get(k) == v for k, v in metadata_filter.items())`. -/
def matchesFilter (metadataFilter : Option (List (PyStr × PyValue))) (row : Row) : Bool :=
  -- no filter has no items
  (metadataFilter.getD []).all fun item =>
    retriever.eq (((retriever.jsonb row.metadata).get item.1).getD .none) item.2

/-- `PgVectorRetriever.search`. -/
def search (t : ChunkTable) (queryEmbedding : Embedding) (k : ℕ := 5)
    (metadataFilter : Option (List (PyStr × PyValue)) := none) : List (RetrievedChunk S) :=
  let query := embStr queryEmbedding
  let rows := (retriever.nearest query t.rows).take k
  -- the filter comes after `LIMIT`
  (rows.filter (retriever.matchesFilter metadataFilter)).map (retriever.retrieved query)

/-- The rows that match, the nearest first. -/
def matching (t : ChunkTable) (query : PyStr)
    (metadataFilter : Option (List (PyStr × PyValue))) : List Row :=
  (retriever.nearest query t.rows).filter (retriever.matchesFilter metadataFilter)

/-- How many of the `k` nearest rows match. -/
def found (t : ChunkTable) (query : PyStr) (k : ℕ)
    (metadataFilter : Option (List (PyStr × PyValue))) : ℕ :=
  ((retriever.nearest query t.rows).take k).countP (retriever.matchesFilter metadataFilter)

end PgVectorRetriever

namespace CosineReranker

variable {S : Type*} [LinearOrder S]

/-- `chunks[:top_k]`. -/
def upTo {α : Type*} (chunks : List α) (topK : ℤ) : List α :=
  if 0 ≤ topK then chunks.take topK.toNat else chunks.rdrop topK.natAbs

/-- `CosineReranker.rerank`. The embedding of the query is not used. -/
def rerank (_queryEmbedding : Embedding) (chunks : List (RetrievedChunk S))
    (topK : Option ℤ := none) : List (RetrievedChunk S) :=
  -- `sorted(…, reverse=True)` is stable
  let sortedChunks := OrderBy.stable RetrievedChunk.score chunks
  match topK with
  | some k => upTo sortedChunks k
  | none => sortedChunks

end CosineReranker

namespace PgVectorRetriever

variable {D S : Type*} [LinearOrder D] [LinearOrder S] {retriever : PgVectorRetriever D S}
  {t : ChunkTable} {query : PyStr} {queryEmbedding : Embedding}
  {metadataFilter : Option (List (PyStr × PyValue))} {k : ℕ}

/-! ## What a search finds -/

/-- The rows that match are in the order of their distance: they are an answer to the query that
filters before it orders. -/
theorem isAnswer_matching (retriever : PgVectorRetriever D S) (t : ChunkTable) (query : PyStr)
    (metadataFilter : Option (List (PyStr × PyValue))) :
    OrderBy.IsAnswer (fun row => OrderDual.toDual (retriever.distance query row))
      (t.rows.filter (retriever.matchesFilter metadataFilter))
      (retriever.matching t query metadataFilter) := by
  obtain ⟨hperm, hdescending⟩ := retriever.isAnswer_nearest query t.rows
  exact ⟨hperm.filter _, hdescending.filter _⟩

/-- A search shows the first ones of the rows that are `matching`, as many as are `found` among the
`k` nearest. -/
theorem search_eq : retriever.search t queryEmbedding k metadataFilter =
    ((retriever.matching t (embStr queryEmbedding) metadataFilter).take
      (retriever.found t (embStr queryEmbedding) k metadataFilter)).map
        (retriever.retrieved (embStr queryEmbedding)) := by
  rw [matching, found, ← List.filter_take_eq]
  rfl

/-- Of the `k` nearest rows at most all matching ones match. -/
theorem found_le_length (retriever : PgVectorRetriever D S) (t : ChunkTable) (query : PyStr)
    (k : ℕ) (metadataFilter : Option (List (PyStr × PyValue))) :
    retriever.found t query k metadataFilter ≤
      (retriever.matching t query metadataFilter).length := by
  rw [found, matching, ← List.countP_eq_length_filter]
  exact (List.take_sublist _ _).countP_le

/-- A search returns as many results as there are matching rows among the `k` nearest: the filter
comes after the limit. -/
theorem length_search : (retriever.search t queryEmbedding k metadataFilter).length =
    retriever.found t (embStr queryEmbedding) k metadataFilter := by
  rw [search_eq, List.length_map, List.length_take_of_le (found_le_length ..)]

/-- A search finds the nearest chunks that match, as many as it finds: they are the first ones of an
answer to a query that filters before it orders. It finds fewer than there are, and fewer than it
was asked for, exactly if one of the `k` nearest chunks does not match and one of the others does,
since the filter comes after the limit. -/
theorem search_spec (retriever : PgVectorRetriever D S) (t : ChunkTable)
    (queryEmbedding : Embedding) (k : ℕ) (metadataFilter : Option (List (PyStr × PyValue))) :
    (∃ answer, OrderBy.IsAnswer
        (fun row => OrderDual.toDual (retriever.distance (embStr queryEmbedding) row))
        (t.rows.filter (retriever.matchesFilter metadataFilter)) answer ∧
      retriever.search t queryEmbedding k metadataFilter =
        (answer.take (retriever.search t queryEmbedding k metadataFilter).length).map
          (retriever.retrieved (embStr queryEmbedding))) ∧
    ((retriever.search t queryEmbedding k metadataFilter).length <
        min k (t.rows.countP (retriever.matchesFilter metadataFilter)) ↔
      (∃ row ∈ (retriever.nearest (embStr queryEmbedding) t.rows).take k,
        ¬retriever.matchesFilter metadataFilter row) ∧
      ∃ row ∈ (retriever.nearest (embStr queryEmbedding) t.rows).drop k,
        retriever.matchesFilter metadataFilter row) := by
  refine ⟨⟨_, retriever.isAnswer_matching t _ metadataFilter, ?_⟩, ?_⟩
  · rw [length_search]
    exact search_eq
  · have hcount := (retriever.isAnswer_nearest (embStr queryEmbedding) t.rows).perm.countP_eq
      (retriever.matchesFilter metadataFilter)
    have hle : retriever.found t (embStr queryEmbedding) k metadataFilter ≤
        min k (t.rows.countP (retriever.matchesFilter metadataFilter)) := by
      refine le_min ?_ ?_
      · exact List.countP_le_length.trans (List.length_take_le _ _)
      · rw [← hcount]
        exact (List.take_sublist _ _).countP_le
    have hmin := List.countP_take_eq_min_iff (retriever.matchesFilter metadataFilter)
      (retriever.nearest (embStr queryEmbedding) t.rows) k
    rw [length_search, lt_iff_le_and_ne, and_iff_right hle, Ne, found, ← hcount, hmin]
    push Not
    rfl

/-! ## Reranking -/

/-- The results of a search are in the order of their scores, the largest first, since a score is
the smaller the larger the distance is. -/
theorem pairwise_score_search (retriever : PgVectorRetriever D S) (t : ChunkTable)
    (queryEmbedding : Embedding) (k : ℕ) (metadataFilter : Option (List (PyStr × PyValue))) :
    (retriever.search t queryEmbedding k metadataFilter).Pairwise
      fun chunk chunk' => chunk'.score ≤ chunk.score := by
  have hmatching : OrderBy.IsAnswer _ _ _ :=
    retriever.isAnswer_matching t (embStr queryEmbedding) metadataFilter
  rw [search_eq, List.pairwise_map]
  exact (hmatching.descending.sublist (List.take_sublist _ _)).imp fun h =>
    retriever.antitone_scoreOf (OrderDual.toDual_le_toDual.mp h)

/-- Reranking what a search has found changes nothing: it has the order of the distances already.
Cut off after `j` chunks, it is the `j` nearest chunks that match (`matching`) exactly if the search
has found so many, or all there are. -/
theorem rerank_search (retriever : PgVectorRetriever D S) (t : ChunkTable)
    (queryEmbedding queryEmbedding' : Embedding) (k : ℕ)
    (metadataFilter : Option (List (PyStr × PyValue))) :
    CosineReranker.rerank queryEmbedding' (retriever.search t queryEmbedding k metadataFilter) =
      retriever.search t queryEmbedding k metadataFilter ∧
    ∀ j : ℕ,
      CosineReranker.rerank queryEmbedding' (retriever.search t queryEmbedding k metadataFilter)
          (some j) =
        ((retriever.matching t (embStr queryEmbedding) metadataFilter).take j).map
          (retriever.retrieved (embStr queryEmbedding)) ↔
      min j (t.rows.countP (retriever.matchesFilter metadataFilter)) ≤
        (retriever.search t queryEmbedding k metadataFilter).length := by
  have hstable := OrderBy.stable_eq_self
    (retriever.pairwise_score_search t queryEmbedding k metadataFilter)
  refine ⟨hstable, fun j => ?_⟩
  have hcount : (retriever.matching t (embStr queryEmbedding) metadataFilter).length =
      t.rows.countP (retriever.matchesFilter metadataFilter) := by
    rw [(retriever.isAnswer_matching t _ metadataFilter).perm.length_eq,
      List.countP_eq_length_filter]
  have hle := retriever.found_le_length t (embStr queryEmbedding) k metadataFilter
  have hrerank : CosineReranker.rerank queryEmbedding'
      (retriever.search t queryEmbedding k metadataFilter) (some j) =
        (retriever.search t queryEmbedding k metadataFilter).take j := by
    rw [CosineReranker.rerank, hstable]
    exact if_pos (Int.natCast_nonneg j)
  rw [hrerank, length_search, search_eq, ← List.map_take, List.take_take, ← hcount]
  constructor
  · intro heq
    have hlength := congrArg List.length heq
    simp only [List.length_map, List.length_take] at hlength
    omega
  · intro hmin
    congr 1
    rw [List.take_eq_take_iff]
    omega

/-! ## What is stored is found -/

variable (retriever)

/-- The column `metadata` gives back what its JSON texts stand for, where there are no floats in it:
the numbers of `jsonb` are decimal. -/
def ReadsBack (float : PyStr → PyStr) : Prop :=
  ∀ text d, Json.decode float text = some (.dict d) → Json.IsFloatFree (.dict d) →
    retriever.eq (.dict (retriever.jsonb text)) (.dict d)

/-- The result shows the chunk. Metadata that JSON does not have, or with floats, may be changed. -/
structure Shows (result : RetrievedChunk S) (chunk : Chunk) : Prop where
  /-- The identifier. -/
  chunkId_eq : result.chunkId = chunk.chunkId
  /-- The document. -/
  documentId_eq : result.documentId = chunk.documentId
  /-- The text. -/
  content_eq : result.content = chunk.content
  /-- The place in the document. -/
  chunkIndex_eq : result.chunkIndex = chunk.chunkIndex
  /-- The metadata. -/
  metadata_eq : Json.IsFloatFree (.dict chunk.metadata) →
    retriever.eq (.dict result.metadata) (.dict chunk.metadata)

variable {retriever}

/-- The result of a row that holds the chunk `Shows` it, if the column `metadata` reads back what
was written (`ReadsBack`). -/
theorem shows_retrieved {float : PyStr → PyStr} {lim : Json.Limits} {row : Row} {chunk : Chunk}
    (hjsonb : retriever.ReadsBack float) (h : row.Holds lim chunk) (query : PyStr) :
    retriever.Shows (retriever.retrieved query row) chunk where
  chunkId_eq := h.id_eq
  documentId_eq := h.documentId_eq
  content_eq := h.content_eq
  chunkIndex_eq := h.chunkIndex_eq
  metadata_eq := fun hfree => hjsonb _ _ (Json.decode_dumps hfree.isJson h.metadata_eq) hfree

/-- The results of a document are among those of its rows. They are all of these if the search was
for so many chunks as there are. -/
theorem filter_search (retriever : PgVectorRetriever D S) (t : ChunkTable)
    (queryEmbedding : Embedding) (k : ℕ) (documentId : PyStr) :
    ((retriever.search t queryEmbedding k).filter fun chunk =>
        chunk.documentId = documentId).Subperm
      ((t.rowsOf documentId).map (retriever.retrieved (embStr queryEmbedding))) ∧
    (t.rows.length ≤ k →
      ((retriever.search t queryEmbedding k).filter fun chunk =>
          chunk.documentId = documentId).Perm
        ((t.rowsOf documentId).map (retriever.retrieved (embStr queryEmbedding)))) := by
  have hfilter : (retriever.search t queryEmbedding k).filter (fun chunk =>
      chunk.documentId = documentId) =
        (((retriever.nearest (embStr queryEmbedding) t.rows).take k).filter fun row =>
          row.documentId = documentId).map (retriever.retrieved (embStr queryEmbedding)) := by
    have hall : ∀ row ∈ (retriever.nearest (embStr queryEmbedding) t.rows).take k,
        retriever.matchesFilter none row := fun _ _ => rfl
    rw [search, List.filter_map, List.filter_eq_self.mpr hall]
    rfl
  have hperm := (retriever.isAnswer_nearest (embStr queryEmbedding) t.rows).perm
  rw [hfilter]
  constructor
  · have htake : ((retriever.nearest (embStr queryEmbedding) t.rows).take k).Subperm t.rows :=
      (List.take_sublist _ _).subperm.trans hperm.subperm
    obtain ⟨rows, hrows, hsublist⟩ := htake.filter fun row => row.documentId = documentId
    exact ⟨_, hrows.map _, hsublist.map _⟩
  · intro hk
    rw [List.take_of_length_le (hperm.length_eq.trans_le hk)]
    exact (hperm.filter _).map _

open DocumentLoader in
/-- After a history of calls that meet no failure (`Unfailing`), the results of a document show
chunks of its current content, each at most once. All of these are shown if the search is for so
many chunks as are stored. `Shows` compares everything but metadata that JSON does not have or that
have floats in them. -/
theorem search_store {loader : DocumentLoader} {lim : Json.Limits} {float : PyStr → PyStr}
    {cs : List DocumentCall} (hjsonb : retriever.ReadsBack float)
    (hcs : ∀ s ∈ Run.steps (loader.callStep lim) .empty cs, loader.Unfailing lim s.before s.event)
    (queryEmbedding : Embedding) (k : ℕ) (documentId : PyStr) :
    let t := Run.after (loader.callStep lim) .empty cs
    let current := KeyedStore.current documentId (cs.map DocumentCall.op)
    ∃ results, List.Forall₂ retriever.Shows results
        (current.elim [] fun r => loader.requested documentId r) ∧
      ((retriever.search t queryEmbedding k).filter fun chunk =>
        chunk.documentId = documentId).Subperm results ∧
      (t.rows.length ≤ k → ((retriever.search t queryEmbedding k).filter fun chunk =>
        chunk.documentId = documentId).Perm results) := by
  have hempty : loader.Represents lim (fun _ => none) .empty := fun _ => rfl
  have hholds := ((represents_run hempty hcs).1 documentId).holdsRequest
  rw [KeyedStore.after_eq_current] at hholds
  refine ⟨_, ?_, filter_search retriever _ queryEmbedding k documentId⟩
  rw [List.forall₂_map_left_iff]
  exact hholds.imp fun _ _ hrow => shows_retrieved hjsonb hrow (embStr queryEmbedding)

/-! ### A small retriever -/

/-- The value of a JSON text, if it is a dict. -/
def jsonDict (text : PyStr) : PyDict :=
  match Json.decode id text with
  | some (.dict d) => d
  | _ => []

/-- Chunks are compared by the lengths of their vectors and of the query. -/
def byLength : PgVectorRetriever ℕ ℤ where
  distance query row := Nat.dist query.length row.embedding.length
  nearest query := OrderBy.stable fun row =>
    OrderDual.toDual (Nat.dist query.length row.embedding.length)
  isAnswer_nearest _ _ := OrderBy.isAnswer_stable _ _
  scoreOf d := 1 - d
  antitone_scoreOf _ _ h := Int.sub_le_sub_left (Int.ofNat_le.mpr h) 1
  jsonb := jsonDict
  eq v w := v.repr = w.repr

/-- The retriever `byLength` gives back the metadata that was written. -/
theorem byLength_readsBack : byLength.ReadsBack id := by
  intro text d hdecode _
  have hjsonb : byLength.jsonb text = d := by
    show jsonDict text = d
    rw [jsonDict, hdecode]
  rw [hjsonb]
  exact decide_eq_true rfl

open DocumentLoader in
/-- `search_store` after a document was replaced: a search shows the chunk of its last content. -/
theorem search_store_reingestThenIngest :
    ∃ results, List.Forall₂ byLength.Shows results
        (smallLoader.requested "doc".toList (requestOf 'a' "old".toList)) ∧
      ((byLength.search (Run.after (smallLoader.callStep limits) .empty reingestThenIngest) []
        5).filter fun chunk => chunk.documentId = "doc".toList).Subperm results := by
  obtain ⟨results, hshows, hsubperm, -⟩ :=
    search_store byLength_readsBack reingestThenIngest_unfailing [] 5 "doc".toList
  exact ⟨results, hshows, hsubperm⟩

end PgVectorRetriever
