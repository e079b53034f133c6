import AthenaAI.Rag.Reingest
import Mathlib.Data.List.Sort

/-!
# The embedder

`athenai.rag.embedder`. `CloudEmbedder.embed` sends the texts to an embedding service, in batches,
and puts the answers together. A service may answer the texts of a batch in any order: an item of an
answer carries the index of its text in the batch.

* `EmbeddingService` is the service. `Answers` says that it answers every batch in full, and names
  the embeddings it gives.
* `embed_eq`: then every text gets the embedding that the service gives for it.
* `embed_paired`: and every chunk that `ingest` stores is stored with the embedding of its own
  content.
-/

/-- An item of an answer of the service. -/
structure EmbeddingItem where
  /-- The index of the text in the batch. -/
  index : ℤ
  /-- The embedding. -/
  embedding : Embedding

/-- A response of the service. -/
structure EmbeddingResponse where
  /-- The status code. -/
  statusCode : ℕ
  /-- The body. -/
  text : PyStr
  /-- The items of `response.json()["data"]`, or what reading them raises. -/
  data : Except PyExc (List EmbeddingItem)

/-- The service: what it responds to the `k`-th request, with a batch of texts, or what the request
raises. -/
abbrev EmbeddingService := (k : ℕ) → (batch : List PyStr) → Except PyExc EmbeddingResponse

/-- The embedder. -/
structure CloudEmbedder where
  /-- The number of texts in a batch. -/
  batchSize : ℤ := 96

namespace CloudEmbedder

/-- `_embed_batch`, for the `k`-th batch. -/
def embedBatch (service : EmbeddingService) (k : ℕ) (texts : List PyStr) :
    Except PyExc (List Embedding) := do
  let response ← service k texts
  if response.statusCode ≠ 200 then
    throw (.of .EmbeddingError ("embedding API returned ".toList ++
      PyStr.ofInt response.statusCode ++ ": ".toList ++ response.text.take 200))
  let data ← response.data
  -- `sorted` is stable
  let items := data.mergeSort fun x y => x.index ≤ y.index
  return items.map EmbeddingItem.embedding

/-- `CloudEmbedder.embed`. -/
def embed (embedder : CloudEmbedder) (service : EmbeddingService) (texts : List PyStr) :
    Except PyExc (List Embedding) := do
  if texts.isEmpty then return []
  if embedder.batchSize = 0 then
    throw (.of .ValueError "range() arg 3 must not be zero".toList)
  -- a negative step leaves the range without elements
  let size := embedder.batchSize.toNat
  (List.range ((texts.length + size - 1) / size)).foldlM (fun all k => do
    let batch := (texts.drop (k * size)).take size
    let result ← embedBatch service k batch
    return all ++ result) []

/-- The service answers every batch with one item for each of its texts, in any order. The item for
text `j` of the `k`-th batch carries the index `j` and the embedding `vector k j text`. -/
def Answers (service : EmbeddingService) (vector : ℕ → ℕ → PyStr → Embedding) : Prop :=
  ∀ k batch, batch ≠ [] → ∃ body items, service k batch = .ok ⟨200, body, .ok items⟩ ∧
    items.Perm (batch.mapIdx fun j text => ⟨j, vector k j text⟩)

/-- The embedding that the service gives for text `i`: the text is sent in the batch of number
`i / batch_size`, at the place `i % batch_size`. -/
def embeddingOf (embedder : CloudEmbedder) (vector : ℕ → ℕ → PyStr → Embedding) (i : ℕ)
    (text : PyStr) : Embedding :=
  vector (i / embedder.batchSize.toNat) (i % embedder.batchSize.toNat) text

variable {embedder : CloudEmbedder} {service : EmbeddingService}
  {vector : ℕ → ℕ → PyStr → Embedding}

/-- Sorting by `index` undoes any permutation of the items of a batch: the step by which `embed`
recovers the order of its texts. -/
theorem mergeSort_eq_mapIdx {f : ℕ → PyStr → Embedding} {items : List EmbeddingItem}
    {batch : List PyStr} (h : items.Perm (batch.mapIdx fun j text => ⟨j, f j text⟩)) :
    items.mergeSort (fun x y => x.index ≤ y.index) = batch.mapIdx fun j text => ⟨j, f j text⟩ := by
  have hsorted := @List.pairwise_mergeSort EmbeddingItem (fun x y => x.index ≤ y.index)
    (fun x y z hxy hyz => by simp only [decide_eq_true_eq] at *; omega)
    (fun x y => by simp only [Bool.or_eq_true, decide_eq_true_eq]; omega) items
  have hperm := (items.mergeSort_perm fun x y => x.index ≤ y.index).trans h
  refine hperm.eq_of_pairwise (fun x y hx hy hxy hyx => ?_) hsorted ?_
  -- the items of one index are equal
  · obtain ⟨i, hi, rfl⟩ := List.mem_mapIdx.mp (hperm.mem_iff.mp hx)
    obtain ⟨j, hj, rfl⟩ := List.mem_mapIdx.mp hy
    simp only [decide_eq_true_eq, Nat.cast_le] at hxy hyx
    obtain rfl := Nat.le_antisymm hxy hyx
    rfl
  · rw [List.pairwise_iff_getElem]
    intro i j hi hj hij
    simp only [List.getElem_mapIdx, decide_eq_true_eq, Nat.cast_le]
    exact hij.le

/-- The vectors of a batch are returned in the order of its texts, whatever the order of the items
in the answer: they are sorted by their `index`. -/
theorem embedBatch_eq (hanswers : Answers service vector) (k : ℕ) {batch : List PyStr}
    (hbatch : batch ≠ []) : embedBatch service k batch = .ok (batch.mapIdx (vector k)) := by
  obtain ⟨body, items, hservice, hperm⟩ := hanswers k batch hbatch
  rw [embedBatch, hservice]
  show Except.ok ((items.mergeSort fun x y => x.index ≤ y.index).map EmbeddingItem.embedding) = _
  rw [mergeSort_eq_mapIdx hperm]
  refine congrArg Except.ok (List.ext_getElem? fun j => ?_)
  rw [List.getElem?_map, List.getElem?_mapIdx, List.getElem?_mapIdx, Option.map_map]
  rfl

/-- Batches of `size` texts, each answered in order, put together make up the beginning of the whole
answer: the loop invariant of `embed`. -/
theorem foldlM_batches {α ε : Type} {f : ℕ → Except ε (List α)} (xs : List α) (size m : ℕ)
    (hf : ∀ k < m, f k = .ok ((xs.drop (k * size)).take size)) :
    (List.range m).foldlM (fun all k => do
      let result ← f k
      return all ++ result) [] = .ok (xs.take (m * size)) := by
  induction m with
  | zero => rw [Nat.zero_mul]; rfl
  | succ m ih =>
    rw [List.range_succ, List.foldlM_append, ih fun k hk => hf k (Nat.lt_succ_of_lt hk),
      Nat.succ_mul, List.take_add]
    show (f m >>= fun result => Except.ok (xs.take (m * size) ++ result)) >>= _ = _
    rw [hf m (Nat.lt_succ_self m)]
    rfl

/-- The number of batches is enough for all texts and leaves none empty, so the loop of `embed`
sends every text once. -/
theorem batches_spec {size : ℕ} (hsize : 0 < size) (n : ℕ) :
    n ≤ (n + size - 1) / size * size ∧ ∀ k < (n + size - 1) / size, k * size < n := by
  have hdiv := Nat.div_add_mod (n + size - 1) size
  have hmod := Nat.mod_lt (n + size - 1) hsize
  rw [Nat.mul_comm] at hdiv
  refine ⟨by omega, fun k hk => ?_⟩
  have hnext : (k + 1) * size ≤ (n + size - 1) / size * size := Nat.mul_le_mul_right size hk
  rw [Nat.add_mul, Nat.one_mul] at hnext
  omega

/-- A batch of the expected embeddings is what the service answers to this batch of the texts,
counted within the batch. -/
theorem take_drop_mapIdx {size : ℕ} (hsize : 0 < size) (k : ℕ) (texts : List PyStr) :
    ((texts.mapIdx fun i text => vector (i / size) (i % size) text).drop (k * size)).take size =
      ((texts.drop (k * size)).take size).mapIdx (vector k) := by
  refine List.ext_getElem? fun j => ?_
  rw [List.getElem?_take, List.getElem?_drop, List.getElem?_mapIdx, List.getElem?_mapIdx,
    List.getElem?_take, List.getElem?_drop]
  split_ifs with hj
  · rw [Nat.mul_comm k size, Nat.mul_add_div hsize, Nat.div_eq_of_lt hj, Nat.mul_add_mod,
      Nat.mod_eq_of_lt hj, Nat.add_zero]
  · rfl

/-- `CloudEmbedder.embed` gives every text the vector of `embeddingOf`, at the place of the text, if
the service `Answers` as documented. -/
theorem embed_eq (hbatch : 1 ≤ embedder.batchSize) (hanswers : Answers service vector)
    (texts : List PyStr) :
    embedder.embed service texts = .ok (texts.mapIdx (embedder.embeddingOf vector)) := by
  cases htexts : texts.isEmpty with
  | true =>
    rw [List.isEmpty_iff.mp htexts]
    rfl
  | false =>
    have hnonzero : embedder.batchSize ≠ 0 := by omega
    have hsize : 0 < embedder.batchSize.toNat := by omega
    rw [embed, htexts]
    unfold embeddingOf
    generalize embedder.batchSize.toNat = size at hsize ⊢
    show (if embedder.batchSize = 0 then _ else _) = _
    rw [if_neg hnonzero]
    obtain ⟨hall, hbatches⟩ := batches_spec hsize texts.length
    refine (foldlM_batches (texts.mapIdx fun i text => vector (i / size) (i % size) text) size _
      fun k hk => ?_).trans ?_
    · have hne : (texts.drop (k * size)).take size ≠ [] := by
        refine List.ne_nil_of_length_pos ?_
        have hlt := hbatches k hk
        rw [List.length_take, List.length_drop]
        omega
      rw [embedBatch_eq hanswers k hne, take_drop_mapIdx hsize]
    · rw [List.take_of_length_le (by rw [List.length_mapIdx]; exact hall)]

/-- The environment of the ingest pipeline with the embedder. -/
def handler (embedder : CloudEmbedder) (service : EmbeddingService) :
    Handler RagOp RagOp.Resp PyExc ChunkTable
  | .embed texts, t => (embedder.embed service texts, t)
  | op, t => ragHandler (fun _ => []) op t

/-- For the loader a service that `Answers` is an embedder: text `i` of a call gets `embeddingOf
vector i`, whatever the batches are. -/
theorem handler_eq (hbatch : 1 ≤ embedder.batchSize) (hanswers : Answers service vector) :
    embedder.handler service =
      ragHandler fun texts => texts.mapIdx (embedder.embeddingOf vector) := by
  funext op t
  cases op with
  | embed texts => exact congrArg (·, t) (embed_eq hbatch hanswers texts)
  | _ => rfl

end CloudEmbedder

namespace DocumentLoader

variable {loader : DocumentLoader} {lim : Json.Limits} {content documentId : PyStr}
  {call : IngestCall} {t : ChunkTable} {embed : List PyStr → List Embedding}

/-- The rows of some chunks, each with the embedding of its own content. -/
def ownRows (lim : Json.Limits) (call : IngestCall) (chunks : List Chunk)
    (vector : ℕ → PyStr → Embedding) : List Row :=
  match Json.dumps lim (.dict (call.metadata.getD [])) with
  | .ok text => chunks.mapIdx fun i chunk =>
    PgVectorRetriever.rowOf text chunk (vector i chunk.content)
  | .error _ => []

/-- An embedder that embeds every text for itself gives the rows of the chunks their own
embeddings. -/
theorem newRows_eq (loader : DocumentLoader) (lim : Json.Limits) (content documentId : PyStr)
    (call : IngestCall) (vector : ℕ → PyStr → Embedding) :
    loader.newRows lim content documentId call (fun texts => texts.mapIdx vector) =
      ownRows lim call (loader.chunksOf content documentId call) vector := by
  rw [newRows, loader.texts_eq content documentId call, rowsFor, ownRows]
  cases Json.dumps lim (.dict (call.metadata.getD [])) with
  | error e => rfl
  | ok text =>
    refine List.ext_getElem? fun i => ?_
    rw [List.getElem?_zipWith, List.getElem?_mapIdx, List.getElem?_mapIdx, List.getElem?_map]
    cases (loader.chunksOf content documentId call)[i]? <;> rfl

/-- `PgVectorRetriever.insertRows` adds no row but those it is given, wherever it stops. -/
theorem mem_rows_run_insertRows (embed : List PyStr → List Embedding) {rows : List Row} {row : Row}
    (hrow : row ∈ ((PgVectorRetriever.insertRows rows).run (ragHandler embed) t).2.rows) :
    row ∈ t.rows ∨ row ∈ rows := by
  induction rows generalizing t with
  | nil => exact Or.inl hrow
  | cons r rows ih =>
    rw [PgVectorRetriever.insertRows_cons, Coro.run_await] at hrow
    rcases ih hrow with hold | hnew
    · rcases ChunkTable.mem_rows_insert hold with hold | rfl
      · exact Or.inl hold
      · exact Or.inr List.mem_cons_self
    · exact Or.inr (List.mem_cons_of_mem _ hnew)

/-- `DocumentLoader.ingest` adds no row but those of `newRows`, whatever the embedder and the
database answer. -/
theorem mem_rows_run_ingest {row : Row}
    (hrow : row ∈ ((loader.ingest lim content documentId call).run (ragHandler embed) t).2.rows) :
    row ∈ t.rows ∨ row ∈ loader.newRows lim content documentId call embed := by
  rw [ingest_eq, Coro.run_await] at hrow
  simp only [ragHandler, Coro.onOk_ok] at hrow
  by_cases hpresent : t.count documentId > 0
  · rw [if_pos hpresent] at hrow
    exact Or.inl hrow
  rw [if_neg hpresent] at hrow
  by_cases hblank : content.strip = []
  · obtain ⟨e, hraise⟩ := loader.ingestNew_of_blank lim documentId hblank call
    rw [hraise] at hrow
    exact Or.inl hrow
  rw [loader.ingestNew_eq lim documentId hblank, Coro.run_await] at hrow
  simp only [ragHandler, Coro.onOk_ok] at hrow
  have hchunks := loader.chunksFor_chunksOf documentId hblank call
  by_cases hstorable : loader.Storable lim documentId content call
      (embed (loader.texts documentId content))
  · rw [storeNew_eq loader lim hchunks hstorable, Coro.run_bind] at hrow
    refine mem_rows_run_insertRows embed ?_
    rcases hrun : (PgVectorRetriever.insertRows (loader.newRows lim content documentId call
      embed)).run (ragHandler embed) t with ⟨_ | _, t'⟩
    all_goals
      rw [newRows] at hrun
      rw [hrun] at hrow
      exact hrow
  · obtain ⟨e, hraise⟩ := storeNew_of_not_storable loader lim hchunks hstorable
    rw [hraise] at hrow
    exact Or.inl hrow

/-- For every list of texts, every positive batch size and every service that answers its batches in
full (`Answers`): the embedder returns, for each text, the embedding that the service gives for it,
`embeddingOf vector`. And for every call of `ingest` with this embedder: all rows that it adds are
rows of its chunks, each with the embedding of its own content (`ownRows`); and if the document is
absent and can be stored, it adds them all. -/
theorem embed_paired (embedder : CloudEmbedder) {service : EmbeddingService}
    {vector : ℕ → ℕ → PyStr → Embedding} (hbatch : 1 ≤ embedder.batchSize)
    (hanswers : CloudEmbedder.Answers service vector) (texts : List PyStr)
    (loader : DocumentLoader) (lim : Json.Limits) (content documentId : PyStr) (call : IngestCall)
    (t : ChunkTable) :
    (∃ vectors, embedder.embed service texts = .ok vectors ∧ vectors.length = texts.length ∧
      ∀ (i : ℕ) text, texts[i]? = some text →
        vectors[i]? = some (embedder.embeddingOf vector i text)) ∧
    let own := ownRows lim call (loader.chunksOf content documentId call)
      (embedder.embeddingOf vector)
    let final := (loader.ingest lim content documentId call).run (embedder.handler service) t
    (∀ row ∈ final.2.rows, row ∈ t.rows ∨ row ∈ own) ∧
    (t.count documentId = 0 → content.strip ≠ [] →
      (Json.dumps lim (.dict (call.metadata.getD []))).isOk → Function.Injective call.uuid4 →
      (∀ k, call.uuid4 k ∉ t.rows.map Row.id) →
        final.1 = .ok own.length ∧ final.2.rows = t.rows ++ own) := by
  have hown := loader.newRows_eq lim content documentId call (embedder.embeddingOf vector)
  refine ⟨⟨_, CloudEmbedder.embed_eq hbatch hanswers texts, List.length_mapIdx, ?_⟩, ?_⟩
  · intro i text htext
    rw [List.getElem?_mapIdx, htext]
    rfl
  intro own final
  simp only [own, final, CloudEmbedder.handler_eq hbatch hanswers, ← hown]
  refine ⟨fun row hrow => mem_rows_run_ingest hrow, fun habsent hblank hdumps hinj hfresh => ?_⟩
  have hnew : loader.Ingestible lim content documentId call fun texts =>
      texts.mapIdx (embedder.embeddingOf vector) := ⟨hblank, List.length_mapIdx, hdumps⟩
  rw [run_ingest_of_absent habsent hnew (hnew.rowsFor.newRows loader hinj hfresh)]
  exact ⟨rfl, rfl⟩

/-- A service that answers in reverse, with the length of each text. -/
def reversed : EmbeddingService := fun _ batch =>
  .ok ⟨200, [], .ok (batch.mapIdx fun j text => ⟨j, [PyStr.ofInt text.length]⟩).reverse⟩

/-- A service that lists its answers in the opposite order, with the right indices, is one of those
that `Answers` describes. -/
theorem answers_reversed :
    CloudEmbedder.Answers reversed fun _ _ text => [PyStr.ofInt text.length] :=
  fun _ _ _ => ⟨_, _, rfl, List.reverse_perm _⟩

/-- `embed_paired` for a service that answers batches of two texts in reverse: each text still gets
its own embedding, and so does each row. -/
theorem reversed_paired :
    let call := (attemptOf 'a' []).toIngestCall
    (∃ vectors, (CloudEmbedder.mk 2).embed reversed ["a".toList, "bb".toList, "ccc".toList] =
        .ok vectors ∧ vectors[2]? = some ["3".toList]) ∧
      ((smallLoader.ingest limits "aaaa bbbb".toList "doc".toList call).run
          ((CloudEmbedder.mk 2).handler reversed) .empty).2.rows =
        ownRows limits call (smallLoader.chunksOf "aaaa bbbb".toList "doc".toList call)
          ((CloudEmbedder.mk 2).embeddingOf fun _ _ text => [PyStr.ofInt text.length]) := by
  intro call
  obtain ⟨⟨vectors, hembed, -, hvectors⟩, -, hstored⟩ := embed_paired ⟨2⟩ (by decide)
    answers_reversed ["a".toList, "bb".toList, "ccc".toList] smallLoader limits
    "aaaa bbbb".toList "doc".toList call .empty
  obtain ⟨hinj, hfresh⟩ := attemptOf_fresh 'a' []
  have hdumps : (Json.dumps limits (.dict (call.metadata.getD []))).isOk = true := by decide +kernel
  have hrows := (hstored rfl (by decide) hdumps hinj hfresh).2
  have hthird := hvectors 2 "ccc".toList rfl
  refine ⟨⟨vectors, hembed, hthird⟩, ?_⟩
  have hempty : ChunkTable.empty.rows = [] := rfl
  rw [hempty, List.nil_append] at hrows
  exact hrows

end DocumentLoader
