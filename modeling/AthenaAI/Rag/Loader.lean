import AthenaAI.Rag.Coverage
import AthenaAI.Rag.Retriever
import AthenaAI.ToMathlib.Except

/-!
# The ingest pipeline

`athenai.rag.loader`. `ingest` counts the stored chunks of the document and, if there are none,
parses, chunks, embeds and stores it.

* `ingest` and `reingest` are coroutines: they are interrupted where the source awaits the table or
  the embedder, and nowhere else. `ingestNew` is the part of `ingest` after the check.
* `expected` are the chunks that the pipeline makes of a content, by index and text.
* `ingestNew_of_blank` and `ingestNew_eq` say what `ingestNew` does. After the embedder has
  answered, it inserts rows that carry the expected chunks (`rowsFor`, `storeNew_eq`) or raises
  before the first insertion (`storeNew_of_not_storable`).
-/

/-- What the caller of `ingest` chooses apart from the document, and the identifiers that the call
draws. -/
structure IngestCall where
  /-- Where the document comes from. -/
  source : PyStr := []
  /-- The metadata. -/
  metadata : Option PyDict := none
  /-- `uuid4 k` is the `k`-th identifier drawn by the call. -/
  uuid4 : ℕ → PyStr

/-- The orchestrator. Its parser has no state, and its embedder and retriever are reached through
the operations of `Rag`. -/
structure DocumentLoader where
  /-- The chunker. -/
  chunker : SlidingWindowChunker

namespace DocumentLoader

/-- The limits of an interpreter that allows a thousand nested containers. -/
def limits : Json.Limits := { depth := 1000 }

/-- A loader with windows of four characters and no overlap. -/
def smallLoader : DocumentLoader := ⟨⟨1, 0, by decide⟩⟩

variable (loader : DocumentLoader) (lim : Json.Limits) (content documentId : PyStr)

/-- The last part of `ingest`, from the answer of the embedder on. -/
def storeNew (chunks : List Chunk) (embeddings : List Embedding) : Rag ℕ := do
  PgVectorRetriever.storeChunks lim chunks embeddings
  return chunks.length

/-- The part of `ingest` after the check. -/
def ingestNew (call : IngestCall) : Rag ℕ := do
  let doc ← Coro.ofExcept (DocumentParser.parse content documentId call.source call.metadata)
  let chunks := loader.chunker.chunk call.uuid4 doc
  if chunks.isEmpty then
    return 0
  else
    let texts := chunks.map Chunk.content
    -- nothing is stored until the embedder has answered for all chunks
    let embeddings ← Coro.perform (RagOp.embed texts)
    storeNew lim chunks embeddings

/-- `DocumentLoader.ingest`. -/
def ingest (call : IngestCall) : Rag ℕ := do
  let existing ← PgVectorRetriever.countByDocument documentId
  -- skip if already stored
  if existing > 0 then
    return existing
  else
    loader.ingestNew lim content documentId call

/-- `DocumentLoader.reingest`. -/
def reingest (call : IngestCall) : Rag ℕ := do
  -- the deletion is committed whatever becomes of the ingest
  PgVectorRetriever.deleteDocument documentId
  loader.ingest lim content documentId call

/-- `ingest` as a computation: it counts the chunks of the document, returns their number if there
are any, and goes on with `ingestNew` otherwise. -/
theorem ingest_eq (call : IngestCall) :
    loader.ingest lim content documentId call =
      Coro.await (RagOp.countByDocument documentId) (Coro.onOk fun existing : ℕ =>
        if existing > 0 then Coro.ret existing
        else loader.ingestNew lim content documentId call) :=
  Coro.perform_bind _ _

/-! ## The chunks of a content -/

/-- What `chunk(parse(content))` produces: the index and the text of each chunk. They do not depend
on the identifiers drawn. -/
def expected : List (ℕ × PyStr) :=
  match DocumentParser.parse content documentId with
  | .ok doc => (loader.chunker.chunk (fun _ => []) doc).map fun c => (c.chunkIndex, c.content)
  | .error _ => []

variable {content documentId}

/-- The `expected` chunks, with their numbers and contents, are those that every call which parses
the content makes, whatever it draws. -/
theorem expected_eq {source : PyStr} {metadata : Option PyDict} {doc : ParsedDocument}
    (hparse : DocumentParser.parse content documentId source metadata = .ok doc)
    (uuid4 : ℕ → PyStr) :
    ((loader.chunker.chunk uuid4 doc).map fun c => (c.chunkIndex, c.content)) =
      loader.expected content documentId := by
  obtain ⟨hblank, rfl⟩ := DocumentParser.parse_eq_ok_iff.mp hparse
  -- neither the source nor the metadata changes the text that is chunked
  rw [expected, DocumentParser.parse_of_not_blank hblank]
  dsimp only
  rw [SlidingWindowChunker.map_chunk_eq_items, SlidingWindowChunker.map_chunk_eq_items]

/-- A blank content has no chunks. -/
theorem expected_of_blank (hblank : content.strip = []) :
    loader.expected content documentId = [] := by
  obtain ⟨e, hparse⟩ := DocumentParser.exists_parse_eq_error hblank documentId [] none
  rw [expected, hparse]

/-- A content that is not blank has a chunk. -/
theorem expected_ne_nil (hblank : content.strip ≠ []) :
    loader.expected content documentId ≠ [] := by
  have hparse := DocumentParser.parse_of_not_blank hblank documentId [] none
  rw [← loader.expected_eq hparse fun _ => []]
  intro hnil
  -- the text starts with a non-whitespace character, and that lies in a chunk
  obtain ⟨c, hc, hspace⟩ := PyStr.join_split_head hblank
  let doc : ParsedDocument := ⟨documentId, PyStr.join [' '] content.split, [], []⟩
  have hcovered : loader.chunker.Covered (fun _ => []) doc 0 :=
    loader.chunker.covered_zero _ hc (by simp [hspace])
  obtain ⟨ch, hch, -⟩ := hcovered
  have hempty : loader.chunker.chunk (fun _ => []) doc = [] := List.map_eq_nil_iff.mp hnil
  rw [hempty] at hch
  exact List.not_mem_nil hch

/-! ## What a call does when the document is absent -/

variable (documentId)

/-- What a call makes of the content: the expected chunks, with the identifiers, the document and
the metadata of the call. -/
structure ChunksFor (content : PyStr) (call : IngestCall) (chunks : List Chunk) : Prop where
  /-- They are the expected chunks. -/
  items : (chunks.map fun c => (c.chunkIndex, c.content)) = loader.expected content documentId
  /-- The identifiers are those drawn by the call. -/
  ids : chunks.map Chunk.chunkId = (List.range chunks.length).map call.uuid4
  /-- All chunks belong to the document. -/
  documentId_eq : ∀ c ∈ chunks, c.documentId = documentId
  /-- All chunks carry the metadata of the call. -/
  metadata_eq : ∀ c ∈ chunks, c.metadata = call.metadata.getD []
  /-- There is a chunk. -/
  ne_nil : chunks ≠ []

/-- The rows that a call inserts. -/
structure RowsFor (content : PyStr) (call : IngestCall) (rows : List Row) : Prop where
  /-- They carry the expected chunks. -/
  items : (rows.map fun row => (row.chunkIndex, row.content)) = loader.expected content documentId
  /-- The identifiers are those drawn by the call. -/
  ids : rows.map Row.id = (List.range rows.length).map call.uuid4
  /-- All rows belong to the document. -/
  documentId_eq : ∀ row ∈ rows, row.documentId = documentId

/-- The texts that a call has embedded. -/
def texts (content : PyStr) : List PyStr := (loader.expected content documentId).map Prod.snd

/-- The embedder has answered with one vector for each text, and the metadata of the call can be
dumped. -/
def Storable (content : PyStr) (call : IngestCall) (embeddings : List Embedding) : Prop :=
  embeddings.length = (loader.texts documentId content).length ∧
    (Json.dumps lim (.dict (call.metadata.getD []))).isOk

instance (call : IngestCall) (embeddings : List Embedding) :
    Decidable (loader.Storable lim documentId content call embeddings) := by
  unfold Storable
  infer_instance

variable {documentId}

/-- A blank content is refused. -/
theorem ingestNew_of_blank (documentId : PyStr) (hblank : content.strip = []) (call : IngestCall) :
    ∃ e, loader.ingestNew lim content documentId call = Coro.raise e := by
  obtain ⟨e, hparse⟩ :=
    DocumentParser.exists_parse_eq_error hblank documentId call.source call.metadata
  exact ⟨e, by rw [ingestNew, hparse]; rfl⟩

/-- The chunks that a call makes of the content. -/
def chunksOf (content documentId : PyStr) (call : IngestCall) : List Chunk :=
  match DocumentParser.parse content documentId call.source call.metadata with
  | .ok doc => loader.chunker.chunk call.uuid4 doc
  | .error _ => []

/-- For a content that is parsed, the chunks are those that the chunker makes of the parsed text. -/
theorem chunksOf_eq {doc : ParsedDocument} {call : IngestCall}
    (hparse : DocumentParser.parse content documentId call.source call.metadata = .ok doc) :
    loader.chunksOf content documentId call = loader.chunker.chunk call.uuid4 doc := by
  rw [chunksOf, hparse]

/-- For a content that is not blank the call makes its chunks: they are the expected ones, as
`ChunksFor` says. -/
theorem chunksFor_chunksOf (documentId : PyStr) (hblank : content.strip ≠ []) (call : IngestCall) :
    loader.ChunksFor documentId content call (loader.chunksOf content documentId call) := by
  have hparse :=
    DocumentParser.parse_of_not_blank hblank documentId call.source call.metadata
  have hitems := loader.expected_eq hparse call.uuid4
  rw [loader.chunksOf_eq hparse]
  refine ⟨hitems, loader.chunker.map_chunkId_chunk call.uuid4 _,
    fun c hc => (loader.chunker.of_mem_chunk hc).1,
    fun c hc => (loader.chunker.of_mem_chunk hc).2, fun hnil => ?_⟩
  rw [hnil] at hitems
  exact loader.expected_ne_nil hblank hitems.symm

/-- The texts that are sent to the embedder are the contents of the chunks, in their order. -/
theorem texts_eq (content documentId : PyStr) (call : IngestCall) :
    loader.texts documentId content =
      (loader.chunksOf content documentId call).map Chunk.content := by
  by_cases hblank : content.strip = []
  · obtain ⟨e, hparse⟩ :=
      DocumentParser.exists_parse_eq_error hblank documentId call.source call.metadata
    rw [texts, loader.expected_of_blank hblank, chunksOf, hparse]
    rfl
  · rw [texts, ← (loader.chunksFor_chunksOf documentId hblank call).items, List.map_map]
    rfl

/-- A content that is not blank is chunked and embedded, and its chunks are stored with the answer
of the embedder (`storeNew`). -/
theorem ingestNew_eq (documentId : PyStr) (hblank : content.strip ≠ []) (call : IngestCall) :
    loader.ingestNew lim content documentId call =
      Coro.await (RagOp.embed (loader.texts documentId content))
        (Coro.onOk (storeNew lim (loader.chunksOf content documentId call))) := by
  have hparse :=
    DocumentParser.parse_of_not_blank hblank documentId call.source call.metadata
  have hnil := (loader.chunksFor_chunksOf documentId hblank call).ne_nil
  rw [loader.texts_eq content documentId call]
  rw [loader.chunksOf_eq hparse] at hnil ⊢
  rw [ingestNew, hparse]
  -- there are chunks, so the embedder is asked
  show (if (loader.chunker.chunk call.uuid4 _).isEmpty then _ else _) = _
  rw [List.isEmpty_eq_false_iff.mpr hnil]
  exact Coro.perform_bind _ _

/-- For a content that is not blank the chunks of the call are made, and the next thing awaited is
the embedder. -/
theorem ingestNew_of_not_blank (documentId : PyStr) (hblank : content.strip ≠ [])
    (call : IngestCall) :
    ∃ chunks, loader.ChunksFor documentId content call chunks ∧
      loader.ingestNew lim content documentId call =
        Coro.await (RagOp.embed (loader.texts documentId content))
          (Coro.onOk (storeNew lim chunks)) :=
  ⟨_, loader.chunksFor_chunksOf documentId hblank call,
    loader.ingestNew_eq lim documentId hblank call⟩

variable {call : IngestCall} {chunks : List Chunk} {embeddings : List Embedding}

private theorem length_eq (hchunks : loader.ChunksFor documentId content call chunks) :
    (loader.texts documentId content).length = chunks.length := by
  rw [texts, ← hchunks.items, List.length_map, List.length_map]

/-- The rows of some chunks and their vectors, if the metadata of the call can be dumped. -/
def rowsFor (call : IngestCall) (chunks : List Chunk) (embeddings : List Embedding) : List Row :=
  match Json.dumps lim (.dict (call.metadata.getD [])) with
  | .ok text => List.zipWith (PgVectorRetriever.rowOf text) chunks embeddings
  | .error _ => []

/-- With an answer of the embedder that can be stored (`Storable`) the rows of a call carry its
chunks, as `RowsFor` says. -/
theorem rowsFor_rowsFor (hchunks : loader.ChunksFor documentId content call chunks)
    (hstorable : loader.Storable lim documentId content call embeddings) :
    loader.RowsFor documentId content call (rowsFor lim call chunks embeddings) := by
  obtain ⟨hlength, hok⟩ := hstorable
  rw [length_eq loader hchunks] at hlength
  obtain ⟨text, hdumps⟩ := Except.isOk_eq_true_iff.mp hok
  rw [rowsFor, hdumps]
  let rows := List.zipWith (PgVectorRetriever.rowOf text) chunks embeddings
  have hrows : rows.length = chunks.length := by simp [rows, hlength]
  -- a row carries the data of its chunk
  have hfield {β : Type} (f : Row → β) (g : Chunk → β)
      (hfg : ∀ c v, f (PgVectorRetriever.rowOf text c v) = g c) : rows.map f = chunks.map g :=
    List.ext_getElem (by simp [hrows]) fun k _ _ => by simp [rows, hfg]
  refine ⟨?_, ?_, fun row hrow => ?_⟩
  · rw [← hchunks.items]
    exact hfield _ _ fun _ _ => rfl
  · show rows.map Row.id = (List.range rows.length).map call.uuid4
    rw [hrows, ← hchunks.ids]
    exact hfield _ _ fun _ _ => rfl
  · have hmem : row.documentId ∈ rows.map Row.documentId := List.mem_map_of_mem hrow
    rw [hfield Row.documentId Chunk.documentId fun _ _ => rfl] at hmem
    obtain ⟨c, hc, heq⟩ := List.mem_map.mp hmem
    rw [← heq, hchunks.documentId_eq c hc]

/-- With an answer of the embedder that can be stored (`Storable`) a call inserts its rows, one
after the other. -/
theorem storeNew_eq (hchunks : loader.ChunksFor documentId content call chunks)
    (hstorable : loader.Storable lim documentId content call embeddings) :
    storeNew lim chunks embeddings =
      PgVectorRetriever.insertRows (rowsFor lim call chunks embeddings) >>=
        fun _ => Coro.ret (rowsFor lim call chunks embeddings).length := by
  obtain ⟨hlength, hok⟩ := hstorable
  rw [length_eq loader hchunks] at hlength
  obtain ⟨text, hdumps⟩ := Except.isOk_eq_true_iff.mp hok
  have hrows : (rowsFor lim call chunks embeddings).length = chunks.length := by
    simp [rowsFor, hdumps, hlength]
  rw [storeNew, PgVectorRetriever.storeChunks_eq lim hchunks.metadata_eq hlength.symm
    hchunks.ne_nil, hrows, rowsFor, hdumps]
  rfl

/-- If every row can be made, what remains is the insertion of the rows, one after the other. -/
theorem storeNew_of_storable (hchunks : loader.ChunksFor documentId content call chunks)
    (hstorable : loader.Storable lim documentId content call embeddings) :
    ∃ rows, loader.RowsFor documentId content call rows ∧
      storeNew lim chunks embeddings =
        PgVectorRetriever.insertRows rows >>= fun _ => Coro.ret rows.length :=
  ⟨_, rowsFor_rowsFor loader lim hchunks hstorable, storeNew_eq loader lim hchunks hstorable⟩

/-- With an answer of the embedder that cannot be stored a call raises before it inserts
anything. -/
theorem storeNew_of_not_storable (hchunks : loader.ChunksFor documentId content call chunks)
    (hstorable : ¬loader.Storable lim documentId content call embeddings) :
    ∃ e, storeNew lim chunks embeddings = Coro.raise e := by
  rw [storeNew]
  by_cases hlength : chunks.length = embeddings.length
  -- the metadata is not JSON: the first `json.dumps` raises
  · rw [PgVectorRetriever.storeChunks_eq lim hchunks.metadata_eq hlength hchunks.ne_nil]
    cases hdumps : Json.dumps lim (.dict (call.metadata.getD [])) with
    | error e => exact ⟨e, rfl⟩
    | ok text =>
      refine absurd ⟨?_, ?_⟩ hstorable
      · rw [length_eq loader hchunks, hlength]
      · rw [hdumps]
        rfl
  -- the embedder has answered with the wrong number of vectors
  · rw [PgVectorRetriever.storeChunks, if_pos hlength]
    exact ⟨_, rfl⟩

/-- A table without the identifiers that the call draws has room for its rows (`NewRows`). -/
theorem RowsFor.newRows {rows : List Row} (hrows : loader.RowsFor documentId content call rows)
    {t : ChunkTable} (hinj : Function.Injective call.uuid4)
    (hnew : ∀ k, call.uuid4 k ∉ t.rows.map Row.id) : t.NewRows rows := by
  refine ⟨?_, fun row hrow => ?_⟩
  · rw [hrows.ids]
    exact List.nodup_range.map hinj
  · have hid : row.id ∈ rows.map Row.id := List.mem_map_of_mem hrow
    rw [hrows.ids, List.mem_map] at hid
    obtain ⟨k, -, hk⟩ := hid
    rw [← hk]
    exact hnew k

end DocumentLoader
