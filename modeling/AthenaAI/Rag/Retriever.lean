import AthenaAI.Python.Json
import AthenaAI.Rag.Chunker
import AthenaAI.ToMathlib.Coro
import Mathlib.Data.List.Nodup

/-!
# The chunk store

`athenai.rag.retriever`. The `chunks` table, the statements the retriever sends to it, and the
retriever's methods as coroutines that await those statements.

* `ChunkTable` is the table; its field `id_nodup` is the primary key. The column `created_at` is
  left out: it is written and never read.
* `RagOp` are the operations the ingest pipeline awaits. Each statement is its own transaction, as
  no method opens one.
* `storeChunks_eq`: if the metadata can be dumped, `store_chunks` sends one `INSERT` for each chunk;
  if it cannot, it raises before the first one.
-/

/-- An embedding vector, each component by the text `str` gives for it. -/
abbrev Embedding := List PyStr

/-- A row of the `chunks` table. -/
structure Row where
  /-- The primary key. -/
  id : PyStr
  /-- The document of the chunk. -/
  documentId : PyStr
  /-- The text of the chunk. -/
  content : PyStr
  /-- Its place in the document. -/
  chunkIndex : ℕ
  /-- The text of the vector. -/
  embedding : PyStr
  /-- The metadata as JSON text. -/
  metadata : PyStr
  deriving DecidableEq

/-- The `chunks` table, its rows in the order they were inserted. -/
@[ext]
structure ChunkTable where
  /-- The rows. -/
  rows : List Row
  /-- `id` is the primary key. -/
  id_nodup : (rows.map Row.id).Nodup

namespace ChunkTable

/-- The table without rows. -/
def empty : ChunkTable := ⟨[], List.nodup_nil⟩

/-- `INSERT … ON CONFLICT (id) DO NOTHING`. -/
def insert (t : ChunkTable) (row : Row) : ChunkTable :=
  -- `ON CONFLICT (id) DO NOTHING`
  if h : row.id ∈ t.rows.map Row.id then t
  else
    { rows := t.rows ++ [row]
      id_nodup := by
        rw [List.map_append, List.map_singleton]
        refine List.nodup_append.mpr ⟨t.id_nodup, List.nodup_singleton _, fun id hid id' hid' => ?_⟩
        rw [List.mem_singleton.mp hid']
        exact fun heq => h (heq ▸ hid) }

/-- `DELETE FROM chunks WHERE document_id = $1`. -/
def delete (t : ChunkTable) (documentId : PyStr) : ChunkTable where
  rows := t.rows.filter fun row => row.documentId ≠ documentId
  id_nodup := t.id_nodup.sublist (List.filter_sublist.map _)

/-- `SELECT COUNT(*) FROM chunks WHERE document_id = $1`. -/
def count (t : ChunkTable) (documentId : PyStr) : ℕ :=
  t.rows.countP fun row => row.documentId = documentId

/-- What is stored of a document: the index and the text of each of its chunks. -/
def itemsOf (t : ChunkTable) (documentId : PyStr) : List (ℕ × PyStr) :=
  (t.rows.filter fun row => row.documentId = documentId).map fun row =>
    (row.chunkIndex, row.content)

/-- The rows of a document. -/
def rowsOf (t : ChunkTable) (documentId : PyStr) : List Row :=
  t.rows.filter fun row => row.documentId = documentId

/-- `count_by_document` is the number of rows of the document. -/
theorem count_eq_length_rowsOf (t : ChunkTable) (documentId : PyStr) :
    t.count documentId = (t.rowsOf documentId).length :=
  List.countP_eq_length_filter

theorem count_eq_length (t : ChunkTable) (documentId : PyStr) :
    t.count documentId = (t.itemsOf documentId).length := by
  rw [count, itemsOf, List.length_map, List.countP_eq_length_filter]

/-- The rows are new to the table: no identifier occurs twice among them or is taken. -/
structure NewRows (t : ChunkTable) (rows : List Row) : Prop where
  /-- The identifiers differ from one another. -/
  nodup : (rows.map Row.id).Nodup
  /-- None is in the table. -/
  new : ∀ row ∈ rows, row.id ∉ t.rows.map Row.id

variable {t : ChunkTable} {row : Row} {rows : List Row}

/-- `ON CONFLICT DO NOTHING` adds a row whose identifier is new. -/
theorem rows_insert_of_new (h : row.id ∉ t.rows.map Row.id) :
    (t.insert row).rows = t.rows ++ [row] := by
  rw [insert, dif_neg h]

/-- An insertion adds at most the row. -/
theorem mem_rows_insert {r : Row} (h : r ∈ (t.insert row).rows) : r ∈ t.rows ∨ r = row := by
  by_cases hrow : row.id ∈ t.rows.map Row.id
  · -- the row is not inserted
    rw [insert, dif_pos hrow] at h
    exact Or.inl h
  · rw [rows_insert_of_new hrow, List.mem_append, List.mem_singleton] at h
    exact h

/-- After an insertion at most one more identifier is taken. -/
theorem mem_ids_insert {id : PyStr} (h : id ∈ (t.insert row).rows.map Row.id) :
    id ∈ t.rows.map Row.id ∨ id = row.id := by
  obtain ⟨r, hr, rfl⟩ := List.mem_map.mp h
  rcases mem_rows_insert hr with hr | rfl
  · exact Or.inl (List.mem_map_of_mem hr)
  · exact Or.inr rfl

/-- Inserting the first of some new rows leaves the others new (`NewRows`), since their identifiers
differ. -/
theorem NewRows.tail (h : t.NewRows (row :: rows)) : (t.insert row).NewRows rows := by
  obtain ⟨hrow, hnodup⟩ := List.nodup_cons.mp (List.map_cons ▸ h.nodup)
  refine ⟨hnodup, fun r hr hid => ?_⟩
  rcases mem_ids_insert hid with hid | hid
  · exact h.new r (List.mem_cons_of_mem _ hr) hid
  · exact hrow (hid ▸ List.mem_map_of_mem hr)

/-- The table with new rows at its end. -/
def append (t : ChunkTable) (rows : List Row) (hnew : t.NewRows rows) : ChunkTable where
  rows := t.rows ++ rows
  id_nodup := by
    rw [List.map_append]
    refine List.nodup_append.mpr ⟨t.id_nodup, hnew.nodup, fun id hid id' hid' heq => ?_⟩
    obtain ⟨row, hrow, rfl⟩ := List.mem_map.mp hid'
    exact hnew.new row hrow (heq ▸ hid)

theorem append_cons (hnew : t.NewRows (row :: rows)) :
    t.append (row :: rows) hnew = (t.insert row).append rows hnew.tail := by
  ext1
  show t.rows ++ row :: rows = (t.insert row).rows ++ rows
  rw [rows_insert_of_new (hnew.new row List.mem_cons_self), List.append_cons]

/-- Inserting a row with a new identifier adds its item, the number and the content, behind those of
its document. -/
theorem itemsOf_insert (h : row.id ∉ t.rows.map Row.id) :
    (t.insert row).itemsOf row.documentId =
      t.itemsOf row.documentId ++ [(row.chunkIndex, row.content)] := by
  rw [itemsOf, rows_insert_of_new h, List.filter_append, List.map_append]
  simp [itemsOf]

end ChunkTable

/-! ## The operations -/

/-- What the ingest pipeline awaits: the statements on the table and the embedder. -/
inductive RagOp where
  | countByDocument (documentId : PyStr)
  | insert (row : Row)
  | deleteDocument (documentId : PyStr)
  | embed (texts : List PyStr)

/-- The answers to the operations. -/
@[reducible]
def RagOp.Resp : RagOp → Type
  | .countByDocument _ => ℕ
  | .insert _ => Unit
  | .deleteDocument _ => Unit
  | .embed _ => List Embedding

/-- The coroutines of the ingest pipeline. -/
abbrev Rag := Coro RagOp RagOp.Resp PyExc

/-- The environment of the pipeline: the table, and an embedder that answers as `embed` says. -/
def ragHandler (embed : List PyStr → List Embedding) : Handler RagOp RagOp.Resp PyExc ChunkTable
  | .countByDocument documentId, t => (.ok (t.count documentId), t)
  | .insert row, t => (.ok (), t.insert row)
  | .deleteDocument documentId, t => (.ok (), t.delete documentId)
  | .embed texts, t => (.ok (embed texts), t)

/-! ## The methods -/

namespace PgVectorRetriever

/-- `PgVectorRetriever.count_by_document`. -/
def countByDocument (documentId : PyStr) : Rag ℕ := Coro.perform (RagOp.countByDocument documentId)

/-- `PgVectorRetriever.delete_document`. -/
def deleteDocument (documentId : PyStr) : Rag Unit := Coro.perform (RagOp.deleteDocument documentId)

/-- The text of a vector. -/
def embStr (embedding : Embedding) : PyStr := ['['] ++ PyStr.join [','] embedding ++ [']']

/-- The row of a chunk. -/
def rowOf (metadata : PyStr) (chunk : Chunk) (embedding : Embedding) : Row where
  id := chunk.chunkId
  documentId := chunk.documentId
  content := chunk.content
  chunkIndex := chunk.chunkIndex
  embedding := embStr embedding
  metadata := metadata

/-- The body of the loop of `store_chunks`. -/
def storeChunk (lim : Json.Limits) (chunk : Chunk) (embedding : Embedding) : Rag Unit := do
  -- `json.dumps` may raise, and the chunks before this one are stored by then
  let metadata ← Coro.ofExcept (Json.dumps lim (.dict chunk.metadata))
  Coro.perform (RagOp.insert (rowOf metadata chunk embedding))

/-- `PgVectorRetriever.store_chunks`. -/
def storeChunks (lim : Json.Limits) (chunks : List Chunk) (embeddings : List Embedding) :
    Rag Unit :=
  if chunks.length ≠ embeddings.length then
    Coro.raise (.of .ValueError "chunks and embeddings must have equal length".toList)
  else forM (chunks.zip embeddings) fun (chunk, embedding) => storeChunk lim chunk embedding

/-- The insertion of some rows, one statement after the other. -/
def insertRows (rows : List Row) : Rag Unit :=
  forM rows fun row => Coro.perform (RagOp.insert row)

theorem insertRows_nil : insertRows [] = Coro.ret () := rfl

/-- The loop of `store` awaits one insertion for each row. -/
theorem insertRows_cons (row : Row) (rows : List Row) :
    insertRows (row :: rows) =
      Coro.await (RagOp.insert row) (Coro.onOk fun _ => insertRows rows) :=
  Coro.perform_bind _ _

/-- Without failures, the loop of `store` inserts new rows, all of them, with one awaited operation
for each. -/
theorem run_insertRows_of_new (embed : List PyStr → List Embedding) {t : ChunkTable}
    {rows : List Row} (hnew : t.NewRows rows) :
    (insertRows rows).run (ragHandler embed) t = (.ok (), t.append rows hnew) ∧
      (insertRows rows).awaited (ragHandler embed) t = rows.length := by
  induction rows generalizing t with
  | nil => exact ⟨congrArg _ (ChunkTable.ext (List.append_nil t.rows).symm), rfl⟩
  | cons row rows ih =>
    obtain ⟨hrun, hawaited⟩ := ih hnew.tail
    rw [insertRows_cons, Coro.run_await, Coro.awaited_await, ChunkTable.append_cons]
    exact ⟨hrun, congrArg (· + 1) hawaited⟩

/-- If every chunk carries the metadata `metadata`, `store_chunks` inserts the rows of the chunks,
or raises before the first insertion. -/
theorem storeChunks_eq (lim : Json.Limits) {chunks : List Chunk} {embeddings : List Embedding}
    {metadata : PyDict} (hmetadata : ∀ c ∈ chunks, c.metadata = metadata)
    (hlength : chunks.length = embeddings.length) (hchunks : chunks ≠ []) :
    storeChunks lim chunks embeddings =
      match Json.dumps lim (.dict metadata) with
      | .ok text => insertRows (List.zipWith (rowOf text) chunks embeddings)
      | .error e => Coro.raise e := by
  rw [storeChunks, if_neg (not_not.mpr hlength)]
  cases hdumps : Json.dumps lim (.dict metadata) with
  | error e =>
    -- the first chunk raises, before its `INSERT`
    obtain ⟨c, chunks, rfl⟩ := List.exists_cons_of_ne_nil hchunks
    obtain ⟨v, embeddings, rfl⟩ := List.exists_cons_of_length_eq_add_one hlength.symm
    have hstep : storeChunk lim c v = Coro.raise e := by
      rw [storeChunk, hmetadata c List.mem_cons_self, hdumps]
      rfl
    rw [List.zip_cons_cons, List.forM_cons]
    simp only [hstep, Coro.raise_bind]
  | ok text =>
    -- one `INSERT` a chunk, by induction on the chunks
    clear hlength hchunks
    induction chunks generalizing embeddings with
    | nil => rfl
    | cons c chunks ih =>
      cases embeddings with
      | nil => rfl
      | cons v embeddings =>
        have hstep : storeChunk lim c v = Coro.perform (RagOp.insert (rowOf text c v)) := by
          rw [storeChunk, hmetadata c List.mem_cons_self, hdumps]
          rfl
        rw [List.zip_cons_cons, List.forM_cons,
          ih fun c hc => hmetadata c (List.mem_cons_of_mem _ hc)]
        simp only [hstep]
        rfl

end PgVectorRetriever
