import AthenaAI.Memory.Conversation
import AthenaAI.Python.Json
import AthenaAI.ToMathlib.Except
import AthenaAI.ToMathlib.Table

/-!
# Semantic memory

`athenai.memory.semantic`. The table `semantic_memories` and the methods that write and search it.

The model makes two choices. The database is a parameter: `SemanticMemory` has what the class takes
from it, which are the limits of the JSON encoder, the statements that are refused, the order of
nearness and the scores. And each method sends one statement, which has its effect at once or, if it
is refused, none at all.

* `SemanticRow` and `SemanticTable` are the rows and the table. `StoreCall` are the arguments of
  `store`, with the id and the time that the call draws.
* `SemanticMemory.refuses` tells the rows that the statement of `store` is refused for: the vector
  is cast to `vector(1536)` and the metadata to `jsonb`, so one with another number of components,
  or one with a `NaN` in it, is an error of the database.
* `inserted` is the row that a call sends, or the exception that it ends with. `store`, `search` and
  `delete` are the methods.
* `exists_row_of_mem_search` and `exists_mem_search`: a search finds the rows among which it looks,
  whatever the order is.
-/

/-- A row of the table `semantic_memories`. -/
structure SemanticRow where
  /-- The primary key. -/
  id : PyStr
  /-- The session. -/
  sessionId : PyStr
  /-- The text. -/
  content : PyStr
  /-- The text of the vector. -/
  embedding : PyStr
  /-- The time of the first `INSERT`. -/
  createdAt : ℚ
  /-- The metadata as JSON text. -/
  metadata : PyStr

/-- The table `semantic_memories`. -/
abbrev SemanticTable := Table SemanticRow.id

/-- The arguments of `SemanticMemory.store`, with the id and the time that the call draws. -/
structure StoreCall where
  /-- The session. -/
  sessionId : PyStr
  /-- The text. -/
  content : PyStr
  /-- The embedding, each component by the text `str` gives for it. -/
  embedding : List PyStr
  /-- The id, if the caller has chosen one. -/
  memoryId : Option PyStr := none
  /-- Further data. -/
  metadata : Option PyDict := none
  /-- `str(uuid.uuid4())`. -/
  uuid : PyStr
  /-- `time.time()`. -/
  now : ℚ

/-- The database as the class sees it. -/
structure SemanticMemory where
  /-- The limits of the JSON encoder. -/
  lim : Json.Limits
  /-- The error with which the statement of `store` is refused: where a text cannot be sent, or
  where the casts `$4::vector` and `$6::jsonb` fail. -/
  refuses : SemanticRow → Option PyExc
  /-- The value of a JSON text in the column `metadata`. -/
  jsonb : PyStr → PyDict
  /-- `ORDER BY embedding <=> $1`. -/
  nearest : (query : PyStr) → List SemanticRow → List SemanticRow
  /-- The rows are put in order. -/
  nearest_perm : ∀ query rows, (nearest query rows).Perm rows
  /-- `1 - (embedding <=> $1)`, as a text. -/
  score : (query : PyStr) → SemanticRow → PyStr

/-- The text of a vector. -/
def embeddingStr (embedding : List PyStr) : PyStr := ['['] ++ PyStr.join [','] embedding ++ [']']

namespace StoreCall

/-- `memory_id or str(uuid.uuid4())`. -/
def memId (call : StoreCall) : PyStr := (call.memoryId.getD []).orElse call.uuid

/-- `metadata or {}`. -/
def metaDict (call : StoreCall) : PyDict := call.metadata.getD []

/-- The row that the call inserts, with its metadata as JSON text. -/
def row (call : StoreCall) (metadata : PyStr) : SemanticRow where
  id := call.memId
  sessionId := call.sessionId
  content := call.content
  embedding := embeddingStr call.embedding
  createdAt := call.now
  metadata := metadata

/-- `DO UPDATE SET content = EXCLUDED.content, embedding = EXCLUDED.embedding`. -/
def update (call : StoreCall) (old : SemanticRow) : SemanticRow :=
  { old with content := call.content, embedding := embeddingStr call.embedding }

/-- `ON CONFLICT DO UPDATE` keeps the id of the row, which is what the two calls share. -/
@[simp]
theorem id_update (call : StoreCall) (old : SemanticRow) : (call.update old).id = old.id := rfl

/-- The entry that the call returns. -/
def entry (call : StoreCall) : MemoryEntry where
  id := call.memId
  sessionId := call.sessionId
  memoryType := .SEMANTIC
  content := call.content
  metadata := call.metaDict
  embedding := some call.embedding
  createdAt := call.now

end StoreCall

namespace SemanticMemory

variable (memory : SemanticMemory)

/-- The row that a call of `store` inserts, if `json.dumps` writes the metadata and the database
accepts the row. -/
def inserted (call : StoreCall) : Except PyExc SemanticRow := do
  let metadata ← Json.dumps memory.lim (.dict call.metaDict)
  match memory.refuses (call.row metadata) with
  | some e => .error e
  | none => .ok (call.row metadata)

/-- `SemanticMemory.store`. -/
def store (t : SemanticTable) (call : StoreCall) : Except PyExc MemoryEntry × SemanticTable :=
  match memory.inserted call with
  | .error e => (.error e, t)
  | .ok row => (.ok call.entry, t.upsert row call.update call.id_update)

/-- The entry of a row that a search has found. -/
def entry (row : SemanticRow) : MemoryEntry where
  id := row.id
  sessionId := row.sessionId
  memoryType := .SEMANTIC
  content := row.content
  metadata := memory.jsonb row.metadata
  createdAt := row.createdAt

/-- The rows among which a search looks: `if session_id:` takes the empty string for no session. -/
def searched (t : SemanticTable) (sessionId : Option PyStr) : List SemanticRow :=
  match sessionId with
  | some sessionId =>
    if sessionId.isEmpty then t.rows else t.select fun row => row.sessionId = sessionId
  | none => t.rows

/-- `SemanticMemory.search`, for an embedding that can be compared with those of the table. -/
def search (t : SemanticTable) (queryEmbedding : List PyStr) (k : ℕ)
    (sessionId : Option PyStr) : List (MemoryEntry × PyStr) :=
  let query := embeddingStr queryEmbedding
  ((memory.nearest query (searched t sessionId)).take k).map fun row =>
    (memory.entry row, memory.score query row)

/-- `SemanticMemory.delete`. -/
def delete (t : SemanticTable) (memoryId : PyStr) : SemanticTable :=
  t.deleteWhere fun row => row.id = memoryId

variable {memory} {t : SemanticTable} {queryEmbedding : List PyStr} {sessionId : Option PyStr}

/-- The row that a call inserts is that of the call, with the metadata that `json.dumps` writes, if
the server does not refuse it (`refuses`). -/
theorem inserted_eq_ok_iff {call : StoreCall} {row : SemanticRow} :
    memory.inserted call = .ok row ↔
      ∃ metadata, Json.dumps memory.lim (.dict call.metaDict) = .ok metadata ∧
        memory.refuses (call.row metadata) = none ∧ row = call.row metadata := by
  unfold inserted
  rw [Except.bind_eq_ok_iff]
  refine exists_congr fun metadata => and_congr_right fun _ => ?_
  cases memory.refuses (call.row metadata) with
  | some e => simp
  | none => simp [eq_comm]

/-- A search shows only rows of the session that it is for, or of any session if it is for none
(`searched`). -/
theorem exists_row_of_mem_search {k : ℕ} {result : MemoryEntry × PyStr}
    (h : result ∈ memory.search t queryEmbedding k sessionId) :
    ∃ row ∈ searched t sessionId, result.1 = memory.entry row := by
  obtain ⟨row, hrow, rfl⟩ := List.mem_map.mp h
  exact ⟨row, (memory.nearest_perm _ _).mem_iff.mp (List.mem_of_mem_take hrow), rfl⟩

/-- A search for sufficiently many finds every row that is `searched`. -/
theorem exists_mem_search (memory : SemanticMemory) {row : SemanticRow}
    (hrow : row ∈ searched t sessionId) (queryEmbedding : List PyStr) :
    ∃ k, ∃ result ∈ memory.search t queryEmbedding k sessionId, result.1 = memory.entry row := by
  refine ⟨(memory.nearest (embeddingStr queryEmbedding) (searched t sessionId)).length, _,
    List.mem_map.mpr ⟨row, ?_, rfl⟩, rfl⟩
  rw [List.take_length]
  exact (memory.nearest_perm _ _).mem_iff.mpr hrow

end SemanticMemory
