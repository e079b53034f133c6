import AthenaAI.Python.Value
import AthenaAI.ToMathlib.OrderBy
import AthenaAI.ToMathlib.Table

/-!
# Conversation memory

`athenai.memory.base` and `athenai.memory.conversation`: the entries that all layers of the memory
return, the table `conversation_messages` and the methods that write and read it. Each method sends
one statement, which has its effect at once.

* `MemoryEntry` are the entries, with the layer that they come from (`MemoryType`).
* `AddCall` are the arguments of `add_message`, with the id and the time that the call draws.
* `Postgres` is how the database orders messages, about which only `ORDER BY created_at DESC` says
  something. `Postgres.answering` changes the order in which one statement returns its rows.
* `addMessage`, `getRecent`, `clear` and `count` are the methods.
* `ConversationCall` are the calls that change the table, and `step` is what each of them does.
* `messages_clear` and `messages_insertIfNew`: what they do to the messages of a session.
-/

/-- `MemoryType`. -/
inductive MemoryType where
  | WORKING
  | CONVERSATION
  | SUMMARY
  | SEMANTIC
  deriving DecidableEq, Repr

/-- `MemoryEntry`. Times are exact. -/
structure MemoryEntry where
  /-- The id. -/
  id : PyStr
  /-- The session. -/
  sessionId : PyStr
  /-- The layer that the entry comes from. -/
  memoryType : MemoryType
  /-- The text. -/
  content : PyStr
  /-- Further data. -/
  metadata : PyDict := []
  /-- The embedding, each component by the text `str` gives for it. -/
  embedding : Option (List PyStr) := none
  /-- The time in seconds. -/
  createdAt : ℚ := 0

/-! ## The table -/

/-- A row of the table `conversation_messages`. -/
structure MessageRow where
  /-- The primary key. -/
  id : PyStr
  /-- The session. -/
  sessionId : PyStr
  /-- Who speaks. -/
  role : PyStr
  /-- What is said. -/
  content : PyStr
  /-- The time of the call that added the message. -/
  createdAt : ℚ
  /-- The metadata, as the text that is cast to `jsonb`. -/
  metadata : PyStr
  deriving DecidableEq

/-- The table `conversation_messages`. -/
abbrev MessageTable := Table MessageRow.id

/-- The arguments of `ConversationMemory.add_message`, with the id and the time that the call
draws. -/
structure AddCall where
  /-- The session. -/
  sessionId : PyStr
  /-- Who speaks. -/
  role : PyStr
  /-- What is said. -/
  content : PyStr
  /-- The id, if the caller has chosen one. -/
  messageId : Option PyStr := none
  /-- Further data. -/
  metadata : Option PyDict := none
  /-- `str(uuid.uuid4())`. -/
  uuid : PyStr
  /-- `time.time()`. -/
  now : ℚ

/-- How the database orders messages. -/
structure Postgres where
  /-- `ORDER BY created_at DESC`, in a statement with a limit. -/
  arrange : (limit : ℕ) → List MessageRow → List MessageRow
  /-- The messages are put in an order that the statement allows. -/
  isAnswer_arrange : ∀ limit rows, OrderBy.IsAnswer MessageRow.createdAt rows (arrange limit rows)

/-- A database that keeps messages with equal times in the order in which it has them. -/
def Postgres.stable : Postgres where
  arrange _ rows := OrderBy.stable MessageRow.createdAt rows
  isAnswer_arrange _ rows := OrderBy.isAnswer_stable MessageRow.createdAt rows

namespace Postgres

variable (db : Postgres) {limit : ℕ} {rows answer : List MessageRow}
  (h : OrderBy.IsAnswer MessageRow.createdAt rows answer)

/-- The database with another answer to one statement. -/
def answering (limit : ℕ) (h : OrderBy.IsAnswer MessageRow.createdAt rows answer) : Postgres where
  arrange limit' rows' := if limit' = limit ∧ rows' = rows then answer else db.arrange limit' rows'
  isAnswer_arrange limit' rows' := by
    split_ifs with heq
    · rw [heq.2]
      exact h
    · exact db.isAnswer_arrange limit' rows'

/-- The database `answering` gives this answer to this query. -/
theorem arrange_answering : (db.answering limit h).arrange limit rows = answer := if_pos ⟨rfl, rfl⟩

theorem arrange_answering_of_ne {limit' : ℕ} (hne : limit' ≠ limit) (rows' : List MessageRow) :
    (db.answering limit h).arrange limit' rows' = db.arrange limit' rows' :=
  if_neg fun heq => hne heq.1

end Postgres

/-- The text `role: content`. -/
def spokenText (role content : PyStr) : PyStr := role ++ ": ".toList ++ content

namespace AddCall

/-- `message_id or str(uuid.uuid4())`. -/
def msgId (call : AddCall) : PyStr := (call.messageId.getD []).orElse call.uuid

/-- `metadata or {}`. -/
def metaDict (call : AddCall) : PyDict := call.metadata.getD []

/-- `str(meta).replace("'", '"')`. -/
def metadataText (call : AddCall) : PyStr :=
  (PyValue.dict call.metaDict).repr.replace (Char.ofNat 39) (Char.ofNat 34)

/-- The row that the call inserts. -/
def row (call : AddCall) : MessageRow where
  id := call.msgId
  sessionId := call.sessionId
  role := call.role
  content := call.content
  createdAt := call.now
  metadata := call.metadataText

/-- The entry that the call returns. -/
def entry (call : AddCall) : MemoryEntry where
  id := call.msgId
  sessionId := call.sessionId
  memoryType := .CONVERSATION
  content := spokenText call.role call.content
  metadata := call.metaDict.set "role".toList (.str call.role)
  createdAt := call.now

end AddCall

/-- The entry of a row that has been read. -/
def MessageRow.entry (row : MessageRow) : MemoryEntry where
  id := row.id
  sessionId := row.sessionId
  memoryType := .CONVERSATION
  content := spokenText row.role row.content
  metadata := [(.str "role".toList, .str row.role)]
  createdAt := row.createdAt

/-- A call that changes the table. -/
inductive ConversationCall where
  | addMessage (call : AddCall)
  | clear (sessionId : PyStr)

namespace ConversationMemory

/-- The error of a cast to `jsonb`. -/
def invalidJson : PyExc :=
  .of (.other "InvalidTextRepresentationError".toList) "invalid input syntax for type json".toList

/-- `ConversationMemory.add_message`. `jsonb` tells the texts that can be cast to `jsonb`. -/
def addMessage (jsonb : PyStr → Bool) (t : MessageTable) (call : AddCall) :
    Except PyExc MemoryEntry × MessageTable :=
  if jsonb call.metadataText then (.ok call.entry, t.insertIfNew call.row)
  else (.error invalidJson, t)

/-- The messages of a session. -/
def messages (t : MessageTable) (sessionId : PyStr) : List MessageRow :=
  t.select fun row => row.sessionId = sessionId

/-- `ConversationMemory.get_recent`. -/
def getRecent (db : Postgres) (t : MessageTable) (sessionId : PyStr) (n : ℕ := 10) :
    List MemoryEntry :=
  let rows := (db.arrange n (messages t sessionId)).take n
  rows.reverse.map MessageRow.entry

/-- `ConversationMemory.clear`. -/
def clear (t : MessageTable) (sessionId : PyStr) : MessageTable :=
  t.deleteWhere fun row => row.sessionId = sessionId

/-- `ConversationMemory.count`. -/
def count (t : MessageTable) (sessionId : PyStr) : ℕ := (messages t sessionId).length

/-- The effect of a call. -/
def step (jsonb : PyStr → Bool) (t : MessageTable) : ConversationCall → MessageTable
  | .addMessage call => (addMessage jsonb t call).2
  | .clear sessionId => clear t sessionId

variable {t : MessageTable} {sessionId : PyStr}

/-- The rows of a session are the rows of the table with its `session_id`. -/
theorem mem_messages_iff {row : MessageRow} :
    row ∈ messages t sessionId ↔ row ∈ t.rows ∧ row.sessionId = sessionId := by
  rw [messages, Table.mem_select, decide_eq_true_iff]

/-- No row is found twice: `id` is the primary key. -/
theorem messages_nodup (t : MessageTable) (sessionId : PyStr) : (messages t sessionId).Nodup :=
  t.select_nodup _

/-- Entries tell the messages of a table apart: an entry has the id of its row, and this is the
primary key. -/
theorem eq_of_entry_eq (t : MessageTable) (sessionId : PyStr) :
    ∀ row ∈ messages t sessionId, ∀ row' ∈ messages t sessionId, row.entry = row'.entry →
      row = row' := by
  intro row hrow row' hrow' heq
  exact t.eq_of_key_eq (mem_messages_iff.mp hrow).1 (mem_messages_iff.mp hrow').1
    (congrArg MemoryEntry.id heq)

/-- `get_recent` returns `n` messages, or all of them if there are fewer. -/
theorem length_getRecent (db : Postgres) (t : MessageTable) (sessionId : PyStr) (n : ℕ) :
    (getRecent db t sessionId n).length = min n (count t sessionId) := by
  unfold getRecent
  rw [List.length_map, List.length_reverse, List.length_take,
    (db.isAnswer_arrange n _).perm.length_eq]
  rfl

/-- A message of the session is returned exactly if it is among the first `n` in the order that the
database chooses (`arrange`). -/
theorem entry_mem_getRecent_iff {db : Postgres} {row : MessageRow} {n : ℕ}
    (hrow : row ∈ messages t sessionId) :
    row.entry ∈ getRecent db t sessionId n ↔
      row ∈ (db.arrange n (messages t sessionId)).take n := by
  unfold getRecent
  rw [List.mem_map]
  refine ⟨fun ⟨row', hrow', heq⟩ => ?_, fun h => ⟨row, List.mem_reverse.mpr h, rfl⟩⟩
  rw [List.mem_reverse] at hrow'
  have hmem := (db.isAnswer_arrange n _).mem_iff.mp (List.mem_of_mem_take hrow')
  rwa [← eq_of_entry_eq t sessionId row' hmem row hrow heq]

/-- What holds for every database is what holds for every answer that `OrderBy.IsAnswer` allows:
each of them is that of some database. -/
theorem forall_arrange_iff (rows : List MessageRow) (n : ℕ) (p : List MessageRow → Prop) :
    (∀ db : Postgres, p (db.arrange n rows)) ↔
      ∀ answer, OrderBy.IsAnswer MessageRow.createdAt rows answer → p answer := by
  refine ⟨fun hall answer h => ?_, fun hall db => hall _ (db.isAnswer_arrange n rows)⟩
  have hdb := hall (Postgres.stable.answering n h)
  rwa [Postgres.arrange_answering] at hdb

/-- Two statements with different limits return their rows independently: what holds of the one or
of the other for every database, holds of one of them for every database. -/
theorem forall_arrange_or_iff {n m : ℕ} (hne : n ≠ m) (rows rows' : List MessageRow)
    (p q : List MessageRow → Prop) :
    (∀ db : Postgres, p (db.arrange n rows) ∨ q (db.arrange m rows')) ↔
      (∀ db : Postgres, p (db.arrange n rows)) ∨ ∀ db : Postgres, q (db.arrange m rows') := by
  refine ⟨fun hall => ?_, fun hall db => hall.imp (fun h => h db) fun h => h db⟩
  by_contra hnot
  rw [not_or, not_forall, not_forall] at hnot
  obtain ⟨⟨db, hp⟩, db', hq⟩ := hnot
  have hboth := hall (db.answering m (db'.isAnswer_arrange m rows'))
  rw [Postgres.arrange_answering, Postgres.arrange_answering_of_ne _ _ hne] at hboth
  exact hboth.elim hp hq

/-- `add_message` returns the entry exactly if the server accepts the text of the metadata as
`jsonb`; whether a row is added is another matter. -/
theorem addMessage_eq_ok_iff {jsonb : PyStr → Bool} {call : AddCall} {entry : MemoryEntry} :
    (addMessage jsonb t call).1 = .ok entry ↔
      jsonb call.metadataText = true ∧ entry = call.entry := by
  unfold addMessage
  split_ifs with h
  · simp [h, eq_comm]
  · simp [h]

/-- `clear` deletes the messages of its session and no other ones. -/
theorem messages_clear (t : MessageTable) (cleared sessionId : PyStr) :
    messages (clear t cleared) sessionId =
      if cleared = sessionId then [] else messages t sessionId := by
  rw [messages, clear, Table.select_deleteWhere]
  split_ifs with h
  · refine List.filter_eq_nil_iff.mpr fun row hrow => ?_
    have hsession := (mem_messages_iff.mp hrow).2
    simp [h, hsession]
  · refine List.filter_eq_self.mpr fun row hrow => ?_
    have hsession := (mem_messages_iff.mp hrow).2
    simp [hsession, Ne.symm h]

/-- An inserted message is the last one of its session in the table; nothing is inserted under an id
that is taken. -/
theorem messages_insertIfNew (t : MessageTable) (row : MessageRow) (sessionId : PyStr) :
    messages (t.insertIfNew row) sessionId =
      if ¬t.Has row.id ∧ row.sessionId = sessionId then messages t sessionId ++ [row]
      else messages t sessionId := by
  by_cases hhas : t.Has row.id
  · rw [Table.insertIfNew_of_has hhas, if_neg fun h => h.1 hhas]
  · unfold messages Table.select
    rw [Table.rows_insertIfNew_of_not_has hhas, List.filter_append]
    by_cases hsession : row.sessionId = sessionId
    · simp [hhas, hsession]
    · simp [hsession]

/-- What `add_message` adds to a session comes after its other messages, and these stay. -/
theorem isPrefix_messages_addMessage (jsonb : PyStr → Bool) (t : MessageTable) (call : AddCall)
    (sessionId : PyStr) :
    messages t sessionId <+: messages (addMessage jsonb t call).2 sessionId := by
  unfold addMessage
  split_ifs
  · rw [messages_insertIfNew]
    split_ifs
    · exact List.prefix_append _ _
    · exact List.prefix_refl _
  · exact List.prefix_refl _

/-- A user's message in the session `A`. -/
def userMessage (messageId content : PyStr) (now : ℚ) : AddCall where
  sessionId := ['A']
  role := "user".toList
  content
  messageId := some messageId
  uuid := "5f1c".toList
  now

end ConversationMemory
