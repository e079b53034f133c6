import AthenaAI.Memory.Conversation
import AthenaAI.Models.Base
import AthenaAI.ToMathlib.Coro
import Mathlib.Data.List.DropRight

/-!
# Summary memory

`athenai.memory.summary`. `SummaryMemory.getRecent` returns the latest messages of a session, after
a summary of the older ones that a model has written.

* `SummaryOp` are the operations of a call: on the conversation memory, on the model, and on the
  dict in which the object keeps its summaries.
* `getRecent` and `compress` are the methods, as coroutines of these operations.
* `MemoryState` is the table with the summaries, and `handler` answers the operations of a call that
  has them to itself; `run_getRecent` is what such a call does.
* `MemoryCall` are the calls of both memories, and `step` is what each of them does.
-/

/-- An operation of a call of `SummaryMemory.get_recent`. -/
inductive SummaryOp where
  /-- `self._conv.count(session_id)`. -/
  | count (sessionId : PyStr)
  /-- `self._conv.get_recent(session_id, n)`. -/
  | getRecent (sessionId : PyStr) (n : ℕ)
  /-- `self._model.generate(request)`, with the request for a summary of `older`. -/
  | generate (older : List MemoryEntry)
  /-- `self._summaries[session_id] = text`, for a summary of `older`. -/
  | setSummary (sessionId : PyStr) (older : List MemoryEntry) (text : PyStr)
  /-- `self._summaries.get(session_id)`. -/
  | summary (sessionId : PyStr)

/-- What an operation answers. -/
abbrev SummaryOp.Resp : SummaryOp → Type
  | count _ => ℕ
  | getRecent _ _ => List MemoryEntry
  | generate _ => ModelResponse
  | setSummary _ _ _ => Unit
  | summary _ => Option PyStr

/-- A call of `SummaryMemory.get_recent`, or a part of it. -/
abbrev Summarising (α : Type) : Type := Coro SummaryOp SummaryOp.Resp PyExc α

/-- One operation. -/
abbrev Summarising.perform (op : SummaryOp) : Summarising op.Resp := Coro.perform op

/-- A summary of a session, and the messages that it is a summary of as far as these exist. -/
structure Summary where
  /-- The text. -/
  text : PyStr
  /-- The messages that the model was given. -/
  given : List MemoryEntry

/-- The table and the summaries. -/
structure MemoryState where
  /-- The table of the conversation memory. -/
  table : MessageTable
  /-- The dict of the summaries. -/
  summaries : PyStr → Option Summary

/-- A model, by the outcome of a call. -/
abbrev SummaryModel := ModelRequest → Except PyExc ModelResponse

/-- A call of `add_message`, `clear` or `SummaryMemory.get_recent`. -/
inductive MemoryCall where
  | conversation (call : ConversationCall)
  | getRecent (sessionId : PyStr) (model : SummaryModel)

/-- `SummaryMemory`, by its thresholds. -/
structure SummaryMemory where
  /-- `max_raw_messages`. -/
  maxRaw : ℕ := 20
  /-- `keep_recent`. -/
  keepRecent : ℕ := 5

namespace MemoryState

/-- No messages and no summaries. -/
def start : MemoryState := ⟨Table.empty, fun _ => none⟩

/-- The text of the summary of a session. -/
def summaryText (st : MemoryState) (sessionId : PyStr) : Option PyStr :=
  (st.summaries sessionId).map Summary.text

/-- The messages that the summary of a session is a summary of. -/
def given (st : MemoryState) (sessionId : PyStr) : List MemoryEntry :=
  ((st.summaries sessionId).map Summary.given).getD []

/-- A summary of a session replaces the one before it. -/
def setSummary (st : MemoryState) (sessionId : PyStr) (summary : Summary) : MemoryState :=
  { st with summaries := Function.update st.summaries sessionId (some summary) }

/-- The messages of a session are gone; its summary stays. -/
def clear (st : MemoryState) (sessionId : PyStr) : MemoryState where
  table := ConversationMemory.clear st.table sessionId
  summaries := Function.update st.summaries sessionId
    ((st.summaries sessionId).map fun summary => { summary with given := [] })

theorem summaries_setSummary (st : MemoryState) (sessionId : PyStr) (summary : Summary) :
    (st.setSummary sessionId summary).summaries sessionId = some summary :=
  Function.update_self ..

theorem summaryText_setSummary (st : MemoryState) (sessionId : PyStr) (summary : Summary) :
    (st.setSummary sessionId summary).summaryText sessionId = some summary.text := by
  unfold summaryText
  rw [summaries_setSummary]
  rfl

end MemoryState

namespace SummaryMemory

/-! ## The methods -/

/-- `_SUMMARY_PROMPT.format(messages=messages)`. -/
def summaryPrompt (messages : PyStr) : PyStr :=
  ("You are a conversation summariser. Given the following messages, " ++
    "produce a concise summary (3-5 sentences) capturing the key decisions, " ++
    "facts established, and current goal. Be specific, not generic.\n\nMessages:\n").toList ++
    messages ++ "\n\nSummary:".toList

/-- The request for a summary of `older`. -/
def request (older : List MemoryEntry) : ModelRequest where
  messages :=
    [⟨"user".toList, summaryPrompt (PyStr.join ['\n'] (older.map MemoryEntry.content)), none⟩]
  modelName := "summary".toList
  maxTokens := 512
  temperature := "0.3".toList

/-- `xs[:-n]`. -/
def upToLast {α : Type} (xs : List α) (n : ℕ) : List α :=
  -- `-0` is `0`, and `xs[:0]` is empty
  if n = 0 then [] else xs.rdrop n

/-- The entry of a summary. -/
def summaryEntry (sessionId text : PyStr) : MemoryEntry where
  id := "summary-".toList ++ sessionId
  sessionId
  memoryType := .SUMMARY
  content := "[Summary] ".toList ++ text

/-- `if summary_text` is false of no text and of the empty one. -/
def summaryEntries (sessionId : PyStr) (summaryText : Option PyStr) : List MemoryEntry :=
  if (summaryText.getD []).isEmpty then [] else [summaryEntry sessionId (summaryText.getD [])]

variable (mem : SummaryMemory)

/-- `SummaryMemory._compress`. -/
def compress (sessionId : PyStr) : Summarising Unit := do
  let allMessages ← Summarising.perform (.getRecent sessionId mem.maxRaw)
  let older := upToLast allMessages mem.keepRecent
  if older.isEmpty then return ()
  else
    let response ← Summarising.perform (.generate older)
    Summarising.perform (.setSummary sessionId older response.content)

/-- `SummaryMemory.get_recent`. -/
def getRecent (sessionId : PyStr) : Summarising (List MemoryEntry) := do
  let count ← Summarising.perform (.count sessionId)
  if mem.maxRaw < count then mem.compress sessionId
  let recent ← Summarising.perform (.getRecent sessionId mem.keepRecent)
  let summaryText ← Summarising.perform (.summary sessionId)
  return summaryEntries sessionId summaryText ++ recent

/-- The last part of a call: the latest messages, and the summary before them. -/
def latest (sessionId : PyStr) : Summarising (List MemoryEntry) := do
  let recent ← Summarising.perform (.getRecent sessionId mem.keepRecent)
  let summaryText ← Summarising.perform (.summary sessionId)
  return summaryEntries sessionId summaryText ++ recent

/-- The three awaits of `get_recent`: the count, the compression if the count is over `max_raw`, and
what is then read. -/
theorem getRecent_eq (sessionId : PyStr) :
    mem.getRecent sessionId = Summarising.perform (.count sessionId) >>= fun count =>
      (if mem.maxRaw < count then mem.compress sessionId else pure ()) >>= fun _ =>
        mem.latest sessionId := by
  unfold getRecent
  congr 1
  ext count
  split_ifs <;> rfl

/-! ## Calls one after another -/

/-- The operations of a call that has the table and the summaries to itself. -/
def handler (db : Postgres) (model : SummaryModel) :
    Handler SummaryOp SummaryOp.Resp PyExc MemoryState
  | .count sessionId, st => (.ok (ConversationMemory.count st.table sessionId), st)
  | .getRecent sessionId n, st => (.ok (ConversationMemory.getRecent db st.table sessionId n), st)
  | .generate older, st => (model (request older), st)
  | .setSummary sessionId older text, st => (.ok (), st.setSummary sessionId ⟨text, older⟩)
  | .summary sessionId, st => (.ok (st.summaryText sessionId), st)

/-- The effect of a call. -/
def step (db : Postgres) (jsonb : PyStr → Bool) (st : MemoryState) : MemoryCall → MemoryState
  | .conversation (.addMessage call) =>
    { st with table := (ConversationMemory.addMessage jsonb st.table call).2 }
  | .conversation (.clear sessionId) => st.clear sessionId
  | .getRecent sessionId model => ((mem.getRecent sessionId).run (handler db model) st).2

/-- The messages that a call gives to the model. -/
def older (db : Postgres) (t : MessageTable) (sessionId : PyStr) : List MemoryEntry :=
  if mem.maxRaw < ConversationMemory.count t sessionId then
    upToLast (ConversationMemory.getRecent db t sessionId mem.maxRaw) mem.keepRecent
  else []

/-- The summary and the latest messages of a session. -/
def entries (db : Postgres) (st : MemoryState) (sessionId : PyStr) : List MemoryEntry :=
  summaryEntries sessionId (st.summaryText sessionId) ++
    ConversationMemory.getRecent db st.table sessionId mem.keepRecent

variable (db : Postgres) (model : SummaryModel) (st : MemoryState) (sessionId : PyStr)

/-- What `compress` leads to in a session that is over the threshold: nothing if there is nothing
older than what is kept, else a request to the model about the `older` messages, and a summary of
the answer. -/
theorem run_compress (h : mem.maxRaw < ConversationMemory.count st.table sessionId) :
    (mem.compress sessionId).run (handler db model) st =
      if mem.older db st.table sessionId = [] then (.ok (), st)
      else match model (request (mem.older db st.table sessionId)) with
        | .error e => (.error e, st)
        | .ok response =>
          (.ok (), st.setSummary sessionId
            ⟨response.content, mem.older db st.table sessionId⟩) := by
  have holder : mem.older db st.table sessionId = upToLast
      (ConversationMemory.getRecent db st.table sessionId mem.maxRaw) mem.keepRecent := if_pos h
  unfold compress
  rw [Coro.run_bind_of_ok _ (Coro.run_perform _ _ _), ← holder]
  cases mem.older db st.table sessionId with
  | nil => rfl
  | cons entry older =>
    rw [if_neg (List.cons_ne_nil entry older)]
    show (Summarising.perform (.generate (entry :: older)) >>= fun response =>
      Summarising.perform (.setSummary sessionId (entry :: older) response.content)).run _ _ = _
    rw [Coro.run_bind, Coro.run_perform, handler]
    cases model (request (entry :: older)) with
    | error e => rfl
    | ok response => rfl

/-- A call of `get_recent` that finds nothing to compress returns the `entries` that there are, and
changes nothing. -/
theorem run_getRecent_of_nil (h : mem.older db st.table sessionId = []) :
    (mem.getRecent sessionId).run (handler db model) st =
      (.ok (mem.entries db st sessionId), st) := by
  rw [getRecent_eq, Coro.run_bind_of_ok _ (Coro.run_perform _ _ _)]
  refine Coro.run_bind_of_ok _ (a := ()) ?_ _
  show Coro.run _ (if mem.maxRaw < ConversationMemory.count st.table sessionId then _ else _) _ = _
  split_ifs with hcount
  · rw [run_compress mem db model st sessionId hcount, if_pos h]
  · rfl

/-- A call of `get_recent` that finds `older` messages asks the model for a summary first, and
raises what the model raises. -/
theorem run_getRecent_of_ne_nil (h : mem.older db st.table sessionId ≠ []) :
    (mem.getRecent sessionId).run (handler db model) st =
      match model (request (mem.older db st.table sessionId)) with
      | .error e => (.error e, st)
      | .ok response =>
        (.ok (mem.entries db (st.setSummary sessionId
          ⟨response.content, mem.older db st.table sessionId⟩) sessionId),
          st.setSummary sessionId ⟨response.content, mem.older db st.table sessionId⟩) := by
  have hcount : mem.maxRaw < ConversationMemory.count st.table sessionId := by
    by_contra hcount
    exact h (if_neg hcount)
  have hcompress := mem.run_compress db model st sessionId hcount
  rw [if_neg h] at hcompress
  rw [getRecent_eq, Coro.run_bind_of_ok _ (Coro.run_perform _ _ _)]
  show Coro.run _
    ((if mem.maxRaw < ConversationMemory.count st.table sessionId then _ else _) >>= _) _ = _
  rw [if_pos hcount]
  cases hmodel : model (request (mem.older db st.table sessionId)) with
  | error e =>
    rw [hmodel] at hcompress
    exact Coro.run_bind_of_error _ hcompress _
  | ok response =>
    rw [hmodel] at hcompress
    exact Coro.run_bind_of_ok _ hcompress _

/-- A call of `get_recent` leaves the state as it is, or sets a summary of what it has given to the
model. -/
theorem step_getRecent_cases (jsonb : PyStr → Bool) :
    mem.step db jsonb st (.getRecent sessionId model) = st ∨
      mem.older db st.table sessionId ≠ [] ∧
        ∃ response, model (request (mem.older db st.table sessionId)) = .ok response ∧
          mem.step db jsonb st (.getRecent sessionId model) = st.setSummary sessionId
            ⟨response.content, mem.older db st.table sessionId⟩ := by
  show ((mem.getRecent sessionId).run (handler db model) st).2 = st ∨ mem.older db st.table
    sessionId ≠ [] ∧ ∃ response, _ ∧ ((mem.getRecent sessionId).run (handler db model) st).2 = _
  by_cases h : mem.older db st.table sessionId = []
  · exact .inl (congrArg Prod.snd (mem.run_getRecent_of_nil db model st sessionId h))
  · rw [mem.run_getRecent_of_ne_nil db model st sessionId h]
    cases model (request (mem.older db st.table sessionId)) with
    | error e => exact .inl rfl
    | ok response => exact .inr ⟨h, response, rfl, rfl⟩

/-! ## What a call gives to the model and what it returns -/

variable {mem db st sessionId} {t : MessageTable} {row : MessageRow}

/-- The messages that a call gives to the model are those that the order of the database puts after
the first `keep_recent` and among the first `max_raw_messages`. -/
theorem older_eq (hcount : mem.maxRaw < ConversationMemory.count t sessionId)
    (hkeep : 0 < mem.keepRecent) :
    mem.older db t sessionId = (((db.arrange mem.maxRaw (ConversationMemory.messages t
      sessionId)).take mem.maxRaw).drop mem.keepRecent).reverse.map MessageRow.entry := by
  unfold older upToLast ConversationMemory.getRecent
  rw [if_pos hcount, if_neg hkeep.ne', List.rdrop_eq_reverse_drop_reverse, ← List.map_reverse,
    List.reverse_reverse, List.map_reverse, List.map_drop]

/-- There is anything to give to the model exactly if there are more than `max_raw` messages, and
`keep_recent` is neither zero nor as large as `max_raw`. -/
theorem older_ne_nil_iff :
    mem.older db t sessionId ≠ [] ↔
      mem.maxRaw < ConversationMemory.count t sessionId ∧ 0 < mem.keepRecent ∧
        mem.keepRecent < mem.maxRaw := by
  by_cases hcount : mem.maxRaw < ConversationMemory.count t sessionId
  · by_cases hkeep : 0 < mem.keepRecent
    · rw [older_eq hcount hkeep, ← List.length_pos_iff, List.length_map, List.length_reverse,
        List.length_drop, List.length_take, (db.isAnswer_arrange _ _).perm.length_eq]
      have hlength : mem.maxRaw < (ConversationMemory.messages t sessionId).length := hcount
      omega
    · have hnil : mem.older db t sessionId = [] := by
        unfold older upToLast
        rw [if_pos hcount, if_pos (Nat.eq_zero_of_not_pos hkeep)]
      exact iff_of_false (not_not_intro hnil) fun h => hkeep h.2.1
  · exact iff_of_false (not_not_intro (if_neg hcount)) fun h => hcount h.1

/-- A message is given to the model exactly if it is among the first `max_raw` in the order of the
database, and not among the `keep_recent` that are kept of these. -/
theorem entry_mem_older_iff {t' : MessageTable}
    (hrow : row ∈ ConversationMemory.messages t' sessionId)
    (hsub : ConversationMemory.messages t sessionId ⊆ ConversationMemory.messages t' sessionId)
    (hcount : mem.maxRaw < ConversationMemory.count t sessionId) (hkeep : 0 < mem.keepRecent) :
    row.entry ∈ mem.older db t sessionId ↔
      row ∈ ((db.arrange mem.maxRaw (ConversationMemory.messages t sessionId)).take
        mem.maxRaw).drop mem.keepRecent := by
  rw [older_eq hcount hkeep, List.mem_map]
  refine ⟨fun ⟨row', hrow', heq⟩ => ?_, fun h => ⟨row, List.mem_reverse.mpr h, rfl⟩⟩
  rw [List.mem_reverse] at hrow'
  have hmem := (db.isAnswer_arrange _ _).mem_iff.mp
    (List.mem_of_mem_take (List.mem_of_mem_drop hrow'))
  rwa [← ConversationMemory.eq_of_entry_eq t' sessionId row' (hsub hmem) row hrow heq]

/-- A summary adds one entry to the answer, unless its text is empty or there is none. -/
theorem mem_summaryEntries_iff {summaryText : Option PyStr} {entry : MemoryEntry} :
    entry ∈ summaryEntries sessionId summaryText ↔
      summaryText.getD [] ≠ [] ∧ entry = summaryEntry sessionId (summaryText.getD []) := by
  unfold summaryEntries
  split_ifs with h
  · exact iff_of_false List.not_mem_nil fun hentry => hentry.1 (List.isEmpty_iff.mp h)
  · rw [List.mem_singleton]
    exact (and_iff_right (mt List.isEmpty_iff.mpr h)).symm

/-- The entry of a message is no entry of a summary: these have the memory type `SUMMARY`. -/
theorem entry_not_mem_summaryEntries (summaryText : Option PyStr) :
    row.entry ∉ summaryEntries sessionId summaryText := by
  intro h
  have htype : MemoryType.CONVERSATION = .SUMMARY :=
    congrArg MemoryEntry.memoryType (mem_summaryEntries_iff.mp h).2
  exact absurd htype (by decide)

/-- The entry of a message stands in the answer exactly if the message is among the `keep_recent`
newest ones: the summary's own entry has another id. -/
theorem entry_mem_entries_iff :
    row.entry ∈ mem.entries db st sessionId ↔
      row.entry ∈ ConversationMemory.getRecent db st.table sessionId mem.keepRecent :=
  List.mem_append.trans (or_iff_right (entry_not_mem_summaryEntries _))

/-- Among the `entries` of a session is a summary exactly if its text is not empty. -/
theorem exists_summary_mem_entries_iff :
    (∃ entry ∈ mem.entries db st sessionId, entry.memoryType = .SUMMARY) ↔
      (st.summaryText sessionId).getD [] ≠ [] := by
  unfold entries
  refine ⟨fun ⟨entry, hentry, htype⟩ => ?_, fun htext => ?_⟩
  · rcases List.mem_append.mp hentry with hentry | hentry
    · exact (mem_summaryEntries_iff.mp hentry).1
    · obtain ⟨row, -, rfl⟩ := List.mem_map.mp hentry
      have htype : MemoryType.CONVERSATION = .SUMMARY := htype
      exact absurd htype (by decide)
  · exact ⟨_, List.mem_append_left _ (mem_summaryEntries_iff.mpr ⟨htext, rfl⟩), rfl⟩

end SummaryMemory
