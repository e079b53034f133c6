import AthenaAI.Memory.Summary
import AthenaAI.ToMathlib.Run

/-!
# Cleared sessions

Whether what `SummaryMemory.get_recent` returns for a session, after the session has been cleared,
still depends on what was added to it before.

* `outcomes` is what the calls of a run return for the session.
* `Forgotten` says of two states that calls after the clearing do not tell them apart.
* `Alike` is the relation that such calls keep: the same messages of the session, the same text of
  its summary, and the same ids in the other sessions.
* `forgotten_iff`: two runs cannot be told apart after the clearing if and only if nothing is kept,
  or the text of the summary and the ids of the other sessions agree before it.
-/

namespace ConversationMemory

/-- A message of the session has the id. -/
def HasIn (t : MessageTable) (sessionId id : PyStr) : Prop :=
  ∃ row ∈ messages t sessionId, row.id = id

variable {t : MessageTable} {sessionId id : PyStr}

/-- An id that is taken is taken by one session: `Has` is `HasIn` for some of them. -/
theorem has_iff_exists_hasIn : t.Has id ↔ ∃ sessionId, HasIn t sessionId id := by
  rw [Table.has_iff]
  refine ⟨fun ⟨row, hrow, hid⟩ => ⟨row.sessionId, row, mem_messages_iff.mpr ⟨hrow, rfl⟩, hid⟩, ?_⟩
  rintro ⟨sessionId, row, hrow, hid⟩
  exact ⟨row, (mem_messages_iff.mp hrow).1, hid⟩

theorem HasIn.session_eq {sessionId' : PyStr} (h : HasIn t sessionId id)
    (h' : HasIn t sessionId' id) : sessionId = sessionId' := by
  obtain ⟨row, hrow, hid⟩ := h
  obtain ⟨row', hrow', hid'⟩ := h'
  rw [mem_messages_iff] at hrow hrow'
  rw [← hrow.2, ← hrow'.2, t.eq_of_key_eq hrow.1 hrow'.1 (hid.trans hid'.symm)]

/-- After `clear` the ids of the other sessions are there, and no others. -/
theorem hasIn_clear_iff {cleared : PyStr} :
    HasIn (clear t cleared) sessionId id ↔ cleared ≠ sessionId ∧ HasIn t sessionId id := by
  unfold HasIn
  rw [messages_clear]
  split_ifs with h
  · simp [h]
  · simp [h]

/-- `INSERT … ON CONFLICT DO NOTHING` adds the row if its id is in no session at all. -/
theorem hasIn_insertIfNew_iff {row : MessageRow} :
    HasIn (t.insertIfNew row) sessionId id ↔
      HasIn t sessionId id ∨ (¬t.Has row.id ∧ row.sessionId = sessionId ∧ row.id = id) := by
  unfold HasIn
  rw [messages_insertIfNew]
  split_ifs with h
  · simp [h]
  · exact (or_iff_left fun hnew => h ⟨hnew.1, hnew.2.1⟩).symm

end ConversationMemory

namespace SummaryMemory

open ConversationMemory (messages count HasIn)

variable (mem : SummaryMemory) (db : Postgres) (jsonb : PyStr → Bool)

/-- What a call returns, if it is one of `get_recent` for the session. -/
def outcome (sessionId : PyStr) (st : MemoryState) :
    MemoryCall → Option (Except PyExc (List MemoryEntry))
  | .conversation _ => none
  | .getRecent sessionId' model =>
    if sessionId' = sessionId then some ((mem.getRecent sessionId').run (handler db model) st).1
    else none

/-- What the calls of a run return for the session. -/
def outcomes (sessionId : PyStr) (st : MemoryState) (calls : List MemoryCall) :
    List (Except PyExc (List MemoryEntry)) :=
  Run.outputs (mem.step db jsonb) (mem.outcome db sessionId) st calls

/-- When the session has been cleared, no further calls tell the states apart by what they return
for it. -/
def Forgotten (sessionId : PyStr) (st st' : MemoryState) : Prop :=
  ∀ later, mem.outcomes db jsonb sessionId (st.clear sessionId) later =
    mem.outcomes db jsonb sessionId (st'.clear sessionId) later

/-- What calls can find out about the session is the same. -/
structure Alike (sessionId : PyStr) (st st' : MemoryState) : Prop where
  /-- The messages of the session. -/
  messages_eq : messages st.table sessionId = messages st'.table sessionId
  /-- The text of its summary. -/
  text_eq : (st.summaryText sessionId).getD [] = (st'.summaryText sessionId).getD []
  /-- The ids that cannot be used in it. -/
  hasIn_iff : ∀ other ≠ sessionId, ∀ id, HasIn st.table other id ↔ HasIn st'.table other id

variable {mem db jsonb} {st st' : MemoryState} {sessionId : PyStr}

/-! ## Calls on states that are alike -/

/-- States that are `Alike` refuse the same ids, in whatever session these stand. -/
theorem Alike.has_iff (h : Alike sessionId st st') (id : PyStr) :
    st.table.Has id ↔ st'.table.Has id := by
  rw [ConversationMemory.has_iff_exists_hasIn, ConversationMemory.has_iff_exists_hasIn]
  refine exists_congr fun other => ?_
  by_cases hother : other = sessionId
  · rw [hother, HasIn, HasIn, h.messages_eq]
  · exact h.hasIn_iff other hother id

theorem summaryText_clear (st : MemoryState) (cleared sessionId : PyStr) :
    (st.clear cleared).summaryText sessionId = st.summaryText sessionId := by
  unfold MemoryState.summaryText MemoryState.clear
  by_cases h : sessionId = cleared
  · subst h
    cases st.summaries sessionId <;> simp
  · simp [h]

/-- One case of `Alike.step` each for the calls that write: `clear`, `add_message` and the setting
of a summary. -/
theorem Alike.clear (h : Alike sessionId st st') (cleared : PyStr) :
    Alike sessionId (st.clear cleared) (st'.clear cleared) where
  messages_eq := by
    show messages (ConversationMemory.clear st.table cleared) sessionId =
      messages (ConversationMemory.clear st'.table cleared) sessionId
    rw [ConversationMemory.messages_clear, ConversationMemory.messages_clear, h.messages_eq]
  text_eq := by rw [summaryText_clear, summaryText_clear, h.text_eq]
  hasIn_iff other hother id := by
    show HasIn (ConversationMemory.clear st.table cleared) other id ↔
      HasIn (ConversationMemory.clear st'.table cleared) other id
    rw [ConversationMemory.hasIn_clear_iff, ConversationMemory.hasIn_clear_iff,
      h.hasIn_iff other hother id]

/-- `add_message` refuses the same ids in both states, so what it adds is the same. -/
theorem Alike.addMessage (h : Alike sessionId st st') (call : AddCall) :
    Alike sessionId (mem.step db jsonb st (.conversation (.addMessage call)))
      (mem.step db jsonb st' (.conversation (.addMessage call))) := by
  refine ⟨?_, h.text_eq, fun other hother id => ?_⟩
  · show messages (ConversationMemory.addMessage jsonb st.table call).2 sessionId =
      messages (ConversationMemory.addMessage jsonb st'.table call).2 sessionId
    unfold ConversationMemory.addMessage
    split_ifs
    · simp only [ConversationMemory.messages_insertIfNew, h.messages_eq, h.has_iff]
    · exact h.messages_eq
  · show HasIn (ConversationMemory.addMessage jsonb st.table call).2 other id ↔
      HasIn (ConversationMemory.addMessage jsonb st'.table call).2 other id
    unfold ConversationMemory.addMessage
    split_ifs
    · rw [ConversationMemory.hasIn_insertIfNew_iff, ConversationMemory.hasIn_insertIfNew_iff,
        h.hasIn_iff other hother id, h.has_iff]
    · exact h.hasIn_iff other hother id

/-- A call of `get_recent` leaves the messages of all sessions as they are; what it writes is a
summary. -/
theorem table_getRecent (jsonb : PyStr → Bool) (st : MemoryState) (sessionId : PyStr)
    (model : SummaryModel) :
    (mem.step db jsonb st (.getRecent sessionId model)).table = st.table := by
  rcases mem.step_getRecent_cases db model st sessionId jsonb with hstep | ⟨-, _, -, hstep⟩
  · rw [hstep]
  · rw [hstep]
    rfl

/-- A call of `get_recent` leaves the summaries of the other sessions as they are. -/
theorem summaryText_getRecent_of_ne (jsonb : PyStr → Bool) (st : MemoryState)
    {sessionId' : PyStr} (hne : sessionId ≠ sessionId') (model : SummaryModel) :
    (mem.step db jsonb st (.getRecent sessionId' model)).summaryText sessionId =
      st.summaryText sessionId := by
  rcases mem.step_getRecent_cases db model st sessionId' jsonb with hstep | ⟨-, _, -, hstep⟩
  · rw [hstep]
  · rw [hstep]
    exact congrArg (Option.map Summary.text) (Function.update_of_ne hne _ _)

/-- What a compression reads is the same in both states, and so is what it would write. -/
theorem Alike.older_eq (h : Alike sessionId st st') :
    mem.older db st.table sessionId = mem.older db st'.table sessionId := by
  unfold older ConversationMemory.getRecent count
  rw [h.messages_eq]

/-- `get_recent` gives back the same entries in both. -/
theorem Alike.entries_eq (h : Alike sessionId st st') :
    mem.entries db st sessionId = mem.entries db st' sessionId := by
  unfold entries summaryEntries ConversationMemory.getRecent
  rw [h.messages_eq, h.text_eq]

theorem Alike.setSummary (h : Alike sessionId st st') (summary : Summary) :
    Alike sessionId (st.setSummary sessionId summary) (st'.setSummary sessionId summary) where
  messages_eq := h.messages_eq
  text_eq := by rw [MemoryState.summaryText_setSummary, MemoryState.summaryText_setSummary]
  hasIn_iff := h.hasIn_iff

/-- A call of `get_recent` for the session returns the same from both states, and leaves them
`Alike`. -/
theorem Alike.run_getRecent (h : Alike sessionId st st') (model : SummaryModel) :
    ((mem.getRecent sessionId).run (handler db model) st).1 =
        ((mem.getRecent sessionId).run (handler db model) st').1 ∧
      Alike sessionId ((mem.getRecent sessionId).run (handler db model) st).2
        ((mem.getRecent sessionId).run (handler db model) st').2 := by
  have holder : mem.older db st.table sessionId = mem.older db st'.table sessionId := h.older_eq
  by_cases hnil : mem.older db st.table sessionId = []
  · rw [mem.run_getRecent_of_nil db model st sessionId hnil,
      mem.run_getRecent_of_nil db model st' sessionId (holder ▸ hnil)]
    exact ⟨congrArg Except.ok h.entries_eq, h⟩
  · rw [mem.run_getRecent_of_ne_nil db model st sessionId hnil,
      mem.run_getRecent_of_ne_nil db model st' sessionId (holder ▸ hnil), holder]
    cases model (request (mem.older db st'.table sessionId)) with
    | error e => exact ⟨rfl, h⟩
    | ok response => exact ⟨congrArg Except.ok (h.setSummary _).entries_eq, h.setSummary _⟩

/-- No call of any session tells `Alike` states apart or makes them differ. -/
theorem Alike.step (h : Alike sessionId st st') (call : MemoryCall) :
    Alike sessionId (mem.step db jsonb st call) (mem.step db jsonb st' call) := by
  cases call with
  | conversation call =>
    cases call with
    | addMessage call => exact h.addMessage call
    | clear cleared => exact h.clear cleared
  | getRecent sessionId' model =>
    by_cases hsession : sessionId = sessionId'
    · subst hsession
      exact (h.run_getRecent model).2
    · refine ⟨?_, ?_, ?_⟩
      · rw [table_getRecent, table_getRecent]
        exact h.messages_eq
      · rw [summaryText_getRecent_of_ne _ _ hsession, summaryText_getRecent_of_ne _ _ hsession]
        exact h.text_eq
      · rw [table_getRecent, table_getRecent]
        exact h.hasIn_iff

theorem Alike.outcome_eq (h : Alike sessionId st st') (call : MemoryCall) :
    mem.outcome db sessionId st call = mem.outcome db sessionId st' call := by
  cases call with
  | conversation call => rfl
  | getRecent sessionId' model =>
    simp only [outcome]
    split_ifs with hsession
    · subst hsession
      exact congrArg some (h.run_getRecent model).1
    · rfl

/-- `clear` deletes every message of the session. -/
theorem messages_clear_self (st : MemoryState) (sessionId : PyStr) :
    messages (st.clear sessionId).table sessionId = [] :=
  (ConversationMemory.messages_clear _ _ _).trans (if_pos rfl)

/-- If the summaries have the same text and the other sessions the same ids, the states cannot be
told apart after the session was cleared: they are `Alike` then, and stay so. -/
theorem forgotten_of_alike (htext : (st.summaryText sessionId).getD [] =
      (st'.summaryText sessionId).getD [])
    (hids : ∀ other ≠ sessionId, ∀ id, HasIn st.table other id ↔ HasIn st'.table other id) :
    mem.Forgotten db jsonb sessionId st st' := by
  have halike : Alike sessionId (st.clear sessionId) (st'.clear sessionId) := by
    refine ⟨by rw [messages_clear_self, messages_clear_self], ?_, fun other hother id => ?_⟩
    · rw [summaryText_clear, summaryText_clear, htext]
    · refine ConversationMemory.hasIn_clear_iff.trans ?_
      rw [hids other hother id]
      exact ConversationMemory.hasIn_clear_iff.symm
  exact Run.outputs_eq_of_alike (fun _ _ call h => h.step call)
    (fun _ _ call h => h.outcome_eq call) halike

/-! ## Calls that tell states apart -/

/-- A call that adds a message with an id. -/
def probe (sessionId id : PyStr) : ConversationCall := .addMessage {
  sessionId
  role := "user".toList
  content := "Hello".toList
  uuid := id
  now := 0 }

/-- The calls of the wrapped conversation memory never touch `_summaries`. -/
theorem summaryText_after_conversation (st : MemoryState) (calls : List ConversationCall)
    (sessionId : PyStr) :
    (Run.after (mem.step db jsonb) st (calls.map .conversation)).summaryText sessionId =
      st.summaryText sessionId := by
  induction calls generalizing st with
  | nil => rfl
  | cons call calls ih =>
    refine (ih _).trans ?_
    cases call with
    | addMessage call => rfl
    | clear cleared => exact summaryText_clear st cleared sessionId

/-- A session of at most one message is returned as it is: with such a call one can look into the
memory without a compression. -/
theorem outcomes_of_count_le_one (st : MemoryState) (calls : List ConversationCall)
    (model : SummaryModel)
    (h : count (Run.after (mem.step db jsonb) st (calls.map .conversation)).table sessionId ≤ 1) :
    mem.outcomes db jsonb sessionId st (calls.map .conversation ++ [.getRecent sessionId model]) =
      [.ok (mem.entries db (Run.after (mem.step db jsonb) st (calls.map .conversation))
        sessionId)] := by
  induction calls generalizing st with
  | nil =>
    have hnil : mem.older db st.table sessionId = [] := by
      refine not_not.mp (mt older_ne_nil_iff.mp fun ⟨hcount, hkeep, hlt⟩ => ?_)
      have hle : count st.table sessionId ≤ 1 := h
      omega
    have hrun := mem.run_getRecent_of_nil db model st sessionId hnil
    show (mem.outcome db sessionId st (.getRecent sessionId model)).toList ++ [] = _
    simp only [outcome, if_pos, hrun]
    rfl
  | cons call calls ih => exact ih _ h

variable (mem db jsonb) in
/-- The state after the session has been cleared and some calls have been made on the conversation
memory. -/
def clearedThen (sessionId : PyStr) (st : MemoryState) (calls : List ConversationCall) :
    MemoryState :=
  Run.after (mem.step db jsonb) (st.clear sessionId) (calls.map .conversation)

theorem summaryText_clearedThen (st : MemoryState) (calls : List ConversationCall) :
    (mem.clearedThen db jsonb sessionId st calls).summaryText sessionId =
      st.summaryText sessionId :=
  (summaryText_after_conversation _ calls sessionId).trans (summaryText_clear st _ _)

/-- What `get_recent` returns after the clearing and some further calls is the same in both states,
as long as these leave one message at most. -/
theorem Forgotten.entries_eq (h : mem.Forgotten db jsonb sessionId st st')
    (calls : List ConversationCall)
    (hcount : count (mem.clearedThen db jsonb sessionId st calls).table sessionId ≤ 1)
    (hcount' : count (mem.clearedThen db jsonb sessionId st' calls).table sessionId ≤ 1) :
    mem.entries db (mem.clearedThen db jsonb sessionId st calls) sessionId =
      mem.entries db (mem.clearedThen db jsonb sessionId st' calls) sessionId := by
  have hlater := h (calls.map .conversation ++
    [.getRecent sessionId fun _ => .error ConversationMemory.invalidJson])
  rw [outcomes_of_count_le_one _ _ _ hcount, outcomes_of_count_le_one _ _ _ hcount'] at hlater
  exact Except.ok.inj (List.cons.inj hlater).1

/-- What a summary adds to the answer shows its text, except that an empty text looks as if there
were none. -/
theorem summaryEntries_inj {summaryText summaryText' : Option PyStr}
    (h : summaryEntries sessionId summaryText = summaryEntries sessionId summaryText') :
    summaryText.getD [] = summaryText'.getD [] := by
  unfold summaryEntries at h
  split_ifs at h with hempty hempty' hempty'
  · rw [List.isEmpty_iff.mp hempty, List.isEmpty_iff.mp hempty']
  · exact List.append_cancel_left (congrArg MemoryEntry.content (List.cons.inj h).1)

/-- States that are `Forgotten` have the same text of the summary: the first `get_recent` after the
clearing shows it. -/
theorem Forgotten.text_eq (h : mem.Forgotten db jsonb sessionId st st') :
    (st.summaryText sessionId).getD [] = (st'.summaryText sessionId).getD [] := by
  have hcount (st : MemoryState) : count (st.clear sessionId).table sessionId = 0 :=
    congrArg List.length (messages_clear_self st sessionId)
  have hentries := h.entries_eq [] ((hcount st).trans_le (Nat.zero_le 1))
    ((hcount st').trans_le (Nat.zero_le 1))
  have hrecent (st : MemoryState) : ConversationMemory.getRecent db (st.clear sessionId).table
      sessionId mem.keepRecent = [] := by
    rw [← List.length_eq_zero_iff, ConversationMemory.length_getRecent, hcount, Nat.min_zero]
  have hsummary (st : MemoryState) : mem.entries db (st.clear sessionId) sessionId =
      summaryEntries sessionId (st.summaryText sessionId) := by
    unfold entries
    rw [hrecent, List.append_nil, summaryText_clear]
  exact summaryEntries_inj ((hsummary st).symm.trans (hentries.trans (hsummary st')))

/-- If anything is kept, `get_recent` also shows how many messages of the session have been added
since. -/
theorem Forgotten.count_eq (h : mem.Forgotten db jsonb sessionId st st')
    (hkeep : mem.keepRecent ≠ 0) (calls : List ConversationCall)
    (hcount : count (mem.clearedThen db jsonb sessionId st calls).table sessionId ≤ 1)
    (hcount' : count (mem.clearedThen db jsonb sessionId st' calls).table sessionId ≤ 1) :
    count (mem.clearedThen db jsonb sessionId st calls).table sessionId =
      count (mem.clearedThen db jsonb sessionId st' calls).table sessionId := by
  have hlength := congrArg List.length (h.entries_eq calls hcount hcount')
  unfold entries at hlength
  rw [List.length_append, List.length_append, ConversationMemory.length_getRecent,
    ConversationMemory.length_getRecent, summaryText_clearedThen, summaryText_clearedThen]
    at hlength
  unfold summaryEntries at hlength
  rw [h.text_eq] at hlength
  omega

/-- A `probe` is a message under some id, for a session without messages: it is counted exactly if
the id is not taken. -/
theorem count_probe {t : MessageTable} (hjsonb : jsonb "\x7b\x7d".toList = true)
    (hempty : messages t sessionId = []) (id : PyStr) :
    count (ConversationMemory.step jsonb t (probe sessionId id)) sessionId =
      if t.Has id then 0 else 1 := by
  have hstep : ConversationMemory.step jsonb t (probe sessionId id) =
      t.insertIfNew ⟨id, sessionId, "user".toList, "Hello".toList, 0, "\x7b\x7d".toList⟩ :=
    congrArg Prod.snd (if_pos hjsonb)
  unfold count
  rw [hstep, ConversationMemory.messages_insertIfNew, hempty]
  by_cases hhas : t.Has id
  · simp [hhas]
  · simp [hhas]

/-- A message added to the emptied session is counted exactly if its id is new: this is how a later
call can see which ids are left in the table. -/
theorem count_probed {calls : List ConversationCall} (hjsonb : jsonb "\x7b\x7d".toList = true)
    (hempty : messages (mem.clearedThen db jsonb sessionId st calls).table sessionId = [])
    (id : PyStr) :
    count (mem.clearedThen db jsonb sessionId st (calls ++ [probe sessionId id])).table sessionId =
      if (mem.clearedThen db jsonb sessionId st calls).table.Has id then 0 else 1 := by
  unfold clearedThen at hempty ⊢
  rw [List.map_append, List.map_singleton, Run.after_concat]
  exact count_probe hjsonb hempty id

/-- An id is taken in both states or in none, as long as the session has no messages: a `probe` for
it would show the difference. -/
theorem Forgotten.has_iff (h : mem.Forgotten db jsonb sessionId st st') (hkeep : mem.keepRecent ≠ 0)
    (hjsonb : jsonb "\x7b\x7d".toList = true) (calls : List ConversationCall)
    (hempty : messages (mem.clearedThen db jsonb sessionId st calls).table sessionId = [])
    (hempty' : messages (mem.clearedThen db jsonb sessionId st' calls).table sessionId = [])
    (id : PyStr) :
    (mem.clearedThen db jsonb sessionId st calls).table.Has id ↔
      (mem.clearedThen db jsonb sessionId st' calls).table.Has id := by
  have hprobe := count_probed hjsonb hempty id
  have hprobe' := count_probed hjsonb hempty' id
  have hequal := h.count_eq hkeep (calls ++ [probe sessionId id])
    (hprobe.trans_le (by split_ifs <;> omega)) (hprobe'.trans_le (by split_ifs <;> omega))
  rw [hprobe, hprobe'] at hequal
  split_ifs at hequal with hhas hhas' hhas'
  · exact iff_of_true hhas hhas'
  · exact iff_of_false hhas hhas'

/-- An id of another session is the same session's in both states: clearing that session frees it,
and a `probe` shows whether it has. -/
theorem Forgotten.hasIn (h : mem.Forgotten db jsonb sessionId st st') (hkeep : mem.keepRecent ≠ 0)
    (hjsonb : jsonb "\x7b\x7d".toList = true) {other id : PyStr} (hother : other ≠ sessionId)
    (hid : HasIn st.table other id) : HasIn st'.table other id := by
  -- it is taken in the second state
  have htaken : (st'.clear sessionId).table.Has id := by
    refine (h.has_iff hkeep hjsonb [] (messages_clear_self st sessionId)
      (messages_clear_self st' sessionId) id).mp ?_
    exact ConversationMemory.has_iff_exists_hasIn.mpr
      ⟨other, ConversationMemory.hasIn_clear_iff.mpr ⟨hother.symm, hid⟩⟩
  by_contra hnot
  -- and, if by a third session, it still is when the other one has been cleared
  have hempty (st : MemoryState) : messages (ConversationMemory.clear (st.clear sessionId).table
      other) sessionId = [] := by
    rw [ConversationMemory.messages_clear, if_neg hother]
    exact messages_clear_self st sessionId
  have hcleared := h.has_iff hkeep hjsonb [.clear other] (hempty st) (hempty st') id
  obtain ⟨third, hthird⟩ := ConversationMemory.has_iff_exists_hasIn.mp htaken
  have hfreed : (ConversationMemory.clear (st.clear sessionId).table other).Has id := by
    refine hcleared.mpr (ConversationMemory.has_iff_exists_hasIn.mpr
      ⟨third, ConversationMemory.hasIn_clear_iff.mpr ⟨?_, hthird⟩⟩)
    rintro rfl
    exact hnot (ConversationMemory.hasIn_clear_iff.mp hthird).2
  obtain ⟨fourth, hfourth⟩ := ConversationMemory.has_iff_exists_hasIn.mp hfreed
  obtain ⟨hne, hfourth⟩ := ConversationMemory.hasIn_clear_iff.mp hfourth
  exact hne (hid.session_eq (ConversationMemory.hasIn_clear_iff.mp hfourth).2)

/-! ## When a session is forgotten -/

/-- With `keep_recent` zero nothing is ever older than what is kept: `all_messages[:-0]` is
empty. -/
theorem older_of_keep_eq_zero (hkeep : mem.keepRecent = 0) (t : MessageTable) :
    mem.older db t sessionId = [] :=
  not_not.mp (mt older_ne_nil_iff.mp fun h => h.2.1.ne' hkeep)

/-- Where nothing is kept, nothing is older than what is kept, and no call makes a summary. -/
theorem summaryText_step_of_keep_eq_zero (hkeep : mem.keepRecent = 0)
    (h : st.summaryText sessionId = none) (call : MemoryCall) :
    (mem.step db jsonb st call).summaryText sessionId = none := by
  cases call with
  | conversation call =>
    cases call with
    | addMessage call => exact h
    | clear cleared => exact (summaryText_clear st cleared sessionId).trans h
  | getRecent sessionId' model =>
    have hrun := mem.run_getRecent_of_nil db model st sessionId'
      (older_of_keep_eq_zero hkeep st.table)
    exact (congrArg (MemoryState.summaryText · sessionId) (congrArg Prod.snd hrun)).trans h

/-- With `keep_recent` zero and no summary, `get_recent` gives back nothing at all. -/
theorem outcome_of_keep_eq_zero (hkeep : mem.keepRecent = 0) (h : st.summaryText sessionId = none)
    (model : SummaryModel) :
    mem.outcome db sessionId st (.getRecent sessionId model) = some (.ok []) := by
  have hentries : mem.entries db st sessionId = [] := by
    unfold entries
    rw [h, hkeep]
    rfl
  simp only [outcome, if_pos,
    mem.run_getRecent_of_nil db model st sessionId (older_of_keep_eq_zero hkeep st.table), hentries]

/-- Where nothing is kept and nothing is summarised, no call returns anything, and any two runs are
`Forgotten`. -/
theorem forgotten_of_keep_eq_zero (hkeep : mem.keepRecent = 0) (calls calls' : List MemoryCall) :
    mem.Forgotten db jsonb sessionId (Run.after (mem.step db jsonb) .start calls)
      (Run.after (mem.step db jsonb) .start calls') := by
  have hnone calls : (Run.after (mem.step db jsonb) .start calls).summaryText sessionId = none :=
    Run.invariant (P := fun st : MemoryState => st.summaryText sessionId = none)
      (fun _ call h => summaryText_step_of_keep_eq_zero hkeep h call) rfl calls
  refine Run.outputs_eq_of_alike
    (R := fun st st' => st.summaryText sessionId = none ∧ st'.summaryText sessionId = none)
    (fun st st' call h => ⟨summaryText_step_of_keep_eq_zero hkeep h.1 call,
      summaryText_step_of_keep_eq_zero hkeep h.2 call⟩) (fun st st' call h => ?_)
    ⟨(summaryText_clear _ _ _).trans (hnone calls), (summaryText_clear _ _ _).trans (hnone calls')⟩
  cases call with
  | conversation call => rfl
  | getRecent sessionId' model =>
    by_cases hsession : sessionId' = sessionId
    · rw [hsession, outcome_of_keep_eq_zero hkeep h.1, outcome_of_keep_eq_zero hkeep h.2]
    · exact (if_neg hsession).trans (if_neg hsession).symm

theorem Forgotten.symm (h : mem.Forgotten db jsonb sessionId st st') :
    mem.Forgotten db jsonb sessionId st' st := fun later => (h later).symm

/-- Two runs cannot be told apart by anything that follows the `clear` of a session (`Forgotten`) if
and only if `keep_recent` is zero and nothing is ever given back, or the session's summaries have
the same text and the other sessions the same ids. The summary survives `clear`, and an id that
another session has used is still refused. -/
theorem forgotten_iff (mem : SummaryMemory) (db : Postgres) {jsonb : PyStr → Bool}
    (hjsonb : jsonb "\x7b\x7d".toList = true) (calls calls' : List MemoryCall)
    (sessionId : PyStr) :
    mem.Forgotten db jsonb sessionId (Run.after (mem.step db jsonb) .start calls)
        (Run.after (mem.step db jsonb) .start calls') ↔
      mem.keepRecent = 0 ∨
        (((Run.after (mem.step db jsonb) .start calls).summaryText sessionId).getD [] =
          ((Run.after (mem.step db jsonb) .start calls').summaryText sessionId).getD [] ∧
        ∀ other ≠ sessionId, ∀ id,
          HasIn (Run.after (mem.step db jsonb) .start calls).table other id ↔
            HasIn (Run.after (mem.step db jsonb) .start calls').table other id) := by
  refine ⟨fun h => or_iff_not_imp_left.mpr fun hkeep => ⟨h.text_eq, fun other hother id => ?_⟩, ?_⟩
  · exact ⟨h.hasIn hkeep hjsonb hother, h.symm.hasIn hkeep hjsonb hother⟩
  · rintro (hkeep | ⟨htext, hids⟩)
    · exact forgotten_of_keep_eq_zero hkeep calls calls'
    · exact forgotten_of_alike htext hids

/-- A user adds a message to the session `A`. -/
def saysInA (messageId : PyStr) (now : ℚ) : MemoryCall :=
  .conversation (.addMessage
    (ConversationMemory.userMessage messageId "My PIN is 1234".toList now))

/-- A call of `get_recent` with a model that says `PIN 1234`. -/
def summarise : MemoryCall :=
  .getRecent ['A'] fun _ => .ok ⟨"PIN 1234".toList, "summary".toList, 1, 1, "stop".toList, []⟩

/-- `forgotten_iff` for one message, which has not been summarised: after `clear` the session is as
if it had never been added. -/
theorem forgotten_iff_one :
    SummaryMemory.Forgotten ⟨2, 1⟩ .stable (fun _ => true) ['A']
      (Run.after (SummaryMemory.step ⟨2, 1⟩ .stable fun _ => true) .start [saysInA ['1'] 0])
      (Run.after (SummaryMemory.step ⟨2, 1⟩ .stable fun _ => true) .start []) := by
  apply (forgotten_iff ⟨2, 1⟩ .stable rfl [saysInA ['1'] 0] [] ['A']).mpr
  refine .inr ⟨rfl, fun other hother id => ?_⟩
  refine ConversationMemory.hasIn_insertIfNew_iff.trans (or_iff_left fun hnew => ?_)
  exact hother hnew.2.1.symm

/-- Three messages, which have been summarised, are not forgotten: after `clear` the next call still
returns the summary of them. -/
theorem three_not_forgotten :
    ¬SummaryMemory.Forgotten ⟨2, 1⟩ .stable (fun _ => true) ['A']
      (Run.after (SummaryMemory.step ⟨2, 1⟩ .stable fun _ => true) .start
        [saysInA ['1'] 0, saysInA ['2'] 1, saysInA ['3'] 2, summarise])
      (Run.after (SummaryMemory.step ⟨2, 1⟩ .stable fun _ => true) .start [summarise]) := by
  intro h
  exact absurd h.text_eq (by decide)

end SummaryMemory
