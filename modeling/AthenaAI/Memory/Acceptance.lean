import AthenaAI.Memory.Conversation
import AthenaAI.ToMathlib.Run

/-!
# Accepted messages

Whether a message that `add_message` has accepted is in its session. The insertion does nothing if
the identifier is there already (`ON CONFLICT DO NOTHING`), and says nothing about it.

* `Accepted` says that it is found there under the returned id, once, with its role and its content,
  and that a further call with this id changes nothing.
* `filter_getRecent_eq_singleton_iff` reads the first part off the rows of the table, and
  `addMessage_retry` is the second one.
* `accepted_iff`: after any calls, an accepted message is in its session if and only if its id has
  not been used for another message. Calls whose metadata the database refuses raise, and use no id.
-/

/-- The call once more, under the id that it has returned. -/
def AddCall.retry (call : AddCall) (now : ℚ) : AddCall :=
  { call with messageId := some call.msgId, now }

/-- A call that is made again asks for the same row, so `ON CONFLICT` sees the id a second time. -/
theorem AddCall.msgId_retry (call : AddCall) (now : ℚ) : (call.retry now).msgId = call.msgId := by
  show call.msgId.orElse call.uuid = call.msgId
  unfold AddCall.msgId PyStr.orElse
  split_ifs <;> rfl

namespace ConversationMemory

/-- In the table, the message of a call is in its session. -/
structure Accepted (db : Postgres) (jsonb : PyStr → Bool) (t : MessageTable) (call : AddCall)
    (entry : MemoryEntry) : Prop where
  /-- One entry has the returned id, and it has the role and the content. -/
  found : ∀ n, count t call.sessionId ≤ n → ∃ found,
    ((getRecent db t call.sessionId n).filter fun e => e.id = entry.id) = [found] ∧
      found.content = spokenText call.role call.content ∧
      found.metadata = [(.str "role".toList, .str call.role)]
  /-- A further call changes nothing. -/
  repeated : ∀ now, (addMessage jsonb t (call.retry now)).2 = t

variable {db : Postgres} {jsonb : PyStr → Bool} {t : MessageTable} {call : AddCall}

/-- In a session of at most `n` messages, `get_recent` shows exactly one entry under an id if the
session has a row with it. -/
theorem filter_getRecent_eq_singleton_iff {sessionId id : PyStr} {n : ℕ} {found : MemoryEntry}
    (hn : count t sessionId ≤ n) :
    ((getRecent db t sessionId n).filter fun e => e.id = id) = [found] ↔
      ∃ row ∈ t.rows, row.sessionId = sessionId ∧ row.id = id ∧ row.entry = found := by
  have hperm := (db.isAnswer_arrange n (messages t sessionId)).perm
  have hall : (db.arrange n (messages t sessionId)).take n = db.arrange n (messages t sessionId) :=
    List.take_of_length_le (hperm.length_eq.trans_le hn)
  unfold getRecent
  rw [hall, List.filter_map, List.map_eq_singleton_iff]
  refine exists_congr fun row => ?_
  have hfilter := Table.filter_eq_singleton_iff (k := id) (r := row)
    ((List.reverse_perm _).trans hperm)
  rw [decide_eq_true_iff] at hfilter
  refine (and_congr_left' hfilter).trans ?_
  rw [and_assoc, and_assoc]

/-- The text of a message together with its role. -/
theorem entry_eq_spoken_iff {row : MessageRow} :
    (row.entry.content = spokenText call.role call.content ∧
      row.entry.metadata = [(.str "role".toList, .str call.role)]) ↔
      row.role = call.role ∧ row.content = call.content := by
  refine ⟨fun ⟨hcontent, hmetadata⟩ => ?_, fun ⟨hrole, hcontent⟩ => ?_⟩
  · have hrole : row.role = call.role :=
      PyValue.str.inj (Prod.mk.inj (List.cons.inj hmetadata).1).2
    have hcontent : spokenText row.role row.content = spokenText call.role call.content := hcontent
    rw [hrole] at hcontent
    exact ⟨hrole, List.append_cancel_left hcontent⟩
  · exact ⟨congrArg₂ spokenText hrole hcontent,
      congrArg (fun role => [(_, PyValue.str role)]) hrole⟩

/-- After `insertIfNew` of the row of a call, the row under its id satisfies `p` exactly if every
row under this id did so before, since a row that is there stays. -/
theorem exists_inserted_iff (t : MessageTable) (p : MessageRow → Prop) (hp : p call.row) :
    (∃ row ∈ (t.insertIfNew call.row).rows, row.id = call.msgId ∧ p row) ↔
      ∀ row ∈ t.rows, row.id = call.msgId → p row := by
  refine ⟨fun ⟨row, hrow, hid, hrow'⟩ old hold hid' => ?_, fun hall => ?_⟩
  · have hold' : old ∈ (t.insertIfNew call.row).rows := Table.mem_insertIfNew.mpr (.inl hold)
    rwa [Table.eq_of_key_eq _ hold' hrow (hid'.trans hid.symm)]
  · obtain ⟨row, hrow, hid⟩ := Table.has_iff.mp (t.has_insertIfNew call.row)
    refine ⟨row, hrow, hid, ?_⟩
    rcases Table.mem_insertIfNew.mp hrow with hold | ⟨rfl, -⟩
    · exact hall row hold hid
    · exact hp

/-- A further call under the id of a message that is in the table changes nothing, whatever its time
is. -/
theorem addMessage_retry (hjson : jsonb call.metadataText = true) (now : ℚ) :
    (addMessage jsonb (t.insertIfNew call.row) (call.retry now)).2 = t.insertIfNew call.row := by
  have hretry : jsonb (call.retry now).metadataText = true := hjson
  have hhas : (t.insertIfNew call.row).Has (call.retry now).row.id := by
    show (t.insertIfNew call.row).Has (call.retry now).msgId
    rw [call.msgId_retry now]
    exact t.has_insertIfNew call.row
  rw [addMessage, if_pos hretry]
  exact Table.insertIfNew_of_has hhas

/-- A message that `add_message` has returned is in its session (`Accepted`) if and only if its id
has not been used before for another message, that is, one with another session, role or content.
`ON CONFLICT DO NOTHING` keeps the row of the first message, and the call returns all the same. -/
theorem accepted_iff (db : Postgres) (jsonb : PyStr → Bool) (calls : List ConversationCall)
    (call : AddCall) {entry : MemoryEntry}
    (hentry : (addMessage jsonb (Run.after (step jsonb) Table.empty calls) call).1 = .ok entry) :
    Accepted db jsonb (step jsonb (Run.after (step jsonb) Table.empty calls) (.addMessage call))
        call entry ↔
      ∀ row ∈ (Run.after (step jsonb) Table.empty calls).rows, row.id = call.msgId →
        row.sessionId = call.sessionId ∧ row.role = call.role ∧ row.content = call.content := by
  obtain ⟨hjson, rfl⟩ := addMessage_eq_ok_iff.mp hentry
  generalize Run.after (step jsonb) Table.empty calls = t
  have hstep : step jsonb t (.addMessage call) = t.insertIfNew call.row := by
    show (addMessage jsonb t call).2 = _
    rw [addMessage, if_pos hjson]
  rw [hstep, ← exists_inserted_iff t (fun row => row.sessionId = call.sessionId ∧
    row.role = call.role ∧ row.content = call.content) ⟨rfl, rfl, rfl⟩]
  refine ⟨fun haccepted => ?_, fun ⟨row, hrow, hid, hsession, hspoken⟩ => ⟨fun n hn => ?_, ?_⟩⟩
  · obtain ⟨found, hfound, hspoken⟩ := haccepted.found _ le_rfl
    obtain ⟨row, hrow, hsession, hid, rfl⟩ := (filter_getRecent_eq_singleton_iff le_rfl).mp hfound
    exact ⟨row, hrow, hid, hsession, entry_eq_spoken_iff.mp hspoken⟩
  · exact ⟨row.entry, (filter_getRecent_eq_singleton_iff hn).mpr ⟨row, hrow, hsession, hid, rfl⟩,
      entry_eq_spoken_iff.mpr hspoken⟩
  · exact addMessage_retry hjson

/-- A message that a session adds under the id `1`. -/
def messageOne (sessionId content : PyStr) (now : ℚ) : AddCall where
  sessionId
  role := "user".toList
  content
  messageId := some ['1']
  uuid := "5f1c".toList
  now

/-- `accepted_iff` for a call that is made again a second later: it is accepted, and the message is
still in its session, with the time of the first call. -/
theorem accepted_iff_retried :
    Accepted .stable (fun _ => true) (step (fun _ => true)
      (Run.after (step fun _ => true) Table.empty [.addMessage (messageOne ['A'] ['x'] 0)])
      (.addMessage (messageOne ['A'] ['x'] 1))) (messageOne ['A'] ['x'] 1)
      (messageOne ['A'] ['x'] 1).entry := by
  apply (accepted_iff .stable (fun _ => true) [.addMessage (messageOne ['A'] ['x'] 0)] _ rfl).mpr
  decide

/-- Another session's message is added under an id that is taken: the call returns, with the entry
that it was asked to add, but the message is not in its session. -/
theorem messageOne_not_accepted :
    ¬Accepted .stable (fun _ => true) (step (fun _ => true)
      (Run.after (step fun _ => true) Table.empty [.addMessage (messageOne ['A'] ['x'] 0)])
      (.addMessage (messageOne ['B'] ['y'] 1))) (messageOne ['B'] ['y'] 1)
      (messageOne ['B'] ['y'] 1).entry := by
  intro h
  obtain ⟨found, hfound, -⟩ := h.found 0 (by decide)
  exact List.cons_ne_nil found [] hfound.symm

end ConversationMemory
