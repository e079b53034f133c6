import AthenaAI.Memory.Summary
import AthenaAI.ToMathlib.Independence

/-!
# Concurrent work on different sessions

Any number of callers of the two memories, each of which works on one session: it adds messages,
clears the session, counts and reads its messages and has them summarised, one call after another,
while others do the same for this session or for theirs. Every operation may fail, before or after
it has had its effect, and its caller then makes its next call.

What a session finds is compared with what it would find in a database of its own. Of databases it
is only known that they order the messages by their times, so no two messages of a session may have
the same time; then the order is the same in any two databases (`getRecent_only`).

* `MemoryOp` are the statements and the other operations of the calls, and `memoryHandler` answers
  them. `SessionCall` are the calls; a call of `SummaryMemory.get_recent` brings along the model
  that it meets.
* `MemoryState.only` is what there is of one session. `OwnMessages` says that messages have ids of
  their own sessions and times of their own. The sessions are parts of the state that do not meet
  then (`sessionParts`).
* `SessionCaller` are the callers, with their calls and the faults of their operations.
* `OwnSessions`: every caller works on its session, no two sessions draw the same id for a message,
  and no two messages of a session have the same time.
* `interleaved_isolated`: whatever the order of the single operations, and whichever of them fail,
  the callers of a session find what they would find, in any other database, if those of the other
  sessions never had a turn and had left nothing behind.
-/

/-- An operation of a call of one of the memories. -/
inductive MemoryOp where
  /-- The statement of `add_message`. -/
  | addMessage (call : AddCall)
  /-- The statement of `clear`. -/
  | clear (sessionId : PyStr)
  /-- The statement of `count`. -/
  | count (sessionId : PyStr)
  /-- The statement of `ConversationMemory.get_recent`. -/
  | getRecent (sessionId : PyStr) (n : ℕ)
  /-- `self._model.generate(request)`, with the request for a summary of `older`. -/
  | generate (model : SummaryModel) (older : List MemoryEntry)
  /-- `self._summaries[session_id] = text`, for a summary of `older`. -/
  | setSummary (sessionId : PyStr) (older : List MemoryEntry) (text : PyStr)
  /-- `self._summaries.get(session_id)`. -/
  | summary (sessionId : PyStr)

/-- What an operation answers. -/
abbrev MemoryOp.Resp : MemoryOp → Type
  | addMessage _ => MemoryEntry
  | clear _ => Unit
  | count _ => ℕ
  | getRecent _ _ => List MemoryEntry
  | generate _ _ => ModelResponse
  | setSummary _ _ _ => Unit
  | summary _ => Option PyStr

/-- A call of one of the memories, or a part of it. -/
abbrev Remembering (α : Type) : Type := Coro MemoryOp MemoryOp.Resp PyExc α

/-- One operation. -/
abbrev Remembering.perform (op : MemoryOp) : Remembering op.Resp := Coro.perform op

/-- The operations of the two memories, on the table and the summaries. -/
def memoryHandler (db : Postgres) (jsonb : PyStr → Bool) :
    Handler MemoryOp MemoryOp.Resp PyExc MemoryState
  | .addMessage call, st =>
    ((ConversationMemory.addMessage jsonb st.table call).1,
      { st with table := (ConversationMemory.addMessage jsonb st.table call).2 })
  | .clear sessionId, st => (.ok (), st.clear sessionId)
  | .count sessionId, st => (.ok (ConversationMemory.count st.table sessionId), st)
  | .getRecent sessionId n, st => (.ok (ConversationMemory.getRecent db st.table sessionId n), st)
  | .generate model older, st => (model (SummaryMemory.request older), st)
  | .setSummary sessionId older text, st => (.ok (), st.setSummary sessionId ⟨text, older⟩)
  | .summary sessionId, st => (.ok (st.summaryText sessionId), st)

/-- An operation of `SummaryMemory.get_recent` among those of all calls. -/
def SummaryOp.toMemoryOp (model : SummaryModel) : SummaryOp → MemoryOp
  | count sessionId => .count sessionId
  | getRecent sessionId n => .getRecent sessionId n
  | generate older => .generate model older
  | setSummary sessionId older text => .setSummary sessionId older text
  | summary sessionId => .summary sessionId

/-- Its answer is the same. -/
def SummaryOp.answer (model : SummaryModel) :
    (op : SummaryOp) → (op.toMemoryOp model).Resp → op.Resp
  | count _ => id
  | getRecent _ _ => id
  | generate _ => id
  | setSummary _ _ _ => id
  | summary _ => id

/-! ## The calls -/

/-- A call of one of the memories. -/
inductive SessionCall where
  /-- `ConversationMemory.add_message`. -/
  | addMessage (call : AddCall)
  /-- `ConversationMemory.clear`. -/
  | clear (sessionId : PyStr)
  /-- `ConversationMemory.count`. -/
  | count (sessionId : PyStr)
  /-- `ConversationMemory.get_recent`. -/
  | getRecent (sessionId : PyStr) (n : ℕ)
  /-- `SummaryMemory.get_recent`. -/
  | summaryRecent (sessionId : PyStr) (model : SummaryModel)

/-- The call as one that others may interrupt. -/
def MemoryCall.toSessionCall : MemoryCall → SessionCall
  | conversation (.addMessage call) => .addMessage call
  | conversation (.clear sessionId) => .clear sessionId
  | getRecent sessionId model => .summaryRecent sessionId model

/-- What a call returns. -/
inductive SessionAnswer where
  | entry (entry : MemoryEntry)
  | none
  | number (n : ℕ)
  | entries (entries : List MemoryEntry)

namespace SessionCall

/-- The session of the call. -/
def sessionId : SessionCall → PyStr
  | addMessage call => call.sessionId
  | clear sessionId => sessionId
  | count sessionId => sessionId
  | getRecent sessionId _ => sessionId
  | summaryRecent sessionId _ => sessionId

/-- The call draws the id and the time of a message. -/
def Draws (id : PyStr) (now : ℚ) : SessionCall → Prop
  | addMessage call => call.msgId = id ∧ call.now = now
  | _ => False

end SessionCall

namespace SummaryMemory

variable (mem : SummaryMemory)

/-- The coroutine of a call. -/
def perform : SessionCall → Remembering SessionAnswer
  | .addMessage call => do
    let entry ← Remembering.perform (.addMessage call)
    return .entry entry
  | .clear sessionId => do
    Remembering.perform (.clear sessionId)
    return .none
  | .count sessionId => do
    let n ← Remembering.perform (.count sessionId)
    return .number n
  | .getRecent sessionId n => do
    let entries ← Remembering.perform (.getRecent sessionId n)
    return .entries entries
  | .summaryRecent sessionId model => do
    let entries ← (mem.getRecent sessionId).via (SummaryOp.toMemoryOp model)
      (SummaryOp.answer model)
    return .entries entries

/-- A caller that makes its calls one after another, also when one has failed. -/
def performAll : List SessionCall → Remembering (List (Except PyExc SessionAnswer))
  | [] => return []
  | call :: calls => do
    let answer ← (mem.perform call).attempt
    let answers ← performAll calls
    return answer :: answers

variable (db : Postgres) (jsonb : PyStr → Bool)

/-- A call of `SummaryMemory.get_recent` that has the state to itself runs as in the sequential
model: its operations are performed by `memoryHandler` as by `handler`. -/
theorem run_summaryRecent (sessionId : PyStr) (model : SummaryModel) (st : MemoryState) :
    ((mem.getRecent sessionId).via (SummaryOp.toMemoryOp model) (SummaryOp.answer model)).run
        (memoryHandler db jsonb) st = (mem.getRecent sessionId).run (handler db model) st := by
  apply Coro.run_via
  intro op st
  cases op with
  | generate older =>
    show ((model (request older)).map id, st) = (model (request older), st)
    cases model (request older) <;> rfl
  | _ => rfl

/-- A call that has the state to itself has the effect that `SummaryMemory.step` says, so the
coroutines here are those of the sequential model. -/
theorem snd_run_perform (call : MemoryCall) (st : MemoryState) :
    ((mem.perform call.toSessionCall).run (memoryHandler db jsonb) st).2 =
      mem.step db jsonb st call := by
  cases call with
  | conversation call =>
    cases call with
    | addMessage call =>
      show (Coro.run _ (Remembering.perform (.addMessage call) >>= _) st).2 = _
      rw [Coro.run_bind, Coro.run_perform, memoryHandler]
      cases (ConversationMemory.addMessage jsonb st.table call).1 <;> rfl
    | clear sessionId => rfl
  | getRecent sessionId model =>
    show (Coro.run _ (Coro.via _ _ (mem.getRecent sessionId) >>= _) st).2 = _
    rw [Coro.run_bind, run_summaryRecent, step]
    rcases (mem.getRecent sessionId).run (handler db model) st with ⟨_ | _, st'⟩ <;> rfl

end SummaryMemory

/-! ## The parts of the state -/

namespace ConversationMemory

variable {t : MessageTable} {sessionId other : PyStr} {call : AddCall}

/-- The messages of one session. -/
def only (t : MessageTable) (sessionId : PyStr) : MessageTable :=
  t.deleteWhere fun row => row.sessionId ≠ sessionId

/-- A session finds in the table of its own rows what it finds in the whole table. -/
theorem messages_only (t : MessageTable) (sessionId : PyStr) :
    messages (only t sessionId) sessionId = messages t sessionId := by
  rw [messages, only, Table.select_deleteWhere]
  refine List.filter_eq_self.mpr fun row hrow => ?_
  simpa using (mem_messages_iff.mp hrow).2

theorem count_only (t : MessageTable) (sessionId : PyStr) :
    count (only t sessionId) sessionId = count t sessionId := by
  rw [count, count, messages_only]

/-- The messages of the session have different times. -/
def NoTies (t : MessageTable) (sessionId : PyStr) : Prop :=
  ∀ row ∈ messages t sessionId, ∀ row' ∈ messages t sessionId,
    row.createdAt = row'.createdAt → row = row'

/-- Messages with different times (`NoTies`) come in the same order from any two databases, also if
one of them holds this session alone. -/
theorem getRecent_only (db db' : Postgres) (h : NoTies t sessionId) (n : ℕ) :
    getRecent db' (only t sessionId) sessionId n = getRecent db t sessionId n := by
  have harrange : db'.arrange n (messages t sessionId) = db.arrange n (messages t sessionId) :=
    (db'.isAnswer_arrange n _).eq_of_key_inj (db.isAnswer_arrange n _) h
  rw [getRecent, getRecent, messages_only, harrange]

/-- `clear` of a session, seen from that session, is `clear` on its part of the table. -/
theorem only_clear_self (t : MessageTable) (sessionId : PyStr) :
    only (clear t sessionId) sessionId = clear (only t sessionId) sessionId := by
  ext1
  simp only [only, clear, Table.deleteWhere, List.filter_filter, Bool.and_comm]

/-- `clear` of another session leaves the part of this one as it is. -/
theorem only_clear_of_ne (h : other ≠ sessionId) :
    only (clear t sessionId) other = only t other := by
  ext1
  simp only [only, clear, Table.deleteWhere, List.filter_filter]
  refine List.filter_congr fun row _ => ?_
  by_cases hrow : row.sessionId = other
  · simp [hrow, h]
  · simp [hrow]

/-- A message is added to those of its session as in a database of its own, if no other session has
its id. -/
theorem only_addMessage_self (jsonb : PyStr → Bool)
    (hid : ∀ row ∈ t.rows, row.id = call.msgId → row.sessionId = call.sessionId) :
    addMessage jsonb (only t call.sessionId) call =
      ((addMessage jsonb t call).1, only (addMessage jsonb t call).2 call.sessionId) := by
  unfold addMessage
  split_ifs
  · refine congrArg (Prod.mk _) (Table.deleteWhere_insertIfNew_of_neg ?_ fun row hrow h => ?_).symm
    · simp [AddCall.row]
    · simpa using hid row hrow h
  · rfl

/-- A message that is added to a session is not seen in another one. -/
theorem only_addMessage_of_ne (jsonb : PyStr → Bool) (h : other ≠ call.sessionId) :
    only (addMessage jsonb t call).2 other = only t other := by
  unfold addMessage
  split_ifs
  · apply Table.deleteWhere_insertIfNew_of_pos
    exact decide_eq_true h.symm
  · rfl

end ConversationMemory

namespace MemoryState

variable {st : MemoryState} {sessionId other : PyStr}

/-- What there is of one session. -/
def only (st : MemoryState) (sessionId : PyStr) : MemoryState where
  table := ConversationMemory.only st.table sessionId
  summaries other := if other = sessionId then st.summaries other else none

theorem summaryText_only (st : MemoryState) (sessionId : PyStr) :
    (st.only sessionId).summaryText sessionId = st.summaryText sessionId := by
  simp [summaryText, only]

/-- A change of the summary of the session, seen from that session, is the same change. -/
theorem update_only_self (summaries : PyStr → Option Summary) (summary : Option Summary) :
    (fun other => if other = sessionId then Function.update summaries sessionId summary other
        else none) =
      Function.update (fun other => if other = sessionId then summaries other else none) sessionId
        summary := by
  ext1 other
  by_cases h : other = sessionId
  · subst h
    simp
  · simp [h]

/-- A change of the summary of another session is not seen from this one. -/
theorem update_only_of_ne (summaries : PyStr → Option Summary) (summary : Option Summary)
    (h : other ≠ sessionId) :
    (fun other' => if other' = other then Function.update summaries sessionId summary other'
        else none) =
      fun other' => if other' = other then summaries other' else none := by
  ext1 other'
  by_cases hother : other' = other
  · subst hother
    simp [h]
  · simp [hother]

theorem only_clear_self (st : MemoryState) (sessionId : PyStr) :
    (st.clear sessionId).only sessionId = (st.only sessionId).clear sessionId := by
  unfold only clear
  rw [ConversationMemory.only_clear_self, update_only_self]
  simp only [if_pos]

theorem only_clear_of_ne (h : other ≠ sessionId) :
    (st.clear sessionId).only other = st.only other := by
  unfold only clear
  rw [ConversationMemory.only_clear_of_ne h, update_only_of_ne _ _ h]

theorem only_setSummary_self (st : MemoryState) (sessionId : PyStr) (summary : Summary) :
    (st.setSummary sessionId summary).only sessionId =
      (st.only sessionId).setSummary sessionId summary := by
  unfold only setSummary
  rw [update_only_self]

theorem only_setSummary_of_ne (summary : Summary) (h : other ≠ sessionId) :
    (st.setSummary sessionId summary).only other = st.only other := by
  unfold only setSummary
  rw [update_only_of_ne _ _ h]

end MemoryState

namespace SummaryMemory

/-- The operation concerns the session, and a message that it adds has an id and a time that are
drawn in the session. -/
def Concerns (drawn : PyStr → PyStr → ℚ → Prop) (sessionId : PyStr) : MemoryOp → Prop
  | .addMessage call => call.sessionId = sessionId ∧ drawn sessionId call.msgId call.now
  | .clear sessionId' => sessionId' = sessionId
  | .count sessionId' => sessionId' = sessionId
  | .getRecent sessionId' _ => sessionId' = sessionId
  | .generate _ _ => True
  | .setSummary sessionId' _ _ => sessionId' = sessionId
  | .summary sessionId' => sessionId' = sessionId

/-- What is drawn for messages: no id in two sessions, and no time for two ids of a session. -/
structure Separate (drawn : PyStr → PyStr → ℚ → Prop) : Prop where
  session_eq : ∀ {sessionId sessionId' id now now'}, drawn sessionId id now →
    drawn sessionId' id now' → sessionId = sessionId'
  id_eq : ∀ {sessionId id id' now}, drawn sessionId id now → drawn sessionId id' now → id = id'

/-- The messages of the table have ids of their own sessions, and times of their own in these. -/
structure OwnMessages (drawn : PyStr → PyStr → ℚ → Prop) (t : MessageTable) : Prop where
  session_eq : ∀ row ∈ t.rows, ∀ sessionId now, drawn sessionId row.id now →
    row.sessionId = sessionId
  id_eq : ∀ row ∈ t.rows, ∀ id, drawn row.sessionId id row.createdAt → row.id = id
  noTies : ∀ sessionId, ConversationMemory.NoTies t sessionId

/-- Deleting messages keeps `OwnMessages`: what is left has the ids and times that it had. -/
theorem OwnMessages.deleteWhere {drawn : PyStr → PyStr → ℚ → Prop} {t : MessageTable}
    (ht : OwnMessages drawn t) (p : MessageRow → Bool) : OwnMessages drawn (t.deleteWhere p) where
  session_eq row hrow := ht.session_eq row ((Table.mem_deleteWhere _ _ _).mp hrow).1
  id_eq row hrow := ht.id_eq row ((Table.mem_deleteWhere _ _ _).mp hrow).1
  noTies sessionId row hrow row' hrow' := by
    rw [ConversationMemory.mem_messages_iff, Table.mem_deleteWhere] at hrow hrow'
    exact ht.noTies sessionId row (ConversationMemory.mem_messages_iff.mpr ⟨hrow.1.1, hrow.2⟩) row'
      (ConversationMemory.mem_messages_iff.mpr ⟨hrow'.1.1, hrow'.2⟩)

/-- Adding a message keeps `OwnMessages`, if its id and time are among those `drawn` for its
session. -/
theorem OwnMessages.addMessage {drawn : PyStr → PyStr → ℚ → Prop} {t : MessageTable}
    (hdrawn : Separate drawn) (ht : OwnMessages drawn t) (jsonb : PyStr → Bool) {call : AddCall}
    (hcall : drawn call.sessionId call.msgId call.now) :
    OwnMessages drawn (ConversationMemory.addMessage jsonb t call).2 := by
  unfold ConversationMemory.addMessage
  split_ifs
  swap
  · exact ht
  refine ⟨fun row hrow sessionId now hid => ?_, fun row hrow id hid => ?_, ?_⟩
  · rcases Table.mem_insertIfNew.mp hrow with hrow | ⟨rfl, -⟩
    · exact ht.session_eq row hrow sessionId now hid
    · exact hdrawn.session_eq hcall hid
  · rcases Table.mem_insertIfNew.mp hrow with hrow | ⟨rfl, -⟩
    · exact ht.id_eq row hrow id hid
    · exact hdrawn.id_eq hcall hid
  · intro sessionId row hrow row' hrow' htime
    rw [ConversationMemory.mem_messages_iff, Table.mem_insertIfNew] at hrow hrow'
    obtain ⟨hrow, rfl⟩ := hrow
    obtain ⟨hrow', hsession⟩ := hrow'
    -- a new message cannot have the time of an old one of its session
    rcases hrow with hrow | ⟨rfl, hnew⟩
    · rcases hrow' with hrow' | ⟨rfl, hnew⟩
      · exact ht.noTies _ row (ConversationMemory.mem_messages_iff.mpr ⟨hrow, rfl⟩) row'
          (ConversationMemory.mem_messages_iff.mpr ⟨hrow', hsession⟩) htime
      · refine absurd (Table.has_iff.mpr ⟨row, hrow, ?_⟩) hnew
        refine ht.id_eq row hrow _ ?_
        rw [← hsession, htime]
        exact hcall
    · rcases hrow' with hrow' | ⟨rfl, -⟩
      · refine absurd (Table.has_iff.mpr ⟨row', hrow', ?_⟩) hnew
        refine ht.id_eq row' hrow' _ ?_
        rw [hsession, ← htime]
        exact hcall
      · rfl

/-- The sessions are parts of the state, if what they draw for their messages is separate: what the
operations of a session do in one database is what they do in any other one to what there is of the
session. -/
def sessionParts (db db' : Postgres) (jsonb : PyStr → Bool) {drawn : PyStr → PyStr → ℚ → Prop}
    (hdrawn : Separate drawn) :
    Handler.Parts (memoryHandler db jsonb) (memoryHandler db' jsonb) PyStr where
  part sessionId st := st.only sessionId
  concerns := Concerns drawn
  Sound st := OwnMessages drawn st.table
  sound := by
    intro sessionId op st hop hst
    cases op with
    | addMessage call =>
      obtain ⟨rfl, hcall⟩ := hop
      exact hst.addMessage hdrawn jsonb hcall
    | clear sessionId' => exact hst.deleteWhere _
    | count sessionId' => exact hst
    | getRecent sessionId' n => exact hst
    | generate model older => exact hst
    | setSummary sessionId' older text => exact hst
    | summary sessionId' => exact hst
  own := by
    intro sessionId op st hop hst
    cases op with
    | addMessage call =>
      obtain ⟨rfl, hcall⟩ := hop
      have hadd := ConversationMemory.only_addMessage_self jsonb
        fun row hrow h => hst.session_eq row hrow call.sessionId call.now (h ▸ hcall)
      exact congrArg (fun r : Except PyExc MemoryEntry × MessageTable =>
        (r.1, { st.only call.sessionId with table := r.2 })) hadd
    | clear sessionId' =>
      obtain rfl := hop
      exact congrArg (Prod.mk _) (st.only_clear_self sessionId').symm
    | count sessionId' =>
      obtain rfl := hop
      exact congrArg (fun n => (Except.ok n, st.only sessionId'))
        (ConversationMemory.count_only st.table sessionId')
    | getRecent sessionId' n =>
      obtain rfl := hop
      exact congrArg (fun entries => (Except.ok entries, st.only sessionId'))
        (ConversationMemory.getRecent_only db db' (hst.noTies sessionId') n)
    | generate model older => rfl
    | setSummary sessionId' older text =>
      obtain rfl := hop
      exact congrArg (Prod.mk _) (st.only_setSummary_self sessionId' ⟨text, older⟩).symm
    | summary sessionId' =>
      obtain rfl := hop
      exact congrArg (fun text => (Except.ok text, st.only sessionId'))
        (st.summaryText_only sessionId')
  other := by
    intro sessionId other op st hop hst hother
    cases op with
    | addMessage call =>
      obtain ⟨rfl, -⟩ := hop
      exact congrArg (fun t => { st.only other with table := t })
        (ConversationMemory.only_addMessage_of_ne jsonb hother)
    | clear sessionId' =>
      obtain rfl := hop
      exact MemoryState.only_clear_of_ne hother
    | count sessionId' => rfl
    | getRecent sessionId' n => rfl
    | generate model older => rfl
    | setSummary sessionId' older text =>
      obtain rfl := hop
      exact MemoryState.only_setSummary_of_ne ⟨text, older⟩ hother
    | summary sessionId' => rfl

/-! ## Callers -/

section Calls

variable {mem : SummaryMemory} {drawn : PyStr → PyStr → ℚ → Prop} {sessionId : PyStr}

/-- The compression of a session counts, reads and writes for that session only; every operation
that it awaits is one that `Concerns` it. -/
theorem concerns_compress (model : SummaryModel) :
    (mem.compress sessionId).Awaits fun op => Concerns drawn sessionId (op.toMemoryOp model) := by
  refine Coro.Awaits.bind (.perform rfl) fun allMessages => ?_
  dsimp only
  split_ifs
  · exact trivial
  · exact Coro.Awaits.bind (.perform trivial) fun response => .perform rfl

/-- `SummaryMemory.get_recent` awaits only operations that `Concerns` its session: it counts and
reads its messages, and sets its summary. -/
theorem concerns_getRecent (model : SummaryModel) :
    (mem.getRecent sessionId).Awaits fun op => Concerns drawn sessionId (op.toMemoryOp model) := by
  rw [getRecent_eq]
  refine Coro.Awaits.bind (.perform rfl) fun count => Coro.Awaits.bind ?_ fun _ => ?_
  · split_ifs
    · exact concerns_compress model
    · exact trivial
  · refine Coro.Awaits.bind (.perform rfl) fun recent => ?_
    exact Coro.Awaits.bind (.perform rfl) fun summaryText => trivial

/-- A call of the session awaits only what `Concerns` it, if its ids and instants are among those
drawn for the session. -/
theorem concerns_perform {call : SessionCall} (hsession : call.sessionId = sessionId)
    (hdraws : ∀ id now, call.Draws id now → drawn sessionId id now) :
    (mem.perform call).Awaits (Concerns drawn sessionId) := by
  subst hsession
  cases call with
  | addMessage call =>
    exact Coro.Awaits.bind (.perform ⟨rfl, hdraws _ _ ⟨rfl, rfl⟩⟩) fun _ => trivial
  | summaryRecent sessionId model =>
    exact Coro.Awaits.bind (.via (concerns_getRecent model)) fun _ => trivial
  | _ => exact Coro.Awaits.bind (.perform rfl) fun _ => trivial

/-- A caller attempts its calls one after another, so it awaits only what one of them awaits,
whether or not a call before it has failed. -/
theorem concerns_performAll {calls : List SessionCall}
    (hcalls : ∀ call ∈ calls, call.sessionId = sessionId ∧
      ∀ id now, call.Draws id now → drawn sessionId id now) :
    (mem.performAll calls).Awaits (Concerns drawn sessionId) := by
  induction calls with
  | nil => exact trivial
  | cons call calls ih =>
    rw [List.forall_mem_cons] at hcalls
    refine Coro.Awaits.bind (concerns_perform hcalls.1.1 hcalls.1.2).attempt fun _ => ?_
    exact Coro.Awaits.bind (ih hcalls.2) fun _ => trivial

end Calls

/-- A caller: its session, the calls that it makes for it, and which of the operations of these
calls fail. -/
structure SessionCaller where
  /-- The session. -/
  sessionId : PyStr
  /-- The calls, one after another. -/
  calls : List SessionCall
  /-- How the operations fail, one entry an operation. -/
  faults : List (Option (Fault PyExc)) := []

/-- Every caller works on its session. The ids that are drawn in one session differ from those of
the messages of the others, and the times from those of the other messages of the session. -/
structure OwnSessions (callers : List SessionCaller) (st : MemoryState) : Prop where
  sessionId_eq : ∀ caller ∈ callers, ∀ call ∈ caller.calls, call.sessionId = caller.sessionId
  /-- No two sessions draw the same id. -/
  ids : ∀ caller ∈ callers, ∀ call ∈ caller.calls, ∀ caller' ∈ callers, ∀ call' ∈ caller'.calls,
    ∀ id now now', call.Draws id now → call'.Draws id now' → caller.sessionId = caller'.sessionId
  /-- A session draws no id of a message that another one has. -/
  unused : ∀ caller ∈ callers, ∀ call ∈ caller.calls, ∀ row ∈ st.table.rows, ∀ now,
    call.Draws row.id now → row.sessionId = caller.sessionId
  /-- No session draws a time for two ids. -/
  times : ∀ caller ∈ callers, ∀ call ∈ caller.calls, ∀ caller' ∈ callers, ∀ call' ∈ caller'.calls,
    caller.sessionId = caller'.sessionId → ∀ id id' now, call.Draws id now → call'.Draws id' now →
      id = id'
  /-- A session draws the time of a message that it has for this one only. -/
  fresh : ∀ caller ∈ callers, ∀ call ∈ caller.calls, ∀ row ∈ st.table.rows,
    row.sessionId = caller.sessionId → ∀ id, call.Draws id row.createdAt → row.id = id
  /-- The messages that a session has are of different times. -/
  noTies : ∀ sessionId, ConversationMemory.NoTies st.table sessionId

/-- What is drawn in the session. -/
def DrawnIn (callers : List SessionCaller) (sessionId id : PyStr) (now : ℚ) : Prop :=
  ∃ caller ∈ callers, caller.sessionId = sessionId ∧ ∃ call ∈ caller.calls, call.Draws id now

/-- Callers of different sessions that draw different ids and instants are `Separate`, as the
pairing of the two runs needs it. -/
theorem OwnSessions.separate {callers : List SessionCaller} {st : MemoryState}
    (hown : OwnSessions callers st) : Separate (DrawnIn callers) where
  session_eq := by
    rintro _ _ id now now' ⟨caller, hcaller, rfl, call, hcall, hid⟩
      ⟨caller', hcaller', rfl, call', hcall', hid'⟩
    exact hown.ids caller hcaller call hcall caller' hcaller' call' hcall' id now now' hid hid'
  id_eq := by
    rintro _ id id' now ⟨caller, hcaller, rfl, call, hcall, hid⟩
      ⟨caller', hcaller', hsession, call', hcall', hid'⟩
    exact hown.times caller hcaller call hcall caller' hcaller' call' hcall' hsession.symm id id'
      now hid hid'

/-- The rows already in the table belong to their sessions in the same sense. -/
theorem OwnSessions.ownMessages {callers : List SessionCaller} {st : MemoryState}
    (hown : OwnSessions callers st) : OwnMessages (DrawnIn callers) st.table where
  session_eq := by
    rintro row hrow _ now ⟨caller, hcaller, rfl, call, hcall, hid⟩
    exact hown.unused caller hcaller call hcall row hrow now hid
  id_eq := by
    rintro row hrow id ⟨caller, hcaller, hsession, call, hcall, hid⟩
    exact hown.fresh caller hcaller call hcall row hrow hsession.symm id hid
  noTies := hown.noTies

/-- The coroutine of a caller, whose operations bring their faults along. -/
abbrev Calling : Type :=
  Coro (MemoryOp × Option (Fault PyExc)) (fun op => op.1.Resp) PyExc
    (List (Except PyExc SessionAnswer))

/-- The callers as coroutines, with their sessions. -/
def clients (mem : SummaryMemory) (callers : List SessionCaller) : List (PyStr × Calling) :=
  callers.map fun caller =>
    (caller.sessionId, (mem.performAll caller.calls).failing caller.faults)

/-- The callers as coroutines. -/
def coroutines (mem : SummaryMemory) (callers : List SessionCaller) : List Calling :=
  callers.map fun caller => (mem.performAll caller.calls).failing caller.faults

/-- The turns of the callers that work on the session. -/
def turnsIn (callers : List SessionCaller) (sessionId : PyStr) (schedule : List ℕ) : List ℕ :=
  schedule.filter fun i => callers[i]?.map SessionCaller.sessionId = some sessionId

/-- The client `i` works on a session exactly if the caller `i` is one of that session. -/
theorem worksOn_clients_iff (mem : SummaryMemory) {callers : List SessionCaller}
    {sessionId : PyStr} {i : ℕ} :
    Handler.Parts.WorksOn (mem.clients callers) sessionId i ↔
      callers[i]?.map SessionCaller.sessionId = some sessionId := by
  rw [Handler.Parts.WorksOn, clients, List.getElem?_map, Option.map_map]
  rfl

/-- The turns that a schedule gives to a session are those that `turnsIn` counts. -/
theorem turnsOn_clients (mem : SummaryMemory) (callers : List SessionCaller) (sessionId : PyStr)
    (schedule : List ℕ) :
    Handler.Parts.turnsOn (mem.clients callers) sessionId schedule =
      turnsIn callers sessionId schedule :=
  List.filter_congr fun _ _ => decide_eq_decide.mpr (worksOn_clients_iff mem)

/-- Whatever the order of the single operations, and whichever of them fail: the callers of a
session are where they would be, with the answers that they would have, if only they had had their
turns (`turnsIn`), in any other database that holds nothing but their session. So are the messages
and the summary of the session. The callers work on sessions of their own (`OwnSessions`), with
times that no two messages of a session share. -/
theorem interleaved_isolated (mem : SummaryMemory) (db db' : Postgres) (jsonb : PyStr → Bool)
    {callers : List SessionCaller} {st : MemoryState} (hown : OwnSessions callers st)
    {schedule : List ℕ} {p : Pool Calling MemoryState}
    (hrun : (Pool.mk (mem.coroutines callers) st).run
      (Coro.resume (memoryHandler db jsonb).failing) schedule = some p) (sessionId : PyStr) :
    ∃ q, (Pool.mk (mem.coroutines callers) (st.only sessionId)).run
        (Coro.resume (memoryHandler db' jsonb).failing) (turnsIn callers sessionId schedule) =
          some q ∧
      q.shared = p.shared.only sessionId ∧
      ∀ (i : ℕ) (caller : SessionCaller), callers[i]? = some caller → caller.sessionId = sessionId →
        q.clients[i]? = p.clients[i]? := by
  have hclients : ∀ client ∈ mem.clients callers,
      client.2.Awaits ((sessionParts db db' jsonb hown.separate).failing.concerns client.1) := by
    refine List.forall_mem_map.mpr fun caller hcaller => ?_
    refine Coro.Awaits.failing (concerns_performAll fun call hcall => ?_) caller.faults
    refine ⟨hown.sessionId_eq caller hcaller call hcall, fun id now hid => ?_⟩
    exact ⟨caller, hcaller, rfl, call, hcall, hid⟩
  have hcoroutines : (mem.clients callers).map Prod.snd = mem.coroutines callers := List.map_map
  obtain ⟨q, hrun', hsame⟩ := Handler.Parts.pool_part hclients hown.ownMessages
    (hcoroutines.symm ▸ hrun) sessionId
  rw [hcoroutines, turnsOn_clients] at hrun'
  refine ⟨q, hrun', hsame.part_eq, fun i caller hcaller hsession => hsame.clients_eq i ?_⟩
  exact (worksOn_clients_iff mem).mpr (by rw [hcaller, Option.map_some, hsession])

/-! ### Three callers -/

/-- A call that adds a message to the session `A`. -/
def addsToA (messageId : PyStr) (now : ℚ) : SessionCall :=
  .addMessage (ConversationMemory.userMessage messageId "Hello".toList now)

/-- A call that adds a message to the session `B`. -/
def addsToB (messageId : PyStr) (now : ℚ) : SessionCall :=
  .addMessage { ConversationMemory.userMessage messageId "Hi".toList now with sessionId := ['B'] }

/-- A model that says `Greetings`. -/
def greetings : SummaryModel := fun _ =>
  .ok ⟨"Greetings".toList, "summary".toList, 1, 1, "stop".toList, []⟩

/-- One adds messages to the session `A`, one has them summarised, and one is at work in `B`, where
it goes on after an error. -/
def threeCallers : List SessionCaller :=
  [⟨['A'], [addsToA "a1".toList 0, addsToA "a2".toList 2, addsToA "a3".toList 3], []⟩,
    ⟨['A'], [.summaryRecent ['A'] greetings], []⟩,
    ⟨['B'], [addsToB "b1".toList 1, .clear ['B']],
      [some (.after (.of .RuntimeError "connection lost".toList))]⟩]

/-- What is drawn: the session, the id and the time. -/
def threeDraws : List (PyStr × PyStr × ℚ) :=
  [(['A'], "a1".toList, 0), (['A'], "a2".toList, 2), (['A'], "a3".toList, 3),
    (['B'], "b1".toList, 1)]

/-- Every id and instant that one of the three callers can draw is listed in `threeDraws`. -/
theorem mem_threeDraws {caller : SessionCaller} (hcaller : caller ∈ threeCallers)
    {call : SessionCall} (hcall : call ∈ caller.calls) {id : PyStr} {now : ℚ}
    (hid : call.Draws id now) : (caller.sessionId, id, now) ∈ threeDraws := by
  rw [threeCallers, List.mem_cons, List.mem_pair] at hcaller
  rcases hcaller with rfl | rfl | rfl
  · rw [List.mem_cons, List.mem_pair] at hcall
    rcases hcall with rfl | rfl | rfl
    all_goals
      rw [← hid.1, ← hid.2]
      decide
  · rw [List.mem_singleton.mp hcall] at hid
    exact hid.elim
  · rcases List.mem_pair.mp hcall with rfl | rfl
    · rw [← hid.1, ← hid.2]
      decide
    · exact hid.elim

/-- The three callers draw ids and instants apart from each other, and the empty table has rows of
none of them. -/
theorem ownSessions_threeCallers : OwnSessions threeCallers .start where
  sessionId_eq := by simp [threeCallers, addsToA, addsToB, SessionCall.sessionId,
    ConversationMemory.userMessage]
  ids := by
    intro caller hcaller call hcall caller' hcaller' call' hcall' id now now' hid hid'
    have hall : threeDraws.all (fun x => threeDraws.all fun y =>
        !(x.2.1 == y.2.1) || x.1 == y.1) = true := by decide
    have hpair := List.all_eq_true.mp
      (List.all_eq_true.mp hall _ (mem_threeDraws hcaller hcall hid))
      _ (mem_threeDraws hcaller' hcall' hid')
    simpa using hpair
  unused _ _ _ _ row hrow := absurd hrow List.not_mem_nil
  times := by
    intro caller hcaller call hcall caller' hcaller' call' hcall' hsession id id' now hid hid'
    have hall : threeDraws.all (fun x => threeDraws.all fun y =>
        !(x.2.2 == y.2.2) || x.2.1 == y.2.1) = true := by decide
    have hpair := List.all_eq_true.mp
      (List.all_eq_true.mp hall _ (mem_threeDraws hcaller hcall hid))
      _ (mem_threeDraws hcaller' hcall' hid')
    simpa using hpair
  fresh _ _ _ _ row hrow := absurd hrow List.not_mem_nil
  noTies _ _ hrow := absurd (ConversationMemory.mem_messages_iff.mp hrow).1 List.not_mem_nil

/-- What the callers have come to at the end of a schedule. -/
def threeCallersEnd (schedule : List ℕ) :
    Option (Pool Calling MemoryState) :=
  (Pool.mk (SummaryMemory.coroutines ⟨2, 1⟩ threeCallers) .start).run
    (Coro.resume (memoryHandler .stable fun _ => true).failing) schedule

/-- A database that has messages with equal times in the reverse order of the table. -/
def latestFirst : Postgres where
  arrange _ rows := OrderBy.stable MessageRow.createdAt rows.reverse
  isAnswer_arrange _ rows :=
    (OrderBy.isAnswer_congr rows.reverse_perm).mp (OrderBy.isAnswer_stable _ _)

/-- `interleaved_isolated` for callers that take turns, two of them in the session `A`, and a
failure in the other session: the second one is answered as if there were nothing but its session,
also in a database that has equal times in another order. -/
theorem interleaved_isolated_threeCallers :
    ∃ p q, threeCallersEnd [0, 2, 0, 0, 1, 1, 2, 1, 1, 1, 1] = some p ∧
      (Pool.mk (SummaryMemory.coroutines ⟨2, 1⟩ threeCallers) (MemoryState.start.only ['A'])).run
        (Coro.resume (memoryHandler latestFirst fun _ => true).failing)
          [0, 0, 0, 1, 1, 1, 1, 1, 1] = some q ∧
      q.clients[1]? = p.clients[1]? ∧ q.shared = p.shared.only ['A'] := by
  have hend : (threeCallersEnd [0, 2, 0, 0, 1, 1, 2, 1, 1, 1, 1]).isSome = true := by
    decide +kernel
  obtain ⟨p, hrun⟩ := Option.isSome_iff_exists.mp hend
  obtain ⟨q, hrun', hshared, hclients⟩ := interleaved_isolated ⟨2, 1⟩ .stable latestFirst
    (fun _ => true) ownSessions_threeCallers hrun ['A']
  exact ⟨p, q, hrun, hrun', hclients 1 _ rfl rfl, hshared⟩

end SummaryMemory
