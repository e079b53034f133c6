import AthenaAI.Memory.Summary
import AthenaAI.ToMathlib.Run

/-!
# The recent window

Whether the last `max_raw_messages` messages of a session are all represented in what
`SummaryMemory.get_recent` returns: as entries of their own, or by a summary of them.

* `Represented` says so of a call, and `Covers` is the condition on the messages of the session, on
  the thresholds and on the answer of the model.
* `Backed` is the invariant of runs: a summary of messages that still exist belongs to a session of
  more than `max_raw_messages`, so the next call writes it anew.
* `represented_iff`: after any calls, the last messages are represented whatever the database does
  about equal times if and only if the condition holds.
-/

/-- The call on the conversation memory, if it is one. -/
def MemoryCall.conversation? : MemoryCall → Option ConversationCall
  | .conversation call => some call
  | .getRecent _ _ => none

/-- The messages of a session, the youngest first, and of those with the same time the one that was
added last. -/
def ConversationMemory.newestFirst (t : MessageTable) (sessionId : PyStr) : List MessageRow :=
  OrderBy.stable MessageRow.createdAt (messages t sessionId).reverse

/-- `newestFirst` is one of the answers that the `ORDER BY` allows, so `get_recent` may well give
it. -/
theorem ConversationMemory.isAnswer_newestFirst (t : MessageTable) (sessionId : PyStr) :
    OrderBy.IsAnswer MessageRow.createdAt (messages t sessionId) (newestFirst t sessionId) :=
  (OrderBy.isAnswer_congr (List.reverse_perm _)).mp (OrderBy.isAnswer_stable _ _)

namespace SummaryMemory

open ConversationMemory (messages count newestFirst isAnswer_newestFirst userMessage)
open OrderBy (Separated)

variable (mem : SummaryMemory)

/-- In what the call returns, every message among the last `max_raw_messages` is an entry, or there
is a summary and the message is one of those that the model was given for it. -/
def Represented (db : Postgres) (model : SummaryModel) (st : MemoryState) (sessionId : PyStr) :
    Prop :=
  ∀ entries st', (mem.getRecent sessionId).run (handler db model) st = (.ok entries, st') →
    ∀ row ∈ (newestFirst st.table sessionId).take mem.maxRaw,
      row.entry ∈ entries ∨
        ((∃ entry ∈ entries, entry.memoryType = .SUMMARY) ∧ row.entry ∈ st'.given sessionId)

/-- There are at most `keep_recent` messages; or there are more than `max_raw_messages`, the times
tell the messages apart at the thresholds, and what is not kept gets a summary that is not empty. -/
def Covers (answer : Except PyExc ModelResponse) (t : MessageTable) (sessionId : PyStr) : Prop :=
  let rows := newestFirst t sessionId
  rows.length ≤ mem.keepRecent ∨ mem.maxRaw < rows.length ∧
    ((mem.keepRecent = mem.maxRaw ∧ Separated MessageRow.createdAt rows mem.maxRaw) ∨
      (0 < mem.keepRecent ∧ mem.keepRecent < mem.maxRaw ∧
        ∀ response, answer = .ok response → response.content ≠ [] ∧
          Separated MessageRow.createdAt rows mem.keepRecent ∧
            Separated MessageRow.createdAt rows mem.maxRaw))

/-- A summary of messages that still exist is one that the next call writes anew. -/
def Backed (st : MemoryState) : Prop :=
  ∀ sessionId, st.given sessionId ≠ [] →
    mem.maxRaw < count st.table sessionId ∧ 0 < mem.keepRecent ∧ mem.keepRecent < mem.maxRaw

variable {mem} {db : Postgres} {jsonb : PyStr → Bool} {st : MemoryState} {sessionId : PyStr}

/-! ## The invariant -/

/-- A summary that is set is the one `given` for its session from then on, and for no other. -/
theorem given_setSummary (st : MemoryState) (sessionId : PyStr) (summary : Summary)
    (sessionId' : PyStr) :
    (st.setSummary sessionId summary).given sessionId' =
      if sessionId' = sessionId then summary.given else st.given sessionId' := by
  unfold MemoryState.given MemoryState.setSummary
  by_cases h : sessionId' = sessionId
  · subst h
    simp
  · simp [h]

/-- After `clear` nothing is remembered as given for the session. -/
theorem given_clear (st : MemoryState) (sessionId sessionId' : PyStr) :
    (st.clear sessionId).given sessionId' =
      if sessionId' = sessionId then [] else st.given sessionId' := by
  unfold MemoryState.given MemoryState.clear
  by_cases h : sessionId' = sessionId
  · subst h
    cases st.summaries sessionId' <;> simp
  · simp [h]

theorem backed_start : mem.Backed .start := fun _ h => absurd rfl h

/-- No call breaks `Backed`: a summary that is set was made from messages that are in the table, and
`clear` takes the table and the record of them together. -/
theorem Backed.step (h : mem.Backed st) (call : MemoryCall) :
    mem.Backed (mem.step db jsonb st call) := by
  intro sessionId' hgiven
  cases call with
  | conversation call =>
    cases call with
    | addMessage call =>
      obtain ⟨hcount, hkeep⟩ := h sessionId' hgiven
      have hprefix := ConversationMemory.isPrefix_messages_addMessage jsonb st.table call sessionId'
      exact ⟨hcount.trans_le hprefix.length_le, hkeep⟩
    | clear sessionId =>
      replace hgiven : (st.clear sessionId).given sessionId' ≠ [] := hgiven
      rw [given_clear] at hgiven
      split_ifs at hgiven with hcleared
      · exact absurd rfl hgiven
      · obtain ⟨hcount, hkeep⟩ := h sessionId' hgiven
        refine ⟨?_, hkeep⟩
        show mem.maxRaw < (messages (ConversationMemory.clear st.table sessionId) sessionId').length
        rwa [ConversationMemory.messages_clear, if_neg (Ne.symm hcleared)]
  | getRecent sessionId model =>
    rcases mem.step_getRecent_cases db model st sessionId jsonb with
      hstep | ⟨holder, response, -, hstep⟩
    · rw [hstep] at hgiven ⊢
      exact h sessionId' hgiven
    · rw [hstep, given_setSummary] at hgiven
      rw [hstep]
      split_ifs at hgiven with hsession
      · rw [hsession]
        exact older_ne_nil_iff.mp holder
      · exact h sessionId' hgiven

/-- What the summaries were made from is in the table in every state that a run reaches. -/
theorem backed_after (mem : SummaryMemory) (db : Postgres) (jsonb : PyStr → Bool)
    (calls : List MemoryCall) :
    mem.Backed (Run.after (mem.step db jsonb) .start calls) :=
  Run.invariant (fun _ call h => h.step call) backed_start calls

/-- The table after a run is made by the calls on the wrapped conversation memory; the summaries
have no part in it. -/
theorem table_after (mem : SummaryMemory) (db : Postgres) (jsonb : PyStr → Bool) (st : MemoryState)
    (calls : List MemoryCall) :
    (Run.after (mem.step db jsonb) st calls).table =
      Run.after (ConversationMemory.step jsonb) st.table
        (calls.filterMap MemoryCall.conversation?) := by
  induction calls generalizing st with
  | nil => rfl
  | cons call calls ih =>
    rw [Run.after_cons, ih]
    cases call with
    | conversation call =>
      show _ = Run.after _ _ (call :: calls.filterMap MemoryCall.conversation?)
      cases call <;> rfl
    | getRecent sessionId model =>
      show _ = Run.after _ _ (calls.filterMap MemoryCall.conversation?)
      rcases mem.step_getRecent_cases db model st sessionId jsonb with hstep | ⟨_, _, _, hstep⟩
      · rw [hstep]
      · rw [hstep]
        rfl

/-! ## What one call returns -/

/-- What is among the newest messages is a message of the session. -/
theorem mem_messages_of_mem_take {t : MessageTable} {n : ℕ} {row : MessageRow}
    (h : row ∈ (newestFirst t sessionId).take n) : row ∈ messages t sessionId :=
  (isAnswer_newestFirst t sessionId).mem_iff.mp (List.mem_of_mem_take h)

/-- Where nothing is compressed, the last messages are `Represented` exactly if all of them are
among those that `get_recent` keeps. -/
theorem represented_iff_of_nil (hbacked : mem.Backed st) (model : SummaryModel)
    (h : mem.older db st.table sessionId = []) :
    mem.Represented db model st sessionId ↔
      ∀ row ∈ (newestFirst st.table sessionId).take mem.maxRaw,
        row ∈ (db.arrange mem.keepRecent (messages st.table sessionId)).take mem.keepRecent := by
  have hgiven : st.given sessionId = [] := by
    by_contra hne
    exact older_ne_nil_iff.mpr (hbacked sessionId hne) h
  unfold Represented
  rw [mem.run_getRecent_of_nil db model st sessionId h]
  refine ⟨fun hall row hrow => ?_, ?_⟩
  · have hmem := mem_messages_of_mem_take hrow
    rcases hall _ _ rfl row hrow with hentry | ⟨-, hentry⟩
    · rwa [entry_mem_entries_iff, ConversationMemory.entry_mem_getRecent_iff hmem] at hentry
    · rw [hgiven] at hentry
      exact absurd hentry List.not_mem_nil
  · rintro hall _ _ ⟨⟩ row hrow
    have hmem := mem_messages_of_mem_take hrow
    refine .inl ?_
    rw [entry_mem_entries_iff, ConversationMemory.entry_mem_getRecent_iff hmem]
    exact hall row hrow

/-- In a state with a summary of what a compression reads, a message is represented exactly if it
is among those that are kept, or the text is not empty and it is among those that the model was
given. -/
theorem represented_row_iff (st : MemoryState) {row : MessageRow} {text : PyStr}
    (hcount : mem.maxRaw < count st.table sessionId) (hkeep : 0 < mem.keepRecent)
    (hmem : row ∈ messages st.table sessionId)
    (hsummary : st.summaries sessionId = some ⟨text, mem.older db st.table sessionId⟩) :
    (row.entry ∈ mem.entries db st sessionId ∨
        ((∃ entry ∈ mem.entries db st sessionId, entry.memoryType = .SUMMARY) ∧
          row.entry ∈ st.given sessionId)) ↔
      row ∈ (db.arrange mem.keepRecent (messages st.table sessionId)).take mem.keepRecent ∨
        (text ≠ [] ∧ row ∈ ((db.arrange mem.maxRaw (messages st.table sessionId)).take
          mem.maxRaw).drop mem.keepRecent) := by
  have htext : (st.summaryText sessionId).getD [] = text := by
    unfold MemoryState.summaryText
    rw [hsummary]
    rfl
  have hgiven : st.given sessionId = mem.older db st.table sessionId := by
    unfold MemoryState.given
    rw [hsummary]
    rfl
  rw [entry_mem_entries_iff, ConversationMemory.entry_mem_getRecent_iff hmem,
    exists_summary_mem_entries_iff, htext, hgiven,
    entry_mem_older_iff hmem (List.Subset.refl _) hcount hkeep]

/-- Where something is compressed, the last messages are `Represented` exactly if the model raises,
or its summary is not empty and each of them is kept or given to the model. -/
theorem represented_iff_of_ne_nil (db : Postgres) (answer : Except PyExc ModelResponse)
    (h : mem.older db st.table sessionId ≠ []) :
    mem.Represented db (fun _ => answer) st sessionId ↔
      ∀ response, answer = .ok response →
        ∀ row ∈ (newestFirst st.table sessionId).take mem.maxRaw,
          row ∈ (db.arrange mem.keepRecent (messages st.table sessionId)).take mem.keepRecent ∨
            (response.content ≠ [] ∧
              row ∈ ((db.arrange mem.maxRaw (messages st.table sessionId)).take
                mem.maxRaw).drop mem.keepRecent) := by
  obtain ⟨hcount, hkeep, -⟩ := older_ne_nil_iff.mp h
  unfold Represented
  rw [mem.run_getRecent_of_ne_nil db _ st sessionId h]
  cases answer with
  | error e => exact iff_of_true nofun nofun
  | ok response =>
    have hsummary := MemoryState.summaries_setSummary st sessionId
      ⟨response.content, mem.older db st.table sessionId⟩
    have hrow row (hmem : row ∈ messages st.table sessionId) :=
      represented_row_iff (st.setSummary sessionId _) hcount hkeep hmem hsummary
    refine ⟨fun hall _ hresponse row hmem => ?_, ?_⟩
    · obtain rfl := Except.ok.inj hresponse
      exact (hrow row (mem_messages_of_mem_take hmem)).mp (hall _ _ rfl row hmem)
    · rintro hall _ _ ⟨⟩ row hmem
      exact (hrow row (mem_messages_of_mem_take hmem)).mpr (hall _ rfl row hmem)

/-! ## What all databases return -/

/-- Where nothing is compressed, every database keeps all of the last messages exactly if there are
no more than `keep_recent` of them, or the thresholds agree and the times at the cut differ. -/
theorem forall_kept_iff (t : MessageTable) (hkeep : mem.keepRecent ≤ mem.maxRaw) :
    (∀ db : Postgres, ∀ row ∈ (newestFirst t sessionId).take mem.maxRaw,
        row ∈ (db.arrange mem.keepRecent (messages t sessionId)).take mem.keepRecent) ↔
      (newestFirst t sessionId).length ≤ mem.keepRecent ∨ (mem.keepRecent = mem.maxRaw ∧
        Separated MessageRow.createdAt (newestFirst t sessionId) mem.maxRaw) := by
  rw [← (isAnswer_newestFirst t sessionId).forall_mustTake_of_le_iff hkeep]
  simp only [OrderBy.mustTake_iff (ConversationMemory.messages_nodup t sessionId)]
  rw [forall_comm]
  refine forall_congr' fun row => ?_
  rw [forall_comm]
  refine forall_congr' fun _ => ?_
  exact ConversationMemory.forall_arrange_iff _ _ fun answer => row ∈ answer.take mem.keepRecent

/-- Where something is compressed, they are represented if the summary has a text and the times tell
the messages apart at the thresholds. -/
theorem forall_kept_or_given_iff (t : MessageTable) (text : PyStr)
    (hcount : mem.maxRaw < (newestFirst t sessionId).length) (hkeep : mem.keepRecent < mem.maxRaw) :
    (∀ db : Postgres, ∀ row ∈ (newestFirst t sessionId).take mem.maxRaw,
        row ∈ (db.arrange mem.keepRecent (messages t sessionId)).take mem.keepRecent ∨
          (text ≠ [] ∧ row ∈ ((db.arrange mem.maxRaw (messages t sessionId)).take
            mem.maxRaw).drop mem.keepRecent)) ↔
      text ≠ [] ∧ Separated MessageRow.createdAt (newestFirst t sessionId) mem.keepRecent ∧
        Separated MessageRow.createdAt (newestFirst t sessionId) mem.maxRaw := by
  by_cases htext : text = []
  · -- without a summary all would have to be kept, but there are too many
    simp only [htext, ne_eq, not_true_eq_false, false_and, or_false, iff_false]
    rw [forall_kept_iff t hkeep.le]
    rintro (hlength | ⟨heq, -⟩)
    · omega
    · omega
  · have hnodup := ConversationMemory.messages_nodup t sessionId
    rw [and_iff_right htext, ← (isAnswer_newestFirst t sessionId).forall_mustTake_or_iff hkeep.le
      hcount.le, forall_comm]
    refine forall_congr' fun row => ?_
    rw [forall_comm]
    refine forall_congr' fun _ => ?_
    simp only [and_iff_right htext]
    rw [← OrderBy.forall_mem_drop_take_iff hnodup hkeep.le, OrderBy.mustTake_iff hnodup,
      ConversationMemory.forall_arrange_or_iff hkeep.ne (messages t sessionId)
        (messages t sessionId) (fun answer => row ∈ answer.take mem.keepRecent)
        fun answer => row ∈ (answer.take mem.maxRaw).drop mem.keepRecent]
    refine or_congr ?_ ?_
    · exact ConversationMemory.forall_arrange_iff _ _ fun answer => row ∈ answer.take mem.keepRecent
    · exact ConversationMemory.forall_arrange_iff _ _ fun answer =>
        row ∈ (answer.take mem.maxRaw).drop mem.keepRecent

theorem length_newestFirst (t : MessageTable) (sessionId : PyStr) :
    (newestFirst t sessionId).length = count t sessionId :=
  (isAnswer_newestFirst t sessionId).perm.length_eq

variable (st : Postgres → MemoryState) {t : MessageTable}

/-- Where nothing is compressed, the messages are represented in what every database leads to if
all of them are kept. -/
theorem forall_represented_iff_of_not (answer : Except PyExc ModelResponse)
    (htable : ∀ db, (st db).table = t) (hbacked : ∀ db, mem.Backed (st db))
    (hkeep : mem.keepRecent ≤ mem.maxRaw)
    (hnot : ¬(mem.maxRaw < count t sessionId ∧ 0 < mem.keepRecent ∧
      mem.keepRecent < mem.maxRaw)) :
    (∀ db, mem.Represented db (fun _ => answer) (st db) sessionId) ↔
      (newestFirst t sessionId).length ≤ mem.keepRecent ∨ (mem.keepRecent = mem.maxRaw ∧
        Separated MessageRow.createdAt (newestFirst t sessionId) mem.maxRaw) := by
  rw [← forall_kept_iff t hkeep]
  refine forall_congr' fun db => ?_
  have hnil : mem.older db (st db).table sessionId = [] := by
    rw [htable]
    exact not_not.mp (mt older_ne_nil_iff.mp hnot)
  rw [represented_iff_of_nil (hbacked db) (fun _ => answer) hnil, htable]

/-- Where something is compressed, they are if the summary has a text and the times tell the
messages apart at the thresholds. -/
theorem forall_represented_iff (answer : Except PyExc ModelResponse)
    (htable : ∀ db, (st db).table = t) (hcount : mem.maxRaw < count t sessionId)
    (hpos : 0 < mem.keepRecent) (hlt : mem.keepRecent < mem.maxRaw) :
    (∀ db, mem.Represented db (fun _ => answer) (st db) sessionId) ↔
      ∀ response, answer = .ok response → response.content ≠ [] ∧
        Separated MessageRow.createdAt (newestFirst t sessionId) mem.keepRecent ∧
          Separated MessageRow.createdAt (newestFirst t sessionId) mem.maxRaw := by
  have hrepresented db := represented_iff_of_ne_nil db answer
    (older_ne_nil_iff.mpr ⟨(htable db).symm ▸ hcount, hpos, hlt⟩)
  simp only [htable] at hrepresented
  rw [forall_congr' hrepresented, forall_comm]
  refine forall_congr' fun response => ?_
  rw [forall_comm]
  refine imp_congr_right fun _ => ?_
  exact forall_kept_or_given_iff t response.content ((length_newestFirst t _).symm ▸ hcount) hlt

/-- After any calls, the last `max_raw_messages` messages of a session are `Represented` in what a
call returns, each by itself or in the summary, whatever the database does about equal times, if and
only if the call `Covers` them. `Covers` is said of the table and of the model's answer: there are
at most `keep_recent` messages; or there are more than `max_raw_messages`, with different times at
the thresholds, and what is not kept gets a summary that is not empty. -/
theorem represented_iff (mem : SummaryMemory) (jsonb : PyStr → Bool) (calls : List MemoryCall)
    (sessionId : PyStr) (answer : Except PyExc ModelResponse)
    (hkeep : mem.keepRecent ≤ mem.maxRaw) :
    (∀ db, mem.Represented db (fun _ => answer) (Run.after (mem.step db jsonb) .start calls)
        sessionId) ↔
      mem.Covers answer (Run.after (ConversationMemory.step jsonb) Table.empty
        (calls.filterMap MemoryCall.conversation?)) sessionId := by
  have htable db := mem.table_after db jsonb .start calls
  change ∀ db, _ = Run.after (ConversationMemory.step jsonb) Table.empty _ at htable
  have hbacked db := mem.backed_after db jsonb calls
  generalize Run.after (ConversationMemory.step jsonb) Table.empty _ = t at htable ⊢
  unfold Covers
  have hlength := length_newestFirst t sessionId
  by_cases hcompress : mem.maxRaw < count t sessionId ∧ 0 < mem.keepRecent ∧
      mem.keepRecent < mem.maxRaw
  · obtain ⟨hcount, hpos, hlt⟩ := hcompress
    rw [forall_represented_iff _ answer htable hcount hpos hlt]
    refine ⟨fun h => .inr ⟨hlength.symm ▸ hcount, .inr ⟨hpos, hlt, h⟩⟩, ?_⟩
    rintro (hle | ⟨-, ⟨heq, -⟩ | ⟨-, -, h⟩⟩)
    · omega
    · omega
    · exact h
  · rw [forall_represented_iff_of_not _ answer htable hbacked hkeep hcompress]
    refine ⟨?_, ?_⟩
    · rintro (hle | ⟨heq, hseparated⟩)
      · exact .inl hle
      · refine (le_or_gt (newestFirst t sessionId).length mem.keepRecent).imp id fun hlt => ?_
        exact ⟨heq ▸ hlt, .inl ⟨heq, hseparated⟩⟩
    · rintro (hle | ⟨hcount, h | ⟨hpos, hlt, -⟩⟩)
      · exact .inl hle
      · exact .inr h
      · exact absurd ⟨hlength ▸ hcount, hpos, hlt⟩ hcompress

/-- The call that adds a user's message. -/
def said (messageId content : PyStr) (now : ℚ) : MemoryCall :=
  .conversation (.addMessage (userMessage messageId content now))

/-- `represented_iff` for three messages, a second apart, with thresholds of two and one: they are
covered, the last but one by the summary, and the last one by itself. -/
theorem represented_iff_three :
    SummaryMemory.Represented ⟨2, 1⟩ .stable (fun _ => .ok ⟨['s'], ['m'], 1, 1, ['x'], []⟩)
      (Run.after (SummaryMemory.step ⟨2, 1⟩ .stable fun _ => true) .start
        [said ['1'] ['x'] 0, said ['2'] ['y'] 1, said ['3'] ['z'] 2]) ['A'] := by
  apply (represented_iff ⟨2, 1⟩ (fun _ => true) [said ['1'] ['x'] 0, said ['2'] ['y'] 1,
    said ['3'] ['z'] 2] ['A'] _ (by decide)).mpr
  refine .inr ⟨by decide, .inr ⟨by decide, by decide, ?_⟩⟩
  rintro _ ⟨⟩
  exact ⟨by decide, by decide, by decide⟩

/-- Of two messages, with thresholds of two and one, only the last one is returned, since there are
too few for a summary; and with thresholds of one and none, nothing is, since `all_messages[:-0]` is
empty. -/
theorem twoMessages_not_represented :
    (¬∀ db, SummaryMemory.Represented ⟨2, 1⟩ db (fun _ => .ok ⟨['s'], ['m'], 1, 1, ['x'], []⟩)
      (Run.after (SummaryMemory.step ⟨2, 1⟩ db fun _ => true) .start
        [said ['1'] ['x'] 0, said ['2'] ['y'] 1]) ['A']) ∧
    ¬∀ db, SummaryMemory.Represented ⟨1, 0⟩ db (fun _ => .ok ⟨['s'], ['m'], 1, 1, ['x'], []⟩)
      (Run.after (SummaryMemory.step ⟨1, 0⟩ db fun _ => true) .start
        [said ['1'] ['x'] 0, said ['2'] ['y'] 1]) ['A'] := by
  refine ⟨fun h => ?_, fun h => ?_⟩
  · have hkept := (represented_iff_of_nil (backed_after ⟨2, 1⟩ _ _ _) _
      (not_not.mp (mt older_ne_nil_iff.mp (by decide)))).mp (h .stable)
    exact absurd (hkept (userMessage ['1'] ['x'] 0).row (by decide)) (by decide)
  · have hkept := (represented_iff_of_nil (backed_after ⟨1, 0⟩ _ _ _) _
      (not_not.mp (mt older_ne_nil_iff.mp (by decide)))).mp (h .stable)
    exact absurd (hkept (userMessage ['2'] ['y'] 1).row (by decide)) (by decide)

end SummaryMemory
