import AthenaAI.Memory.Summary
import AthenaAI.ToMathlib.List
import AthenaAI.ToMathlib.Run

/-!
# Compression while messages arrive

Whether a message can be lost between the summary that `SummaryMemory.get_recent` has made and the
latest messages that it returns, when others add messages while the call awaits its operations.

* `Meanwhile` is what the call finds; `concurrently` answers its operations, each after the messages
  that have arrived until then. `tableAt` is the table at each of them.
* `NoGap` says that no message lies between the two, and `Bridged` is the condition on the messages
  at the two reads.
* `gapFree_iff`: there is no gap, whatever the database does about equal times, if and only if the
  condition holds; if the times increase, it says that nothing arrives between the two reads.
-/

/-- What a call finds while others add messages. -/
structure Meanwhile where
  /-- The table and the summaries. -/
  state : MemoryState
  /-- How many operations the call has awaited. -/
  turn : ℕ
  /-- The messages that it has given to the model. -/
  given : List MemoryEntry

/-- The operation lets others run. -/
def SummaryOp.awaited : SummaryOp → Bool
  | count _ => true
  | getRecent _ _ => true
  | generate _ => true
  | setSummary _ _ _ => false
  | summary _ => false

/-- The messages that an operation gives to the model, if it does. -/
def SummaryOp.asked : SummaryOp → Option (List MemoryEntry)
  | generate older => some older
  | _ => none

namespace SummaryMemory

open ConversationMemory (messages count userMessage)

variable (mem : SummaryMemory) (db : Postgres) (jsonb : PyStr → Bool) (model : SummaryModel)
  (arrivals : ℕ → List AddCall)

/-- The table after calls of `add_message`. -/
def added (t : MessageTable) (calls : List AddCall) : MessageTable :=
  Run.after (ConversationMemory.step jsonb) t (calls.map .addMessage)

/-- The operations of a call during which others add messages: `arrivals k` are the messages that
arrive while the call awaits its operation `k`, before this has its effect. -/
def concurrently : Handler SummaryOp SummaryOp.Resp PyExc Meanwhile := fun op now =>
  let turn := if op.awaited then now.turn + 1 else now.turn
  let table :=
    if op.awaited then added jsonb now.state.table (arrivals now.turn) else now.state.table
  let (answer, state) := handler db model op { now.state with table }
  (answer, ⟨state, turn, op.asked.getD now.given⟩)

/-- The table when a call that finds the table `t` has awaited `k` operations. -/
def tableAt (t : MessageTable) : ℕ → MessageTable
  | 0 => t
  | k + 1 => added jsonb (tableAt t k) (arrivals k)

/-- Every message between the oldest one that the model was given and the youngest one that is
returned has been given to the model or is returned. -/
def NoGap (sessionId : PyStr) (entries : List MemoryEntry) (now : Meanwhile) : Prop :=
  ∀ row ∈ messages now.state.table sessionId,
    (∃ oldest ∈ now.given, oldest.createdAt < row.createdAt) →
    (∃ newest ∈ entries, newest.memoryType = .CONVERSATION ∧ row.createdAt < newest.createdAt) →
      row.entry ∈ now.given ∨ row.entry ∈ entries

/-- `window` are the messages that the call compresses, `latest` those of which it returns the
latest: what has younger messages after it, and is younger than the last `max_raw_messages` were,
either is among the latest `keep_recent` or was there already and not among the latest
`keep_recent`. -/
def Bridged (window latest : List MessageRow) : Prop :=
  ∀ row ∈ latest, window.countP (fun row' => row.createdAt ≤ row'.createdAt) < mem.maxRaw →
    (∃ row' ∈ latest, row.createdAt < row'.createdAt) →
      OrderBy.MustTake MessageRow.createdAt latest mem.keepRecent row ∨
        (row ∈ window ∧ ¬OrderBy.MayTake MessageRow.createdAt window mem.keepRecent row)

/-- The same of one database, by the orders in which it returns the messages. -/
def BridgedBy (window latest : List MessageRow) : Prop :=
  ∀ row ∈ latest, window.countP (fun row' => row.createdAt ≤ row'.createdAt) < mem.maxRaw →
    (∃ row' ∈ latest, row.createdAt < row'.createdAt) →
      row ∈ ((db.arrange mem.maxRaw window).take mem.maxRaw).drop mem.keepRecent ∨
        row ∈ (db.arrange mem.keepRecent latest).take mem.keepRecent

variable {mem db jsonb model arrivals} {st : MemoryState} {sessionId : PyStr}

/-! ## The tables that a call finds -/

/-- Messages that arrive are put behind those that are there, for every session. -/
theorem isPrefix_messages_added (t : MessageTable) (calls : List AddCall) (sessionId : PyStr) :
    messages t sessionId <+: messages (added jsonb t calls) sessionId := by
  induction calls generalizing t with
  | nil => exact List.prefix_refl _
  | cons call calls ih =>
    exact (ConversationMemory.isPrefix_messages_addMessage jsonb t call sessionId).trans (ih _)

/-- The messages of a session at an earlier await are the first of those at a later one. -/
theorem isPrefix_messages_tableAt (t : MessageTable) {j k : ℕ} (h : j ≤ k) (sessionId : PyStr) :
    messages (tableAt jsonb arrivals t j) sessionId <+:
      messages (tableAt jsonb arrivals t k) sessionId := by
  induction k, h using Nat.le_induction with
  | base => exact List.prefix_refl _
  | succ k _ ih => exact ih.trans (isPrefix_messages_added _ _ _)

/-- Once there are more than `max_raw` messages, there are so at every await that follows: arrivals
delete nothing. -/
theorem maxRaw_lt_count_tableAt (jsonb : PyStr → Bool) (arrivals : ℕ → List AddCall)
    (h : mem.maxRaw < count st.table sessionId) (k : ℕ) :
    mem.maxRaw < count (tableAt jsonb arrivals st.table k) sessionId :=
  h.trans_le (isPrefix_messages_tableAt st.table (Nat.zero_le k) sessionId).length_le

/-! ## What a call does -/

/-- The second operation of a call reads the messages to compress, from the table as it is at that
await (`tableAt`). -/
theorem run_window_concurrently :
    (Summarising.perform (.getRecent sessionId mem.maxRaw)).run
        (concurrently db jsonb model arrivals)
        ⟨{ st with table := tableAt jsonb arrivals st.table 1 }, 1, []⟩ =
      (.ok (ConversationMemory.getRecent db (tableAt jsonb arrivals st.table 2) sessionId
        mem.maxRaw), ⟨{ st with table := tableAt jsonb arrivals st.table 2 }, 2, []⟩) := rfl

/-- A call counts, compresses, and reads again in the table that the compression and the arrivals
meanwhile leave. -/
theorem run_getRecent_concurrently (hcount : mem.maxRaw < count st.table sessionId)
    {now : Meanwhile}
    (hcompress : (mem.compress sessionId).run (concurrently db jsonb model arrivals)
      ⟨{ st with table := tableAt jsonb arrivals st.table 1 }, 1, []⟩ = (.ok (), now)) :
    (mem.getRecent sessionId).run (concurrently db jsonb model arrivals) ⟨st, 0, []⟩ =
      (.ok (summaryEntries sessionId (now.state.summaryText sessionId) ++
        ConversationMemory.getRecent db (added jsonb now.state.table (arrivals now.turn)) sessionId
          mem.keepRecent),
        ⟨{ now.state with table := added jsonb now.state.table (arrivals now.turn) }, now.turn + 1,
          now.given⟩) := by
  have hcounted : (Summarising.perform (.count sessionId)).run
      (concurrently db jsonb model arrivals) ⟨st, 0, []⟩ =
        (.ok (count (tableAt jsonb arrivals st.table 1) sessionId),
          ⟨{ st with table := tableAt jsonb arrivals st.table 1 }, 1, []⟩) := rfl
  rw [getRecent_eq, Coro.run_bind_of_ok _ hcounted,
    if_pos (maxRaw_lt_count_tableAt jsonb arrivals hcount 1), Coro.run_bind_of_ok _ hcompress]
  rfl

/-- With thresholds that differ, a call gives messages of the first read to the model, and returns
messages of the second one beside the summary. -/
theorem run_concurrently_of_lt (response : ModelResponse)
    (hcount : mem.maxRaw < count st.table sessionId) (hkeep : 0 < mem.keepRecent)
    (hlt : mem.keepRecent < mem.maxRaw) :
    (mem.getRecent sessionId).run (concurrently db jsonb (fun _ => .ok response) arrivals)
        ⟨st, 0, []⟩ =
      (.ok (summaryEntries sessionId (some response.content) ++ ConversationMemory.getRecent db
          (tableAt jsonb arrivals st.table 4) sessionId mem.keepRecent),
        ⟨{ st with table := tableAt jsonb arrivals st.table 4 }.setSummary sessionId
          ⟨response.content, mem.older db (tableAt jsonb arrivals st.table 2) sessionId⟩, 4,
          mem.older db (tableAt jsonb arrivals st.table 2) sessionId⟩) := by
  have hcount₂ := maxRaw_lt_count_tableAt jsonb arrivals hcount 2
  have holder : mem.older db (tableAt jsonb arrivals st.table 2) sessionId = upToLast
      (ConversationMemory.getRecent db (tableAt jsonb arrivals st.table 2) sessionId mem.maxRaw)
      mem.keepRecent := if_pos hcount₂
  obtain ⟨entry, older, hcons⟩ := List.exists_cons_of_ne_nil
    (older_ne_nil_iff.mpr ⟨hcount₂, hkeep, hlt⟩ : mem.older db _ sessionId ≠ [])
  have hcompress : (mem.compress sessionId).run
      (concurrently db jsonb (fun _ => .ok response) arrivals)
      ⟨{ st with table := tableAt jsonb arrivals st.table 1 }, 1, []⟩ =
        (.ok (), ⟨{ st with table := tableAt jsonb arrivals st.table 3 }.setSummary sessionId
          ⟨response.content, mem.older db (tableAt jsonb arrivals st.table 2) sessionId⟩, 3,
          mem.older db (tableAt jsonb arrivals st.table 2) sessionId⟩) := by
    unfold compress
    rw [Coro.run_bind_of_ok _ run_window_concurrently, ← holder, hcons]
    rfl
  rw [run_getRecent_concurrently hcount hcompress, MemoryState.summaryText_setSummary]
  rfl

/-- With the same threshold twice, a call gives nothing to the model, since nothing is older than
what is kept. -/
theorem run_concurrently_of_eq (db : Postgres) (jsonb : PyStr → Bool) (model : SummaryModel)
    (arrivals : ℕ → List AddCall) (hcount : mem.maxRaw < count st.table sessionId)
    (heq : mem.keepRecent = mem.maxRaw) :
    ((mem.getRecent sessionId).run (concurrently db jsonb model arrivals) ⟨st, 0, []⟩).2.given =
      [] := by
  have holder : upToLast (ConversationMemory.getRecent db (tableAt jsonb arrivals st.table 2)
      sessionId mem.maxRaw) mem.keepRecent = [] := by
    have hnil : mem.older db (tableAt jsonb arrivals st.table 2) sessionId = [] :=
      not_not.mp (mt older_ne_nil_iff.mp fun h => h.2.2.ne heq)
    rwa [older, if_pos (maxRaw_lt_count_tableAt jsonb arrivals hcount 2)] at hnil
  have hcompress : (mem.compress sessionId).run (concurrently db jsonb model arrivals)
      ⟨{ st with table := tableAt jsonb arrivals st.table 1 }, 1, []⟩ =
        (.ok (), ⟨{ st with table := tableAt jsonb arrivals st.table 2 }, 2, []⟩) := by
    unfold compress
    rw [Coro.run_bind_of_ok _ run_window_concurrently, holder]
    rfl
  rw [run_getRecent_concurrently hcount hcompress]

/-! ## Gaps -/

/-- The model has been given a message from before some time exactly if fewer than `max_raw`
messages of that read are from this time on. -/
theorem exists_older_lt_iff {t : MessageTable} (hcount : mem.maxRaw < count t sessionId)
    (hkeep : 0 < mem.keepRecent) (hlt : mem.keepRecent < mem.maxRaw) (time : ℚ) :
    (∃ oldest ∈ mem.older db t sessionId, oldest.createdAt < time) ↔
      (messages t sessionId).countP (fun row => time ≤ row.createdAt) < mem.maxRaw := by
  have h := db.isAnswer_arrange mem.maxRaw (messages t sessionId)
  rw [older_eq hcount hkeep, ← h.exists_mem_drop_take_lt_iff hlt
    (h.perm.length_eq.symm ▸ hcount.le) time]
  simp only [List.mem_map, List.mem_reverse, exists_exists_and_eq_and]
  rfl

/-- A message from after some time is returned exactly if there is one at the second read: the
newest message is always kept. -/
theorem exists_recent_gt_iff (t : MessageTable) (summaryText : Option PyStr)
    (hkeep : 0 < mem.keepRecent) (time : ℚ) :
    (∃ newest ∈ summaryEntries sessionId summaryText ++
        ConversationMemory.getRecent db t sessionId mem.keepRecent,
        newest.memoryType = .CONVERSATION ∧ time < newest.createdAt) ↔
      ∃ row ∈ messages t sessionId, time < row.createdAt := by
  have h := db.isAnswer_arrange mem.keepRecent (messages t sessionId)
  rw [← h.exists_mem_take_lt_iff hkeep time]
  refine ⟨fun ⟨newest, hnewest, htype, hgt⟩ => ?_, fun ⟨row, hrow, hgt⟩ => ?_⟩
  · rcases List.mem_append.mp hnewest with hsummary | hrecent
    · rw [(mem_summaryEntries_iff.mp hsummary).2] at htype
      have htype : MemoryType.SUMMARY = .CONVERSATION := htype
      exact absurd htype (by decide)
    · obtain ⟨row, hrow, rfl⟩ := List.mem_map.mp hrecent
      exact ⟨row, List.mem_reverse.mp hrow, hgt⟩
  · exact ⟨row.entry, List.mem_append_right _ (List.mem_map_of_mem (List.mem_reverse.mpr hrow)),
      rfl, hgt⟩

/-- With thresholds that differ, a database leaves no gap exactly if it bridges the messages of the
two reads (`BridgedBy`): every message between a summarised and a returned one is one of these
itself. -/
theorem noGap_iff_bridgedBy (db : Postgres) (response : ModelResponse)
    (hcount : mem.maxRaw < count st.table sessionId) (hkeep : 0 < mem.keepRecent)
    (hlt : mem.keepRecent < mem.maxRaw) :
    (∀ entries now, (mem.getRecent sessionId).run
        (concurrently db jsonb (fun _ => .ok response) arrivals) ⟨st, 0, []⟩ = (.ok entries, now) →
          NoGap sessionId entries now) ↔
      mem.BridgedBy db (messages (tableAt jsonb arrivals st.table 2) sessionId)
        (messages (tableAt jsonb arrivals st.table 4) sessionId) := by
  have hcount₂ := maxRaw_lt_count_tableAt jsonb arrivals hcount 2
  have hsub := (isPrefix_messages_tableAt st.table (show 2 ≤ 4 by decide) sessionId :
    messages (tableAt jsonb arrivals st.table 2) sessionId <+: _).subset
  rw [run_concurrently_of_lt response hcount hkeep hlt]
  refine Iff.trans ⟨fun h => h _ _ rfl, ?_⟩ (forall₂_congr fun row hrow => ?_)
  · rintro h _ _ ⟨⟩
    exact h
  · refine imp_congr (exists_older_lt_iff hcount₂ hkeep hlt _)
      (imp_congr (exists_recent_gt_iff _ _ hkeep _) (or_congr ?_ ?_))
    · exact entry_mem_older_iff hrow hsub hcount₂ hkeep
    · rw [List.mem_append, or_iff_right (entry_not_mem_summaryEntries _)]
      exact ConversationMemory.entry_mem_getRecent_iff hrow

/-- No database leaves a gap exactly if the messages of the two reads are `Bridged`, which is said
of the times alone. -/
theorem forall_bridgedBy_iff {window latest : List MessageRow} (hwindow : window.Nodup)
    (hlatest : latest.Nodup) (hlt : mem.keepRecent < mem.maxRaw) :
    (∀ db, mem.BridgedBy db window latest) ↔ mem.Bridged window latest := by
  unfold BridgedBy Bridged
  rw [forall_comm]
  refine forall_congr' fun row => ?_
  rw [forall_comm]
  refine forall_congr' fun hrow => ?_
  rw [forall_comm]
  refine forall_congr' fun hyoung => ?_
  rw [forall_comm]
  refine forall_congr' fun _ => ?_
  rw [ConversationMemory.forall_arrange_or_iff hlt.ne' window latest
    (fun answer => row ∈ (answer.take mem.maxRaw).drop mem.keepRecent)
    fun answer => row ∈ answer.take mem.keepRecent,
    ConversationMemory.forall_arrange_iff window mem.maxRaw
      fun answer => row ∈ (answer.take mem.maxRaw).drop mem.keepRecent,
    ConversationMemory.forall_arrange_iff latest mem.keepRecent
      fun answer => row ∈ answer.take mem.keepRecent,
    OrderBy.forall_mem_drop_take_iff hwindow hlt.le, ← OrderBy.mustTake_iff hlatest, or_comm]
  -- what is younger than the last messages were is among them, if it was there
  exact or_congr_right (and_congr_left' (and_iff_left hyoung.le))

/-- If the times increase, the messages of one read are `Bridged`: those that are kept follow those
that are summarised. -/
theorem bridged_self {window : List MessageRow}
    (htimes : window.Pairwise fun row row' => row.createdAt < row'.createdAt) :
    mem.Bridged window window := by
  intro row hrow _ _
  obtain ⟨before, after, rfl⟩ := List.append_of_mem hrow
  refine (le_or_gt (after.length + 1) mem.keepRecent).imp (fun hle => ⟨hrow, ?_⟩)
    fun hgt => ⟨hrow, fun hmay => ?_⟩
  · rwa [OrderBy.countP_le_of_increasing htimes]
  · have hmay := hmay.2
    rw [OrderBy.countP_lt_of_increasing htimes] at hmay
    omega

/-- If the times increase, a message that arrives between the two reads leaves a gap: it takes the
place of the oldest one that was to be kept. -/
theorem not_bridged_of_arrived {window arrived : List MessageRow} {new : MessageRow}
    (htimes : (window ++ new :: arrived).Pairwise fun row row' => row.createdAt < row'.createdAt)
    (hcount : mem.maxRaw < window.length) (hkeep : 0 < mem.keepRecent)
    (hlt : mem.keepRecent < mem.maxRaw) : ¬mem.Bridged window (window ++ new :: arrived) := by
  intro h
  -- the oldest of the messages that were the latest at the first read
  obtain ⟨before, row, after, rfl, hafter⟩ :=
    List.exists_eq_append_cons_of_lt (show mem.keepRecent - 1 < window.length by omega)
  have hlatest := htimes
  rw [List.append_assoc, List.cons_append] at hlatest
  have hwindow := (List.pairwise_append.mp htimes).1
  have hyoung : (before ++ row :: after).countP (fun row' => row.createdAt ≤ row'.createdAt) <
      mem.maxRaw := by
    rw [OrderBy.countP_le_of_increasing hwindow]
    omega
  have hnew : row.createdAt < new.createdAt :=
    (List.pairwise_append.mp htimes).2.2 row (by simp) new List.mem_cons_self
  -- it is no longer among the latest, and it was not given to the model
  rcases h row (by simp) hyoung ⟨new, by simp, hnew⟩ with hmust | ⟨-, hmay⟩
  · have hmust := hmust.2
    rw [List.append_assoc, List.cons_append, OrderBy.countP_le_of_increasing hlatest,
      List.length_append, List.length_cons] at hmust
    omega
  · refine hmay ⟨by simp, ?_⟩
    rw [OrderBy.countP_lt_of_increasing hwindow]
    omega

/-- If the times increase, two reads are `Bridged` exactly if they find the same messages. -/
theorem bridged_iff_of_increasing {window latest : List MessageRow} (hearlier : window <+: latest)
    (htimes : latest.Pairwise fun row row' => row.createdAt < row'.createdAt)
    (hcount : mem.maxRaw < window.length) (hkeep : 0 < mem.keepRecent)
    (hlt : mem.keepRecent < mem.maxRaw) : mem.Bridged window latest ↔ latest = window := by
  obtain ⟨arrived, rfl⟩ := hearlier
  cases arrived with
  | nil =>
    rw [List.append_nil] at htimes ⊢
    exact iff_of_true (bridged_self htimes) rfl
  | cons new arrived =>
    refine iff_of_false (not_bridged_of_arrived htimes hcount hkeep hlt) ?_
    rw [List.append_right_eq_self]
    exact List.cons_ne_nil new arrived

/-- No database leaves a gap in a call during which messages arrive. -/
def GapFree (mem : SummaryMemory) (jsonb : PyStr → Bool) (arrivals : ℕ → List AddCall)
    (st : MemoryState) (sessionId : PyStr) (response : ModelResponse) : Prop :=
  ∀ db entries now, (mem.getRecent sessionId).run
    (concurrently db jsonb (fun _ => .ok response) arrivals) ⟨st, 0, []⟩ = (.ok entries, now) →
      NoGap sessionId entries now

/-- Whatever messages arrive at the awaits of a call in a session of more than `max_raw_messages`,
no message falls between the summarised and the returned ones (`GapFree`) if and only if the
thresholds agree or the messages at the two reads are bridged. If the times increase, this means
that none arrives between the two reads. -/
theorem gapFree_iff (mem : SummaryMemory) (jsonb : PyStr → Bool) (arrivals : ℕ → List AddCall)
    (st : MemoryState) (sessionId : PyStr) (response : ModelResponse)
    (hcount : mem.maxRaw < count st.table sessionId) (hkeep : 1 ≤ mem.keepRecent)
    (hle : mem.keepRecent ≤ mem.maxRaw) :
    let window := messages (tableAt jsonb arrivals st.table 2) sessionId
    let latest := messages (tableAt jsonb arrivals st.table 4) sessionId
    (mem.GapFree jsonb arrivals st sessionId response ↔
      mem.keepRecent = mem.maxRaw ∨ mem.Bridged window latest) ∧
    (latest.Pairwise (fun row row' => row.createdAt < row'.createdAt) →
      (mem.GapFree jsonb arrivals st sessionId response ↔
        mem.keepRecent = mem.maxRaw ∨ latest = window)) := by
  intro window latest
  rcases hle.eq_or_lt with heq | hlt
  · -- nothing is given to the model
    have hfree : mem.GapFree jsonb arrivals st sessionId response := by
      intro db entries now hrun row _ holdest
      have hgiven := run_concurrently_of_eq db jsonb (fun _ => .ok response) arrivals hcount heq
      rw [hrun] at hgiven
      obtain ⟨oldest, hmem, -⟩ := holdest
      rw [hgiven] at hmem
      exact absurd hmem List.not_mem_nil
    exact ⟨iff_of_true hfree (.inl heq), fun _ => iff_of_true hfree (.inl heq)⟩
  · have hfree : mem.GapFree jsonb arrivals st sessionId response ↔ mem.Bridged window latest := by
      rw [← forall_bridgedBy_iff (ConversationMemory.messages_nodup _ _)
        (ConversationMemory.messages_nodup _ _) hlt]
      exact forall_congr' fun db => noGap_iff_bridgedBy db response hcount hkeep hlt
    have hearlier : window <+: latest := isPrefix_messages_tableAt _ (by decide) _
    have hcount₂ : mem.maxRaw < window.length := maxRaw_lt_count_tableAt jsonb arrivals hcount 2
    rw [hfree, or_iff_right hlt.ne, or_iff_right hlt.ne]
    exact ⟨Iff.rfl, fun htimes => bridged_iff_of_increasing hearlier htimes hcount₂ hkeep hlt⟩

/-- Three messages, a second apart. -/
def threeMessages : MemoryState where
  table := added (fun _ => true) Table.empty
    [userMessage ['1'] ['x'] 0, userMessage ['2'] ['y'] 1, userMessage ['3'] ['z'] 2]
  summaries _ := none

/-- A message arrives while the call awaits an operation. -/
def arrivingAt (turn : ℕ) : ℕ → List AddCall := fun k =>
  if k = turn then [userMessage ['4'] ['w'] 3] else []

/-- `gapFree_iff` where a message arrives before the first read: both reads find it, and it leaves
no gap. -/
theorem gapFree_iff_arrivingAt_one :
    SummaryMemory.GapFree ⟨2, 1⟩ (fun _ => true) (arrivingAt 1) threeMessages ['A']
      ⟨['s'], ['m'], 1, 1, ['x'], []⟩ := by
  apply ((gapFree_iff ⟨2, 1⟩ (fun _ => true) (arrivingAt 1) threeMessages ['A'] _ (by decide)
    (by decide) (by decide)).2 (by decide)).mpr
  exact .inr (by decide)

/-- A message that arrives during the model call leaves a gap: the second read returns it in place
of the third message, which is neither summarised nor returned. -/
theorem arrivingAt_two_not_gapFree :
    ¬SummaryMemory.GapFree ⟨2, 1⟩ (fun _ => true) (arrivingAt 2) threeMessages ['A']
      ⟨['s'], ['m'], 1, 1, ['x'], []⟩ := by
  intro h
  have hbridged :=
    (noGap_iff_bridgedBy .stable _ (by decide) (by decide) (by decide)).mp (h .stable)
  have hrow := hbridged (userMessage ['3'] ['z'] 2).row (by decide) (by decide)
    ⟨(userMessage ['4'] ['w'] 3).row, by decide, by decide⟩
  exact absurd hrow (by decide)

end SummaryMemory
