import AthenaAI.Memory.Conversation
import AthenaAI.ToMathlib.List
import AthenaAI.ToMathlib.Run
import Mathlib.Data.List.DropRight

/-!
# The last messages

Whether `get_recent` returns the last messages of a session in the order in which they were added.
The query orders by `created_at` alone, so messages of one time come in any order.

* `added` are the calls that have added a message to a session, of those whose metadata the
  database accepts as JSON. The identifiers of the calls are different.
* `messages_after_addMessage` is the table after the calls, and `map_reverse_take_eq_iff` when an
  answer is the end of it.
* `inOrder_iff`: the last `n` messages come in their order from every database if and only if the
  times of the last `n + 1` increase.
-/

namespace ConversationMemory

/-- The calls that add a message to the session. -/
def added (jsonb : PyStr → Bool) (calls : List AddCall) (sessionId : PyStr) : List AddCall :=
  calls.filter fun call => jsonb call.metadataText && call.sessionId = sessionId

variable {jsonb : PyStr → Bool} {calls : List AddCall} {sessionId : PyStr}

/-- With ids that are all different, every call whose metadata the server accepts inserts its row,
and the table has these rows in the order of the calls. -/
theorem rows_after_addMessage (hids : (calls.map AddCall.msgId).Nodup) :
    (Run.after (step jsonb) Table.empty (calls.map .addMessage)).rows =
      (calls.filter fun call => jsonb call.metadataText).map AddCall.row := by
  -- the last call finds the rows of the others
  induction calls using List.reverseRecOn with
  | nil => rfl
  | append_singleton calls call ih =>
    rw [List.map_append, List.map_singleton, List.nodup_append] at hids
    rw [List.map_append, List.map_singleton, Run.after_concat, List.filter_append]
    show (addMessage jsonb _ call).2.rows = _
    unfold addMessage
    by_cases hjson : jsonb call.metadataText
    · have hnew :
          ¬(Run.after (step jsonb) Table.empty (calls.map .addMessage)).Has call.row.id := by
        rw [Table.has_iff, ih hids.1]
        rintro ⟨_, hrow, hid⟩
        obtain ⟨earlier, hearlier, rfl⟩ := List.mem_map.mp hrow
        exact hids.2.2 _ (List.mem_map_of_mem (List.mem_filter.mp hearlier).1) _
          List.mem_cons_self hid
      rw [if_pos hjson, Table.rows_insertIfNew_of_not_has hnew, ih hids.1]
      simp [hjson]
    · rw [if_neg hjson, ih hids.1]
      simp [hjson]

/-- After calls of `add_message` with different ids, a session has exactly the messages that were
`added` for it, in that order. -/
theorem messages_after_addMessage (jsonb : PyStr → Bool) (hids : (calls.map AddCall.msgId).Nodup)
    (sessionId : PyStr) :
    messages (Run.after (step jsonb) Table.empty (calls.map .addMessage)) sessionId =
      (added jsonb calls sessionId).map AddCall.row := by
  rw [messages, Table.select, rows_after_addMessage hids, List.filter_map, List.filter_filter]
  refine congrArg (List.map AddCall.row) (List.filter_congr fun call _ => ?_)
  exact Bool.and_comm _ _

/-- An answer to the query gives the last `n` messages in their order exactly if it has them, in the
opposite order, as its first ones. -/
theorem map_reverse_take_eq_iff {t : MessageTable} {answer : List MessageRow} {n : ℕ}
    (h : OrderBy.IsAnswer MessageRow.createdAt (messages t sessionId) answer) :
    (answer.take n).reverse.map MessageRow.entry =
        ((messages t sessionId).rtake n).map MessageRow.entry ↔
      answer.take n = (messages t sessionId).reverse.take n := by
  rw [List.rtake_eq_reverse_take_reverse]
  refine Iff.trans ⟨List.eq_of_map_eq_map (eq_of_entry_eq t sessionId) ?_ ?_, congrArg _⟩
    List.reverse_inj
  · intro row hrow
    exact h.mem_iff.mp (List.mem_of_mem_take (List.mem_reverse.mp hrow))
  · intro row hrow
    exact List.mem_reverse.mp (List.mem_of_mem_take (List.mem_reverse.mp hrow))

/-- With fresh ids and times that do not decrease, the last `n` messages of a session come in the
order in which they were `added`, from every database, if and only if the times of the last `n + 1`
increase: between equal times an `ORDER BY created_at` may choose, both the order and which of them
is beyond the limit. -/
theorem inOrder_iff (jsonb : PyStr → Bool) {calls : List AddCall}
    (hids : (calls.map AddCall.msgId).Nodup)
    (htimes : calls.Pairwise fun call call' => call.now ≤ call'.now) (sessionId : PyStr) (n : ℕ) :
    (∀ db, getRecent db (Run.after (step jsonb) Table.empty (calls.map .addMessage)) sessionId n =
        ((added jsonb calls sessionId).rtake n).map fun call => call.row.entry) ↔
      ((added jsonb calls sessionId).rtake (n + 1)).Pairwise fun call call' =>
        call.now < call'.now := by
  have hmessages := messages_after_addMessage jsonb hids sessionId
  generalize Run.after (step jsonb) Table.empty (calls.map .addMessage) = t at hmessages ⊢
  have hrtake k : ((added jsonb calls sessionId).rtake k).map AddCall.row =
      (messages t sessionId).rtake k := by
    rw [hmessages, List.rtake, List.rtake, List.map_drop, List.length_map]
  have hentries : ((added jsonb calls sessionId).rtake n).map (fun call => call.row.entry) =
      ((messages t sessionId).rtake n).map MessageRow.entry := by
    rw [← hrtake, List.map_map]
    rfl
  -- the latest message comes first
  have hdesc : (messages t sessionId).reverse.Pairwise fun row row' =>
      row'.createdAt ≤ row.createdAt := by
    rw [List.pairwise_reverse, hmessages, List.pairwise_map]
    exact htimes.filter _
  have hnodup := List.nodup_reverse.mpr (messages_nodup t sessionId)
  rw [hentries]
  calc (∀ db, getRecent db t sessionId n = ((messages t sessionId).rtake n).map MessageRow.entry)
      ↔ ∀ answer, OrderBy.IsAnswer MessageRow.createdAt (messages t sessionId) answer →
          (answer.take n).reverse.map MessageRow.entry =
            ((messages t sessionId).rtake n).map MessageRow.entry :=
        forall_arrange_iff _ n fun answer => (answer.take n).reverse.map MessageRow.entry = _
    _ ↔ ∀ answer, OrderBy.IsAnswer MessageRow.createdAt (messages t sessionId).reverse answer →
          answer.take n = (messages t sessionId).reverse.take n := by
        refine forall_congr' fun answer => ?_
        rw [OrderBy.isAnswer_congr (List.reverse_perm _)]
        exact forall_congr' map_reverse_take_eq_iff
    _ ↔ ((messages t sessionId).reverse.take (n + 1)).Pairwise fun row row' =>
          row'.createdAt < row.createdAt := OrderBy.forall_take_eq_iff hnodup hdesc n
    _ ↔ ((messages t sessionId).rtake (n + 1)).Pairwise fun row row' =>
          row.createdAt < row'.createdAt := by
        rw [List.rtake_eq_reverse_take_reverse, List.pairwise_reverse]
    _ ↔ _ := by
        rw [← hrtake, List.pairwise_map]
        rfl

/-- `inOrder_iff` for two messages, one a second after the other: the last one is returned by every
database. -/
theorem inOrder_iff_oneSecond :
    getRecent .stable (Run.after (step fun _ => true) Table.empty
      ([userMessage ['1'] ['x'] 0, userMessage ['2'] ['y'] 1].map .addMessage)) ['A'] 1 =
      [(userMessage ['2'] ['y'] 1).row.entry] := by
  apply (inOrder_iff (fun _ => true) (by decide) (by decide) ['A'] 1).mpr
  decide

/-- Of two messages with the same time, the first one may be returned as the last: there is a
database that answers so. -/
theorem sameTime_not_inOrder :
    ¬∀ db, getRecent db (Run.after (step fun _ => true) Table.empty
      ([userMessage ['1'] ['x'] 0, userMessage ['2'] ['y'] 0].map .addMessage)) ['A'] 1 =
      [(userMessage ['2'] ['y'] 0).row.entry] := by
  intro h
  have hids := congrArg (List.map MemoryEntry.id) (h .stable)
  exact absurd hids (by decide)

end ConversationMemory
