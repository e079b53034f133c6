import AthenaAI.Memory.SessionIsolation
import Mathlib.Data.List.DropRight

/-!
# The facts of a semantic memory

What a search finds after any calls of `SemanticMemory.store` and `SemanticMemory.delete`. Only the
calls that the database accepts (`Writes`) have an effect: one whose metadata or whose embedding it
refuses raises, and writes nothing.

* `writesOf` are the calls that have written a memory since it was last deleted. `get_run`: its row
  has the session, the metadata and the time of the first of them, and the content and the embedding
  of the last one.
* `tableStep_of_writes` and `tableStep_of_not_writes` are the two cases of a call.
* `search_run`: so a search finds a fact for every memory that has been written, in the session of
  its first write.
-/

namespace SemanticMemory

/-- The call deletes the memory. -/
def Call.deletes (id : PyStr) : Call → Bool
  | .store _ => false
  | .delete memoryId => memoryId = id

variable (memory : SemanticMemory)

/-- The table after a call. -/
def tableStep (t : SemanticTable) : Call → SemanticTable
  | .store call => (memory.store t call).2
  | .delete memoryId => delete t memoryId

/-- The table after some calls. -/
def run (calls : List Call) : SemanticTable := Run.after memory.tableStep Table.empty calls

/-- What the call writes to the memory. A call that raises writes nothing. -/
def written? (id : PyStr) : Call → Option StoreCall
  | .store call => if memory.Writes call ∧ call.memId = id then some call else none
  | .delete _ => none

/-- The calls that have written the memory since it was last deleted. -/
def writesOf (id : PyStr) (calls : List Call) : List StoreCall :=
  (calls.rtakeWhile fun c => !c.deletes id).filterMap (memory.written? id)

/-- The metadata of the call, as JSON text. -/
def metadataText (call : StoreCall) : PyStr :=
  (Json.dumps memory.lim (.dict call.metaDict)).toOption.getD []

/-- The row of a memory, by its first and its last write. -/
def factRow (first last : StoreCall) : SemanticRow :=
  last.update (first.row (memory.metadataText first))

/-- The entry of a memory, by its first and its last write. -/
def fact (first last : StoreCall) : MemoryEntry where
  id := first.memId
  sessionId := first.sessionId
  memoryType := .SEMANTIC
  content := last.content
  metadata := memory.jsonb (memory.metadataText first)
  createdAt := first.now

/-- The row of a memory, by its writes. -/
def rowOf : List StoreCall → Option SemanticRow
  | [] => none
  | first :: rest => some (memory.factRow first (rest.getLastD first))

variable {memory} {calls : List Call} {id : PyStr}

/-- A further call ends the writes of an id if it deletes the id, and otherwise adds what it has
`written?`. -/
theorem writesOf_concat (c : Call) : memory.writesOf id (calls ++ [c]) =
    if c.deletes id then [] else memory.writesOf id calls ++ (memory.written? id c).toList := by
  unfold writesOf
  rw [List.rtakeWhile_concat]
  cases hdeletes : c.deletes id with
  | true => rfl
  | false =>
    rw [Bool.not_false, if_pos rfl, if_neg Bool.false_ne_true, List.filterMap_append]
    cases hwritten : memory.written? id c <;> simp [hwritten]

/-- The calls in `writesOf` an id are those that store under it and get to write (`Writes`). -/
theorem of_mem_writesOf {call : StoreCall} (h : call ∈ memory.writesOf id calls) :
    memory.Writes call ∧ call.memId = id := by
  obtain ⟨c, -, hc⟩ := List.mem_filterMap.mp h
  cases c with
  | store call' =>
    rw [written?, Option.ite_none_right_eq_some] at hc
    exact Option.some.inj hc.2 ▸ hc.1
  | delete memoryId => exact nomatch hc

/-- A further write changes the content and the embedding of the row (`update`), and makes the row
if there was none. -/
theorem rowOf_concat (writes : List StoreCall) (call : StoreCall) :
    memory.rowOf (writes ++ [call]) =
      some (((memory.rowOf writes).map call.update).getD
        (call.row (memory.metadataText call))) := by
  cases writes with
  | nil => rfl
  | cons first rest =>
    rw [List.cons_append, rowOf, List.getLastD_concat]
    rfl

/-- A call that `Writes` is an upsert of its row: `INSERT … ON CONFLICT (id) DO UPDATE`. -/
theorem tableStep_of_writes {call : StoreCall} (h : memory.Writes call) (t : SemanticTable) :
    memory.tableStep t (.store call) =
      t.upsert (call.row (memory.metadataText call)) call.update call.id_update := by
  obtain ⟨row, hrow⟩ := Except.isOk_eq_true_iff.mp h
  obtain ⟨text, htext, -, rfl⟩ := inserted_eq_ok_iff.mp hrow
  rw [tableStep, store, hrow, metadataText, htext]
  rfl

/-- A `store` that `Writes` nothing, because the text cannot be made or a cast refuses it, leaves
the table as it is. -/
theorem tableStep_of_not_writes {call : StoreCall} (h : ¬memory.Writes call)
    (t : SemanticTable) : memory.tableStep t (.store call) = t := by
  obtain ⟨e, he⟩ := Except.isOk_eq_false_iff.mp (Bool.eq_false_iff.mpr h)
  rw [tableStep, store, he]

/-- A memory has the session, the metadata and the time of its first write since it was last
deleted, and the content and the embedding of its last one. -/
theorem get_run (memory : SemanticMemory) (calls : List Call) (id : PyStr) :
    (memory.run calls).get id = memory.rowOf (memory.writesOf id calls) := by
  induction calls using List.reverseRecOn with
  | nil => rfl
  | append_singleton calls c ih =>
    rw [writesOf_concat, run, Run.after_concat, ← run]
    cases c with
    | store call =>
      rw [Call.deletes, if_neg Bool.false_ne_true, written?]
      by_cases hwrites : memory.Writes call
      · have hrow : (call.row (memory.metadataText call)).id = call.memId := rfl
        rw [tableStep_of_writes hwrites, Table.get_upsert, ih, hrow]
        by_cases hid : call.memId = id
        · rw [if_pos hid.symm, if_pos ⟨hwrites, hid⟩, Option.toList_some, rowOf_concat]
        · rw [if_neg (Ne.symm hid), if_neg fun h => hid h.2, Option.toList_none, List.append_nil]
      · rw [tableStep_of_not_writes hwrites, ih, if_neg fun h => hwrites h.1, Option.toList_none,
          List.append_nil]
    | delete memoryId =>
      show (Table.deleteWhere _ _).get id = _
      rw [Table.get_deleteWhere_key, ih, Call.deletes, written?, Option.toList_none,
        List.append_nil]
      by_cases hid : memoryId = id
      · rw [if_pos hid.symm, if_pos (decide_eq_true hid)]
        rfl
      · rw [if_neg (Ne.symm hid), if_neg (by simpa using hid)]

/-! ## What a search finds -/

/-- A search for a session is for the memories of the session, any other one for all memories. -/
def Wanted (sessionId : Option PyStr) (writer : PyStr) : Prop :=
  ∀ s, sessionId = some s → s = [] ∨ writer = s

/-- The rows that a search considers are those that its `session_id` wants: all of them for `None`
and for the empty string. -/
theorem mem_searched_iff {t : SemanticTable} {sessionId : Option PyStr} {row : SemanticRow} :
    row ∈ searched t sessionId ↔ row ∈ t.rows ∧ Wanted sessionId row.sessionId := by
  cases sessionId with
  | none => exact (and_iff_left nofun).symm
  | some s =>
    rw [mem_searched_some]
    refine and_congr_right fun _ => ⟨fun h s' hs => Option.some.inj hs ▸ h, fun h => h s rfl⟩

/-- The rows of the table are those of the memories with writes (`writesOf`): the `factRow` of the
first write and the last one. -/
theorem mem_rows_run_iff {row : SemanticRow} : row ∈ (memory.run calls).rows ↔
    ∃ first rest, memory.writesOf row.id calls = first :: rest ∧
      row = memory.factRow first (rest.getLastD first) := by
  have hget : row ∈ (memory.run calls).rows ↔ (memory.run calls).get row.id = some row := by
    rw [Table.get_eq_some_iff, and_iff_left rfl]
  rw [hget, get_run]
  cases memory.writesOf row.id calls with
  | nil => exact iff_of_false nofun fun ⟨_, _, h, _⟩ => nomatch h
  | cons first rest =>
    rw [rowOf, Option.some_inj]
    constructor
    · rintro hrow
      exact ⟨first, rest, rfl, hrow.symm⟩
    · rintro ⟨first', rest', heq, hrow⟩
      obtain ⟨rfl, rfl⟩ := List.cons.inj heq
      exact hrow.symm

/-- After any calls, a search finds every memory at most once, and shows it with the session, the
metadata and the time of its first write since it was last deleted and with the content of its last
one; `writesOf` are these writes, those that the server has refused not among them. It finds only
memories that were first written in the session it is for (`Wanted`); of these it finds all if it is
for so many as there are. -/
theorem search_run (memory : SemanticMemory) (calls : List Call) (queryEmbedding : List PyStr)
    (k : ℕ) (sessionId : Option PyStr) :
    ((memory.search (memory.run calls) queryEmbedding k sessionId).map
      fun result => result.1.id).Nodup ∧
    (∀ result ∈ memory.search (memory.run calls) queryEmbedding k sessionId,
      ∃ first rest, memory.writesOf result.1.id calls = first :: rest ∧
        Wanted sessionId first.sessionId ∧
        result.1 = memory.fact first (rest.getLastD first)) ∧
    ((memory.run calls).rows.length ≤ k → ∀ id first rest,
      memory.writesOf id calls = first :: rest → Wanted sessionId first.sessionId →
        ∃ result ∈ memory.search (memory.run calls) queryEmbedding k sessionId,
          result.1 = memory.fact first (rest.getLastD first)) := by
  have hperm := memory.nearest_perm (embeddingStr queryEmbedding)
    (searched (memory.run calls) sessionId)
  have hsublist : (searched (memory.run calls) sessionId).Sublist (memory.run calls).rows := by
    unfold searched
    split
    · split_ifs
      · exact List.Sublist.refl _
      · exact List.filter_sublist
    · exact List.Sublist.refl _
  refine ⟨?_, fun result hresult => ?_, fun hk id first rest hwrites hwanted => ?_⟩
  · have hids : ((memory.nearest (embeddingStr queryEmbedding)
        (searched (memory.run calls) sessionId)).map SemanticRow.id).Nodup :=
      (hperm.map SemanticRow.id).nodup_iff.mpr ((memory.run calls).nodup.sublist (hsublist.map _))
    rw [search, List.map_map]
    exact hids.sublist ((List.take_sublist _ _).map _)
  · obtain ⟨row, hrow, hresult⟩ := exists_row_of_mem_search hresult
    obtain ⟨hmem, hwanted⟩ := mem_searched_iff.mp hrow
    obtain ⟨first, rest, hwrites, hfact⟩ := mem_rows_run_iff.mp hmem
    have hsession : row.sessionId = first.sessionId := by
      rw [hfact]
      rfl
    refine ⟨first, rest, ?_, hsession ▸ hwanted, ?_⟩
    · rw [hresult]
      exact hwrites
    · rw [hresult, hfact]
      rfl
  · obtain rfl : first.memId = id := (of_mem_writesOf (hwrites ▸ List.mem_cons_self)).2
    have hmem : memory.factRow first (rest.getLastD first) ∈ (memory.run calls).rows :=
      mem_rows_run_iff.mpr ⟨first, rest, hwrites, rfl⟩
    have hsearched : memory.factRow first (rest.getLastD first) ∈
        memory.nearest (embeddingStr queryEmbedding) (searched (memory.run calls) sessionId) :=
      hperm.mem_iff.mpr (mem_searched_iff.mpr ⟨hmem, hwanted⟩)
    refine ⟨_, List.mem_map.mpr ⟨memory.factRow first (rest.getLastD first), ?_, rfl⟩, rfl⟩
    rwa [List.take_of_length_le ((hperm.length_eq.trans_le hsublist.length_le).trans hk)]

end SemanticMemory
