import AthenaAI.Memory.Semantic
import AthenaAI.ToMathlib.Except
import AthenaAI.ToMathlib.Run

/-!
# Facts and sessions

Whether a search for a session finds only facts that were last stored for it. A `store` on an id
that is there replaces the content and keeps the session.

* `Ledger` is the table together with the session that the last `store` on each id named; `step` are
  the calls. A `store` that the database refuses (`Writes` fails) raises and leaves both alone.
* `Isolated` says that every search for a session finds only facts last stored for that session, and
  `KeepsApart` is the condition on a call under which it stays so (`isolated_step_iff`).
* `isolated_iff`: throughout a run the session is isolated if and only if every call keeps it apart.
* `factOne_not_isolated` is a run in which it is not: two sessions store under one id.
-/

namespace SemanticMemory

/-- A call of `store` or `delete`. -/
inductive Call where
  | store (call : StoreCall)
  | delete (memoryId : PyStr)

/-- The table, and the session for which each memory was last stored. -/
structure Ledger where
  /-- The table. -/
  table : SemanticTable
  /-- The session that the last `store` on an id named. -/
  writer : PyStr → Option PyStr

variable (memory : SemanticMemory)

/-- The call writes to the table: its metadata can be written as JSON, and the database does not
refuse its row. -/
def Writes (call : StoreCall) : Prop := (memory.inserted call).isOk = true

instance : DecidablePred memory.Writes := fun call =>
  inferInstanceAs (Decidable ((memory.inserted call).isOk = true))

/-- The effect of a call. -/
def step (s : Ledger) : Call → Ledger
  | .store call =>
    { table := (memory.store s.table call).2
      writer := fun id =>
        if memory.Writes call ∧ id = call.memId then some call.sessionId else s.writer id }
  | .delete memoryId => { s with table := delete s.table memoryId }

/-- The ledger before the first call. -/
def start : Ledger := ⟨Table.empty, fun _ => none⟩

/-- Every search for the session finds only entries that were last stored for it. -/
def Isolated (sessionId : PyStr) (s : Ledger) : Prop :=
  ∀ queryEmbedding k, ∀ result ∈ memory.search s.table queryEmbedding k (some sessionId),
    s.writer result.1.id = some sessionId

/-- The call leaves the session alone: it deletes, it does not get to write, it stores for the
session itself, or it stores for another one under an id that the session does not have. -/
def KeepsApart (sessionId : PyStr) (s : Ledger) : Call → Prop
  | .delete _ => True
  | .store call => memory.Writes call → call.sessionId = sessionId ∨ (sessionId ≠ [] ∧
      ∀ row ∈ s.table.rows, row.id = call.memId → row.sessionId ≠ sessionId)

variable {memory} {s : Ledger} {sessionId : PyStr}

/-! ## What a search for a session finds -/

/-- A search for a session looks at the rows of this session; for the empty string it looks
everywhere, as for `None`. -/
theorem mem_searched_some (t : SemanticTable) (sessionId : PyStr) (row : SemanticRow) :
    row ∈ searched t (some sessionId) ↔
      row ∈ t.rows ∧ (sessionId = [] ∨ row.sessionId = sessionId) := by
  unfold searched
  cases sessionId with
  | nil => simp
  | cons c sessionId => simp

/-- `Isolated` said of the rows: those that a search for the session considers were last written for
it. -/
theorem isolated_iff_rows :
    memory.Isolated sessionId s ↔ ∀ row ∈ s.table.rows,
      (sessionId = [] ∨ row.sessionId = sessionId) → s.writer row.id = some sessionId := by
  refine ⟨fun h row hrow hsession => ?_, fun h queryEmbedding k result hresult => ?_⟩
  · obtain ⟨k, result, hresult, heq⟩ := exists_mem_search memory
      ((mem_searched_some _ _ _).mpr ⟨hrow, hsession⟩) []
    have hwriter := h [] k result hresult
    rwa [heq] at hwriter
  · obtain ⟨row, hrow, heq⟩ := exists_row_of_mem_search hresult
    obtain ⟨hrow, hsession⟩ := (mem_searched_some _ _ _).mp hrow
    rw [heq]
    exact h row hrow hsession

/-! ## What a call changes -/

/-- A call that does not get to write (`Writes`) changes neither the table nor who has last written
a memory. -/
theorem step_of_not_writes {call : StoreCall} (h : ¬memory.Writes call) :
    memory.step s (.store call) = s := by
  obtain ⟨e, he⟩ := Except.isOk_eq_false_iff.mp (Bool.eq_false_iff.mpr h)
  have htable : (memory.store s.table call).2 = s.table := by rw [store, he]
  have hwriter : (memory.step s (.store call)).writer = s.writer := by
    ext1 id
    exact if_neg fun hw => h hw.1
  exact congrArg₂ Ledger.mk htable hwriter

/-- A call that `Writes` inserts its row, or updates the row that has its id. -/
theorem exists_table_step {call : StoreCall} (h : memory.Writes call) :
    ∃ metadata, (memory.step s (.store call)).table =
      s.table.upsert (call.row metadata) call.update call.id_update := by
  obtain ⟨row, hrow⟩ := Except.isOk_eq_true_iff.mp h
  obtain ⟨metadata, -, -, rfl⟩ := inserted_eq_ok_iff.mp hrow
  refine ⟨metadata, ?_⟩
  show (memory.store s.table call).2 = _
  rw [store, hrow]

/-- The memory that a call writes is in the session that it was in before, or else in the one that
the call names. -/
theorem forall_stored_iff {call : StoreCall} (h : memory.Writes call) (p : PyStr → Prop) :
    (∀ row ∈ (memory.step s (.store call)).table.rows, row.id = call.memId → p row.sessionId) ↔
      if s.table.Has call.memId then ∀ row ∈ s.table.rows, row.id = call.memId → p row.sessionId
      else p call.sessionId := by
  obtain ⟨metadata, htable⟩ := exists_table_step (s := s) h
  rw [htable]
  by_cases hhas : s.table.Has call.memId
  · rw [if_pos hhas]
    refine ⟨fun hall row hrow hid => ?_, fun hall row hrow hid => ?_⟩
    · exact hall (call.update row)
        ((Table.mem_upsert_of_has hhas).mpr (.inr ⟨row, hrow, hid, rfl⟩)) hid
    · rcases (Table.mem_upsert_of_has hhas).mp hrow with ⟨_, hne⟩ | ⟨old, hold, hkey, rfl⟩
      · exact absurd hid hne
      · exact hall old hold hkey
  · rw [if_neg hhas]
    refine ⟨fun hall => ?_, fun hp row hrow hid => ?_⟩
    · exact hall (call.row metadata) ((Table.mem_upsert_of_not_has hhas).mpr (.inr rfl)) rfl
    · rcases (Table.mem_upsert_of_not_has hhas).mp hrow with hold | rfl
      · exact absurd (Table.has_iff.mpr ⟨row, hold, hid⟩) hhas
      · exact hp

/-- The other memories are as they were. -/
theorem mem_step_of_ne {call : StoreCall} (h : memory.Writes call) {row : SemanticRow}
    (hid : row.id ≠ call.memId) :
    row ∈ (memory.step s (.store call)).table.rows ↔ row ∈ s.table.rows := by
  obtain ⟨metadata, htable⟩ := exists_table_step (s := s) h
  rw [htable]
  by_cases hhas : s.table.Has (call.row metadata).id
  · rw [Table.mem_upsert_of_has hhas]
    refine ⟨?_, fun hrow => .inl ⟨hrow, hid⟩⟩
    rintro (⟨hrow, _⟩ | ⟨old, _, hkey, rfl⟩)
    · exact hrow
    · exact absurd hkey hid
  · rw [Table.mem_upsert_of_not_has hhas]
    refine or_iff_left ?_
    rintro rfl
    exact hid rfl

/-- A call that `Writes` makes its session the `writer` of the memory, the one for which it was last
stored. -/
theorem writer_step {call : StoreCall} (h : memory.Writes call) (id : PyStr) :
    (memory.step s (.store call)).writer id =
      if id = call.memId then some call.sessionId else s.writer id := by
  show (if memory.Writes call ∧ id = call.memId then _ else _) = _
  by_cases hid : id = call.memId
  · rw [if_pos ⟨h, hid⟩, if_pos hid]
  · rw [if_neg fun hw => hid hw.2, if_neg hid]

/-- A call that writes `KeepsApart` the session exactly if the memory that it writes, as it is in
the table then, is found by a search for the session only if the call is for this session. -/
theorem keepsApart_store_iff {call : StoreCall} (h : memory.Writes call) :
    memory.KeepsApart sessionId s (.store call) ↔
      ∀ row ∈ (memory.step s (.store call)).table.rows, row.id = call.memId →
        (sessionId = [] ∨ row.sessionId = sessionId) → call.sessionId = sessionId := by
  rw [forall_stored_iff h fun session =>
    (sessionId = [] ∨ session = sessionId) → call.sessionId = sessionId]
  by_cases hsame : call.sessionId = sessionId
  · refine iff_of_true (fun _ => .inl hsame) ?_
    split_ifs
    · exact fun _ _ _ _ => hsame
    · exact fun _ => hsame
  -- the call stores for another session, so what it writes must not be found
  have hkeeps : memory.KeepsApart sessionId s (.store call) ↔
      sessionId ≠ [] ∧ ∀ row ∈ s.table.rows, row.id = call.memId → row.sessionId ≠ sessionId :=
    ⟨fun hk => (hk h).resolve_left hsame, fun hk _ => .inr hk⟩
  rw [hkeeps]
  simp only [hsame, imp_false, not_or]
  split_ifs with hhas
  · obtain ⟨row, hrow, hid⟩ := Table.has_iff.mp hhas
    refine ⟨fun hk row hrow hid => ⟨hk.1, hk.2 row hrow hid⟩, fun hall => ?_⟩
    exact ⟨(hall row hrow hid).1, fun row hrow hid => (hall row hrow hid).2⟩
  · refine ⟨fun hk => ⟨hk.1, not_false⟩, fun hne => ⟨hne.1, fun row hrow hid => ?_⟩⟩
    exact absurd (Table.has_iff.mpr ⟨row, hrow, hid⟩) hhas

/-- An isolated session stays `Isolated` exactly under calls that `KeepsApart`: this is the step of
the run theorem. -/
theorem isolated_step_iff (h : memory.Isolated sessionId s) (call : Call) :
    memory.Isolated sessionId (memory.step s call) ↔ memory.KeepsApart sessionId s call := by
  rw [isolated_iff_rows] at h ⊢
  cases call with
  | delete memoryId =>
    refine iff_of_true (fun row hrow hsession => ?_) trivial
    exact h row ((Table.mem_deleteWhere _ _ _).mp hrow).1 hsession
  | store call =>
    by_cases hwrites : memory.Writes call
    · rw [keepsApart_store_iff hwrites]
      -- only the memory that is written has another writer
      refine forall₂_congr fun row hrow => ?_
      rw [writer_step hwrites]
      by_cases hid : row.id = call.memId
      · simp [hid]
      · rw [if_neg hid]
        exact iff_of_true (h row ((mem_step_of_ne hwrites hid).mp hrow)) fun h => absurd h hid
    · rw [step_of_not_writes hwrites]
      exact iff_of_true h fun hw => absurd hw hwrites

/-! ## Runs -/

theorem isolated_start : memory.Isolated sessionId start :=
  isolated_iff_rows.mpr fun _ hrow => absurd hrow List.not_mem_nil

/-- In all states that a run passes through, a search for the session shows only what was last
written for it (`Isolated`), if and only if every call of the run `KeepsApart`: it deletes, it does
not get to write, it stores for the session itself, or it stores for another one under an id that
this session does not have. For the empty string, for which a search looks everywhere, nothing may
be written for another session at all. -/
theorem isolated_iff (memory : SemanticMemory) (sessionId : PyStr) (calls : List Call) :
    (∀ pre, pre <+: calls → memory.Isolated sessionId (Run.after memory.step start pre)) ↔
      ∀ t ∈ Run.steps memory.step start calls, memory.KeepsApart sessionId t.before t.event :=
  Run.forall_prefix_iff (P := memory.Isolated sessionId) (fun _ call h => isolated_step_iff h call)
    isolated_start calls

/-- A database that finds all rows equally near. It refuses vectors that have not 1536
components. -/
def equallyNear : SemanticMemory where
  lim := .thousand
  refuses row :=
    if row.embedding.count ',' = 1535 then none
    else some (.of (.other "DataError".toList) "expected 1536 dimensions".toList)
  jsonb _ := []
  nearest _ rows := rows
  nearest_perm _ rows := .refl rows
  score _ _ := "1.0".toList

/-- An embedding with 1536 components. -/
@[irreducible]
def ones : List PyStr := List.replicate 1536 "1.0".toList

/-- A fact that a session stores under the id `1`. -/
def factOne (sessionId content : PyStr) : StoreCall where
  sessionId
  content
  embedding := ones
  memoryId := some ['1']
  uuid := "5f1c".toList
  now := 0

/-- The database accepts the facts. -/
theorem writes_factOne (sessionId content : PyStr) :
    equallyNear.Writes (factOne sessionId content) := by
  have hcount : (embeddingStr ones).count ',' = 1535 := by
    decide +kernel
  have hdumps : Json.dumps .thousand (.dict []) = .ok "\x7b\x7d".toList := by decide
  refine Except.isOk_eq_true_iff.mpr ⟨(factOne sessionId content).row "\x7b\x7d".toList, ?_⟩
  exact inserted_eq_ok_iff.mpr ⟨_, hdumps, if_pos hcount, rfl⟩

/-- The first fact is in the table, in the session that has stored it. -/
theorem exists_mem_step_factOne (sessionId content : PyStr) :
    ∃ row ∈ (equallyNear.step start (.store (factOne sessionId content))).table.rows,
      row.id = ['1'] ∧ row.sessionId = sessionId := by
  obtain ⟨metadata, htable⟩ := exists_table_step (s := start) (writes_factOne sessionId content)
  refine ⟨(factOne sessionId content).row metadata, ?_, rfl, rfl⟩
  rw [htable]
  refine (Table.mem_upsert_of_not_has fun hhas => ?_).mpr (.inr rfl)
  obtain ⟨row, hrow, -⟩ := Table.has_iff.mp hhas
  exact List.not_mem_nil hrow

/-- A second session that uses the id `1` changes what the first one finds, for `ON CONFLICT`
updates the row of the first one; and a search for the empty session finds what is stored for
another one. -/
theorem factOne_not_isolated :
    ¬equallyNear.Isolated ['A'] (Run.after equallyNear.step start
        [.store (factOne ['A'] ['x']), .store (factOne ['B'] ['y'])]) ∧
      ¬equallyNear.Isolated []
        (Run.after equallyNear.step start [.store (factOne ['A'] ['x'])]) := by
  obtain ⟨row, hrow, hid, hsession⟩ := exists_mem_step_factOne ['A'] ['x']
  have hfirst : equallyNear.Isolated ['A']
      (equallyNear.step start (.store (factOne ['A'] ['x']))) :=
    (isolated_step_iff isolated_start _).mpr fun _ => .inl rfl
  constructor
  · -- the row is in session `A`, and the second call stores for `B`
    rw [Run.after_cons, Run.after_cons, Run.after_nil, isolated_step_iff hfirst]
    intro hkeeps
    exact ((hkeeps (writes_factOne _ _)).resolve_left (by decide)).2 row hrow hid hsession
  · rw [Run.after_cons, Run.after_nil, isolated_step_iff isolated_start]
    intro hkeeps
    exact ((hkeeps (writes_factOne _ _)).resolve_left (by decide)).1 rfl

end SemanticMemory
