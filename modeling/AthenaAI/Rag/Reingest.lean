import AthenaAI.Rag.IngestRetry

/-!
# Re-ingesting a document

`reingest` deletes the chunks of the document and ingests it anew. The deletion is a statement of
its own, committed before the new content is parsed, so what goes wrong later finds the old document
gone.

* `run_ingestNew` and `run_reingest`: what the calls do where nothing fails. They add `newRows`.
* `reattempt_isOk_iff`: a call returns exactly if it is complete (`Completes`): the content is not
  blank, what is to be stored can be stored and none of the operations it awaits fails.
* `reingest_keeps_iff`: a call that raises leaves the rows of a stored document as they were, if and
  only if it is complete, and so does not raise, or the deletion itself was refused.
-/

namespace DocumentLoader

variable (loader : DocumentLoader) (lim : Json.Limits) (content documentId : PyStr)

/-- The rows that a call adds for a content, with the answer of the embedder `embed`. -/
def newRows (call : IngestCall) (embed : List PyStr → List Embedding) : List Row :=
  rowsFor lim call (loader.chunksOf content documentId call)
    (embed (loader.texts documentId content))

/-- The content is not blank, and the rows of the call can be made. -/
def Ingestible (call : IngestCall) (embed : List PyStr → List Embedding) : Prop :=
  content.strip ≠ [] ∧
    loader.Storable lim documentId content call (embed (loader.texts documentId content))

variable {loader lim content documentId} {t : ChunkTable} {call : IngestCall}
  {embed : List PyStr → List Embedding}

/-! ## Runs without failures -/

/-- The rows of an `Ingestible` call carry the expected chunks and the identifiers that the call
draws. -/
theorem Ingestible.rowsFor (hnew : loader.Ingestible lim content documentId call embed) :
    loader.RowsFor documentId content call (loader.newRows lim content documentId call embed) :=
  rowsFor_rowsFor loader lim (loader.chunksFor_chunksOf documentId hnew.1 call) hnew.2

theorem Ingestible.length_newRows (hnew : loader.Ingestible lim content documentId call embed) :
    (loader.newRows lim content documentId call embed).length =
      (loader.expected content documentId).length := by
  rw [← hnew.rowsFor.items, List.length_map]

/-- Without failures, the part of `ingest` after the check appends the rows of an `Ingestible` call,
and returns their number. -/
theorem run_ingestNew_of_ingestible
    (hnew : loader.Ingestible lim content documentId call embed)
    (hrows : t.NewRows (loader.newRows lim content documentId call embed)) :
    (loader.ingestNew lim content documentId call).run (ragHandler embed) t =
        (.ok (loader.expected content documentId).length, t.append _ hrows) ∧
      (loader.ingestNew lim content documentId call).awaited (ragHandler embed) t =
        (loader.expected content documentId).length + 1 := by
  obtain ⟨hinsert, hawaited⟩ := PgVectorRetriever.run_insertRows_of_new embed hrows
  have hstore := storeNew_eq loader lim (loader.chunksFor_chunksOf documentId hnew.1 call) hnew.2
  change storeNew lim _ _ = PgVectorRetriever.insertRows (loader.newRows lim content documentId
    call embed) >>= fun _ => Coro.ret (loader.newRows lim content documentId call embed).length
    at hstore
  rw [hnew.length_newRows] at hstore hawaited
  rw [loader.ingestNew_eq lim documentId hnew.1, Coro.run_await, Coro.awaited_await]
  simp only [ragHandler, Coro.onOk_ok]
  rw [hstore, Coro.run_bind_of_ok _ hinsert, Coro.awaited_bind_of_ok _ hinsert, hawaited]
  exact ⟨rfl, rfl⟩

/-- Without failures, an `ingest` of an absent document appends the rows of an `Ingestible` call. -/
theorem run_ingest_of_absent (habsent : t.count documentId = 0)
    (hnew : loader.Ingestible lim content documentId call embed)
    (hrows : t.NewRows (loader.newRows lim content documentId call embed)) :
    (loader.ingest lim content documentId call).run (ragHandler embed) t =
      (.ok (loader.newRows lim content documentId call embed).length, t.append _ hrows) := by
  rw [ingest_eq, Coro.run_await]
  simp only [ragHandler, Coro.onOk_ok, habsent, gt_iff_lt, Nat.lt_irrefl, if_false]
  rw [hnew.length_newRows]
  exact (run_ingestNew_of_ingestible hnew hrows).1

/-- Without failures the part of `ingest` after the check raises if the rows cannot be made. -/
theorem run_ingestNew_of_not_ingestible
    (hnew : ¬loader.Ingestible lim content documentId call embed) :
    ((loader.ingestNew lim content documentId call).run (ragHandler embed) t).1.isOk = false := by
  by_cases hblank : content.strip = []
  · obtain ⟨e, hraise⟩ := loader.ingestNew_of_blank lim documentId hblank call
    rw [hraise]
    rfl
  · obtain ⟨e, hraise⟩ := storeNew_of_not_storable loader lim
      (loader.chunksFor_chunksOf documentId hblank call) fun hstorable => hnew ⟨hblank, hstorable⟩
    rw [loader.ingestNew_eq lim documentId hblank, Coro.run_await]
    simp only [ragHandler, Coro.onOk_ok]
    rw [hraise]
    rfl

/-- Deleting a document leaves no identifier that was not there. -/
theorem newRows_delete (documentId : PyStr) {rows : List Row} (hrows : t.NewRows rows) :
    (t.delete documentId).NewRows rows := by
  refine ⟨hrows.nodup, fun row hrow hid => hrows.new row hrow ?_⟩
  exact (List.filter_sublist.map _).mem hid

theorem count_delete (t : ChunkTable) (documentId : PyStr) :
    (t.delete documentId).count documentId = 0 := by
  rw [ChunkTable.count, ChunkTable.delete, List.countP_eq_zero]
  intro row hrow
  simpa using (List.mem_filter.mp hrow).2

/-- `reingest` deletes the document first and then calls `ingest`: these are two transactions. -/
theorem reingest_eq (loader : DocumentLoader) (lim : Json.Limits) (content documentId : PyStr)
    (call : IngestCall) :
    loader.reingest lim content documentId call =
      Coro.await (RagOp.deleteDocument documentId) (Coro.onOk fun _ : Unit =>
        loader.ingest lim content documentId call) :=
  Coro.perform_bind _ _

/-- Without failures, a `reingest` deletes the document, counts `0` chunks and goes on as an
`ingest` of an absent one. -/
theorem run_reingest (loader : DocumentLoader) (lim : Json.Limits) (content documentId : PyStr)
    (call : IngestCall) (embed : List PyStr → List Embedding) (t : ChunkTable) :
    let ingestNew := loader.ingestNew lim content documentId call
    (loader.reingest lim content documentId call).run (ragHandler embed) t =
        ingestNew.run (ragHandler embed) (t.delete documentId) ∧
      (loader.reingest lim content documentId call).awaited (ragHandler embed) t =
        ingestNew.awaited (ragHandler embed) (t.delete documentId) + 2 := by
  rw [reingest_eq, ingest_eq]
  simp [ragHandler, count_delete]

/-! ## Attempts -/

variable (loader lim content documentId)

/-- One call of `reingest` on the table `t`: its outcome and the table it leaves. The failures of
the attempt begin with that of the deletion. -/
def reattempt (t : ChunkTable) (a : IngestAttempt) : Except PyExc ℕ × ChunkTable :=
  let r := (loader.reingest lim content documentId a.toIngestCall).run (ragHandler a.embed).faulty
    (t, a.faults)
  (r.1, r.2.1)

/-- If the call raises, the rows of the document are what they were. -/
def KeepsOld (t : ChunkTable) (a : IngestAttempt) : Prop :=
  (loader.reattempt lim content documentId t a).1.isOk = false →
    (loader.reattempt lim content documentId t a).2.rowsOf documentId = t.rowsOf documentId

/-- The deletion fails without having had its effect. -/
def DeletionRefused (a : IngestAttempt) : Prop := ∃ e, a.faults.head? = some (some (.before e))

/-- The content is not blank, its rows can be made, and none of the operations fails: the deletion,
the count, the embedder and one `INSERT` for each chunk. -/
def Completes (a : IngestAttempt) : Prop :=
  loader.Ingestible lim content documentId a.toIngestCall a.embed ∧
    ∀ f ∈ a.faults.take ((loader.expected content documentId).length + 3), f = none

variable {loader lim content documentId} {a : IngestAttempt}

/-- No part of the pipeline catches an exception. -/
theorem uncaught_insertRows (rows : List Row) : (PgVectorRetriever.insertRows rows).Uncaught := by
  induction rows with
  | nil => trivial
  | cons row rows ih =>
    rw [PgVectorRetriever.insertRows_cons]
    exact ⟨fun e => rfl, fun _ => ih⟩

/-- Neither `ingest` nor `reingest` catches an exception of what it awaits. -/
theorem uncaught_ingestNew : (loader.ingestNew lim content documentId call).Uncaught := by
  by_cases hblank : content.strip = []
  · obtain ⟨e, hraise⟩ := loader.ingestNew_of_blank lim documentId hblank call
    rw [hraise]
    trivial
  rw [loader.ingestNew_eq lim documentId hblank]
  refine ⟨fun e => rfl, fun embeddings => ?_⟩
  have hchunks := loader.chunksFor_chunksOf documentId hblank call
  rw [Coro.onOk_ok]
  by_cases hstorable : loader.Storable lim documentId content call embeddings
  · rw [storeNew_eq loader lim hchunks hstorable]
    exact Coro.Uncaught.bind (uncaught_insertRows _) fun _ => trivial
  · obtain ⟨e, hraise⟩ := storeNew_of_not_storable loader lim hchunks hstorable
    rw [hraise]
    trivial

theorem uncaught_reingest : (loader.reingest lim content documentId call).Uncaught := by
  rw [reingest_eq, ingest_eq]
  refine ⟨fun e => rfl, fun _ => ⟨fun e => rfl, fun existing => ?_⟩⟩
  show Coro.Uncaught (if existing > 0 then _ else _)
  split
  · trivial
  · exact uncaught_ingestNew

/-- The insertions of a call carry the identifiers it draws. -/
def InsertsDrawn (call : IngestCall) : RagOp → Prop
  | .insert row => ∃ k, call.uuid4 k = row.id
  | _ => True

/-- The rows that are inserted carry identifiers that the call draws, for each of the loops and
calls that lead to the insertion. -/
theorem awaits_insertRows {rows : List Row} (hrows : ∀ row ∈ rows, ∃ k, call.uuid4 k = row.id) :
    (PgVectorRetriever.insertRows rows).Awaits (InsertsDrawn call) := by
  induction rows with
  | nil => trivial
  | cons row rows ih =>
    rw [List.forall_mem_cons] at hrows
    rw [PgVectorRetriever.insertRows_cons]
    refine ⟨hrows.1, fun r => ?_⟩
    cases r with
    | ok _ => exact ih hrows.2
    | error e => trivial

theorem awaits_ingestNew :
    (loader.ingestNew lim content documentId call).Awaits (InsertsDrawn call) := by
  by_cases hblank : content.strip = []
  · obtain ⟨e, hraise⟩ := loader.ingestNew_of_blank lim documentId hblank call
    rw [hraise]
    trivial
  rw [loader.ingestNew_eq lim documentId hblank]
  refine ⟨trivial, fun r => ?_⟩
  have hchunks := loader.chunksFor_chunksOf documentId hblank call
  rcases r with e | embeddings
  · trivial
  rw [Coro.onOk_ok]
  by_cases hstorable : loader.Storable lim documentId content call embeddings
  · have hids := (rowsFor_rowsFor loader lim hchunks hstorable).ids
    rw [storeNew_eq loader lim hchunks hstorable]
    refine Coro.Awaits.bind (awaits_insertRows fun row hrow => ?_) fun _ => trivial
    have hid : row.id ∈ List.map Row.id _ := List.mem_map_of_mem hrow
    rw [hids, List.mem_map] at hid
    obtain ⟨k, -, hk⟩ := hid
    exact ⟨k, hk⟩
  · obtain ⟨e, hraise⟩ := storeNew_of_not_storable loader lim hchunks hstorable
    rw [hraise]
    trivial

theorem awaits_ingest : (loader.ingest lim content documentId call).Awaits (InsertsDrawn call) := by
  rw [ingest_eq]
  refine ⟨trivial, fun r => ?_⟩
  rcases r with e | existing
  · trivial
  · show Coro.Awaits _ (if existing > 0 then _ else _)
    split
    · trivial
    · exact awaits_ingestNew

/-- The rows of the document carry identifiers that the call draws. -/
def RowsDrawn (documentId : PyStr) (call : IngestCall) (t : ChunkTable) : Prop :=
  ∀ row ∈ t.rowsOf documentId, ∃ k, call.uuid4 k = row.id

/-- An operation that `InsertsDrawn` leaves no other identifier in the rows of the document. -/
theorem rowsDrawn_step {embed : List PyStr → List Embedding} {op : RagOp} {t : ChunkTable}
    (hop : InsertsDrawn call op) (ht : RowsDrawn documentId call t) :
    RowsDrawn documentId call (ragHandler embed op t).2 := by
  cases op with
  | countByDocument d => exact ht
  | embed texts => exact ht
  | insert new =>
    intro row hrow
    obtain ⟨hrow, hdoc⟩ := List.mem_filter.mp hrow
    rcases ChunkTable.mem_rows_insert hrow with hold | rfl
    · exact ht row (List.mem_filter.mpr ⟨hold, hdoc⟩)
    · exact hop
  | deleteDocument d =>
    intro row hrow
    obtain ⟨hrow, hdoc⟩ := List.mem_filter.mp hrow
    exact ht row (List.mem_filter.mpr ⟨(List.mem_filter.mp hrow).1, hdoc⟩)

/-- A call of `reingest` returns exactly if it `Completes`: its rows can be made, and none of its
operations fails. -/
theorem reattempt_isOk_iff (hfresh : Fresh t a) :
    (loader.reattempt lim content documentId t a).1.isOk = true ↔
      loader.Completes lim content documentId a := by
  obtain ⟨hrun, hawaited⟩ := run_reingest loader lim content documentId a.toIngestCall a.embed t
  rw [reattempt, uncaught_reingest.isOk_run_faulty_iff, hrun, hawaited]
  by_cases hnew : loader.Ingestible lim content documentId a.toIngestCall a.embed
  · have hrows := hnew.rowsFor.newRows loader hfresh.1 hfresh.2
    obtain ⟨hok, hcount⟩ :=
      run_ingestNew_of_ingestible hnew (newRows_delete documentId hrows)
    rw [hok, hcount]
    exact ⟨fun h => ⟨hnew, h.2⟩, fun h => ⟨rfl, h.2⟩⟩
  · rw [run_ingestNew_of_not_ingestible hnew]
    exact iff_of_false (fun h => Bool.false_ne_true h.1) fun h => hnew h.1

/-- Unless its deletion was refused, every row of the document after a call is one that the call has
inserted, with an identifier that it has drawn. -/
theorem drawn_of_mem_rowsOf (hnot : ¬DeletionRefused a) :
    ∀ row ∈ (loader.reattempt lim content documentId t a).2.rowsOf documentId,
      ∃ k, a.uuid4 k = row.id := by
  have hdelete : RowsDrawn documentId a.toIngestCall (t.delete documentId) := by
    intro row hrow
    have hcount := count_delete t documentId
    rw [ChunkTable.count_eq_length_rowsOf, List.length_eq_zero_iff] at hcount
    rw [hcount] at hrow
    exact absurd hrow List.not_mem_nil
  have hstep (op : RagOp) (t : ChunkTable) : InsertsDrawn a.toIngestCall op →
      RowsDrawn documentId a.toIngestCall t →
        RowsDrawn documentId a.toIngestCall (ragHandler a.embed op t).2 :=
    rowsDrawn_step
  -- what follows the deletion inserts rows with the identifiers of the call
  have hrest : (loader.ingest lim content documentId a.toIngestCall).Awaits
      (InsertsDrawn a.toIngestCall) := awaits_ingest
  rw [reattempt, reingest_eq, Coro.run_await]
  rcases a with ⟨call, embed, _ | ⟨_ | ⟨e⟩ | ⟨e⟩, faults⟩⟩
  · exact hrest.run_faulty _ hstep hdelete []
  · exact hrest.run_faulty _ hstep hdelete faults
  · exact absurd ⟨e, rfl⟩ hnot
  · exact hdelete

/-- A call of `reingest` that raises leaves the rows of a stored document as they were (`KeepsOld`),
exactly if it was the deletion that was refused (`DeletionRefused`), or the call `Completes`, and
does not raise at all. The deletion is a transaction of its own, so whatever fails after it has lost
the document. -/
theorem reingest_keeps_iff (hstored : 0 < t.count documentId) (hfresh : Fresh t a) :
    loader.KeepsOld lim content documentId t a ↔
      DeletionRefused a ∨ loader.Completes lim content documentId a := by
  constructor
  · intro hkeeps
    by_contra hnot
    obtain ⟨hnot, hincomplete⟩ := not_or.mp hnot
    have hraises : (loader.reattempt lim content documentId t a).1.isOk = false :=
      Bool.eq_false_iff.mpr fun hok => hincomplete ((reattempt_isOk_iff hfresh).mp hok)
    -- the first of the old rows would be one that the call has inserted
    rw [ChunkTable.count_eq_length_rowsOf] at hstored
    obtain ⟨row, hrow⟩ := List.exists_mem_of_length_pos hstored
    obtain ⟨k, hk⟩ := drawn_of_mem_rowsOf hnot row (by rw [hkeeps hraises]; exact hrow)
    refine hfresh.2 k ?_
    rw [hk]
    exact List.mem_map_of_mem (List.mem_filter.mp hrow).1
  · rintro (⟨e, hrefused⟩ | hcomplete) hraises
    · rw [reattempt, reingest_eq, Coro.run_await]
      obtain ⟨faults, hfaults⟩ := List.head?_eq_some_iff.mp hrefused
      rw [hfaults]
      rfl
    · rw [(reattempt_isOk_iff hfresh).mpr hcomplete] at hraises
      exact absurd hraises Bool.true_eq_false.mp

/-- A table with one chunk of one document. -/
def oneChunk : ChunkTable :=
  ChunkTable.empty.insert
    { id := "x".toList, documentId := "doc".toList, content := "old".toList, chunkIndex := 0,
      embedding := "[0.5]".toList, metadata := "\x7b\x7d".toList }

/-- The attempt draws identifiers that the table `oneChunk` does not have. -/
theorem attemptOf_fresh_oneChunk (faults : List (Option (Fault PyExc))) :
    Fresh oneChunk (attemptOf 'a' faults) := by
  refine ⟨fun m n h => by simpa [attemptOf] using congrArg List.length h, fun k hk => ?_⟩
  have hx : 'a' :: List.replicate k '0' = "x".toList := List.mem_singleton.mp hk
  exact absurd (List.cons.inj hx).1 (by decide)

/-- A call with a blank content raises a `ValueError`, after its deletion has been committed, and
the stored document is gone. -/
theorem blank_reingest_loses_document :
    0 < oneChunk.count "doc".toList ∧ Fresh oneChunk (attemptOf 'a' []) ∧
      ¬smallLoader.KeepsOld limits " ".toList "doc".toList oneChunk (attemptOf 'a' []) := by
  refine ⟨by decide, attemptOf_fresh_oneChunk [], fun hkeeps => ?_⟩
  exact absurd (hkeeps (by decide +kernel)) (by decide +kernel)

/-- `reingest_keeps_iff` where the connection is lost before the deletion: the call raises, and the
rows are what they were. -/
theorem reingest_keeps_iff_refused :
    0 < oneChunk.count "doc".toList ∧
      smallLoader.KeepsOld limits " ".toList "doc".toList oneChunk
        (attemptOf 'a' [some (.before (.of .RuntimeError "connection lost".toList))]) :=
  ⟨by decide, (reingest_keeps_iff (by decide) (attemptOf_fresh_oneChunk _)).mpr
    (Or.inl ⟨_, rfl⟩)⟩

end DocumentLoader
