import AthenaAI.Rag.DocumentStore
import AthenaAI.ToMathlib.Independence

/-!
# Concurrent work on different documents

Any number of callers of the document store, each of which works on a document of its own: it calls
`ingest`, `reingest` and `delete_document` for it, one call after another, while the others do the
same for theirs. A statement may fail, before it has had its effect or after it, and so may the
embedder. Its caller then makes its next call.

* `StoreOp` are the statements and the requests to the embedder, each with the embedder of its call,
  and `storeHandler` answers them. `Concerns` says which document an operation is about.
* `perform` is the coroutine of one call, `performAll` that of a caller. A call that has the table
  to itself runs as `DocumentLoader.call` says (`run_perform`).
* The documents are parts of the table that do not meet (`documentParts`), if the identifiers that
  are drawn for them differ (`OwnDocuments`).
* `interleaved_eq_serial`: whatever the order of the single statements, and whichever of them fail,
  all documents are stored, and all callers are answered, as if the callers had come one after
  another. Where none fails, this is one history of all the calls (`serial_coroutines`).
-/

/-- The call draws the identifier. -/
def DocumentCall.Draws (id : PyStr) : DocumentCall → Prop
  | ingest _ r => ∃ k, r.uuid4 k = id
  | reingest _ r => ∃ k, r.uuid4 k = id
  | deleteDocument _ => False

namespace ChunkTable

/-- The table of one document. -/
def restrict (t : ChunkTable) (documentId : PyStr) : ChunkTable where
  rows := t.rowsOf documentId
  id_nodup := t.id_nodup.sublist (List.filter_sublist.map _)

variable {t : ChunkTable} {documentId d : PyStr} {row : Row}

theorem rows_restrict (t : ChunkTable) (documentId : PyStr) :
    (t.restrict documentId).rows = t.rows.filter fun row => row.documentId = documentId := rfl

theorem rows_delete (t : ChunkTable) (documentId : PyStr) :
    (t.delete documentId).rows = t.rows.filter fun row => row.documentId ≠ documentId := rfl

/-- `ChunkTable.count` of a document is the same in `ChunkTable.restrict`, its own part of the
table, as in the whole table. -/
theorem count_restrict (t : ChunkTable) (documentId : PyStr) :
    (t.restrict documentId).count documentId = t.count documentId := by
  rw [count, count, rows_restrict, List.countP_filter]
  simp only [Bool.and_self]

/-- A row of the document is inserted into the table of the document, if no other document has its
identifier. -/
theorem restrict_insert_self (hrow : row.documentId = documentId)
    (hid : ∀ r ∈ t.rows, r.id = row.id → r.documentId = documentId) :
    (t.insert row).restrict documentId = (t.restrict documentId).insert row := by
  ext1
  by_cases htaken : row.id ∈ t.rows.map Row.id
  · obtain ⟨r, hr, hrid⟩ := List.mem_map.mp htaken
    have hmem : row.id ∈ (t.restrict documentId).rows.map Row.id := by
      rw [← hrid]
      exact List.mem_map_of_mem (List.mem_filter.mpr ⟨hr, decide_eq_true (hid r hr hrid)⟩)
    rw [insert, dif_pos htaken, insert, dif_pos hmem]
  · have hnot : row.id ∉ (t.restrict documentId).rows.map Row.id := fun hmem =>
      htaken (List.map_subset _ List.filter_sublist.subset hmem)
    rw [rows_insert_of_new hnot, rows_restrict, rows_insert_of_new htaken, List.filter_append,
      List.filter_singleton, rows_restrict, decide_eq_true hrow, cond_true]

/-- An insertion of a row of another document is not seen in `ChunkTable.restrict` of this one. -/
theorem restrict_insert_of_ne (hd : d ≠ row.documentId) :
    (t.insert row).restrict d = t.restrict d := by
  ext1
  by_cases htaken : row.id ∈ t.rows.map Row.id
  · rw [insert, dif_pos htaken]
  · rw [rows_restrict, rows_insert_of_new htaken, List.filter_append, List.filter_singleton,
      decide_eq_false hd.symm, cond_false, List.append_nil, rows_restrict]

/-- The deletion of a document, seen from that document, is the deletion on its part of the
table. -/
theorem restrict_delete_self (t : ChunkTable) (documentId : PyStr) :
    (t.delete documentId).restrict documentId = (t.restrict documentId).delete documentId := by
  ext1
  rw [rows_restrict, rows_delete, rows_delete, rows_restrict, List.filter_filter,
    List.filter_filter]
  exact List.filter_congr fun r _ => Bool.and_comm _ _

end ChunkTable

/-- An operation of the pipeline, with the embedder that answers it if it is a request for one. -/
abbrev StoreOp := RagOp × (List PyStr → List Embedding)

/-- What an operation answers. -/
abbrev StoreOp.Resp (op : StoreOp) : Type := op.1.Resp

/-- A call on the document store, or a part of one. -/
abbrev Storing : Type → Type := Coro StoreOp StoreOp.Resp PyExc

/-- The operations of all calls, on the table of chunks. -/
def storeHandler : Handler StoreOp StoreOp.Resp PyExc ChunkTable := fun op => ragHandler op.2 op.1

/-- The coroutine of a call whose embedder answers as `embed` says. -/
def Coro.storing {α : Type} (embed : List PyStr → List Embedding) (c : Rag α) : Storing α :=
  c.via (fun op => (op, embed)) fun _ => id

namespace DocumentLoader

/-! ## The parts of the table -/

/-- The operation concerns the document, and what it inserts has an identifier of the document. -/
def Concerns (ids : PyStr → PyStr → Prop) (documentId : PyStr) : RagOp → Prop
  | .countByDocument d => d = documentId
  | .insert row => row.documentId = documentId ∧ ids documentId row.id
  | .deleteDocument d => d = documentId
  | .embed _ => True

/-- The documents are parts of the table, if no two of them have an identifier in common. -/
def documentParts {ids : PyStr → PyStr → Prop}
    (hids : ∀ d d' id, ids d id → ids d' id → d = d') :
    Handler.Parts storeHandler storeHandler PyStr where
  part documentId t := t.restrict documentId
  concerns documentId op := Concerns ids documentId op.1
  Sound t := ∀ row ∈ t.rows, ∀ d, ids d row.id → row.documentId = d
  sound := by
    rintro documentId ⟨op, embed⟩ t hop ht
    cases op with
    | countByDocument d => exact ht
    | insert row =>
      intro r hr d hd
      rcases ChunkTable.mem_rows_insert hr with hr | rfl
      · exact ht r hr d hd
      · exact hop.1.trans (hids documentId d _ hop.2 hd)
    | deleteDocument d => exact fun r hr => ht r (List.mem_of_mem_filter hr)
    | embed texts => exact ht
  own := by
    rintro documentId ⟨op, embed⟩ t hop ht
    cases op with
    | countByDocument d =>
      obtain rfl := hop
      show (Except.ok ((t.restrict d).count d), t.restrict d) =
        (Except.ok (t.count d), t.restrict d)
      rw [ChunkTable.count_restrict]
    | insert row =>
      have hid : ∀ r ∈ t.rows, r.id = row.id → r.documentId = documentId := by
        intro r hr hid
        refine ht r hr documentId ?_
        rw [hid]
        exact hop.2
      exact congrArg (Prod.mk _) (ChunkTable.restrict_insert_self hop.1 hid).symm
    | deleteDocument d =>
      obtain rfl := hop
      exact congrArg (Prod.mk _) (ChunkTable.restrict_delete_self t d).symm
    | embed texts => rfl
  other := by
    rintro documentId d ⟨op, embed⟩ t hop ht hd
    cases op with
    | countByDocument d => rfl
    | insert row => exact ChunkTable.restrict_insert_of_ne (hop.1 ▸ hd)
    | deleteDocument d =>
      obtain rfl := hop
      exact ChunkTable.ext (rowsOf_delete_of_ne hd)
    | embed texts => rfl

/-! ## The calls -/

section Calls

variable {loader : DocumentLoader} {lim : Json.Limits} {ids : PyStr → PyStr → Prop}
  {documentId : PyStr}

/-- The insertions of a call `Concern` its document if the chunks are of that document and their
identifiers are among those drawn for it. -/
theorem concerns_storeNew {chunks : List Chunk}
    (hchunks : ∀ c ∈ chunks, c.documentId = documentId ∧ ids documentId c.chunkId)
    (embeddings : List Embedding) :
    (storeNew lim chunks embeddings).Awaits (Concerns ids documentId) := by
  refine Coro.Awaits.bind ?_ fun _ => trivial
  rw [PgVectorRetriever.storeChunks]
  split
  · exact trivial
  · refine Coro.Awaits.forM fun pair hpair => Coro.Awaits.bind (.ofExcept _) fun metadata => ?_
    exact .perform (hchunks pair.1 (List.of_mem_zip hpair).1)

/-- A call of `DocumentLoader.ingest` awaits only operations that `Concerns` allows for its own
document: those that name it, and insertions under the identifiers the call draws. -/
theorem concerns_ingest (content : PyStr) {call : IngestCall}
    (hcall : ∀ k, ids documentId (call.uuid4 k)) :
    (loader.ingest lim content documentId call).Awaits (Concerns ids documentId) := by
  refine Coro.Awaits.bind (.perform rfl) fun existing => ?_
  split
  · exact trivial
  · by_cases hblank : content.strip = []
    · obtain ⟨e, hraise⟩ := loader.ingestNew_of_blank lim documentId hblank call
      rw [hraise]
      exact trivial
    · have hchunks := loader.chunksFor_chunksOf documentId hblank call
      rw [loader.ingestNew_eq lim documentId hblank]
      refine ⟨trivial, fun outcome => ?_⟩
      cases outcome with
      | error e => exact trivial
      | ok embeddings =>
        refine concerns_storeNew (fun c hc => ⟨hchunks.documentId_eq c hc, ?_⟩) embeddings
        have hid : c.chunkId ∈ (loader.chunksOf content documentId call).map Chunk.chunkId :=
          List.mem_map_of_mem hc
        rw [hchunks.ids] at hid
        obtain ⟨k, -, hk⟩ := List.mem_map.mp hid
        exact hk ▸ hcall k

variable (loader lim)

/-- The coroutine of a call. -/
def perform : DocumentCall → Storing (Option ℕ)
  | .ingest documentId r => do
    let n ← (loader.ingest lim r.content documentId r.toIngestCall).storing r.embed
    return some n
  | .reingest documentId r => do
    let n ← (loader.reingest lim r.content documentId r.toIngestCall).storing r.embed
    return some n
  | .deleteDocument documentId => do
    (PgVectorRetriever.deleteDocument documentId).storing fun _ => []
    return none

/-- A caller that makes its calls one after another, also when one has failed. -/
def performAll : List DocumentCall → Storing (List (Except PyExc (Option ℕ)))
  | [] => return []
  | c :: cs => do
    let answer ← (loader.perform lim c).attempt
    let answers ← performAll cs
    return answer :: answers

variable {loader lim}

/-- What a computation awaits on the store is what it awaits, with the embedder it is called
with. -/
theorem concerns_storing {α : Type} {c : Rag α} (hc : c.Awaits (Concerns ids documentId))
    (embed : List PyStr → List Embedding) :
    (c.storing embed).Awaits fun op => Concerns ids documentId op.1 :=
  .via hc

/-- A call of a `DocumentCall` awaits only operations on the document that `DocumentCall.op` has for
its key, whichever of the three methods is called. -/
theorem concerns_perform {c : DocumentCall} (hkey : c.op.key = documentId)
    (hids : ∀ id, c.Draws id → ids documentId id) :
    (loader.perform lim c).Awaits fun op => Concerns ids documentId op.1 := by
  cases c with
  | ingest d r =>
    obtain rfl : d = documentId := hkey
    refine Coro.Awaits.bind (concerns_storing ?_ r.embed) fun _ => trivial
    exact concerns_ingest r.content fun k => hids _ ⟨k, rfl⟩
  | reingest d r =>
    obtain rfl : d = documentId := hkey
    refine Coro.Awaits.bind (concerns_storing ?_ r.embed) fun _ => trivial
    refine Coro.Awaits.bind (.perform rfl) fun _ => ?_
    exact concerns_ingest r.content fun k => hids _ ⟨k, rfl⟩
  | deleteDocument d =>
    obtain rfl : d = documentId := hkey
    refine Coro.Awaits.bind (concerns_storing ?_ _) fun _ => trivial
    apply Coro.Awaits.perform
    exact rfl

/-- A caller whose calls are all about `documentId` awaits only operations on it, in `performAll`,
whatever each of its calls ends in. -/
theorem concerns_performAll {cs : List DocumentCall}
    (hcs : ∀ c ∈ cs, c.op.key = documentId ∧ ∀ id, c.Draws id → ids documentId id) :
    (loader.performAll lim cs).Awaits fun op => Concerns ids documentId op.1 := by
  induction cs with
  | nil => exact trivial
  | cons c cs ih =>
    rw [List.forall_mem_cons] at hcs
    refine Coro.Awaits.bind (.attempt (concerns_perform hcs.1.1 hcs.1.2)) fun _ => ?_
    exact Coro.Awaits.bind (ih hcs.2) fun _ => trivial

/-- `Coro.storing` puts the answers of a fixed embedder in place of its calls: run by `storeHandler`
it does what `ragHandler` does with that embedder. -/
theorem run_storing {α : Type} (embed : List PyStr → List Embedding) (c : Rag α) (t : ChunkTable) :
    (c.storing embed).run storeHandler t = c.run (ragHandler embed) t := by
  apply Coro.run_via
  intro op t
  show ((ragHandler embed op t).1.map id, (ragHandler embed op t).2) = ragHandler embed op t
  cases ragHandler embed op t with
  | mk answer t' => cases answer <;> rfl

/-- A call that has the table to itself ends in the result and the table that `DocumentLoader.call`
states, so the results about histories of whole calls apply to it. -/
theorem run_perform (c : DocumentCall) (t : ChunkTable) :
    (loader.perform lim c).run storeHandler t = loader.call lim t c := by
  cases c with
  | ingest d r =>
    rw [perform, call, Coro.run_bind, Coro.run_bind, run_storing]
    rfl
  | reingest d r =>
    rw [perform, call, Coro.run_bind, Coro.run_bind, run_storing]
    rfl
  | deleteDocument d =>
    rw [perform, call, Coro.run_bind, Coro.run_bind, run_storing]
    rfl

/-- A caller that has the table to itself, and none of whose statements fails, leaves what its calls
leave one after another. -/
theorem run_performAll (cs : List DocumentCall) (t : ChunkTable) :
    ((loader.performAll lim cs).run storeHandler t).2 =
      Run.after (loader.callStep lim) t cs := by
  induction cs generalizing t with
  | nil => rfl
  | cons c cs ih =>
    rw [performAll, Coro.run_attempt_bind, run_perform, Run.after_cons, ← callStep, ← ih,
      Coro.run_bind]
    rcases (loader.performAll lim cs).run storeHandler _ with ⟨_ | _, t'⟩ <;> rfl

end Calls

/-! ## Callers -/

/-- A caller: its document, the calls that it makes for it, and which of the operations of these
calls fail. -/
structure Caller where
  /-- The document. -/
  documentId : PyStr
  /-- The calls, one after another. -/
  calls : List DocumentCall
  /-- How the operations fail, one entry an operation. -/
  faults : List (Option (Fault PyExc)) := []

/-- Callers with documents of their own. The identifiers that they draw differ from one another's,
and no other document of the table has one. -/
structure OwnDocuments (callers : List Caller) (t : ChunkTable) : Prop where
  documents : (callers.map Caller.documentId).Nodup
  key_eq : ∀ caller ∈ callers, ∀ c ∈ caller.calls, c.op.key = caller.documentId
  ids : ∀ caller ∈ callers, ∀ c ∈ caller.calls, ∀ caller' ∈ callers, ∀ c' ∈ caller'.calls, ∀ id,
    c.Draws id → c'.Draws id → caller.documentId = caller'.documentId
  unused : ∀ caller ∈ callers, ∀ c ∈ caller.calls, ∀ row ∈ t.rows, c.Draws row.id →
    row.documentId = caller.documentId

/-- The identifiers that are drawn for the document. -/
def DrawnFor (callers : List Caller) (documentId id : PyStr) : Prop :=
  ∃ caller ∈ callers, caller.documentId = documentId ∧ ∃ c ∈ caller.calls, c.Draws id

/-- Under `OwnDocuments` an identifier is drawn for one document at most, so the parts of the table
that two callers write to have no row in common. -/
theorem OwnDocuments.disjoint {callers : List Caller} {t : ChunkTable}
    (hown : OwnDocuments callers t) (d d' id : PyStr) :
    DrawnFor callers d id → DrawnFor callers d' id → d = d' := by
  rintro ⟨caller, hcaller, rfl, c, hc, hid⟩ ⟨caller', hcaller', rfl, c', hc', hid'⟩
  exact hown.ids caller hcaller c hc caller' hcaller' c' hc' id hid hid'

/-- The coroutine of a caller, whose operations bring their faults along. -/
abbrev Calling : Type :=
  Coro (StoreOp × Option (Fault PyExc)) (fun op => op.1.Resp) PyExc
    (List (Except PyExc (Option ℕ)))

/-- The callers as coroutines. -/
def coroutines (loader : DocumentLoader) (lim : Json.Limits) (callers : List Caller) :
    List Calling :=
  callers.map fun caller => (loader.performAll lim caller.calls).failing caller.faults

/-- Callers without faults that come one after another leave what all their calls leave as one
history (`callStep`). -/
theorem serial_coroutines (loader : DocumentLoader) (lim : Json.Limits) {callers : List Caller}
    (hfaults : ∀ caller ∈ callers, caller.faults = []) (t : ChunkTable) :
    Coro.serial storeHandler.failing (loader.coroutines lim callers) t =
      Run.after (loader.callStep lim) t (callers.flatMap Caller.calls) := by
  induction callers generalizing t with
  | nil => rfl
  | cons caller callers ih =>
    rw [List.forall_mem_cons] at hfaults
    have hcaller : (((loader.performAll lim caller.calls).failing caller.faults).run
        storeHandler.failing t).2 = Run.after (loader.callStep lim) t caller.calls := by
      have hnone := Coro.run_faulty_of_none storeHandler (loader.performAll lim caller.calls) t []
        fun f hf => by simp at hf
      rw [hfaults.1, Coro.run_failing, hnone, run_performAll]
    rw [List.flatMap_cons, Run.after_append, ← hcaller, ← ih hfaults.2]
    rfl

/-- The callers as coroutines, with their documents. -/
def clients (loader : DocumentLoader) (lim : Json.Limits) (callers : List Caller) :
    List (PyStr × Calling) :=
  callers.map fun caller =>
    (caller.documentId, (loader.performAll lim caller.calls).failing caller.faults)

/-- The calls of callers with documents of their own (`OwnDocuments`), interleaved in any order,
with failures of the database and of the embedder at any operation, before or after its effect:
they leave of every document the rows, and give every caller the answers and exceptions, that
they would if the callers had come one after another. A caller whose call has failed goes on with
its next one. Where no operation fails, the rows are those that all the calls leave as one history
(`callStep`). -/
theorem interleaved_eq_serial (loader : DocumentLoader) (lim : Json.Limits)
    {callers : List Caller} {t : ChunkTable} (hown : OwnDocuments callers t) {schedule : List ℕ}
    {p : Pool Calling ChunkTable}
    (hrun : (Pool.mk (loader.coroutines lim callers) t).run (Coro.resume storeHandler.failing)
      schedule = some p)
    (hended : ∀ c ∈ p.clients, c.outcome?.isSome) :
    (∀ documentId, p.shared.rowsOf documentId =
      (Coro.serial storeHandler.failing (loader.coroutines lim callers) t).rowsOf documentId) ∧
      p.clients.map Coro.outcome? =
        (Coro.outcomes storeHandler.failing (loader.coroutines lim callers) t).map some ∧
      ((∀ caller ∈ callers, caller.faults = []) → ∀ documentId, p.shared.rowsOf documentId =
        (Run.after (loader.callStep lim) t (callers.flatMap Caller.calls)).rowsOf documentId) := by
  have hsound : (documentParts hown.disjoint).failing.Sound t := by
    rintro row hrow _ ⟨caller, hcaller, rfl, c, hc, hid⟩
    exact hown.unused caller hcaller c hc row hrow hid
  have hclients : (documentParts hown.disjoint).failing.Own (clients loader lim callers) := by
    refine ⟨?_, List.forall_mem_map.mpr fun caller hcaller => ?_⟩
    · rw [clients, List.map_map]
      exact hown.documents
    · refine Coro.Awaits.failing (concerns_performAll fun c hc => ?_) caller.faults
      refine ⟨hown.key_eq caller hcaller c hc, fun id hid => ?_⟩
      exact ⟨caller, hcaller, rfl, c, hc, hid⟩
  have hcoroutines : (clients loader lim callers).map Prod.snd = loader.coroutines lim callers :=
    List.map_map
  obtain ⟨hparts, houtcomes⟩ :=
    Handler.Parts.pool_eq_serial hclients hsound (hcoroutines.symm ▸ hrun) hended
  rw [hcoroutines] at hparts houtcomes
  have hrows : ∀ documentId, p.shared.rowsOf documentId =
      (Coro.serial storeHandler.failing (loader.coroutines lim callers) t).rowsOf documentId :=
    fun documentId => congrArg ChunkTable.rows (hparts documentId)
  refine ⟨hrows, houtcomes, fun hfaults documentId => ?_⟩
  rw [hrows, serial_coroutines loader lim hfaults]

/-! ### Two callers -/

/-- What a lost connection raises. -/
def connectionLost : PyExc := .of .RuntimeError "connection lost".toList

/-- A caller that stores a document, and one that stores another and deletes it. The second one's
first `INSERT` reports an error after it has been committed. -/
def twoCallers : List Caller :=
  [⟨"doc".toList, [.ingest "doc".toList (requestOf 'a' "text".toList)], []⟩,
    ⟨"note".toList, [.ingest "note".toList (requestOf 'b' "text".toList),
      .deleteDocument "note".toList], [none, none, some (.after connectionLost)]⟩]

/-- In `twoCallers` the first character of an identifier tells which caller has drawn it: this is
how the example meets the hypothesis on fresh identifiers. -/
theorem head?_of_draws {caller : Caller} (hcaller : caller ∈ twoCallers) {c : DocumentCall}
    (hc : c ∈ caller.calls) {id : PyStr} (hid : c.Draws id) :
    id.head? = some (if caller.documentId = "doc".toList then 'a' else 'b') ∧
      (caller.documentId = "doc".toList ∨ caller.documentId = "note".toList) := by
  rcases List.mem_pair.mp hcaller with rfl | rfl
  · obtain rfl := List.mem_singleton.mp hc
    obtain ⟨k, rfl⟩ := hid
    exact ⟨rfl, .inl rfl⟩
  · rcases List.mem_pair.mp hc with rfl | rfl
    · obtain ⟨k, rfl⟩ := hid
      exact ⟨rfl, .inr rfl⟩
    · exact hid.elim

/-- The two callers draw different identifiers for different documents, and the empty table has none
of them. -/
theorem ownDocuments_twoCallers : OwnDocuments twoCallers .empty := by
  refine ⟨by decide, ?_, ?_, fun _ _ _ _ row hrow => absurd hrow List.not_mem_nil⟩
  · simp [twoCallers, DocumentCall.op, KeyedStore.Op.key]
  · intro caller hcaller c hc caller' hcaller' c' hc' id hid hid'
    obtain ⟨hhead, hdoc⟩ := head?_of_draws hcaller hc hid
    obtain ⟨hhead', hdoc'⟩ := head?_of_draws hcaller' hc' hid'
    rw [hhead] at hhead'
    rcases hdoc with hdoc | hdoc
    · rcases hdoc' with hdoc' | hdoc'
      · exact hdoc.trans hdoc'.symm
      · rw [hdoc, hdoc'] at hhead'
        exact absurd hhead' (by decide)
    · rcases hdoc' with hdoc' | hdoc'
      · rw [hdoc, hdoc'] at hhead'
        exact absurd hhead' (by decide)
      · exact hdoc.trans hdoc'.symm

/-- Both callers have ended at the end of the schedule. -/
def twoCallersEnd (schedule : List ℕ) : Option Bool :=
  ((Pool.mk (smallLoader.coroutines limits twoCallers) .empty).run
    (Coro.resume storeHandler.failing) schedule).map fun p =>
      p.clients.all fun c => c.outcome?.isSome

/-- `interleaved_eq_serial` for callers that take turns: the second one is told of an error by an
`INSERT` that has taken effect, and goes on with the deletion of its document. -/
theorem interleaved_eq_serial_twoCallers :
    ∃ p, (Pool.mk (smallLoader.coroutines limits twoCallers) .empty).run
        (Coro.resume storeHandler.failing) [0, 1, 0, 1, 1, 0, 1] = some p ∧
      (p.shared.rowsOf "doc".toList).length = 1 ∧ p.shared.rowsOf "note".toList = [] ∧
      p.clients.map Coro.outcome? = (Coro.outcomes storeHandler.failing
        (smallLoader.coroutines limits twoCallers) .empty).map some := by
  have hend : twoCallersEnd [0, 1, 0, 1, 1, 0, 1] = some true := by decide +kernel
  obtain ⟨p, hrun, hended⟩ := Option.map_eq_some_iff.mp hend
  obtain ⟨hrows, houtcomes, -⟩ := interleaved_eq_serial smallLoader limits
    ownDocuments_twoCallers hrun (List.all_eq_true.mp hended)
  refine ⟨p, hrun, ?_, ?_, houtcomes⟩
  · rw [hrows]
    decide +kernel
  · rw [hrows]
    decide +kernel

end DocumentLoader
