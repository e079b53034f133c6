import AthenaAI.Rag.Reingest
import AthenaAI.ToMathlib.KeyedStore

/-!
# The document store

Calls of `ingest`, `reingest` and `delete_document` for any documents, one at a time. Where nothing
fails, the table of chunks behaves as a keyed store that holds one request a document: `ingest`
creates, `reingest` replaces and `delete_document` removes.

* `Represents` relates the table to a keyed store; `represents_step` is the simulation of one call.
* `store_refines`: after a history of calls the chunks of each document are those of the request
  that `KeyedStore.current` reads from the history. Each call returns the number of chunks it leaves
  and changes no other document.
-/

/-- What the caller of `ingest` or `reingest` passes, and the answers of the embedder. -/
structure IngestRequest extends IngestCall where
  /-- The text of the document. -/
  content : PyStr
  /-- What the embedder answers. -/
  embed : List PyStr → List Embedding

/-- A call on the document store. -/
inductive DocumentCall where
  | ingest (documentId : PyStr) (r : IngestRequest)
  | reingest (documentId : PyStr) (r : IngestRequest)
  | deleteDocument (documentId : PyStr)

/-- What the call means for a store of requests. -/
def DocumentCall.op : DocumentCall → KeyedStore.Op PyStr IngestRequest
  | ingest documentId r => .create documentId r
  | reingest documentId r => .replace documentId r
  | deleteDocument documentId => .remove documentId

/-- The row holds the chunk. -/
structure Row.Holds (lim : Json.Limits) (row : Row) (chunk : Chunk) : Prop where
  /-- The identifier. -/
  id_eq : row.id = chunk.chunkId
  /-- The document. -/
  documentId_eq : row.documentId = chunk.documentId
  /-- The text. -/
  content_eq : row.content = chunk.content
  /-- The place in the document. -/
  chunkIndex_eq : row.chunkIndex = chunk.chunkIndex
  /-- The metadata, as JSON text. -/
  metadata_eq : Json.dumps lim (.dict chunk.metadata) = .ok row.metadata

namespace DocumentLoader

variable (loader : DocumentLoader) (lim : Json.Limits)

/-- One call on the table `t`: what it returns and the table it leaves. -/
def call (t : ChunkTable) : DocumentCall → Except PyExc (Option ℕ) × ChunkTable
  | .ingest documentId r =>
    (loader.ingest lim r.content documentId r.toIngestCall >>= fun n => Coro.ret (some n)).run
      (ragHandler r.embed) t
  | .reingest documentId r =>
    (loader.reingest lim r.content documentId r.toIngestCall >>= fun n => Coro.ret (some n)).run
      (ragHandler r.embed) t
  | .deleteDocument documentId =>
    (PgVectorRetriever.deleteDocument documentId >>= fun _ => Coro.ret none).run
      (ragHandler fun _ => []) t

/-- The table after one call. -/
def callStep (t : ChunkTable) (c : DocumentCall) : ChunkTable := (loader.call lim t c).2

/-- The chunks that a request makes of its document. -/
def requested (documentId : PyStr) (r : IngestRequest) : List Chunk :=
  loader.chunksOf r.content documentId r.toIngestCall

/-- The rows that a request adds. -/
def requestedRows (documentId : PyStr) (r : IngestRequest) : List Row :=
  loader.newRows lim r.content documentId r.toIngestCall r.embed

/-- Nothing makes the request fail: its content is not blank, the embedder answers with one vector a
text, and the metadata can be dumped. The identifiers it draws are new to the table. -/
def Accepts (t : ChunkTable) (documentId : PyStr) (r : IngestRequest) : Prop :=
  loader.Ingestible lim r.content documentId r.toIngestCall r.embed ∧
    Function.Injective r.uuid4 ∧ ∀ k, r.uuid4 k ∉ t.rows.map Row.id

/-- The call meets no failure. An `ingest` of a stored document embeds and stores nothing. -/
def Unfailing (t : ChunkTable) : DocumentCall → Prop
  | .ingest documentId r =>
    r.content.strip ≠ [] ∧ (t.count documentId = 0 → loader.Accepts lim t documentId r)
  | .reingest documentId r => loader.Accepts lim t documentId r
  | .deleteDocument _ => True

/-- What a call returns where it leaves `t`. -/
def answer (t : ChunkTable) : DocumentCall → Option ℕ
  | .ingest documentId _ => some (t.count documentId)
  | .reingest documentId _ => some (t.count documentId)
  | .deleteDocument _ => none

/-- The table holds, of the document, the rows of the request, or nothing if there is none. -/
def RepresentsAt (t : ChunkTable) (documentId : PyStr) : Option IngestRequest → Prop
  | some r => t.rowsOf documentId = loader.requestedRows lim documentId r ∧
      loader.Ingestible lim r.content documentId r.toIngestCall r.embed
  | none => t.rowsOf documentId = []

/-- The table holds, of each document, the rows of the request that `m` has for it. -/
def Represents (m : PyStr → Option IngestRequest) (t : ChunkTable) : Prop :=
  ∀ documentId, loader.RepresentsAt lim t documentId (m documentId)

variable {loader lim} {t : ChunkTable} {documentId : PyStr} {r : IngestRequest}

theorem Accepts.newRows (h : loader.Accepts lim t documentId r) :
    t.NewRows (loader.requestedRows lim documentId r) :=
  h.1.rowsFor.newRows loader h.2.1 h.2.2

/-- The rows that `requestedRows` lists for a request hold the chunks that `requested` expects of
it, one by one in `Row.Holds`. -/
theorem forall₂_holds (h : loader.Ingestible lim r.content documentId r.toIngestCall r.embed) :
    List.Forall₂ (Row.Holds lim) (loader.requestedRows lim documentId r)
      (loader.requested documentId r) := by
  have hchunks := loader.chunksFor_chunksOf documentId h.1 r.toIngestCall
  obtain ⟨hlength, hok⟩ := h.2
  obtain ⟨text, hdumps⟩ := Except.isOk_eq_true_iff.mp hok
  have hmetadata := hchunks.metadata_eq
  have hlength : (r.embed (loader.texts documentId r.content)).length =
      (loader.requested documentId r).length := by
    rw [hlength, texts, ← hchunks.items, List.length_map, List.length_map]
    rfl
  show List.Forall₂ _ (rowsFor lim r.toIngestCall (loader.requested documentId r) _) _
  change ∀ c ∈ loader.requested documentId r, _ at hmetadata
  rw [rowsFor, hdumps]
  revert hlength hmetadata
  generalize loader.requested documentId r = chunks
  generalize r.embed _ = embeddings
  intro hlength hmetadata
  induction chunks generalizing embeddings with
  | nil => simp
  | cons c chunks ih =>
    obtain ⟨v, embeddings, rfl⟩ := List.exists_cons_of_length_eq_add_one hlength
    rw [List.forall_mem_cons] at hmetadata
    refine .cons ⟨rfl, rfl, rfl, rfl, ?_⟩ (ih embeddings (Nat.succ.inj hlength) hmetadata.2)
    rw [hmetadata.1, hdumps]
    rfl

/-! ## Rows of a document -/

/-- After `ChunkTable.delete` the table has no row of the document: `delete_document` starts from an
empty place. -/
theorem rowsOf_delete_self (t : ChunkTable) (documentId : PyStr) :
    (t.delete documentId).rowsOf documentId = [] := by
  rw [← List.length_eq_zero_iff, ← ChunkTable.count_eq_length_rowsOf, count_delete]

theorem rowsOf_delete_of_ne {d : PyStr} (hd : d ≠ documentId) :
    (t.delete documentId).rowsOf d = t.rowsOf d := by
  rw [ChunkTable.rowsOf, ChunkTable.delete, List.filter_filter]
  refine List.filter_congr fun row _ => ?_
  by_cases hrow : row.documentId = d
  · simp [hrow, hd]
  · simp [hrow]

/-- `ChunkTable.append` puts every row at its own document, behind the rows that `rowsOf` finds
there already. -/
theorem rowsOf_append {rows : List Row} (hrows : t.NewRows rows) (d : PyStr) :
    (t.append rows hrows).rowsOf d =
      t.rowsOf d ++ rows.filter fun row => row.documentId = d :=
  List.filter_append ..

/-- All rows of a request bear the document it was made for, so filtering by another document leaves
none of them. -/
theorem filter_requestedRows
    (h : loader.Ingestible lim r.content documentId r.toIngestCall r.embed) (d : PyStr) :
    ((loader.requestedRows lim documentId r).filter fun row => row.documentId = d) =
      if d = documentId then loader.requestedRows lim documentId r else [] := by
  have hdoc := h.rowsFor.documentId_eq
  split
  case isTrue hd =>
    refine List.filter_eq_self.mpr fun row hrow => ?_
    rw [hd, hdoc row hrow]
    exact decide_eq_true rfl
  case isFalse hd =>
    refine List.filter_eq_nil_iff.mpr fun row hrow => ?_
    rw [hdoc row hrow]
    exact fun heq => hd (of_decide_eq_true heq).symm

/-- A request that is `Ingestible` adds as many rows as `expected` has chunks: no chunk is lost
between the chunker, the embedder and the table. -/
theorem length_requestedRows
    (h : loader.Ingestible lim r.content documentId r.toIngestCall r.embed) :
    (loader.requestedRows lim documentId r).length =
      (loader.expected r.content documentId).length := h.length_newRows

/-! ## One call -/

/-- An `ingest` of a document that has rows returns their number and writes nothing (the idempotency
check of `ingest`). -/
theorem call_ingest_of_present (hpresent : 0 < t.count documentId) :
    loader.call lim t (.ingest documentId r) = (.ok (some (t.count documentId)), t) := by
  simp [call, ingest_eq, ragHandler, hpresent]

/-- An `ingest` of a document without rows adds the rows of the request and returns their number, if
the database `Accepts` them. -/
theorem call_ingest_of_absent (habsent : t.count documentId = 0)
    (h : loader.Accepts lim t documentId r) :
    loader.call lim t (.ingest documentId r) =
      (.ok (some (loader.requestedRows lim documentId r).length), t.append _ h.newRows) := by
  rw [call, Coro.run_bind_of_ok _ (run_ingest_of_absent habsent h.1 h.newRows)]
  rfl

/-- A `reingest` that the database `Accepts` replaces the rows of the document by those of the
request, whether there were any or not. -/
theorem call_reingest (h : loader.Accepts lim t documentId r) :
    loader.call lim t (.reingest documentId r) =
      (.ok (some (loader.requestedRows lim documentId r).length),
        (t.delete documentId).append _ (newRows_delete documentId h.newRows)) := by
  have hrun : (loader.reingest lim r.content documentId r.toIngestCall).run
      (ragHandler r.embed) t = (.ok (loader.expected r.content documentId).length,
        (t.delete documentId).append _ (newRows_delete documentId h.newRows)) := by
    rw [(run_reingest loader lim r.content documentId r.toIngestCall r.embed t).1]
    exact (run_ingestNew_of_ingestible h.1 (newRows_delete documentId h.newRows)).1
  rw [call, Coro.run_bind_of_ok _ hrun, length_requestedRows h.1]
  rfl

/-- Adding the rows of a request changes `rowsOf` at its own document alone: the frame part of
`ingest` and of `reingest`. -/
theorem rowsOf_append_requestedRows
    (h : loader.Ingestible lim r.content documentId r.toIngestCall r.embed)
    (hrows : t.NewRows (loader.requestedRows lim documentId r)) (d : PyStr) :
    (t.append _ hrows).rowsOf d =
      t.rowsOf d ++ if d = documentId then loader.requestedRows lim documentId r else [] := by
  rw [rowsOf_append, filter_requestedRows h]

variable {m : PyStr → Option IngestRequest} {t' : ChunkTable}

/-- If a table changes at one document alone, and there as `RepresentsAt` says, it represents the
store that is updated at this document. -/
theorem Represents.update (hm : loader.Represents lim m t) {o : Option IngestRequest}
    (hself : loader.RepresentsAt lim t' documentId o)
    (hother : ∀ d, d ≠ documentId → t'.rowsOf d = t.rowsOf d) :
    loader.Represents lim (Function.update m documentId o) t' := by
  intro d
  by_cases hd : d = documentId
  · rw [hd, Function.update_self]
    exact hself
  · have hat := hm d
    rw [Function.update_of_ne hd]
    cases hmd : m d with
    | none =>
      rw [hmd] at hat
      exact (hother d hd).trans hat
    | some r =>
      rw [hmd] at hat
      exact ⟨(hother d hd).trans hat.1, hat.2⟩

/-- In a represented store the count that `ingest` checks is zero exactly for the documents that the
store does not have. -/
theorem RepresentsAt.count_eq_zero_iff {o : Option IngestRequest}
    (h : loader.RepresentsAt lim t documentId o) : t.count documentId = 0 ↔ o = none := by
  rw [ChunkTable.count_eq_length_rowsOf, List.length_eq_zero_iff]
  cases o with
  | none => exact iff_of_true h rfl
  | some r =>
    obtain ⟨hrows, hnew⟩ := h
    refine iff_of_false (fun hnil => ?_) nofun
    rw [hrows, ← List.length_eq_zero_iff, length_requestedRows hnew,
      List.length_eq_zero_iff] at hnil
    exact loader.expected_ne_nil hnew.1 hnil

/-- Adding the rows of an `Ingestible` request where the document has none represents the store that
has the request there. -/
theorem represents_append (hm : loader.Represents lim m t) {u : ChunkTable}
    (h : loader.Ingestible lim r.content documentId r.toIngestCall r.embed)
    (hrows : u.NewRows (loader.requestedRows lim documentId r)) (hnil : u.rowsOf documentId = [])
    (hu : ∀ d, d ≠ documentId → u.rowsOf d = t.rowsOf d) :
    loader.Represents lim (Function.update m documentId (some r)) (u.append _ hrows) ∧
      (u.append _ hrows).count documentId = (loader.requestedRows lim documentId r).length ∧
      ∀ d, d ≠ documentId → (u.append _ hrows).rowsOf d = t.rowsOf d := by
  have happend := rowsOf_append_requestedRows h hrows
  have hself : (u.append _ hrows).rowsOf documentId = loader.requestedRows lim documentId r := by
    rw [happend, if_pos rfl, hnil, List.nil_append]
  have hother : ∀ d, d ≠ documentId → (u.append _ hrows).rowsOf d = t.rowsOf d := fun d hd => by
    rw [happend, if_neg hd, List.append_nil, hu d hd]
  refine ⟨hm.update ⟨hself, h⟩ hother, ?_, hother⟩
  rw [ChunkTable.count_eq_length_rowsOf, hself]

/-- One call that meets no failure: it does to the represented store what it means, it returns the
number of chunks it leaves, and it changes no other document. -/
theorem represents_step (hm : loader.Represents lim m t) {c : DocumentCall}
    (hc : loader.Unfailing lim t c) :
    loader.Represents lim (KeyedStore.apply m c.op) (loader.callStep lim t c) ∧
      (loader.call lim t c).1 = .ok (answer (loader.callStep lim t c) c) ∧
      ∀ d, d ≠ c.op.key → (loader.callStep lim t c).rowsOf d = t.rowsOf d := by
  rw [callStep]
  cases c with
  | ingest documentId r =>
    rcases (t.count documentId).eq_zero_or_pos with habsent | hpresent
    · have haccepts := hc.2 habsent
      have hnone : m documentId = none := (hm documentId).count_eq_zero_iff.mp habsent
      have hnil : t.rowsOf documentId = [] := by
        rw [← List.length_eq_zero_iff, ← ChunkTable.count_eq_length_rowsOf, habsent]
      obtain ⟨hrepresents, hcount, hother⟩ :=
        represents_append hm haccepts.1 haccepts.newRows hnil fun d _ => rfl
      rw [call_ingest_of_absent habsent haccepts]
      refine ⟨?_, by rw [answer, hcount], hother⟩
      rw [DocumentCall.op, KeyedStore.apply, hnone]
      exact hrepresents
    -- a stored document stays as it is
    · rw [call_ingest_of_present hpresent]
      refine ⟨hm.update ?_ fun d _ => rfl, rfl, fun d _ => rfl⟩
      cases hmd : m documentId with
      | none => exact absurd ((hm documentId).count_eq_zero_iff.mpr hmd) hpresent.ne'
      | some old =>
        have hat := hm documentId
        rw [hmd] at hat
        exact hat
  | reingest documentId r =>
    obtain ⟨hrepresents, hcount, hother⟩ :=
      represents_append hm hc.1 (newRows_delete documentId hc.newRows)
        (rowsOf_delete_self t documentId) fun d hd => rowsOf_delete_of_ne hd
    rw [call_reingest hc]
    exact ⟨hrepresents, by rw [answer, hcount], hother⟩
  | deleteDocument documentId =>
    have hother : ∀ d, d ≠ documentId → (t.delete documentId).rowsOf d = t.rowsOf d :=
      fun d hd => rowsOf_delete_of_ne hd
    exact ⟨hm.update (rowsOf_delete_self t documentId) hother, rfl, hother⟩

/-! ## Histories of calls -/

variable (loader lim)

/-- The chunks of the document are those of the request, in order, or there are none. -/
def HoldsRequest (t : ChunkTable) (documentId : PyStr) (o : Option IngestRequest) : Prop :=
  List.Forall₂ (Row.Holds lim) (t.rowsOf documentId)
    (o.elim [] fun r => loader.requested documentId r)

variable {loader lim}

theorem RepresentsAt.holdsRequest {o : Option IngestRequest}
    (h : loader.RepresentsAt lim t documentId o) : loader.HoldsRequest lim t documentId o := by
  cases o with
  | none =>
    rw [HoldsRequest, h]
    exact .nil
  | some r =>
    rw [HoldsRequest, h.1]
    exact forall₂_holds h.2

/-- If a table holds the chunks of a request, then the contents of its rows are those of the
chunks. -/
theorem HoldsRequest.map_content {o : Option IngestRequest}
    (h : loader.HoldsRequest lim t documentId o) :
    (t.rowsOf documentId).map Row.content =
      (o.elim [] fun r => loader.requested documentId r).map Chunk.content := by
  rw [← List.forall₂_eq_eq_eq, List.forall₂_map_left_iff, List.forall₂_map_right_iff]
  exact h.imp fun _ _ hrow => hrow.content_eq

/-- Over a history of `Unfailing` calls, the loader and the abstract `KeyedStore.apply` stay in
step: the table represents the store in the end and every call answers the number of its chunks. -/
theorem represents_run {cs : List DocumentCall} (hm : loader.Represents lim m t)
    (hcs : ∀ s ∈ Run.steps (loader.callStep lim) t cs, loader.Unfailing lim s.before s.event) :
    loader.Represents lim (Run.after KeyedStore.apply m (cs.map DocumentCall.op))
      (Run.after (loader.callStep lim) t cs) ∧
    ∀ s ∈ Run.steps (loader.callStep lim) t cs,
      (loader.call lim s.before s.event).1 = .ok (answer s.after s.event) ∧
        ∀ d, d ≠ s.event.op.key → s.after.rowsOf d = s.before.rowsOf d := by
  induction cs generalizing m t with
  | nil => exact ⟨hm, fun s hs => absurd hs List.not_mem_nil⟩
  | cons c cs ih =>
    rw [Run.steps_cons, List.forall_mem_cons] at hcs ⊢
    obtain ⟨hstep, houtcome⟩ := represents_step hm hcs.1
    obtain ⟨hafter, hsteps⟩ := ih hstep hcs.2
    exact ⟨hafter, houtcome, hsteps⟩

/-- After a history of calls that meet no failure (`Unfailing`), the chunks of each document are
those that the history says: `KeyedStore.current` of the operations that the calls stand for. Each
call has returned the number of chunks it left of its document (`answer`), and has changed no other
document. -/
theorem store_refines {cs : List DocumentCall}
    (hcs : ∀ s ∈ Run.steps (loader.callStep lim) .empty cs, loader.Unfailing lim s.before s.event) :
    (∀ documentId, loader.HoldsRequest lim (Run.after (loader.callStep lim) .empty cs) documentId
      (KeyedStore.current documentId (cs.map DocumentCall.op))) ∧
    ∀ s ∈ Run.steps (loader.callStep lim) .empty cs,
      (loader.call lim s.before s.event).1 = .ok (answer s.after s.event) ∧
        ∀ d, d ≠ s.event.op.key → s.after.rowsOf d = s.before.rowsOf d := by
  have hempty : loader.Represents lim (fun _ => none) .empty := fun _ => rfl
  obtain ⟨hafter, hsteps⟩ := represents_run hempty hcs
  refine ⟨fun documentId => ?_, hsteps⟩
  rw [← KeyedStore.after_eq_current]
  exact (hafter documentId).holdsRequest

/-! ### An `ingest` after a `reingest` -/

/-- A request with identifiers that start with `c`. -/
def requestOf (c : Char) (content : PyStr) : IngestRequest where
  toIngestCall := (attemptOf c []).toIngestCall
  content := content
  embed := (attemptOf c []).embed

/-- A `reingest` of a document and an `ingest` of it after that. -/
def reingestThenIngest : List DocumentCall :=
  [.reingest "doc".toList (requestOf 'a' "old".toList),
    .ingest "doc".toList (requestOf 'b' "new".toList)]

/-- No call of `reingestThenIngest` meets a failure: the contents are not blank, and each call draws
identifiers of its own. -/
theorem reingestThenIngest_unfailing :
    ∀ s ∈ Run.steps (smallLoader.callStep limits) .empty reingestThenIngest,
      smallLoader.Unfailing limits s.before s.event := by
  rw [reingestThenIngest, Run.steps_cons, Run.steps_cons, Run.steps_nil, List.forall_mem_cons,
    List.forall_mem_singleton]
  refine ⟨⟨⟨by decide, ?_⟩, (attemptOf_fresh 'a' []).1, fun k => List.not_mem_nil⟩, by decide, ?_⟩
  · show smallLoader.Storable limits _ _ _ _
    decide +kernel
  -- the document is stored by then
  · exact fun habsent => absurd habsent (by decide +kernel)

/-- The first `ingest` since the last deletion, of which there is none here, is not what is stored
if a `reingest` came before it: the content of the `reingest` stays. -/
theorem reingestThenIngest_not_first_ingest :
    let new := requestOf 'b' "new".toList
    (∀ s ∈ Run.steps (smallLoader.callStep limits) .empty reingestThenIngest,
      smallLoader.Unfailing limits s.before s.event) ∧
    (reingestThenIngest.map DocumentCall.op).findSome? (KeyedStore.Op.created? "doc".toList) =
      some new ∧
    ¬smallLoader.HoldsRequest limits
      (Run.after (smallLoader.callStep limits) .empty reingestThenIngest) "doc".toList
        (some new) := by
  refine ⟨reingestThenIngest_unfailing, rfl, fun hholds => ?_⟩
  exact absurd hholds.map_content (by decide +kernel)

/-- `store_refines` for a `reingest` and an `ingest` after it, which finds the document stored and
changes nothing. -/
theorem store_refines_reingestThenIngest :
    smallLoader.HoldsRequest limits
      (Run.after (smallLoader.callStep limits) .empty reingestThenIngest) "doc".toList
      (some (requestOf 'a' "old".toList)) :=
  (store_refines reingestThenIngest_unfailing).1 "doc".toList

end DocumentLoader
