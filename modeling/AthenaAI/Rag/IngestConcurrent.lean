import AthenaAI.Rag.Loader
import AthenaAI.ToMathlib.CheckThenAct

/-!
# Concurrent ingests

Any number of calls of `ingest` for one document run on one event loop and are interleaved where
they await the table or the embedder: `startIngests` is the pool of these calls, and a schedule says
whose operation takes effect next.

The pool refines the pool of `CheckThenAct`: the check is the count, the preparation is the
embedding, the writes are the `INSERT`s. `ingestSimulation` is that refinement. A call that raises
makes no further step and owes its chunks for good, so it never counts as done.

* `storedOnce_iff`: when all calls have returned, every chunk is stored exactly once if and only if
  it was so at the start, or nothing was stored at the start and the first three steps belong to one
  call, that is, if its first `INSERT` comes before any other count.
-/

namespace DocumentLoader

variable (loader : DocumentLoader) (lim : Json.Limits) (content documentId : PyStr)
  (embed : List PyStr → List Embedding)

/-- Calls of `ingest` for one document, none of which has begun, around the table `t`. -/
def startIngests (calls : List IngestCall) (t : ChunkTable) : Pool (Rag ℕ) ChunkTable :=
  ⟨calls.map (loader.ingest lim content documentId), t⟩

/-- The identifiers that the calls draw differ from one another, also across calls. -/
def DistinctIds (calls : List IngestCall) : Prop :=
  ∀ (i j k l : ℕ) (call call' : IngestCall), calls[i]? = some call → calls[j]? = some call' →
    call.uuid4 k = call'.uuid4 l → i = j ∧ k = l

/-- None of the identifiers that the call draws is in the table. -/
def UnusedIds (t : ChunkTable) (call : IngestCall) : Prop :=
  ∀ k, call.uuid4 k ∉ t.rows.map Row.id

/-- Each expected chunk of the document is stored once, and nothing else is. -/
def StoredOnce (t : ChunkTable) : Prop :=
  (t.itemsOf documentId).Perm (loader.expected content documentId) ∧
    t.count documentId = (loader.expected content documentId).length

/-! ## The phases of a call -/

/-- The call is at this point of its `ingest`. -/
def Follows (t : ChunkTable) (call : IngestCall) (c : Rag ℕ) :
    CheckThenAct.Client (ℕ × PyStr) → Prop
  | .checking => c = loader.ingest lim content documentId call ∧ UnusedIds t call
  | .preparing => c = loader.ingestNew lim content documentId call ∧ UnusedIds t call
  | .writing todo => ∃ rows n,
      -- what is left of the call are the insertions of its remaining rows
      c = (PgVectorRetriever.insertRows rows >>= fun _ => Coro.ret n) ∧
        (rows.map fun row => (row.chunkIndex, row.content)) = todo ∧ t.NewRows rows ∧
        ∀ row ∈ rows, row.documentId = documentId ∧ ∃ k, call.uuid4 k = row.id

variable {loader lim content documentId embed} {t t' : ChunkTable} {call : IngestCall}
  {c c' : Rag ℕ} {a : CheckThenAct.Client (ℕ × PyStr)} {row : Row}

/-- A call that has returned `Follows` only the last phase, the one with nothing left to write. -/
theorem Follows.eq_writing_nil {n : ℕ}
    (h : Follows loader lim content documentId t call (.ret n) a) : a = .writing [] := by
  -- a call in any other phase is awaiting something or has raised
  cases a with
  | checking =>
    rw [Follows, ingest_eq] at h
    exact absurd h.1 (by simp)
  | preparing =>
    by_cases hblank : content.strip = []
    · obtain ⟨e, hnew⟩ := loader.ingestNew_of_blank lim documentId hblank call
      rw [Follows, hnew] at h
      exact absurd h.1 (by simp)
    · obtain ⟨chunks, -, hnew⟩ := loader.ingestNew_of_not_blank lim documentId hblank call
      rw [Follows, hnew] at h
      exact absurd h.1 (by simp)
  | writing todo =>
    obtain ⟨rows, m, hc, rfl, -⟩ := h
    cases rows with
    | nil => rfl
    | cons row rows =>
      rw [PgVectorRetriever.insertRows_cons] at hc
      exact absurd hc (by simp)

/-! ## Interference -/

/-- Inserting a row under another identifier leaves `UnusedIds` of a call as it is: what a step of
one call owes to the others. -/
theorem UnusedIds.insert (h : UnusedIds t call) (hrow : ∀ k, call.uuid4 k ≠ row.id) :
    UnusedIds (t.insert row) call := by
  intro k hk
  rcases ChunkTable.mem_ids_insert hk with hk | hk
  · exact h k hk
  · exact hrow k hk

/-- Inserting a row under an identifier that the call does not draw leaves the phase that it
`Follows` as it is. -/
theorem Follows.insert (h : Follows loader lim content documentId t call c a)
    (hrow : ∀ k, call.uuid4 k ≠ row.id) :
    Follows loader lim content documentId (t.insert row) call c a := by
  cases a with
  | checking => exact ⟨h.1, h.2.insert hrow⟩
  | preparing => exact ⟨h.1, h.2.insert hrow⟩
  | writing todo =>
    obtain ⟨rows, n, hc, htodo, hnew, hrows⟩ := h
    refine ⟨rows, n, hc, htodo, ⟨hnew.nodup, fun r hr hid => ?_⟩, hrows⟩
    rcases ChunkTable.mem_ids_insert hid with hid | hid
    · exact hnew.new r hr hid
    · obtain ⟨k, hk⟩ := (hrows r hr).2
      exact hrow k (hk.trans hid)

/-! ## The steps of a call -/

/-- The call has raised, or it is at this point of its `ingest`. -/
def FollowsOrRaised (loader : DocumentLoader) (lim : Json.Limits) (content documentId : PyStr)
    (t : ChunkTable) (call : IngestCall) (c : Rag ℕ)
    (a : CheckThenAct.Client (ℕ × PyStr)) : Prop :=
  (∃ e, c = .raise e) ∨ Follows loader lim content documentId t call c a

/-- What the next operation of a call does: a step of the client, and to the table nothing, or the
insertion of a row with an identifier of the call. -/
def StepsAs (loader : DocumentLoader) (lim : Json.Limits) (content documentId : PyStr)
    (t t' : ChunkTable) (call : IngestCall) (c' : Rag ℕ)
    (a : CheckThenAct.Client (ℕ × PyStr)) : Prop :=
  (∃ a', a.step (loader.expected content documentId) (t.itemsOf documentId) =
      some (a', t'.itemsOf documentId) ∧
    FollowsOrRaised loader lim content documentId t' call c' a') ∧
  (t' = t ∨ ∃ row, t' = t.insert row ∧ ∃ k, call.uuid4 k = row.id)

/-- The count of an `ingest` that is checking is the check of the client of `CheckThenAct`: it
returns if there are rows and goes on to prepare if not. -/
theorem stepsAs_checking
    (h : Follows loader lim content documentId t call c .checking)
    (hnext : Coro.resume (ragHandler embed) c t = some (c', t')) :
    StepsAs loader lim content documentId t t' call c' .checking := by
  obtain ⟨rfl, hunused⟩ := h
  rw [ingest_eq] at hnext
  obtain ⟨rfl, rfl⟩ := Prod.mk.inj (Option.some.inj hnext)
  refine ⟨?_, Or.inl rfl⟩
  -- the count is `0` exactly if nothing is stored, which is what the client checks
  by_cases hempty : t.itemsOf documentId = []
  · have hcount : ¬t.count documentId > 0 := by
      rw [ChunkTable.count_eq_length, hempty]
      exact Nat.lt_irrefl 0
    have hstep : CheckThenAct.Client.checking.step (loader.expected content documentId)
        (t.itemsOf documentId) = some (.preparing, t.itemsOf documentId) := by
      rw [CheckThenAct.Client.step, hempty]
      rfl
    exact ⟨.preparing, hstep, Or.inr ⟨if_neg hcount, hunused⟩⟩
  · have hcount : t.count documentId > 0 := by
      rw [ChunkTable.count_eq_length]
      exact List.length_pos_of_ne_nil hempty
    refine ⟨.writing [], ?_, Or.inr ⟨[], t.count documentId, if_pos hcount, rfl, ?_, ?_⟩⟩
    · rw [CheckThenAct.Client.step, List.isEmpty_eq_false_iff.mpr hempty]
      rfl
    · exact ⟨List.nodup_nil, fun row hrow => absurd hrow List.not_mem_nil⟩
    · exact fun row hrow => absurd hrow List.not_mem_nil

/-- The embedding of an `ingest` is the preparation of the client: it leaves the table alone and
fixes the rows that are to be written. -/
theorem stepsAs_preparing (hinj : Function.Injective call.uuid4)
    (h : Follows loader lim content documentId t call c .preparing)
    (hnext : Coro.resume (ragHandler embed) c t = some (c', t')) :
    StepsAs loader lim content documentId t t' call c' .preparing := by
  obtain ⟨rfl, hunused⟩ := h
  by_cases hblank : content.strip = []
  · obtain ⟨e, hnew⟩ := loader.ingestNew_of_blank lim documentId hblank call
    rw [hnew] at hnext
    exact absurd hnext (by simp [Coro.resume])
  -- the embedder has answered: the rows are known, or the call raises
  · obtain ⟨chunks, hchunks, hnew⟩ := loader.ingestNew_of_not_blank lim documentId hblank call
    rw [hnew] at hnext
    obtain ⟨rfl, rfl⟩ := Prod.mk.inj (Option.some.inj hnext)
    refine ⟨⟨.writing (loader.expected content documentId), rfl, ?_⟩, Or.inl rfl⟩
    by_cases hstorable : loader.Storable lim documentId content call
        (embed (loader.texts documentId content))
    · obtain ⟨rows, hrows, hstore⟩ := storeNew_of_storable loader lim hchunks hstorable
      refine Or.inr ⟨rows, rows.length, hstore, hrows.items, hrows.newRows loader hinj hunused,
        fun row hrow => ⟨hrows.documentId_eq row hrow, ?_⟩⟩
      have hid : row.id ∈ rows.map Row.id := List.mem_map_of_mem hrow
      rw [hrows.ids, List.mem_map] at hid
      obtain ⟨k, -, hk⟩ := hid
      exact ⟨k, hk⟩
    · exact Or.inl (storeNew_of_not_storable loader lim hchunks hstorable)

/-- An insertion of an `ingest` is one write of the client: it adds the first row that is still to
be written. -/
theorem stepsAs_writing {todo : List (ℕ × PyStr)}
    (h : Follows loader lim content documentId t call c (.writing todo))
    (hnext : Coro.resume (ragHandler embed) c t = some (c', t')) :
    StepsAs loader lim content documentId t t' call c' (.writing todo) := by
  obtain ⟨rows, n, rfl, rfl, hnew, hrows⟩ := h
  cases rows with
  | nil => exact absurd hnext (by simp [PgVectorRetriever.insertRows_nil, Coro.resume])
  | cons row rows =>
    rw [PgVectorRetriever.insertRows_cons] at hnext
    obtain ⟨rfl, rfl⟩ := Prod.mk.inj (Option.some.inj hnext)
    obtain ⟨hdoc, hid⟩ := hrows row List.mem_cons_self
    refine ⟨⟨.writing (rows.map fun row => (row.chunkIndex, row.content)), ?_, ?_⟩,
      Or.inr ⟨row, rfl, hid⟩⟩
    -- the identifier is new, so the row is stored
    · have hitems := ChunkTable.itemsOf_insert (hnew.new row List.mem_cons_self)
      rw [hdoc] at hitems
      show _ = some (_, (t.insert row).itemsOf documentId)
      rw [hitems]
      rfl
    · exact Or.inr ⟨rows, n, rfl, rfl, hnew.tail, fun r hr => hrows r (List.mem_cons_of_mem _ hr)⟩

/-- Whatever the phase, a step of an `ingest` is a step of the client that it follows, or ends it in
an exception. -/
theorem stepsAs (hinj : Function.Injective call.uuid4)
    (h : FollowsOrRaised loader lim content documentId t call c a)
    (hnext : Coro.resume (ragHandler embed) c t = some (c', t')) :
    StepsAs loader lim content documentId t t' call c' a := by
  rcases h with ⟨e, rfl⟩ | h
  · exact absurd hnext (by simp [Coro.resume])
  · cases a with
    | checking => exact stepsAs_checking h hnext
    | preparing => exact stepsAs_preparing hinj h hnext
    | writing todo => exact stepsAs_writing h hnext

/-! ## The refinement -/

variable {calls : List IngestCall}

theorem DistinctIds.injective (hdistinct : DistinctIds calls) {i : ℕ}
    (hcall : calls[i]? = some call) : Function.Injective call.uuid4 :=
  fun k l hkl => (hdistinct i i k l call call hcall hcall hkl).2

/-- The calls of `ingest` follow the clients that check, then act. -/
def ingestSimulation (loader : DocumentLoader) (lim : Json.Limits) (content documentId : PyStr)
    (embed : List PyStr → List Embedding) (hdistinct : DistinctIds calls) :
    Pool.Simulation (Coro.resume (α := ℕ) (ragHandler embed))
      (CheckThenAct.Client.step (loader.expected content documentId)) where
  client i c a t := ∃ call, calls[i]? = some call ∧
    FollowsOrRaised loader lim content documentId t call c a
  shared t stored := t.itemsOf documentId = stored
  local_step := by
    rintro i c c' a t t' stored ⟨call, hcall, hc⟩ rfl hnext
    obtain ⟨⟨a', hstep, hc'⟩, -⟩ := stepsAs (hdistinct.injective hcall) hc hnext
    exact ⟨a', _, hstep, ⟨call, hcall, hc'⟩, rfl⟩
  frame := by
    rintro i j c c' a d b t t' hij ⟨call, hcall, hc⟩ hnext ⟨call', hcall', hd⟩
    refine ⟨call', hcall', ?_⟩
    obtain ⟨-, rfl | ⟨row, rfl, k, hk⟩⟩ := stepsAs (hdistinct.injective hcall) hc hnext
    · exact hd
    -- the row carries an identifier of client `i`, so client `j` keeps its own
    · refine hd.imp_right fun hd => hd.insert fun l hl => hij ?_
      exact (hdistinct i j k l call call' hcall hcall' (hk.trans hl.symm)).1

/-- Calls of `ingest` that begin on one table are related by `ingestSimulation` to clients of
`CheckThenAct` that are about to check. -/
theorem related_start (hdistinct : DistinctIds calls) (hunused : ∀ call ∈ calls, UnusedIds t call) :
    (ingestSimulation loader lim content documentId embed hdistinct).Related
      (startIngests loader lim content documentId calls t)
      (CheckThenAct.start calls.length (t.itemsOf documentId)) := by
  refine ⟨rfl, by simp [startIngests, CheckThenAct.start], fun i c a hc ha => ?_⟩
  obtain ⟨call, hcall, rfl⟩ : ∃ call, calls[i]? = some call ∧
      loader.ingest lim content documentId call = c := by
    simpa [startIngests, List.getElem?_map] using hc
  obtain rfl : a = .checking := by
    simp only [CheckThenAct.start, List.getElem?_replicate] at ha
    split_ifs at ha
    exact (Option.some.inj ha).symm
  exact ⟨call, hcall, Or.inr ⟨rfl, hunused call (List.mem_of_getElem? hcall)⟩⟩

/-- When all calls of `ingest` have returned, every client they are related to is done, so the
results of `CheckThenAct` on finished runs apply. -/
theorem done_of_returned {hdistinct : DistinctIds calls} {p : Pool (Rag ℕ) ChunkTable}
    {q : Pool (CheckThenAct.Client (ℕ × PyStr)) (List (ℕ × PyStr))}
    (hrelated : (ingestSimulation loader lim content documentId embed hdistinct).Related p q)
    (hreturned : ∀ c ∈ p.clients, c.Returned) : CheckThenAct.Done q := by
  obtain ⟨-, hlength, hclients⟩ := hrelated
  intro a ha
  obtain ⟨i, hi, rfl⟩ := List.getElem_of_mem ha
  have hi' : i < p.clients.length := hlength ▸ hi
  obtain ⟨call, -, hc⟩ := hclients i p.clients[i] q.clients[i] (List.getElem?_eq_getElem hi')
    (List.getElem?_eq_getElem hi)
  obtain ⟨n, hn⟩ := hreturned p.clients[i] (List.getElem_mem hi')
  rw [hn] at hc
  rcases hc with ⟨e, he⟩ | hc
  -- a call that has raised has not returned
  · exact absurd he (by simp)
  · exact hc.eq_writing_nil

/-- If the stored chunks are the expected ones, then they are also as many, so the document is
stored once. -/
theorem storedOnce_of_perm
    (h : (t.itemsOf documentId).Perm (loader.expected content documentId)) :
    StoredOnce loader content documentId t :=
  ⟨h, by rw [ChunkTable.count_eq_length, h.length_eq]⟩

/-- Any number of calls for one document, interleaved at their awaits in any order: when all have
returned, every chunk is `StoredOnce` if and only if it was so at the start, or nothing was stored
then and one call makes the first three steps, which are its count, its embedding and its first
`INSERT`. After that every other count finds the document. -/
theorem storedOnce_iff (hblank : content.strip ≠ []) (hdistinct : DistinctIds calls)
    (hunused : ∀ call ∈ calls, UnusedIds t call) {schedule : List ℕ}
    {p : Pool (Rag ℕ) ChunkTable}
    (hrun : (startIngests loader lim content documentId calls t).run
      (Coro.resume (ragHandler embed)) schedule = some p)
    (hreturned : ∀ c ∈ p.clients, c.Returned) :
    StoredOnce loader content documentId p.shared ↔
      StoredOnce loader content documentId t ∨
        (t.count documentId = 0 ∧ ∃ i rest, schedule = i :: i :: i :: rest) := by
  have hitems : loader.expected content documentId ≠ [] := loader.expected_ne_nil hblank
  obtain ⟨q, hrun', hrelated⟩ :=
    (ingestSimulation loader lim content documentId embed hdistinct).run
      (related_start hdistinct hunused) hrun
  have hdone : CheckThenAct.Done q := done_of_returned hrelated hreturned
  have hshared : p.shared.itemsOf documentId = q.shared := hrelated.1
  have hperm : StoredOnce loader content documentId p.shared ↔
      q.shared.Perm (loader.expected content documentId) := by
    rw [← hshared]
    exact ⟨And.left, storedOnce_of_perm⟩
  rw [hperm]
  by_cases hempty : t.itemsOf documentId = []
  -- nothing is stored at the start: the first three steps decide
  · have hcount : t.count documentId = 0 := by
      rw [ChunkTable.count_eq_length, hempty]
      rfl
    have hnot : ¬StoredOnce loader content documentId t := by
      rintro ⟨hstored, -⟩
      rw [hempty] at hstored
      exact hitems hstored.symm.eq_nil
    rw [hempty] at hrun'
    rw [CheckThenAct.final_perm_iff hitems hrun' hdone, or_iff_right hnot, and_iff_right hcount]
  -- something is stored: every call skips, and the table stays as it is
  · have hcount : t.count documentId ≠ 0 := by
      rw [ChunkTable.count_eq_length]
      exact (List.length_pos_of_ne_nil hempty).ne'
    have hfinal : q.shared.Perm (t.itemsOf documentId) :=
      Multiset.coe_eq_coe.mp (CheckThenAct.final_of_stored hempty hrun' hdone)
    rw [or_iff_left fun h => hcount h.1]
    exact ⟨fun h => storedOnce_of_perm (hfinal.symm.trans h), fun h => hfinal.trans h.1⟩

/-! ### Two calls -/

/-- Two calls that draw identifiers of their own. -/
def twoCalls : List IngestCall :=
  [{ uuid4 := fun k => 'a' :: List.replicate k '0' },
    { uuid4 := fun k => 'b' :: List.replicate k '0' }]

theorem twoCalls_distinct : DistinctIds twoCalls := by
  have hid : ∀ i call, twoCalls[i]? = some call →
      ∀ k, call.uuid4 k = (if i = 0 then 'a' else 'b') :: List.replicate k '0' ∧ i < 2 := by
    rintro (_ | _ | i) call hcall k
    · obtain rfl := Option.some.inj hcall
      exact ⟨rfl, by decide⟩
    · obtain rfl := Option.some.inj hcall
      exact ⟨rfl, by decide⟩
    · simp [twoCalls] at hcall
  intro i j k l call call' hcall hcall' hkl
  obtain ⟨hi, hi2⟩ := hid i call hcall k
  obtain ⟨hj, hj2⟩ := hid j call' hcall' l
  rw [hi, hj] at hkl
  obtain ⟨hhead, htail⟩ := List.cons.inj hkl
  refine ⟨?_, by simpa using congrArg List.length htail⟩
  split_ifs at hhead
  · omega
  · exact absurd hhead (by decide)
  · exact absurd hhead (by decide)
  · omega

/-- An embedder that answers every text with the same vector. -/
def sameVector (texts : List PyStr) : List Embedding := texts.map fun _ => ["0.5".toList]

/-- What the two calls have done at the end of a schedule: whether both have returned, and how many
chunks are stored. -/
def twoCallsEnd (schedule : List ℕ) : Option (Bool × ℕ) :=
  ((startIngests smallLoader limits "aaaa".toList "doc".toList twoCalls .empty).run
    (Coro.resume (ragHandler sameVector)) schedule).map fun p =>
      (decide (∀ c ∈ p.clients, c.Returned), p.shared.count "doc".toList)

/-- `storedOnce_iff` when the second call begins after the first has returned: it counts the chunk
of the first call, and stores nothing. -/
theorem storedOnce_one_after_the_other :
    ∃ p, (startIngests smallLoader limits "aaaa".toList "doc".toList twoCalls .empty).run
        (Coro.resume (ragHandler sameVector)) [0, 0, 0, 1] = some p ∧
      StoredOnce smallLoader "aaaa".toList "doc".toList p.shared := by
  have hend : twoCallsEnd [0, 0, 0, 1] = some (true, 1) := by decide +kernel
  obtain ⟨p, hrun, hp⟩ := Option.map_eq_some_iff.mp hend
  have hreturned : ∀ c ∈ p.clients, c.Returned := of_decide_eq_true (Prod.mk.inj hp).1
  refine ⟨p, hrun, (storedOnce_iff (by decide) twoCalls_distinct ?_ hrun hreturned).mpr
    (Or.inr ⟨rfl, 0, [1], rfl⟩)⟩
  exact fun call _ k => List.not_mem_nil

/-- When both calls count before either inserts, the one chunk is stored twice: the identifiers of
the calls are different, so no `ON CONFLICT` sees it. -/
theorem interleaved_stored_twice :
    DistinctIds twoCalls ∧ (∀ call ∈ twoCalls, UnusedIds .empty call) ∧
      ∃ p, (startIngests smallLoader limits "aaaa".toList "doc".toList twoCalls .empty).run
          (Coro.resume (ragHandler sameVector)) [0, 1, 0, 0, 1, 1] = some p ∧
        (∀ c ∈ p.clients, c.Returned) ∧ p.shared.count "doc".toList = 2 ∧
        ¬StoredOnce smallLoader "aaaa".toList "doc".toList p.shared := by
  refine ⟨twoCalls_distinct, fun call _ k => List.not_mem_nil, ?_⟩
  have hend : twoCallsEnd [0, 1, 0, 0, 1, 1] = some (true, 2) := by decide +kernel
  have hexpected : (smallLoader.expected "aaaa".toList "doc".toList).length = 1 := by decide +kernel
  obtain ⟨p, hrun, hp⟩ := Option.map_eq_some_iff.mp hend
  obtain ⟨hreturned, hcount⟩ := Prod.mk.inj hp
  refine ⟨p, hrun, of_decide_eq_true hreturned, hcount, fun hstored => ?_⟩
  have := hstored.2
  omega

end DocumentLoader
