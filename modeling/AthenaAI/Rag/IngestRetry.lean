import AthenaAI.Rag.Loader
import AthenaAI.ToMathlib.Run

/-!
# Retrying a failed ingest

A call of `ingest` may fail at the count, at the embedder and at every single `INSERT`, before the
statement has taken effect or after it. The table keeps what was inserted before the failure, and
the next call takes any stored chunk for a complete document.

* `IngestAttempt` is a call together with the failures it meets; `attempt` runs it.
* `commits` is the number of insertions that take effect if the document is absent: a function of
  the failures the attempt meets.
* `retry_safe_iff`: after a history of attempts, every attempt that returns has the whole document
  stored, if and only if no attempt of the history that found the document absent stored a part of
  it and not all.
-/

/-- A call of `ingest`, the answers of the embedder and the failures of the awaited operations. -/
structure IngestAttempt extends IngestCall where
  /-- What the embedder answers, if it answers. -/
  embed : List PyStr → List Embedding
  /-- How the operations fail, in the order they are awaited: the count, the embedder, and one
  `INSERT` for each chunk. -/
  faults : List (Option (Fault PyExc))

namespace DocumentLoader

variable (loader : DocumentLoader) (lim : Json.Limits) (content documentId : PyStr)

/-- One call of `ingest` on the table `t`: its outcome and the table it leaves. -/
def attempt (t : ChunkTable) (a : IngestAttempt) : Except PyExc ℕ × ChunkTable :=
  -- the failures the call has not met are forgotten with it
  let r := (loader.ingest lim content documentId a.toIngestCall).run (ragHandler a.embed).faulty
    (t, a.faults)
  (r.1, r.2.1)

/-- The table after one call of `ingest`. -/
def attemptStep (t : ChunkTable) (a : IngestAttempt) : ChunkTable :=
  (loader.attempt lim content documentId t a).2

/-- The table holds the expected chunks of the document, each one once. -/
def Stored (t : ChunkTable) : Prop :=
  (t.itemsOf documentId).Perm (loader.expected content documentId)

/-- The identifiers that the attempt draws differ from one another and from those in the table. -/
def Fresh (t : ChunkTable) (a : IngestAttempt) : Prop :=
  Function.Injective a.uuid4 ∧ ∀ k, a.uuid4 k ∉ t.rows.map Row.id

/-! ## How many insertions take effect -/

/-- Of `n` insertions that meet the given failures, how many take effect. -/
def insertsCommitted : ℕ → List (Option (Fault PyExc)) → ℕ
  | 0, _ => 0
  | n + 1, [] => n + 1
  | n + 1, none :: faults => insertsCommitted n faults + 1
  -- the first failure ends the loop; what raises after its effect has still taken effect
  | _ + 1, some (.before _) :: _ => 0
  | _ + 1, some (.after _) :: _ => 1

/-- How many insertions take effect from the embedder on. -/
def commitsNew (a : IngestAttempt) : List (Option (Fault PyExc)) → ℕ
  -- the embedder fails
  | some _ :: _ => 0
  | faults =>
    if loader.Storable lim documentId content a.toIngestCall
        (a.embed (loader.texts documentId content)) then
      insertsCommitted (loader.expected content documentId).length faults.tail
    else 0

/-- How many insertions of the attempt take effect if it finds the document absent. -/
def commits (a : IngestAttempt) : ℕ :=
  match a.faults with
  -- the count fails
  | some _ :: _ => 0
  | faults => loader.commitsNew lim content documentId a faults.tail

variable {loader lim content documentId} {t : ChunkTable} {a : IngestAttempt}

@[simp]
theorem insertsCommitted_nil (n : ℕ) : insertsCommitted n [] = n := by
  cases n <;> rfl

theorem insertsCommitted_le (n : ℕ) (faults : List (Option (Fault PyExc))) :
    insertsCommitted n faults ≤ n := by
  induction n generalizing faults with
  | zero => exact Nat.zero_le _
  | succ n ih =>
    rcases faults with _ | ⟨_ | ⟨e⟩ | ⟨e⟩, faults⟩
    · exact le_rfl
    · exact Nat.succ_le_succ (ih faults)
    · exact Nat.zero_le _
    · exact Nat.succ_le_succ (Nat.zero_le n)

/-- An attempt stores at most one row for every expected chunk. -/
theorem commits_le (loader : DocumentLoader) (lim : Json.Limits) (content documentId : PyStr)
    (a : IngestAttempt) :
    loader.commits lim content documentId a ≤ (loader.expected content documentId).length := by
  unfold commits commitsNew
  repeat' split
  all_goals first | exact Nat.zero_le _ | exact insertsCommitted_le _ _

/-! ## One attempt -/

/-- Insertions of new rows that meet some failures: they store the rows up to the first failure
(`insertsCommitted`), and end normally only if there is none. By induction on the rows. -/
theorem run_insertRows (embed : List PyStr → List Embedding) {rows : List Row}
    (hnew : t.NewRows rows) (hdoc : ∀ row ∈ rows, row.documentId = documentId)
    (faults : List (Option (Fault PyExc))) :
    let r := (PgVectorRetriever.insertRows rows).run (ragHandler embed).faulty (t, faults)
    r.2.1.itemsOf documentId = t.itemsOf documentId ++
        (rows.map fun row => (row.chunkIndex, row.content)).take
          (insertsCommitted rows.length faults) ∧
      (r.1.isOk → insertsCommitted rows.length faults = rows.length) := by
  induction rows generalizing t faults with
  | nil => simp [PgVectorRetriever.insertRows_nil, insertsCommitted]
  | cons row rows ih =>
    have hitems : (t.insert row).itemsOf documentId =
        t.itemsOf documentId ++ [(row.chunkIndex, row.content)] := by
      rw [← hdoc row List.mem_cons_self]
      exact ChunkTable.itemsOf_insert (hnew.new row List.mem_cons_self)
    have hrest := ih hnew.tail fun r hr => hdoc r (List.mem_cons_of_mem _ hr)
    rw [PgVectorRetriever.insertRows_cons, Coro.run_await]
    rcases faults with _ | ⟨_ | ⟨e⟩ | ⟨e⟩, faults⟩
    -- without a failure the row is stored and the rest follows
    · simpa [ragHandler, insertsCommitted, hitems] using (hrest []).1
    · simpa [ragHandler, insertsCommitted, hitems] using hrest faults
    -- a failure before the effect or after it ends the loop
    · simp [insertsCommitted, Except.isOk, Except.toBool]
    · simp [ragHandler, insertsCommitted, hitems, Except.isOk, Except.toBool]

/-- From the answer of the embedder on, what takes effect are the insertions up to the first
failure, if the answer is usable. -/
theorem run_storeNew {chunks : List Chunk}
    (hchunks : loader.ChunksFor documentId content a.toIngestCall chunks) (hfresh : Fresh t a)
    (embeddings : List Embedding) (faults : List (Option (Fault PyExc))) :
    let r := (storeNew lim chunks embeddings).run (ragHandler a.embed).faulty (t, faults)
    let n := if loader.Storable lim documentId content a.toIngestCall embeddings then
      insertsCommitted (loader.expected content documentId).length faults else 0
    r.2.1.itemsOf documentId =
        t.itemsOf documentId ++ (loader.expected content documentId).take n ∧
      (r.1.isOk → n = (loader.expected content documentId).length) := by
  by_cases hstorable : loader.Storable lim documentId content a.toIngestCall embeddings
  · obtain ⟨rows, hrows, hstore⟩ := storeNew_of_storable loader lim hchunks hstorable
    have hlength : rows.length = (loader.expected content documentId).length := by
      rw [← hrows.items, List.length_map]
    have hrun := run_insertRows a.embed (hrows.newRows loader hfresh.1 hfresh.2)
      hrows.documentId_eq faults
    rw [hrows.items, hlength] at hrun
    rw [hstore, Coro.run_bind, if_pos hstorable]
    rcases hout : (PgVectorRetriever.insertRows rows).run (ragHandler a.embed).faulty (t, faults)
      with ⟨_ | _, _⟩
    · rw [hout] at hrun
      exact ⟨hrun.1, fun hok => absurd hok Bool.false_ne_true⟩
    · rw [hout] at hrun
      exact ⟨hrun.1, fun _ => hrun.2 rfl⟩
  · obtain ⟨e, hstore⟩ := storeNew_of_not_storable loader lim hchunks hstorable
    rw [hstore, if_neg hstorable]
    exact ⟨by simp, fun hok => absurd hok Bool.false_ne_true⟩

/-- After the check, what takes effect are `commitsNew` insertions, and a call that returns has
stored all. -/
theorem run_ingestNew (loader : DocumentLoader) (lim : Json.Limits) (content documentId : PyStr)
    (hfresh : Fresh t a) (faults : List (Option (Fault PyExc))) :
    let r := (loader.ingestNew lim content documentId a.toIngestCall).run
      (ragHandler a.embed).faulty (t, faults)
    let n := loader.commitsNew lim content documentId a faults
    r.2.1.itemsOf documentId =
        t.itemsOf documentId ++ (loader.expected content documentId).take n ∧
      (r.1.isOk → n = (loader.expected content documentId).length) := by
  by_cases hblank : content.strip = []
  -- `parse` raises
  · obtain ⟨e, hnew⟩ := loader.ingestNew_of_blank lim documentId hblank a.toIngestCall
    rw [hnew, expected_of_blank loader hblank]
    exact ⟨by simp, fun hok => absurd hok Bool.false_ne_true⟩
  · obtain ⟨chunks, hchunks, hnew⟩ := loader.ingestNew_of_not_blank lim documentId hblank
      a.toIngestCall
    rw [hnew, Coro.run_await]
    rcases faults with _ | ⟨_ | ⟨e⟩ | ⟨e⟩, faults⟩
    -- the embedder answers
    · exact run_storeNew hchunks hfresh _ []
    · exact run_storeNew hchunks hfresh _ faults
    -- the embedder fails
    · exact ⟨by simp [commitsNew], fun hok => absurd hok Bool.false_ne_true⟩
    · exact ⟨by simp [commitsNew, ragHandler], fun hok => absurd hok Bool.false_ne_true⟩

/-- An attempt that finds the document leaves the table as it is, whatever fails. -/
theorem attemptStep_of_present (hpresent : 0 < t.count documentId) :
    loader.attemptStep lim content documentId t a = t := by
  rw [attemptStep, attempt, ingest_eq, Coro.run_await]
  rcases a with ⟨call, embed, _ | ⟨_ | ⟨e⟩ | ⟨e⟩, faults⟩⟩
  all_goals simp [ragHandler, hpresent]

/-- An attempt that finds the document and meets no failure returns the number of its chunks. -/
theorem attempt_of_present (hpresent : 0 < t.count documentId) (hfaults : a.faults = []) :
    (loader.attempt lim content documentId t a).1 = .ok (t.count documentId) := by
  rw [attempt, ingest_eq, Coro.run_await, hfaults]
  simp [ragHandler, hpresent]

/-- An attempt that finds the document absent stores the first `commits` chunks, and if it returns
these are all. -/
theorem attempt_of_absent (habsent : t.count documentId = 0) (hfresh : Fresh t a) :
    (loader.attemptStep lim content documentId t a).itemsOf documentId =
        (loader.expected content documentId).take (loader.commits lim content documentId a) ∧
      ((loader.attempt lim content documentId t a).1.isOk →
        loader.commits lim content documentId a = (loader.expected content documentId).length) := by
  have hitems : t.itemsOf documentId = [] := by
    rw [← List.length_eq_zero_iff, ← ChunkTable.count_eq_length, habsent]
  have hnew := run_ingestNew loader lim content documentId hfresh
  rw [hitems] at hnew
  rw [attemptStep, attempt, ingest_eq, Coro.run_await]
  rcases a with ⟨call, embed, _ | ⟨_ | ⟨e⟩ | ⟨e⟩, faults⟩⟩
  -- the count is `0`
  · simpa [ragHandler, habsent, commits] using hnew []
  · simpa [ragHandler, habsent, commits] using hnew faults
  -- the count fails
  · exact ⟨by simp [commits, hitems], fun hok => absurd hok Bool.false_ne_true⟩
  · exact ⟨by simp [commits, hitems, ragHandler], fun hok => absurd hok Bool.false_ne_true⟩

/-! ## Histories of attempts -/

variable (loader lim content documentId)

/-- The identifiers that the attempt draws, if it finds the document absent, are new. -/
def DrawsFresh (t : ChunkTable) (a : IngestAttempt) : Prop :=
  t.count documentId = 0 → Fresh t a

/-- If the attempt finds the document absent, it stores nothing or all of it. -/
def StoresNoPart (t : ChunkTable) (a : IngestAttempt) : Prop :=
  t.count documentId = 0 → loader.commits lim content documentId a = 0 ∨
    loader.commits lim content documentId a = (loader.expected content documentId).length

/-- Nothing is stored of the document, or all of it in order. -/
def AbsentOrStored (t : ChunkTable) : Prop :=
  t.itemsOf documentId = [] ∨ t.itemsOf documentId = loader.expected content documentId

variable {loader lim content documentId}

/-- An attempt that finds the document draws no identifiers, so nothing is asked of them. -/
theorem drawsFresh_of_present (hpresent : 0 < t.count documentId) : DrawsFresh documentId t a :=
  fun habsent => absurd habsent hpresent.ne'

/-- An attempt that `StoresNoPart` leads from a document that is absent or stored (`AbsentOrStored`)
to one that is. -/
theorem absentOrStored_attemptStep (ht : loader.AbsentOrStored content documentId t)
    (hfresh : DrawsFresh documentId t a) (hall : loader.StoresNoPart lim content documentId t a) :
    loader.AbsentOrStored content documentId (loader.attemptStep lim content documentId t a) := by
  -- only an attempt that finds the document absent does anything
  rcases (t.count documentId).eq_zero_or_pos with habsent | hpresent
  · rw [AbsentOrStored, (attempt_of_absent habsent (hfresh habsent)).1]
    rcases hall habsent with hnone | hfull
    · exact Or.inl (by rw [hnone, List.take_zero])
    · exact Or.inr (by rw [hfull, List.take_length])
  · rw [attemptStep_of_present hpresent]
    exact ht

/-- From a document that is `AbsentOrStored`, an attempt that returns leaves the document
`Stored`. -/
theorem stored_of_isOk (ht : loader.AbsentOrStored content documentId t)
    (hfresh : DrawsFresh documentId t a)
    (hok : (loader.attempt lim content documentId t a).1.isOk) :
    loader.Stored content documentId (loader.attemptStep lim content documentId t a) := by
  rcases (t.count documentId).eq_zero_or_pos with habsent | hpresent
  · obtain ⟨hitems, hfull⟩ := attempt_of_absent habsent (hfresh habsent)
    rw [Stored, hitems, hfull hok, List.take_length]
  · rw [attemptStep_of_present hpresent]
    -- it returns because the document is there, and then all of it is
    rcases ht with hnil | hstored
    · rw [ChunkTable.count_eq_length, hnil] at hpresent
      exact absurd hpresent (Nat.lt_irrefl 0)
    · rw [Stored, hstored]

/-- If an attempt stores a part of an absent document, then later attempts leave that part as it is,
and one that meets no failure returns. -/
theorem part_stays (habsent : t.count documentId = 0) (hfresh : Fresh t a)
    (hpart : ¬loader.StoresNoPart lim content documentId t a) (as : List IngestAttempt) :
    let t' := Run.after (loader.attemptStep lim content documentId) t (a :: as)
    0 < t'.count documentId ∧ ¬loader.Stored content documentId t' := by
  intro t'
  let t₁ := loader.attemptStep lim content documentId t a
  have hcount : t₁.count documentId = loader.commits lim content documentId a := by
    rw [ChunkTable.count_eq_length, (attempt_of_absent habsent hfresh).1, List.length_take,
      min_eq_left (commits_le loader lim content documentId a)]
  have hcommits : loader.commits lim content documentId a ≠ 0 ∧
      loader.commits lim content documentId a ≠ (loader.expected content documentId).length :=
    not_or.mp fun h => hpart fun _ => h
  have hpresent : 0 < t₁.count documentId := hcount ▸ Nat.pos_of_ne_zero hcommits.1
  -- the attempts after the first one find the part and do nothing
  have ht' : t' = t₁ :=
    Run.invariant (P := fun s => s = t₁)
      (fun s e hs => by rw [hs, attemptStep_of_present hpresent]) rfl as
  rw [ht']
  refine ⟨hpresent, fun hstored => hcommits.2 ?_⟩
  rw [← hcount, ChunkTable.count_eq_length, hstored.length_eq]

/-- After a history of attempts on an absent document, each of which may fail before or after any of
its operations: every further attempt that returns has the document `Stored`, if and only if no
attempt of the history stored a part of it (`StoresNoPart`). A part is enough for the next attempt
to count chunks and return without storing the others. -/
theorem retry_safe_iff (habsent : t.count documentId = 0) {as : List IngestAttempt}
    (hfresh : ∀ s ∈ Run.steps (loader.attemptStep lim content documentId) t as,
      DrawsFresh documentId s.before s.event) :
    (∀ a, DrawsFresh documentId (Run.after (loader.attemptStep lim content documentId) t as) a →
      ∀ s ∈ Run.steps (loader.attemptStep lim content documentId) t (as ++ [a]),
        (loader.attempt lim content documentId s.before s.event).1.isOk →
          loader.Stored content documentId s.after) ↔
      ∀ s ∈ Run.steps (loader.attemptStep lim content documentId) t as,
        loader.StoresNoPart lim content documentId s.before s.event := by
  constructor
  -- a part that is stored makes a later attempt return without the rest
  · intro hsafe s hs
    by_contra hpart
    obtain ⟨habsent', -⟩ := Classical.not_imp.mp hpart
    obtain ⟨pre, a, post, rfl, rfl⟩ := (Run.mem_steps_iff _).mp hs
    obtain ⟨hpresent, hnot⟩ := part_stays habsent' (hfresh _ hs habsent') hpart post
    rw [← Run.after_append] at hpresent hnot
    -- a retry without failures finds the part and returns
    let retry : IngestAttempt := { uuid4 := fun _ => [], embed := fun _ => [], faults := [] }
    set t' := Run.after (loader.attemptStep lim content documentId) t (pre ++ a :: post)
    have hlast := hsafe retry (drawsFresh_of_present hpresent)
      ⟨t', retry, loader.attemptStep lim content documentId t' retry⟩
      (by rw [Run.steps_concat]; exact List.mem_append_right _ (List.mem_singleton_self _))
      (by rw [attempt_of_present hpresent rfl]; rfl)
    rw [attemptStep_of_present hpresent] at hlast
    exact hnot hlast
  -- conversely, the document is absent or stored throughout
  · intro hall a hlast s hs hok
    have hempty : t.itemsOf documentId = [] := by
      rw [← List.length_eq_zero_iff, ← ChunkTable.count_eq_length, habsent]
    obtain ⟨hbefore, hafter⟩ := Run.invariant_of_guard
      (P := loader.AbsentOrStored content documentId)
      (G := fun t a => DrawsFresh documentId t a ∧ loader.StoresNoPart lim content documentId t a)
      (fun _ _ ht hguard => absentOrStored_attemptStep ht hguard.1 hguard.2) (Or.inl hempty)
      fun s hs => ⟨hfresh s hs, hall s hs⟩
    rw [Run.steps_concat, List.mem_append, List.mem_singleton] at hs
    rcases hs with hs | rfl
    · have hstored := stored_of_isOk (hbefore s hs) (hfresh s hs) hok
      obtain ⟨pre, e, post, -, rfl⟩ := (Run.mem_steps_iff _).mp hs
      exact hstored
    · exact stored_of_isOk hafter hlast hok

/-! ### A failed `INSERT` -/

/-- An attempt with the given failures, and identifiers that start with `c`. -/
def attemptOf (c : Char) (faults : List (Option (Fault PyExc))) : IngestAttempt where
  uuid4 := fun k => c :: List.replicate k '0'
  embed := fun texts => texts.map fun _ => ["0.5".toList]
  faults := faults

/-- An attempt that loses the connection at its second `INSERT`. -/
def failedInsert : IngestAttempt :=
  attemptOf 'a' [none, none, none, some (.before (.of .RuntimeError "connection lost".toList))]

/-- The attempt draws identifiers that differ from one another, and there is none in an empty
table. -/
theorem attemptOf_fresh (c : Char) (faults : List (Option (Fault PyExc))) :
    Fresh .empty (attemptOf c faults) := by
  refine ⟨fun m n h => ?_, fun k => List.not_mem_nil⟩
  simpa [attemptOf] using congrArg List.length h

/-- `failedInsert` stores one chunk of the three that are expected: its second `INSERT` fails. -/
theorem failedInsert_commits :
    smallLoader.commits limits "aaaa bbbb".toList "doc".toList failedInsert = 1 ∧
      (smallLoader.expected "aaaa bbbb".toList "doc".toList).length = 3 := by
  decide +kernel

/-- After `failedInsert`, which has stored one chunk of three, a second attempt meets no failure and
returns with one chunk stored: its count is not zero, so it takes the document for stored. -/
theorem failedInsert_then_retry_not_stored :
    let step := smallLoader.attemptStep limits "aaaa bbbb".toList "doc".toList
    let as := [failedInsert, attemptOf 'b' []]
    (∀ s ∈ Run.steps step .empty as, DrawsFresh "doc".toList s.before s.event) ∧
      ¬∀ s ∈ Run.steps step .empty as,
        (smallLoader.attempt limits "aaaa bbbb".toList "doc".toList s.before s.event).1.isOk →
          smallLoader.Stored "aaaa bbbb".toList "doc".toList s.after := by
  intro step as
  have habsent : ChunkTable.empty.count "doc".toList = 0 := rfl
  have hpart : ¬smallLoader.StoresNoPart limits "aaaa bbbb".toList "doc".toList .empty
      failedInsert := by
    intro hall
    have hcommits := hall habsent
    rw [failedInsert_commits.1, failedInsert_commits.2] at hcommits
    omega
  obtain ⟨hpresent, hnot⟩ : 0 < (step .empty failedInsert).count "doc".toList ∧
      ¬smallLoader.Stored "aaaa bbbb".toList "doc".toList (step .empty failedInsert) :=
    part_stays habsent (attemptOf_fresh 'a' _) hpart []
  refine ⟨?_, fun hall => hnot ?_⟩
  · rw [Run.steps_cons, Run.steps_cons, Run.steps_nil]
    rintro s (_ | ⟨_, _ | ⟨_, hs⟩⟩)
    · exact fun _ => attemptOf_fresh 'a' _
    · exact drawsFresh_of_present hpresent
    · exact absurd hs List.not_mem_nil
  · rw [Run.steps_cons, Run.steps_cons, Run.steps_nil, List.forall_mem_cons,
      List.forall_mem_singleton] at hall
    have hreturns : (smallLoader.attempt limits "aaaa bbbb".toList "doc".toList
        (step .empty failedInsert) (attemptOf 'b' [])).1.isOk := by
      rw [attempt_of_present hpresent rfl]
      rfl
    have hunchanged : step (step .empty failedInsert) (attemptOf 'b' []) =
        step .empty failedInsert := attemptStep_of_present hpresent
    exact hunchanged ▸ hall.2 hreturns

/-- `retry_safe_iff` at a history of one attempt that fails at the embedder: it has stored nothing,
so a further attempt that returns has the document stored. -/
theorem retry_safe_iff_embed_fails :
    let step := smallLoader.attemptStep limits "aaaa bbbb".toList "doc".toList
    let as := [attemptOf 'a' [none, some (.before (.of .EmbeddingError "no answer".toList))]]
    ChunkTable.empty.count "doc".toList = 0 ∧
      (∀ s ∈ Run.steps step .empty as, DrawsFresh "doc".toList s.before s.event) ∧
      ∀ a, DrawsFresh "doc".toList (Run.after step .empty as) a →
        ∀ s ∈ Run.steps step .empty (as ++ [a]),
          (smallLoader.attempt limits "aaaa bbbb".toList "doc".toList s.before s.event).1.isOk →
            smallLoader.Stored "aaaa bbbb".toList "doc".toList s.after := by
  intro step as
  have hfresh : ∀ s ∈ Run.steps step .empty as, DrawsFresh "doc".toList s.before s.event := by
    rw [Run.steps_cons, Run.steps_nil, List.forall_mem_singleton]
    exact fun _ => attemptOf_fresh 'a' _
  have hempty : ChunkTable.empty.count "doc".toList = 0 := rfl
  refine ⟨hempty, hfresh, (retry_safe_iff hempty hfresh).mpr ?_⟩
  rw [Run.steps_cons, Run.steps_nil, List.forall_mem_singleton]
  exact fun _ => Or.inl (by simp only [commits, commitsNew, attemptOf, List.tail_cons])

end DocumentLoader
