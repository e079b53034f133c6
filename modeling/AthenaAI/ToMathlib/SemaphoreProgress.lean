import AthenaAI.ToMathlib.Semaphore
import Mathlib.Logic.Hydra

/-!
# Semaphores: progress

Disciplined clients of a semaphore do not block one another for good.

* `Protocol.wellFounded_step`: every run is finite, for a step leaves less to do of the client that
  makes it.
* `Protocol.exists_step`: if there is a permit at all, then as long as there is something to do, one
  of the clients can go on. Whoever waits for a permit waits for one that is held by a client which
  does not wait.
* `Protocol.completes_iff`: so all clients come to their ends, and give back all permits. Without a
  permit those that ask for one do not.
-/

namespace Semaphore.Protocol

variable {Op : Type} {Resp : Op → Type} {Exc α : Type} {P : Protocol Op Resp Exc}

/-! ## Every run is finite -/

/-- The coroutine is what is left of the other one after its next operation. -/
def Continues (c' c : Coro Op Resp Exc α) : Prop :=
  ∃ op next r, c = .await op next ∧ c' = next r

/-- A computation has no endless chain of continuations, since each is a piece of it. This is what
makes runs end. -/
theorem wellFounded_continues :
    WellFounded (Continues : Coro Op Resp Exc α → Coro Op Resp Exc α → Prop) := by
  refine ⟨fun c => ?_⟩
  induction c with
  | ret a => exact ⟨_, fun _ ⟨_, _, _, h, _⟩ => nomatch h⟩
  | raise e => exact ⟨_, fun _ ⟨_, _, _, h, _⟩ => nomatch h⟩
  | await op next ih =>
    refine ⟨_, ?_⟩
    rintro c' ⟨op', next', r, heq, rfl⟩
    obtain ⟨rfl, hnext⟩ := Coro.await.inj heq
    obtain rfl := eq_of_heq hnext
    exact ih r

/-- As multisets: replacing an entry of a list puts the new one in and takes the old one out. -/
theorem coe_set_add_singleton {β : Type} {l : List β} {i : ℕ} {b : β} (h : l[i]? = some b)
    (b' : β) : ((l.set i b' : List β) : Multiset β) + {b} = (l : Multiset β) + {b'} := by
  have hsum : ∀ l : List β, (l.map fun b => ({b} : Multiset β)).sum = l := by
    intro l
    rw [← Multiset.sum_coe, ← Multiset.map_coe]
    exact Multiset.sum_map_singleton _
  rw [← hsum, ← hsum l]
  exact List.sum_map_set (fun b => ({b} : Multiset β)) h b'

/-- `Step` is well founded: each step consumes an operation of a finite coroutine. -/
theorem wellFounded_step :
    WellFounded fun p' p : Pool (Coro Op Resp Exc α) State => P.Step p p' := by
  refine Subrelation.wf ?_ (InvImage.wf
    (fun p : Pool (Coro Op Resp Exc α) State => (p.clients : Multiset (Coro Op Resp Exc α)))
    wellFounded_continues.cutExpand)
  rintro p' p ⟨hclient, hr, heffect⟩
  refine ⟨{_}, _, ?_, coe_set_add_singleton hclient _⟩
  intro c hc
  rw [Multiset.mem_singleton.mp hc]
  exact ⟨_, _, _, rfl, rfl⟩

/-- There is no infinite run, so under every order of steps the clients come to rest. -/
theorem not_exists_infinite_run (p : Pool (Coro Op Resp Exc α) State) :
    ¬∃ f : ℕ → Pool (Coro Op Resp Exc α) State, f 0 = p ∧ ∀ k, P.Step (f k) (f (k + 1)) := by
  rintro ⟨f, -, hf⟩
  obtain ⟨k, hk⟩ := @WellFounded.not_rel_apply_succ _
    (fun p' p : Pool (Coro Op Resp Exc α) State => P.Step p p') ⟨wellFounded_step⟩ f
  exact hk (hf k)

/-! ## Someone can go on -/

/-- Every operation may return. -/
def Responsive (P : Protocol Op Resp Exc) : Prop := ∀ op, ∃ a, P.Possible op (.ok a)

variable {clients : List (P.Client α)} {n : ℕ} {p : Pool (Coro Op Resp Exc α) State}
  {places : List Place}

/-- A client that awaits an operation can make a `Step`, unless it waits for a permit and none is
free. -/
theorem exists_step_of_await (hP : P.Responsive) {i : ℕ} {op : Op}
    {next : Except Exc (Resp op) → Coro Op Resp Exc α}
    (hclient : p.clients[i]? = some (.await op next))
    (hop : P.kind op ≠ .acquire ∨ p.shared.permits ≠ 0) : ∃ p', P.Step p p' := by
  obtain ⟨a, ha⟩ := hP op
  have heffect : ∃ s', p.shared.effect (P.kind op) true = some s' := by
    cases hkind : P.kind op with
    | acquire =>
      rw [hkind] at hop
      exact ⟨_, if_neg (hop.resolve_left fun h => h rfl)⟩
    | release => exact ⟨_, rfl⟩
    | enter => exact ⟨_, rfl⟩
    | leave => exact ⟨_, rfl⟩
    | other => exact ⟨_, rfl⟩
  obtain ⟨s', hs'⟩ := heffect
  exact ⟨_, .mk hclient ha hs'⟩

/-- At every place of `Located` there is a client that is `Disciplined` from there on. -/
theorem Located.exists_client (h : Located clients n p places) {i : ℕ} {place : Place}
    (hplace : places[i]? = some place) :
    ∃ access c, p.clients[i]? = some c ∧
      P.Disciplined access c place fun _ place => place = .outside := by
  have hi : i < clients.length := by
    rw [h.allowed.length_eq]
    exact (List.getElem?_eq_some_iff.mp hplace).1
  have hi' : i < p.clients.length := h.length ▸ hi
  have hclient : p.clients[i]? = some p.clients[i] := List.getElem?_eq_getElem hi'
  exact ⟨_, _, hclient, h.disciplined i _ _ _ (List.getElem?_eq_getElem hi) hplace hclient⟩

/-- A client that holds a permit is not at its end and does not wait for another one, so a `Step` is
possible. -/
theorem Located.exists_step_of_permit (hP : P.Responsive) (h : Located clients n p places) {i : ℕ}
    {place : Place} (hplace : places[i]? = some place) (hpermit : place.permits ≠ 0) :
    ∃ p', P.Step p p' := by
  obtain ⟨access, c, hclient, hdisciplined⟩ := h.exists_client hplace
  cases c with
  | ret a =>
    obtain rfl : place = .outside := hdisciplined
    exact absurd rfl hpermit
  | raise e =>
    obtain rfl : place = .outside := hdisciplined
    exact absurd rfl hpermit
  | await op next =>
    refine exists_step_of_await hP hclient (.inl fun hkind => ?_)
    obtain ⟨a, ha⟩ := hP op
    obtain ⟨place', hmove, -⟩ := hdisciplined (.ok a) ha
    rw [hkind] at hmove
    change place.Move access .acquire true place' at hmove
    cases hmove with
    | acquire => exact hpermit rfl

/-- The coroutine has nothing to do with permits. -/
def PermitFree (P : Protocol Op Resp Exc) (c : Coro Op Resp Exc α) : Prop :=
  c.Awaits fun op => P.kind op ≠ .acquire

/-- If no client asks for permits at the start, none does later: `PermitFree` is kept by steps. -/
theorem permitFree_of_reaches (hfree : ∀ client ∈ clients, P.PermitFree client.code)
    (hreach : P.Reaches (start clients n) p) : ∀ c ∈ p.clients, P.PermitFree c := by
  induction hreach with
  | refl => exact List.forall_mem_map.mpr hfree
  | tail _ hstep ih =>
    obtain ⟨hclient, hr, heffect⟩ := hstep
    intro c hc
    obtain hc | rfl := List.mem_or_eq_of_mem_set hc
    · exact ih c hc
    · exact (ih _ (List.mem_of_getElem? hclient)).2 _

/-- If there is a permit, or nobody asks for one, then one of the clients can go on unless all have
ended. -/
theorem exists_step (hP : P.Responsive)
    (hn : 0 < n ∨ ∀ client ∈ clients, P.PermitFree client.code)
    (hreach : P.Reaches (start clients n) p) {c : Coro Op Resp Exc α} (hc : c ∈ p.clients)
    (hpending : c.outcome? = none) : ∃ p', P.Step p p' := by
  obtain ⟨i, hi⟩ := List.getElem?_of_mem hc
  cases c with
  | ret a => cases hpending
  | raise e => cases hpending
  | await op next =>
    obtain hn | hfree := hn
    · obtain ⟨places, hplaces⟩ := exists_located hreach
      by_cases hpermits : p.shared.permits = 0
      -- all permits are held, and so is one
      · have hsum : (places.map Place.permits).sum ≠ 0 := by
          have hall := hplaces.permits
          omega
        obtain ⟨held, hheld, hpos⟩ := List.exists_mem_ne_zero_of_sum_ne_zero hsum
        obtain ⟨place, hplace, rfl⟩ := List.mem_map.mp hheld
        obtain ⟨j, hj⟩ := List.getElem?_of_mem hplace
        exact hplaces.exists_step_of_permit hP hj hpos
      · exact exists_step_of_await hP hi (.inr hpermits)
    · exact exists_step_of_await hP hi (.inl (permitFree_of_reaches hfree hreach _ hc).1)

/-- When all clients have ended, all permits are back and nobody is in the section. -/
theorem shared_of_ended (hreach : P.Reaches (start clients n) p)
    (hended : ∀ c ∈ p.clients, c.outcome?.isSome) : p.shared = ⟨n, 0⟩ := by
  obtain ⟨places, hplaces⟩ := exists_located hreach
  have houtside : ∀ place ∈ places, place = .outside := by
    intro place hplace
    obtain ⟨i, hi⟩ := List.getElem?_of_mem hplace
    obtain ⟨access, c, hclient, hdisciplined⟩ := hplaces.exists_client hi
    have hc := hended c (List.mem_of_getElem? hclient)
    cases c with
    | ret a => exact hdisciplined
    | raise e => exact hdisciplined
    | await op next => cases hc
  have hzero : ∀ f : Place → ℕ, f .outside = 0 → (places.map f).sum = 0 := by
    intro f hf
    refine List.sum_eq_zero (List.forall_mem_map.mpr fun place hplace => ?_)
    rw [houtside place hplace, hf]
  have hpermits := hplaces.permits
  have hinside := hplaces.inside
  rw [hzero _ rfl] at hpermits hinside
  rw [← hinside, ← hpermits]
  rfl

/-! ## What is left undone -/

/-- The coroutine asks for a permit first of all. -/
def Asks (P : Protocol Op Resp Exc) (c : Coro Op Resp Exc α) : Prop :=
  ∃ op next, c = .await op next ∧ P.kind op = .acquire ∧ ∀ e, ¬P.Possible op (.error e)

/-- Without permits, a client that `Asks` for one is at its first operation forever. -/
theorem mem_of_asks {client : P.Client α} (hclient : client ∈ clients)
    (hasks : P.Asks client.code) (hreach : P.Reaches (start clients 0) p) :
    client.code ∈ p.clients := by
  induction hreach with
  | refl => exact List.mem_map_of_mem hclient
  | @tail p p' hreach hstep ih =>
    obtain @⟨i, op, next, r, s', hi, hr, heffect⟩ := hstep
    obtain ⟨j, hj⟩ := List.getElem?_of_mem ih
    have hij : i ≠ j := by
      rintro rfl
      obtain ⟨op', next', hcode, hkind, hreturns⟩ := hasks
      obtain ⟨rfl, -⟩ := Coro.await.inj (Option.some.inj (hi.symm.trans (hj.trans
        (congrArg some hcode))))
      cases r with
      | error e => exact hreturns e hr
      | ok a =>
        obtain ⟨places, hplaces⟩ := exists_located hreach
        have hzero : p.shared.permits = 0 := by
          have hall := hplaces.permits
          omega
        rw [hkind] at heffect
        exact absurd (heffect.symm.trans (if_pos hzero)) (Option.some_ne_none _)
    exact List.mem_of_getElem? ((List.getElem?_set_ne hij).trans hj)

/-- The clients have come to rest, and all of them at their ends with all permits given back. -/
structure Completed (p : Pool (Coro Op Resp Exc α) State) (n : ℕ) : Prop where
  /-- Every client has returned or raised. -/
  ended : ∀ c ∈ p.clients, c.outcome?.isSome
  /-- All permits are back, and nobody is in the section. -/
  shared : p.shared = ⟨n, 0⟩

/-- Where clients ask for a permit first or not at all, every run comes to rest with all of them at
their ends, if and only if there is a permit or nobody asks for one. -/
theorem completes_iff (hP : P.Responsive)
    (hclients : ∀ client ∈ clients, P.Asks client.code ∨ P.PermitFree client.code) :
    (∀ p, P.Reaches (start clients n) p → (¬∃ p', P.Step p p') → Completed p n) ↔
      0 < n ∨ ∀ client ∈ clients, P.PermitFree client.code := by
  constructor
  · intro hcompletes
    by_contra hnot
    push Not at hnot
    obtain ⟨hn, client, hclient, hfree⟩ := hnot
    obtain rfl : n = 0 := Nat.le_zero.mp hn
    have hasks := (hclients client hclient).resolve_right hfree
    -- a run comes to rest somewhere
    obtain ⟨p, hreach, hrest⟩ := wellFounded_step.has_min
      {p | P.Reaches (start clients 0) p} ⟨_, Relation.ReflTransGen.refl⟩
    have hended := (hcompletes p hreach fun ⟨p', hstep⟩ =>
      hrest p' (hreach.tail hstep) hstep).ended _ (mem_of_asks hclient hasks hreach)
    obtain ⟨op, next, hcode, -⟩ := hasks
    rw [hcode] at hended
    exact absurd hended Bool.false_ne_true
  · intro hn p hreach hrest
    have hended : ∀ c ∈ p.clients, c.outcome?.isSome := by
      by_contra hnot
      push Not at hnot
      obtain ⟨c, hc, hpending⟩ := hnot
      exact hrest (exists_step hP hn hreach hc (by simpa using hpending))
    exact ⟨hended, shared_of_ended hreach hended⟩

end Semaphore.Protocol
