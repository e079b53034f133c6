import AthenaAI.ToMathlib.Coro
import AthenaAI.ToMathlib.Pool
import Mathlib.Data.List.Nodup

/-!
# Coroutines that do not meet

Coroutines that share a state, each of which works on a part of its own. However they are
interleaved, they end as if each had run alone on its part, and so as if they had run one after
another.

* `Handler.Parts h g κ` are the parts of an environment `h`, by keys `κ`: what the operations that
  concern a key do is done by the environment `g` to the part of that key.
* `Parts.failing` are the same parts where operations may fail.
* `Parts.run`: a coroutine whose operations concern one key runs as on its part.
* `Parts.pool_eq_serial`: an interleaved run to the end leaves the parts, and gives the outcomes, of
  the serial run.
* `Parts.pool_part`: where several coroutines share a part, an interleaved run is, on that part, the
  run in which the others never have a turn.
-/

variable {Op : Type} {Resp : Op → Type} {Exc α S V κ : Type}

/-- The environment `h` on parts of its state, each of which is in the environment `g`. -/
structure Handler.Parts (h : Handler Op Resp Exc S) (g : Handler Op Resp Exc V) (κ : Type) where
  /-- The part of a key. -/
  part : κ → S → V
  /-- The operation concerns the key. -/
  concerns : κ → Op → Prop
  /-- What has to hold of the whole. -/
  Sound : S → Prop
  /-- It is kept. -/
  sound : ∀ {k op s}, concerns k op → Sound s → Sound (h op s).2
  /-- An operation does to the part of its key what it does. -/
  own : ∀ {k op s}, concerns k op → Sound s →
    g op (part k s) = ((h op s).1, part k (h op s).2)
  /-- It does nothing to the others. -/
  other : ∀ {k k' op s}, concerns k op → Sound s → k' ≠ k → part k' (h op s).2 = part k' s

namespace Coro

/-- The outcomes of coroutines that run one after another. -/
def outcomes (h : Handler Op Resp Exc S) : List (Coro Op Resp Exc α) → S → List (Except Exc α)
  | [], _ => []
  | c :: cs, s => (c.run h s).1 :: outcomes h cs (c.run h s).2

/-- The state that they leave. -/
def serial (h : Handler Op Resp Exc S) (cs : List (Coro Op Resp Exc α)) (s : S) : S :=
  cs.foldl (fun s c => (c.run h s).2) s

end Coro

namespace Handler.Parts

variable {h : Handler Op Resp Exc S} {g : Handler Op Resp Exc V} (P : Handler.Parts h g κ)

/-- The parts are parts also where the operations fail: one that fails does nothing, or to the part
of its key what it does otherwise. -/
def failing : Handler.Parts h.failing g.failing κ where
  part := P.part
  concerns k op := P.concerns k op.1
  Sound := P.Sound
  sound := by
    rintro k ⟨op, _ | ⟨e⟩ | ⟨e⟩⟩ s hop hs
    · exact P.sound hop hs
    · exact hs
    · exact P.sound hop hs
  own := by
    rintro k ⟨op, _ | ⟨e⟩ | ⟨e⟩⟩ s hop hs
    · exact P.own hop hs
    · rfl
    · exact congrArg (fun answer => (Except.error e, answer.2)) (P.own hop hs)
  other := by
    rintro k k' ⟨op, _ | ⟨e⟩ | ⟨e⟩⟩ s hop hs hk
    · exact P.other hop hs hk
    · rfl
    · exact P.other hop hs hk

/-- A coroutine that awaits only operations on the part of a key runs as it would on this part, and
leaves the parts of the other keys alone. -/
theorem run {k : κ} {c : Coro Op Resp Exc α} (hc : c.Awaits (P.concerns k)) {s : S}
    (hs : P.Sound s) :
    P.Sound (c.run h s).2 ∧ c.run g (P.part k s) = ((c.run h s).1, P.part k (c.run h s).2) ∧
      ∀ k', k' ≠ k → P.part k' (c.run h s).2 = P.part k' s := by
  induction c generalizing s with
  | ret a => exact ⟨hs, rfl, fun _ _ => rfl⟩
  | raise e => exact ⟨hs, rfl, fun _ _ => rfl⟩
  | await op next ih =>
    obtain ⟨hop, hnext⟩ := hc
    obtain ⟨hsound, hrun, hother⟩ := ih (h op s).1 (hnext _) (P.sound hop hs)
    rw [Coro.run_await, Coro.run_await, P.own hop hs]
    exact ⟨hsound, hrun, fun k' hk' => (hother k' hk').trans (P.other hop hs hk')⟩

/-- Coroutines, each with the key of the part that it works on. -/
def Own (clients : List (κ × Coro Op Resp Exc α)) : Prop :=
  (clients.map Prod.fst).Nodup ∧ ∀ client ∈ clients, client.2.Awaits (P.concerns client.1)

/-- From `s` to `s'` each client has run on its part alone, and nothing else has changed. -/
structure Apart (clients : List (κ × Coro Op Resp Exc α)) (s s' : S) : Prop where
  own : ∀ client ∈ clients,
    P.part client.1 s' = (client.2.run g (P.part client.1 s)).2
  rest : ∀ k, k ∉ clients.map Prod.fst → P.part k s' = P.part k s

variable {P} {clients : List (κ × Coro Op Resp Exc α)} {s s' s'' : S}

/-- `Apart` determines the parts of a state: two states that it holds of have the same ones. -/
theorem Apart.part_eq (h' : P.Apart clients s s') (h'' : P.Apart clients s s'') (k : κ) :
    P.part k s' = P.part k s'' := by
  by_cases hk : k ∈ clients.map Prod.fst
  · obtain ⟨client, hclient, rfl⟩ := List.mem_map.mp hk
    rw [h'.own client hclient, h''.own client hclient]
  · rw [h'.rest k hk, h''.rest k hk]

/-! ## One after another -/

/-- When the coroutines run one after the other, each ends as it would alone with its part of the
state, and leaves this part so. -/
theorem serial_spec (hown : P.Own clients) (hs : P.Sound s) :
    P.Apart clients s (Coro.serial h (clients.map Prod.snd) s) ∧
      Coro.outcomes h (clients.map Prod.snd) s =
        clients.map fun client => (client.2.run g (P.part client.1 s)).1 := by
  induction clients generalizing s with
  | nil => exact ⟨⟨nofun, fun _ _ => rfl⟩, rfl⟩
  | cons client clients ih =>
    obtain ⟨hnodup, hawaits⟩ := hown
    rw [List.map_cons, List.nodup_cons] at hnodup
    rw [List.forall_mem_cons] at hawaits
    obtain ⟨hsound, hrun, hother⟩ := P.run hawaits.1 hs
    obtain ⟨⟨hparts, hrest⟩, houtcomes⟩ := ih ⟨hnodup.2, hawaits.2⟩ hsound
    have hne : ∀ client' ∈ clients, client'.1 ≠ client.1 := fun client' hclient' heq =>
      hnodup.1 (heq ▸ List.mem_map_of_mem hclient')
    rw [List.map_cons, List.map_cons, Coro.outcomes, hrun, houtcomes, Coro.serial, List.foldl_cons]
    refine ⟨⟨List.forall_mem_cons.mpr ⟨?_, fun client' hclient' => ?_⟩, fun k hk => ?_⟩, ?_⟩
    · rw [hrun]
      exact hrest _ hnodup.1
    · rw [← hother _ (hne client' hclient')]
      exact hparts client' hclient'
    · rw [List.map_cons, List.mem_cons, not_or] at hk
      rw [← hother k hk.1]
      exact hrest k hk.2
    · congr 1
      refine List.map_congr_left fun client' hclient' => ?_
      rw [hother _ (hne client' hclient')]

/-! ## Interleaved -/

/-- What has become of clients that are run in a pool, each of which goes on as it would alone. -/
structure Interleaved (P : Handler.Parts h g κ) (clients : List (κ × Coro Op Resp Exc α)) (s : S)
    (p : Pool (Coro Op Resp Exc α) S) : Prop where
  length_eq : p.clients.length = clients.length
  sound : P.Sound p.shared
  awaits : ∀ (i : ℕ) (hi : i < clients.length) (hi' : i < p.clients.length),
    p.clients[i].Awaits (P.concerns clients[i].1)
  run_eq : ∀ (i : ℕ) (hi : i < clients.length) (hi' : i < p.clients.length),
    p.clients[i].run g (P.part clients[i].1 p.shared) =
      clients[i].2.run g (P.part clients[i].1 s)
  rest : ∀ k, k ∉ clients.map Prod.fst → P.part k p.shared = P.part k s

/-- At the start no client has done anything, and every client still has to run alone from its own
part. -/
theorem interleaved_start (hown : P.Own clients) (hs : P.Sound s) :
    P.Interleaved clients s ⟨clients.map Prod.snd, s⟩ where
  length_eq := List.length_map _
  sound := hs
  awaits i hi hi' := by
    rw [List.getElem_map]
    exact hown.2 _ (List.getElem_mem hi)
  run_eq i hi hi' := by rw [List.getElem_map]
  rest _ _ := rfl

/-- `Interleaved` is kept by every step: the step is one of the part of its client, and disturbs no
other client. -/
theorem interleaved_step (hown : P.Own clients) {p p' : Pool (Coro Op Resp Exc α) S} {i : ℕ}
    (hp : P.Interleaved clients s p) (hstep : p.step (Coro.resume h) i = some p') :
    P.Interleaved clients s p' := by
  obtain ⟨c, c', t', hc, hresume, rfl⟩ := Pool.step_eq_some_iff.mp hstep
  obtain ⟨hi', rfl⟩ := List.getElem?_eq_some_iff.mp hc
  have hi : i < clients.length := hp.length_eq ▸ hi'
  have hawaits := hp.awaits i hi hi'
  have hrun := hp.run_eq i hi hi'
  cases hci : p.clients[i] with
  | ret a => rw [hci] at hresume; cases hresume
  | raise e => rw [hci] at hresume; cases hresume
  | await op next =>
    rw [hci] at hresume hawaits hrun
    obtain ⟨rfl, rfl⟩ := Prod.mk.inj (Option.some.inj hresume)
    obtain ⟨hop, hnext⟩ := hawaits
    have hother : ∀ k, k ≠ clients[i].1 → P.part k (h op p.shared).2 = P.part k p.shared :=
      fun k hk => P.other hop hp.sound hk
    refine ⟨by rw [List.length_set, hp.length_eq], P.sound hop hp.sound, ?_, ?_, ?_⟩
    · intro j hj hj'
      rw [List.length_set] at hj'
      rw [List.getElem_set]
      split_ifs with hij
      · subst hij
        exact hnext _
      · exact hp.awaits j hj hj'
    · intro j hj hj'
      rw [List.length_set] at hj'
      rw [List.getElem_set]
      split_ifs with hij
      · subst hij
        rw [← hrun, Coro.run_await, P.own hop hp.sound]
      · have hne : clients[j].1 ≠ clients[i].1 := by
          intro heq
          have hsame :=
            List.inj_on_of_nodup_map hown.1 (List.getElem_mem hj) (List.getElem_mem hi) heq
          exact hij ((List.Nodup.of_map _ hown.1).getElem_inj_iff.mp hsame.symm)
        rw [hother _ hne]
        exact hp.run_eq j hj hj'
    · intro k hk
      rw [hother k fun heq => hk (heq ▸ List.mem_map_of_mem (List.getElem_mem hi))]
      exact hp.rest k hk

/-- Clients that have been run to the end, in any order, end as if they had run one after
another. -/
theorem pool_eq_serial (hown : P.Own clients) (hs : P.Sound s) {schedule : List ℕ}
    {p : Pool (Coro Op Resp Exc α) S}
    (hrun : (Pool.mk (clients.map Prod.snd) s).run (Coro.resume h) schedule = some p)
    (hended : ∀ c ∈ p.clients, c.outcome?.isSome) :
    (∀ k, P.part k p.shared = P.part k (Coro.serial h (clients.map Prod.snd) s)) ∧
      p.clients.map Coro.outcome? = (Coro.outcomes h (clients.map Prod.snd) s).map some := by
  obtain ⟨hserial, houtcomes⟩ := serial_spec hown hs
  have hp : P.Interleaved clients s p :=
    Pool.run_invariant (fun _ _ _ => interleaved_step hown) hrun (interleaved_start hown hs)
  -- a client that has ended has run on its part
  have hclient : ∀ (i : ℕ) (hi : i < clients.length) (hi' : i < p.clients.length),
      p.clients[i].outcome? = some (clients[i].2.run g (P.part clients[i].1 s)).1 ∧
        P.part clients[i].1 p.shared = (clients[i].2.run g (P.part clients[i].1 s)).2 := by
    intro i hi hi'
    obtain ⟨outcome, houtcome⟩ := Option.isSome_iff_exists.mp (hended _ (List.getElem_mem hi'))
    rw [← hp.run_eq i hi hi', Coro.run_of_outcome? g houtcome]
    exact ⟨houtcome, rfl⟩
  have hapart : P.Apart clients s p.shared := by
    refine ⟨fun client hmem => ?_, hp.rest⟩
    obtain ⟨i, hi, rfl⟩ := List.getElem_of_mem hmem
    exact (hclient i hi (hp.length_eq ▸ hi)).2
  refine ⟨hapart.part_eq hserial, ?_⟩
  rw [houtcomes, List.map_map]
  refine List.ext_getElem (by simp [hp.length_eq]) fun i hi hi' => ?_
  rw [List.getElem_map, List.getElem_map]
  exact (hclient i (by simpa using hi') (by simpa using hi)).1

/-! ## One part of several coroutines -/

/-- The client of this number works on the part. -/
def WorksOn (clients : List (κ × Coro Op Resp Exc α)) (k : κ) (i : ℕ) : Prop :=
  clients[i]?.map Prod.fst = some k

variable {k : κ}

instance [DecidableEq κ] : DecidablePred (WorksOn clients k) :=
  fun _ => inferInstanceAs (Decidable (_ = _))

/-- The turns of the clients that work on the part. -/
def turnsOn [DecidableEq κ] (clients : List (κ × Coro Op Resp Exc α)) (k : κ)
    (schedule : List ℕ) : List ℕ :=
  schedule.filter fun i => WorksOn clients k i

variable (P) in
/-- In the second pool only the clients that work on one part have had turns, and what has become of
them and of the part is the same. -/
structure SamePart (clients : List (κ × Coro Op Resp Exc α)) (k : κ)
    (p : Pool (Coro Op Resp Exc α) S) (q : Pool (Coro Op Resp Exc α) V) : Prop where
  sound : P.Sound p.shared
  awaits : ∀ (i : ℕ) (c : Coro Op Resp Exc α), p.clients[i]? = some c →
    ∃ client, clients[i]? = some client ∧ c.Awaits (P.concerns client.1)
  part_eq : q.shared = P.part k p.shared
  clients_eq : ∀ i, WorksOn clients k i → q.clients[i]? = p.clients[i]?

theorem samePart_start (hclients : ∀ client ∈ clients, client.2.Awaits (P.concerns client.1))
    (hs : P.Sound s) (k : κ) :
    P.SamePart clients k ⟨clients.map Prod.snd, s⟩ ⟨clients.map Prod.snd, P.part k s⟩ where
  sound := hs
  awaits i c hc := by
    rw [List.getElem?_map, Option.map_eq_some_iff] at hc
    obtain ⟨client, hclient, rfl⟩ := hc
    exact ⟨client, hclient, hclients client (List.mem_of_getElem? hclient)⟩
  part_eq := rfl
  clients_eq _ _ := rfl

variable [DecidableEq κ]

/-- A turn of a client that works on the part is one in the second pool, and a turn of another one
is not noticed there. -/
theorem samePart_step {p p' : Pool (Coro Op Resp Exc α) S} {q : Pool (Coro Op Resp Exc α) V} {i : ℕ}
    (hpq : P.SamePart clients k p q) (hstep : p.step (Coro.resume h) i = some p') :
    if WorksOn clients k i then
      ∃ q', q.step (Coro.resume g) i = some q' ∧ P.SamePart clients k p' q'
    else P.SamePart clients k p' q := by
  obtain ⟨c, c', t', hc, hresume, rfl⟩ := Pool.step_eq_some_iff.mp hstep
  obtain ⟨client, hclient, hawaits⟩ := hpq.awaits i c hc
  cases c with
  | ret a => cases hresume
  | raise e => cases hresume
  | await op next =>
    obtain ⟨rfl, rfl⟩ := Prod.mk.inj (Option.some.inj hresume)
    obtain ⟨hop, hnext⟩ := hawaits
    have hafter : ∀ (j : ℕ) (d : Coro Op Resp Exc α),
        (p.clients.set i (next (h op p.shared).1))[j]? = some d →
          ∃ client, clients[j]? = some client ∧ d.Awaits (P.concerns client.1) := by
      intro j d hd
      rw [List.getElem?_set] at hd
      split_ifs at hd with hij
      · subst hij
        obtain rfl := Option.some.inj hd
        exact ⟨client, hclient, hnext _⟩
      · exact hpq.awaits j d hd
    split_ifs with hworks
    · obtain rfl : client.1 = k := Option.some.inj ((congrArg _ hclient).symm.trans hworks)
      have hown := P.own hop hpq.sound
      rw [← hpq.part_eq] at hown
      have hqc := (hpq.clients_eq i hworks).trans hc
      refine ⟨⟨q.clients.set i (next (h op p.shared).1), P.part client.1 (h op p.shared).2⟩, ?_,
        P.sound hop hpq.sound, hafter, rfl, fun j hj => ?_⟩
      · refine Pool.step_eq_some_iff.mpr ⟨_, _, _, hqc, ?_, rfl⟩
        rw [Coro.resume, hown]
      · by_cases hij : i = j
        · subst hij
          rw [List.getElem?_set_self (List.getElem?_eq_some_iff.mp hqc).1,
            List.getElem?_set_self (List.getElem?_eq_some_iff.mp hc).1]
        · rw [List.getElem?_set_ne hij, List.getElem?_set_ne hij, hpq.clients_eq j hj]
    · have hne : k ≠ client.1 := by
        rintro rfl
        exact hworks (congrArg _ hclient)
      refine ⟨P.sound hop hpq.sound, hafter, ?_, fun j hj => ?_⟩
      · rw [hpq.part_eq, P.other hop hpq.sound hne]
      · have hij : i ≠ j := by
          rintro rfl
          exact hworks hj
        rw [List.getElem?_set_ne hij, hpq.clients_eq j hj]

/-- What a schedule makes of a part, and of the clients that work on it, is what their own turns
make of them. -/
theorem pool_part (hclients : ∀ client ∈ clients, client.2.Awaits (P.concerns client.1))
    (hs : P.Sound s) {schedule : List ℕ} {p : Pool (Coro Op Resp Exc α) S}
    (hrun : (Pool.mk (clients.map Prod.snd) s).run (Coro.resume h) schedule = some p) (k : κ) :
    ∃ q, (Pool.mk (clients.map Prod.snd) (P.part k s)).run (Coro.resume g)
        (turnsOn clients k schedule) = some q ∧ P.SamePart clients k p q := by
  suffices hgeneral : ∀ (p₀ : Pool (Coro Op Resp Exc α) S) (q₀ : Pool (Coro Op Resp Exc α) V),
      P.SamePart clients k p₀ q₀ → p₀.run (Coro.resume h) schedule = some p →
        ∃ q, q₀.run (Coro.resume g) (turnsOn clients k schedule) = some q ∧
          P.SamePart clients k p q from
    hgeneral _ _ (samePart_start hclients hs k) hrun
  clear hrun
  induction schedule with
  | nil =>
    intro p₀ q₀ hpq hrun
    obtain rfl := Option.some.inj hrun
    exact ⟨q₀, rfl, hpq⟩
  | cons i schedule ih =>
    intro p₀ q₀ hpq hrun
    obtain ⟨p₁, hstep, hrun⟩ := Pool.run_cons_eq_some_iff.mp hrun
    have hturn := samePart_step hpq hstep
    rw [turnsOn, List.filter_cons]
    by_cases hworks : WorksOn clients k i
    · rw [if_pos hworks] at hturn
      obtain ⟨q₁, hstep', hpq₁⟩ := hturn
      obtain ⟨q, hrun', hfinal⟩ := ih p₁ q₁ hpq₁ hrun
      rw [if_pos (decide_eq_true hworks)]
      exact ⟨q, Pool.run_cons_eq_some_iff.mpr ⟨q₁, hstep', hrun'⟩, hfinal⟩
    · rw [if_neg hworks] at hturn
      rw [if_neg (by simpa using hworks)]
      exact ih p₁ q₀ hturn hrun

end Handler.Parts
