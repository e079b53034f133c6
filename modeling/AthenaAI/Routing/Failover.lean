import AthenaAI.Resilience.CircuitBreaker.Recovery
import AthenaAI.Routing.Selection
import AthenaAI.ToMathlib.List

/-!
# Failover

What the router and the breakers are for together. A request is routed, and calls the model that it
is routed to through the breaker of its role; a model that is down is passed over.

* `RoutedCalls` is a router with the calls through its breakers. `RoutedCalls.step` is what happens
  when a request comes or a function ends, in any order. For the breaker of one role a run is a run
  of calls, `callsOf` (`lookup_after`).
* `admits_of_select`: a call is not rejected by the breaker of the role that was selected for it.
* `failover`: while one role is down and another one is up, every request is let through to a model,
  and only so many of them fail as its breaker needs to find out.
-/

open CircuitBreaker CallSystem ModelRouter

/-- A router, with the calls through the breakers of the roles. -/
structure RoutedCalls where
  /-- The models to choose from. -/
  catalog : List ModelMetadata
  /-- The breaker of each role, and the calls through it. -/
  calls : List (PyStr × CallSystem)

namespace RoutedCalls

/-- The router. -/
def router (s : RoutedCalls) : ModelRouter where
  catalog := s.catalog
  breakers := s.calls.map fun entry => (entry.1, entry.2.breaker)

/-- What happens. -/
inductive Event where
  /-- A request is routed, and calls the selected model. The clock may move on while the router
  looks at its entries. -/
  | request (context : RoutingContext) (policy : Option RoutingPolicy) (clock : ℕ → ℚ)
  /-- The function of a running call ends. -/
  | finish (role : PyStr) (id : ℕ) (outcome : Outcome)

/-- What the event is for the breaker of a role. -/
def callOf (s : RoutedCalls) (role : PyStr) : Event × ℚ → Option (CallEvent × ℚ)
  | (.request context policy clock, now) =>
    match s.router.select context policy clock with
    | .ok decision => if decision.selectedRole = role then some (.begin, now) else none
    | .error _ => none
  | (.finish role' id outcome, now) =>
    if role' = role then some (.finish id outcome, now) else none

/-- One event, with its clock reading. -/
def step (s : RoutedCalls) (e : Event × ℚ) : RoutedCalls where
  catalog := s.catalog
  calls := s.calls.map fun entry =>
    (entry.1, (s.callOf entry.1 e).elim entry.2 entry.2.stepCall)

/-- The calls of a run through the breaker of a role. -/
def callsOf (s : RoutedCalls) (role : PyStr) (es : List (Event × ℚ)) : List (CallEvent × ℚ) :=
  (Run.steps step s es).filterMap fun t => t.before.callOf role t.event

/-- A request fails at the event: no model is there for it, its call is rejected, or the function of
its call raises. -/
def fails (s : RoutedCalls) : Event × ℚ → Bool
  | (.request context policy clock, now) =>
    match s.router.select context policy clock with
    | .ok decision =>
      (s.calls.lookup decision.selectedRole).any fun calls => !calls.admits (.begin, now)
    | .error _ => true
  | (.finish role id outcome, _) =>
    outcome = .exception &&
      (s.calls.lookup role).any fun calls => calls.running.any fun r => r.id = id

/-- The number of requests that fail in a run. -/
def failures (s : RoutedCalls) (es : List (Event × ℚ)) : ℕ :=
  (Run.steps step s es).countP fun t => t.before.fails t.event

variable {s : RoutedCalls} {role down : PyStr} {c : CallSystem} {now : ℚ}

/-! ## The calls of a role -/

/-- An event changes the calls of the role that it concerns, by the step that `callOf` makes of it,
and of no other role. -/
theorem lookup_step (s : RoutedCalls) (role : PyStr) (e : Event × ℚ) :
    (s.step e).calls.lookup role =
      (s.calls.lookup role).map fun c => (s.callOf role e).elim c c.stepCall :=
  List.lookup_map_snd (fun role (c : CallSystem) => (s.callOf role e).elim c c.stepCall) s.calls
    role

/-- The breaker that the router sees under a role is that of the calls of this role, at every
moment. -/
theorem lookup_breakers (s : RoutedCalls) (role : PyStr) :
    s.router.breakers.lookup role = (s.calls.lookup role).map CallSystem.breaker :=
  List.lookup_map_snd (fun _ => CallSystem.breaker) s.calls role

/-- `callsOf` of a run goes through its steps, with what `callOf` finds of the role in each of
them. -/
theorem callsOf_cons (s : RoutedCalls) (role : PyStr) (e : Event × ℚ) (es : List (Event × ℚ)) :
    s.callsOf role (e :: es) = (s.callOf role e).toList ++ (s.step e).callsOf role es := by
  unfold callsOf
  rw [Run.steps_cons, List.filterMap_cons]
  cases s.callOf role e with
  | none => rfl
  | some e' => rfl

/-- A run of the router is, for each role, a run of `stepCall` on the events that `callsOf` picks
out: the results about one breaker apply to each. -/
theorem lookup_after (h : s.calls.lookup role = some c) (es : List (Event × ℚ)) :
    (Run.after step s es).calls.lookup role =
      some (Run.after stepCall c (s.callsOf role es)) := by
  induction es generalizing s c with
  | nil => exact h
  | cons e es ih =>
    have hstep := s.lookup_step role e
    rw [h, Option.map_some] at hstep
    rw [Run.after_cons, ih hstep, callsOf_cons]
    cases s.callOf role e with
    | none => rfl
    | some e' => rfl

theorem catalog_after (s : RoutedCalls) (es : List (Event × ℚ)) :
    (Run.after step s es).catalog = s.catalog :=
  @Run.invariant _ _ step (fun s' => s'.catalog = s.catalog) (fun _ _ h => h) s rfl es

/-! ## Every routed call is let through -/

/-- What `select` returns is the role of a `Usable` model, whatever the context and the policy. -/
theorem exists_usable_of_select {router : ModelRouter} {context : RoutingContext}
    {policy : Option RoutingPolicy} {clock : ℕ → ℚ} {decision : RoutingDecision}
    (h : router.select context policy clock = .ok decision) :
    ∃ i model, router.Usable clock i model ∧ model.role = decision.selectedRole := by
  have hne : router.available clock ≠ [] := by
    intro hnil
    unfold select at h
    rw [hnil] at h
    cases h
  obtain ⟨i, model, hbest, hright⟩ :=
    exists_best hne context.estimatedInputTokens (policy.getD .default)
  have husable : router.Usable clock i model := by
    by_cases hpreferred : ∃ j m, router.Preferred clock context.estimatedInputTokens j m
    · exact (hright.preferred hpreferred).1.1
    · exact (hright.ranked hpreferred).1.1
  unfold select at h
  dsimp only at h
  rw [hbest, if_neg (by simpa using hne)] at h
  exact ⟨i, model, husable, by rw [← Except.ok.inj h]; rfl⟩

/-- Where a model is `Usable`, `select` returns and does not raise the `ModelUnavailableError`. -/
theorem exists_select {router : ModelRouter} {clock : ℕ → ℚ} {i : ℕ} {model : ModelMetadata}
    (h : router.Usable clock i model) (context : RoutingContext) (policy : Option RoutingPolicy) :
    ∃ decision, router.select context policy clock = .ok decision := by
  have hne : router.available clock ≠ [] := fun hnil => available_eq_nil_iff.mp hnil ⟨i, model, h⟩
  obtain ⟨_, best, hbest, -⟩ :=
    exists_best hne context.estimatedInputTokens (policy.getD .default)
  unfold select
  dsimp only
  rw [hbest, if_neg (by simpa using hne)]
  exact ⟨_, rfl⟩

/-- A breaker that the router takes for closed admits a call, then or later: `is_open` errs only in
the other direction. -/
theorem admits_of_not_isOpen {looked : ℚ} (hle : looked ≤ now)
    (h : ¬(c.breaker.state = .OPEN ∧ c.breaker.isOpen looked = true)) :
    c.admits (.begin, now) = true := by
  have hne : (c.checked now).breaker.state ≠ .OPEN := by
    show (c.breaker.maybeTransitionToHalfOpen now).state ≠ .OPEN
    by_cases hstate : c.breaker.state = .OPEN
    · have hclosed := Bool.eq_false_of_not_eq_true fun hopen => h ⟨hstate, hopen⟩
      unfold CircuitBreaker.isOpen at hclosed
      rw [hstate] at hclosed
      cases hat : c.breaker.openedAt with
      | none => simp [hat] at hclosed
      | some openedAt =>
        rw [hat] at hclosed
        have helapsed : c.breaker.cooldownS ≤ looked - openedAt := by
          simp only [Bool.not_eq_false', Bool.and_eq_true, decide_eq_true_eq] at hclosed
          exact hclosed.2
        rw [maybeTransitionToHalfOpen_of_open hstate hat, if_pos (by linarith)]
        exact nofun
    · rw [maybeTransitionToHalfOpen_of_ne_open hstate]
      exact hstate
  show (c.begin now).2.isOk = true
  rw [begin_of_ne_open hne]
  rfl

/-- A call is not rejected by the breaker of the role that `select` returned for it, at any clock
reading from then on. -/
theorem admits_of_select {context : RoutingContext} {policy : Option RoutingPolicy}
    {clock : ℕ → ℚ} {decision : RoutingDecision}
    (h : s.router.select context policy clock = .ok decision) (hclock : ∀ i, clock i ≤ now)
    (hc : s.calls.lookup decision.selectedRole = some c) : c.admits (.begin, now) = true := by
  obtain ⟨i, model, ⟨-, -, hopen⟩, hrole⟩ := exists_usable_of_select h
  refine admits_of_not_isOpen (hclock i) fun hstuck => hopen ?_
  unfold isCircuitOpen
  rw [hrole, lookup_breakers, hc]
  exact (Bool.and_eq_true _ _).mpr ⟨decide_eq_true hstuck.1, hstuck.2⟩

/-! ## One role is down -/

/-- Functions raise for the role `down`, and for no other one. -/
def Down (down : PyStr) (es : List (Event × ℚ)) : Prop :=
  ∀ e ∈ es, ∀ role id outcome, e.1 = .finish role id outcome → (outcome = .exception ↔ role = down)

/-- The clock readings of a run lie between two times and never decrease. -/
structure Within (began ended : ℚ) (es : List (Event × ℚ)) : Prop where
  nondecreasing : ClockNondecreasing es
  bounds : ∀ e ∈ es, began ≤ e.2 ∧ e.2 ≤ ended
  /-- The router looks at the clock before the call does. -/
  clock : ∀ e ∈ es, ∀ context policy clock, e.1 = .request context policy clock →
    ∀ i, clock i ≤ e.2

/-- The breaker has come out of some history. -/
def Grown (c : CallSystem) : Prop :=
  ∃ failureThreshold cooldownS halfOpenProbeCount before,
    c = Run.after CallSystem.step (.start (init failureThreshold cooldownS halfOpenProbeCount))
      before

/-- There is a model that is marked available, not of the role `down`, and not behind an open
circuit. -/
def Stands (s : RoutedCalls) (down : PyStr) : Prop :=
  ∃ (i : ℕ) (model : ModelMetadata),
    s.catalog[i]? = some model ∧ model.isAvailable ∧ model.role ≠ down ∧ ∀ c,
      s.calls.lookup model.role = some c → Grown c ∧ c.breaker.state ≠ .OPEN

/-- A breaker that is `Grown` out of some history is one that the invariants of `Reached` hold
of. -/
theorem Grown.reached (h : Grown c) : ∃ cb, c.Reached cb := by
  obtain ⟨failureThreshold, cooldownS, halfOpenProbeCount, before, rfl⟩ := h
  exact ⟨_, reached_after (sound_init failureThreshold cooldownS halfOpenProbeCount) before⟩

/-- A call that `callOf` finds is at the time of the event, and is an end only where the event says
so. -/
theorem callOf_eq_some {e : Event × ℚ} {e' : CallEvent × ℚ} (h : s.callOf role e = some e') :
    e'.2 = e.2 ∧ ∀ id outcome, e'.1 = .finish id outcome → e.1 = .finish role id outcome := by
  obtain ⟨event, now⟩ := e
  cases event with
  | request context policy clock =>
    dsimp only [callOf] at h
    split at h
    · split_ifs at h
      obtain rfl := Option.some.inj h
      exact ⟨rfl, nofun⟩
    · cases h
  | finish role' id outcome =>
    dsimp only [callOf] at h
    split_ifs at h with hrole
    obtain rfl := Option.some.inj h
    refine ⟨rfl, fun id' outcome' heq => ?_⟩
    obtain ⟨rfl, rfl⟩ := CallEvent.finish.inj heq
    rw [hrole]

theorem mem_callsOf {e' : CallEvent × ℚ} {es : List (Event × ℚ)} (h : e' ∈ s.callsOf role es) :
    ∃ e ∈ es, e'.2 = e.2 ∧ ∀ id outcome, e'.1 = .finish id outcome →
      e.1 = .finish role id outcome := by
  obtain ⟨t, ht, hcall⟩ := List.mem_filterMap.mp h
  exact ⟨t.event, Run.steps_map_event step s es ▸ List.mem_map_of_mem ht, callOf_eq_some hcall⟩

theorem clockNondecreasing_callsOf {es : List (Event × ℚ)} (h : ClockNondecreasing es) :
    ClockNondecreasing (s.callsOf role es) := by
  have hevents : ((Run.steps step s es).map Run.Step.event).Pairwise fun e e' => e.2 ≤ e'.2 := by
    rw [Run.steps_map_event]
    exact h
  refine List.pairwise_filterMap.mpr ((List.pairwise_map.mp hevents).imp fun hle a ha b hb => ?_)
  rw [(callOf_eq_some ha).1, (callOf_eq_some hb).1]
  exact hle

/-- A further event of the run adds to the calls of a role what `callOf` makes of it in the state
before. -/
theorem callsOf_concat (s : RoutedCalls) (role : PyStr) (es : List (Event × ℚ)) (e : Event × ℚ) :
    s.callsOf role (es ++ [e]) =
      s.callsOf role es ++ ((Run.after step s es).callOf role e).toList := by
  unfold callsOf
  rw [Run.steps_concat, List.filterMap_append]
  rfl

/-- A first part of the calls of a role belongs to a first part of the run. -/
theorem exists_prefix_of_prefix_callsOf {es : List (Event × ℚ)} {calls : List (CallEvent × ℚ)}
    (h : calls <+: s.callsOf role es) : ∃ pre, pre <+: es ∧ calls = s.callsOf role pre := by
  induction es using List.reverseRecOn with
  | nil => exact ⟨[], List.prefix_refl _, List.prefix_nil.mp h⟩
  | append_singleton es e ih =>
    rw [callsOf_concat] at h
    have hshort (h : calls <+: s.callsOf role es) :
        ∃ pre, pre <+: es ++ [e] ∧ calls = s.callsOf role pre := by
      obtain ⟨pre, hpre, heq⟩ := ih h
      exact ⟨pre, hpre.trans (List.prefix_append _ _), heq⟩
    cases hcall : (Run.after step s es).callOf role e with
    | none =>
      rw [hcall, Option.toList_none, List.append_nil] at h
      exact hshort h
    | some e' =>
      rw [hcall, Option.toList_some] at h
      obtain heq | h := List.prefix_concat_iff.mp h
      · refine ⟨es ++ [e], List.prefix_refl _, ?_⟩
        rw [callsOf_concat, hcall]
        exact heq
      · exact hshort h

/-- While one role is `Down`, the calls of every other role are `Alive`: none ends in an
exception. -/
theorem alive_callsOf {es : List (Event × ℚ)} (hdown : Down down es) (hrole : role ≠ down) :
    Alive (s.callsOf role es) := by
  intro e' he' id hfinish
  obtain ⟨e, he, -, hevent⟩ := mem_callsOf he'
  exact hrole ((hdown e he role id .exception (hevent id _ hfinish)).mp rfl)

/-- While a role is `Down`, its calls are `Dead`: each of them ends in an exception, if it ends. -/
theorem dead_callsOf {es : List (Event × ℚ)} (hdown : Down down es) :
    Dead (s.callsOf down es) := by
  intro e' he' id outcome hfinish
  obtain ⟨e, he, -, hevent⟩ := mem_callsOf he'
  exact (hdown e he down id outcome (hevent id outcome hfinish)).mpr rfl

/-- A circuit that is not open stays so in a run that is `Alive`. -/
theorem state_ne_open_after (hc : c.WellFormed) (hstate : c.breaker.state ≠ .OPEN)
    {es : List (CallEvent × ℚ)} (halive : Alive es) :
    (Run.after stepCall c es).breaker.state ≠ .OPEN := by
  have hrecovering : Recovering 0 c.breaker := by
    cases hs : c.breaker.state with
    | CLOSED => exact .inr ⟨hs, fun hpos => absurd hpos (lt_irrefl 0)⟩
    | OPEN => exact absurd hs hstate
    | HALF_OPEN => exact .inl ⟨hs, Nat.zero_le _⟩
  exact (recovering_after hc hrecovering halive).1.ne_open

/-- What `Stands` besides the role that is down goes on standing: at every later time some model is
`Usable`. -/
theorem exists_usable_after (hstands : s.Stands down) {es : List (Event × ℚ)}
    (hdown : Down down es) (clock : ℕ → ℚ) :
    ∃ i model, (Run.after step s es).router.Usable clock i model := by
  obtain ⟨i, model, hmodel, havailable, hrole, hbreaker⟩ := hstands
  refine ⟨i, model, (congrArg (·[i]?) (s.catalog_after es)).trans hmodel, havailable, ?_⟩
  unfold isCircuitOpen
  rw [lookup_breakers]
  cases hc : s.calls.lookup model.role with
  | none =>
    have hnone : (Run.after step s es).calls.lookup model.role = none := by
      refine @Run.invariant _ _ step (fun s' => s'.calls.lookup model.role = none) ?_ s hc es
      intro s' e hs'
      rw [lookup_step, hs']
      rfl
    rw [hnone]
    exact Bool.false_ne_true
  | some c =>
    obtain ⟨hgrown, hstate⟩ := hbreaker c hc
    obtain ⟨cb, hreached⟩ := hgrown.reached
    have halive : Alive (s.callsOf model.role es) := alive_callsOf hdown hrole
    have hclosed := state_ne_open_after hreached.wellFormed hstate halive
    rw [lookup_after hc es]
    simp [hclosed]

/-! ## The failures are those of the role -/

/-- The beginning of a call adds one running function at most, and none if the breaker rejects
it. -/
theorem length_running_begin_le (hc : c.WellFormed) :
    (c.stepCall (.begin, now)).running.length ≤
      c.running.length + if c.admits (.begin, now) then 1 else 0 := by
  have hcase := stepCall_case hc (.begin, now)
  generalize c.stepCall (.begin, now) = c' at hcase ⊢
  cases hcase with
  | reject _ hadmits hstate hcooling hbreaker hrunning => exact hrunning ▸ Nat.le_add_right _ _
  | admitted _ hadmits hstate hbreaker hrunning => rw [hadmits, hrunning, if_pos rfl]
  | probe _ openedAt hadmits hstate hat helapsed hbreaker hrunning =>
    rw [hadmits, hrunning, if_pos rfl]

/-- The end of a call takes the function that ends off those running, if it was among them. -/
theorem length_running_finish (hc : c.WellFormed) (id : ℕ) (outcome : Outcome) (now : ℚ) :
    (c.stepCall (.finish id outcome, now)).running.length +
      (if c.running.any fun r => r.id = id then 1 else 0) = c.running.length := by
  show (c.finish id outcome now).running.length + _ = _
  unfold finish
  by_cases hrunning : (c.running.any fun r => r.id = id) = true
  · rw [if_pos hrunning, if_pos hrunning]
    obtain ⟨r, hr, hid⟩ := List.any_eq_true.mp hrunning
    obtain rfl := of_decide_eq_true hid
    exact length_filter_running hc hr
  · rw [if_neg hrunning, if_neg hrunning, Nat.add_zero]

/-- What fails at an event is a function of the role that is down, and then it no longer runs: the
step of the count of failures. -/
theorem fails_add_running_le (hc : s.calls.lookup down = some c) (hwf : c.WellFormed)
    {e : Event × ℚ}
    (hserved : ∀ context policy clock, e.1 = .request context policy clock → s.fails e = false)
    (hdown : ∀ role id outcome, e.1 = .finish role id outcome →
      (outcome = .exception ↔ role = down)) :
    (if s.fails e then 1 else 0) + ((s.callOf down e).elim c c.stepCall).running.length ≤
      c.running.length + (s.callOf down e).elim 0 fun e' => if c.admits e' then 1 else 0 := by
  obtain ⟨event, now⟩ := e
  cases event with
  | request context policy clock =>
    rw [hserved context policy clock rfl, if_neg Bool.false_ne_true, Nat.zero_add]
    dsimp only [callOf]
    split
    · split_ifs
      · exact length_running_begin_le hwf
      · exact Nat.le_refl _
    · exact Nat.le_refl _
  | finish role id outcome =>
    by_cases hrole : role = down
    · subst hrole
      have hcall : s.callOf role (.finish role id outcome, now) = some (.finish id outcome, now) :=
        if_pos rfl
      have hrunning := length_running_finish hwf id outcome now
      have hnotAdmits : c.admits (.finish id outcome, now) = false := rfl
      rw [hcall, Option.elim_some, Option.elim_some, hnotAdmits, if_neg Bool.false_ne_true]
      split_ifs with hfails
      · dsimp only [fails] at hfails
        rw [hc, Option.any_some] at hfails
        rw [if_pos ((Bool.and_eq_true _ _).mp hfails).2] at hrunning
        omega
      · omega
    · have hcall : s.callOf down (.finish role id outcome, now) = none := if_neg hrole
      have hfails : s.fails (.finish role id outcome, now) = false := by
        rw [Bool.eq_false_iff]
        intro h
        have hexception := of_decide_eq_true ((Bool.and_eq_true _ _).mp h).1
        exact hrole ((hdown role id outcome rfl).mp hexception)
      rw [hcall, hfails]
      exact (Nat.zero_add _).le

/-- `failures` of a run counts its first event exactly if the request of it fails. -/
theorem failures_cons (s : RoutedCalls) (e : Event × ℚ) (es : List (Event × ℚ)) :
    s.failures (e :: es) = (if s.fails e then 1 else 0) + (s.step e).failures es := by
  rw [failures, Run.steps_cons, List.countP_cons, add_comm]
  rfl

/-- As long as no request fails when it is made, the failures and the functions that still run were
running at first or have been admitted since, all for the role that is down. By induction on the
run. -/
theorem failures_add_running_le {es : List (Event × ℚ)}
    (hc : s.calls.lookup down = some c) (hwf : c.WellFormed)
    (hserved : ∀ t ∈ Run.steps step s es, ∀ context policy clock,
      t.event.1 = .request context policy clock → t.before.fails t.event = false)
    (hdown : Down down es) :
    s.failures es + (Run.after stepCall c (s.callsOf down es)).running.length ≤
      c.running.length + admissions c (s.callsOf down es) := by
  -- by induction on the run; what begins adds a function, and what fails takes one away
  induction es generalizing s c with
  | nil => exact (Nat.zero_add _).le
  | cons e es ih =>
    rw [Run.steps_cons, List.forall_mem_cons] at hserved
    have hone := fails_add_running_le hc hwf hserved.1 fun role id outcome h =>
      hdown e List.mem_cons_self role id outcome h
    have hstep := s.lookup_step down e
    rw [hc, Option.map_some] at hstep
    have hrest := ih hstep
      (by cases s.callOf down e with
        | none => exact hwf
        | some e' => exact wellFormed_stepCall c e' hwf)
      hserved.2 fun e' he' => hdown e' (List.mem_cons_of_mem e he')
    rw [failures_cons, callsOf_cons]
    cases hcall : s.callOf down e with
    | none =>
      rw [hcall] at hone hrest
      simp only [Option.elim_none, Option.toList_none, List.nil_append] at hone hrest ⊢
      omega
    | some e' =>
      rw [hcall] at hone hrest
      have hadmissions : admissions c (e' :: (s.step e).callsOf down es) =
          (if c.admits e' then 1 else 0) +
            admissions (c.stepCall e') ((s.step e).callsOf down es) := by
        rw [admissions, Run.steps_cons, List.countP_cons, add_comm]
        rfl
      simp only [Option.elim_some, Option.toList_some, List.singleton_append] at hone hrest ⊢
      rw [hadmissions, Run.after_cons]
      omega

/-- While functions raise for one role and for no other (`Down`), and some model of another role
`Stands`, every request is let through to a model; and no more requests fail than have been
running and the `allowance` of the breaker of the role lets through in the time between `began`
and `ended`. -/
theorem failover {es : List (Event × ℚ)} {began ended : ℚ} {limit : ℕ}
    (hc : s.calls.lookup down = some c) (hgrown : Grown c) (hcooldown : 0 < c.breaker.cooldownS)
    (hstands : s.Stands down) (hwithin : Within began ended es) (hdown : Down down es)
    (hlimit : ∀ pre, pre <+: es → ∀ c', (Run.after step s pre).calls.lookup down = some c' →
      c'.running.length ≤ limit) :
    (∀ t ∈ Run.steps step s es, ∀ context policy clock,
      t.event.1 = .request context policy clock →
        ∃ decision, t.before.router.select context policy clock = .ok decision ∧
          ∀ c', t.before.calls.lookup decision.selectedRole = some c' →
            c'.admits (.begin, t.event.2) = true) ∧
      s.failures es ≤ c.running.length + c.breaker.allowance limit (ended - began) := by
  have hserved : ∀ t ∈ Run.steps step s es, ∀ context policy clock,
      t.event.1 = .request context policy clock →
        ∃ decision, t.before.router.select context policy clock = .ok decision ∧
          ∀ c', t.before.calls.lookup decision.selectedRole = some c' →
            c'.admits (.begin, t.event.2) = true := by
    intro t ht context policy clock hevent
    have hmem : t.event ∈ es := Run.steps_map_event step s es ▸ List.mem_map_of_mem ht
    obtain ⟨pre, e, post, rfl, rfl⟩ := (Run.mem_steps_iff step).mp ht
    obtain ⟨i, model, husable⟩ := exists_usable_after hstands
      (fun e' he' => hdown e' (List.mem_append_left (e :: post) he')) clock
    obtain ⟨decision, hdecision⟩ := exists_select husable context policy
    exact ⟨decision, hdecision, fun c' hc' => admits_of_select hdecision
      (hwithin.clock _ hmem context policy clock hevent) hc'⟩
  refine ⟨hserved, ?_⟩
  obtain ⟨cb, hreached⟩ := hgrown.reached
  have hcount : s.failures es + (Run.after stepCall c (s.callsOf down es)).running.length ≤
      c.running.length + admissions c (s.callsOf down es) := by
    refine failures_add_running_le hc hreached.wellFormed ?_ hdown
    intro t ht context policy clock hevent
    obtain ⟨decision, hdecision, hadmits⟩ := hserved t ht context policy clock hevent
    obtain ⟨before, ⟨event, now⟩, after⟩ := t
    obtain rfl : event = .request context policy clock := hevent
    dsimp only [fails] at hdecision ⊢
    rw [hdecision]
    dsimp only
    cases hrole : before.calls.lookup decision.selectedRole with
    | none => exact Option.any_none
    | some c' =>
      have hadmitted : c'.admits (.begin, now) = true := hadmits c' hrole
      simp [hadmitted]
  have hatMost : AtMost limit c (s.callsOf down es) := by
    intro calls hcalls
    obtain ⟨pre, hpre, rfl⟩ := exists_prefix_of_prefix_callsOf hcalls
    exact hlimit pre hpre _ (lookup_after hc pre)
  have hbounds : ∀ e' ∈ s.callsOf down es, began ≤ e'.2 ∧ e'.2 ≤ ended := by
    intro e' he'
    obtain ⟨e, he, heq, -⟩ := mem_callsOf he'
    rw [heq]
    exact hwithin.bounds e he
  have hself : c.Reached c.breaker := ⟨hreached.wellFormed, hreached.sound, rfl, rfl, rfl⟩
  have hafter := reached_stepCall hself (s.callsOf down es)
  have hcharged := charged_after hcooldown hself
    (clockNondecreasing_callsOf hwithin.nondecreasing) (fun e he => (hbounds e he).1)
    (fun e he => (hbounds e he).2) (dead_callsOf hdown) hatMost
  have hallowance := hcharged.le_allowance hafter.sound (hafter.cooldownS ▸ hcooldown)
    (hatMost _ (List.prefix_refl _))
  rw [allowance, hafter.failureThreshold, hafter.cooldownS] at hallowance
  exact (Nat.le_add_right _ _).trans (hcount.trans (Nat.add_le_add_left hallowance _))

/-- A model with a breaker that asks for one failure, and one without a breaker. -/
def fastAndDefault : RoutedCalls where
  catalog := [⟨"fast".toList, 1/2, 1/100, 200, true⟩, ⟨"default".toList, 1/2, 1/100, 200, true⟩]
  calls := [("fast".toList, .start (init 1 1 1))]

/-- The first of three short requests fails. -/
def threeRequests : List (Event × ℚ) :=
  [(.request ⟨100⟩ none fun _ => 1, 1), (.finish "fast".toList 0 .exception, 2),
    (.request ⟨100⟩ none fun _ => 2, 2), (.request ⟨100⟩ none fun _ => 5/2, 5/2)]

theorem grown_start (failureThreshold : ℕ) (cooldownS : ℚ) (halfOpenProbeCount : ℕ) :
    Grown (.start (init failureThreshold cooldownS halfOpenProbeCount)) :=
  ⟨failureThreshold, cooldownS, halfOpenProbeCount, [], rfl⟩

/-- `failover` for three requests while functions raise for the role `fast`: the first one trips its
breaker, and the other two are let through to the model without a breaker. -/
theorem failover_threeRequests :
    fastAndDefault.failures threeRequests = 1 ∧
      fastAndDefault.failures threeRequests ≤ 0 + (init 1 1 1).allowance 1 (5/2 - 1) := by
  have hlimit : ∀ pre, pre <+: threeRequests → ∀ c',
      (Run.after step fastAndDefault pre).calls.lookup "fast".toList = some c' →
        c'.running.length ≤ 1 := by
    have hall : (threeRequests.inits.all fun pre =>
        ((Run.after step fastAndDefault pre).calls.lookup "fast".toList).all fun c' =>
          c'.running.length ≤ 1) = true := by
      decide +kernel
    intro pre hpre c' hc'
    have hone := List.all_eq_true.mp hall pre ((List.mem_inits _ _).mpr hpre)
    rw [hc'] at hone
    exact of_decide_eq_true hone
  have hnone : fastAndDefault.calls.lookup "default".toList = none := rfl
  have hstands : fastAndDefault.Stands "fast".toList :=
    ⟨1, _, rfl, rfl, by decide, fun _ hc =>
      (Option.some_ne_none _ (hc.symm.trans hnone)).elim⟩
  have hdown : Down "fast".toList threeRequests := by
    simp [Down, threeRequests]
  have hwithin : Within 1 (5/2) threeRequests := by
    constructor
    · simp [ClockNondecreasing, threeRequests]
      norm_num
    · simp [threeRequests]
      norm_num
    · simp [threeRequests]
  refine ⟨by decide +kernel, ?_⟩
  exact (failover rfl (grown_start 1 1 1) (by decide : (0 : ℚ) < 1) hstands hwithin hdown hlimit).2

end RoutedCalls
