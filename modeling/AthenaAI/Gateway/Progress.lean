import AthenaAI.Gateway.Concurrency
import AthenaAI.ToMathlib.SemaphoreProgress

/-!
# Requests do not block one another

Requests to the three endpoints, handled at the same time by one application. The model may raise at
any call; every message to a client is taken to arrive.

* A chat that is built asks for the permit of the runtime before all else, and nothing else does:
  `asks_handle`, `permitFree_handle`.
* `responsive_protocol`: no operation is stuck but for want of a permit. With it the results of
  `SemaphoreProgress` apply to the `protocol` of the gateway.
* `Application.answered_iff`: however the handlers are interleaved, all requests are answered in the
  end, whatever the model raises on the way, and all permits are back. The exception is a cap of
  zero, with which no chat is answered at all.
-/

namespace Gateway

open Semaphore

/-- The protocol is `Responsive`: the model, the semaphore, the tools and the client may all answer,
so no operation is stuck but for want of a permit. -/
theorem responsive_protocol : protocol.Responsive := by
  intro op
  cases op with
  | acquire => exact ⟨(), rfl⟩
  | release => exact ⟨(), rfl⟩
  | generate _ => exact ⟨(), trivial⟩
  | response => exact ⟨⟨[], [], 0, 0, [], []⟩, trivial⟩
  | stream _ => exact ⟨[], trivial⟩
  | streamEnd => exact ⟨(), trivial⟩
  | gather _ _ => exact ⟨fun _ => .ok .none, rfl⟩
  | send _ => exact ⟨(), rfl⟩
  | count _ _ => exact ⟨(), rfl⟩
  | countIterations _ => exact ⟨(), rfl⟩

/-! ## Which requests ask for a permit -/

variable {α : Type}

/-- A call of the model does not touch the semaphore; what holds a permit is the block around it. -/
theorem permitFree_callModel (request : ModelRequest) :
    protocol.PermitFree (App.callModel request) :=
  Coro.Awaits.bind (.perform Kind.noConfusion) fun _ => .perform Kind.noConfusion

theorem permitFree_loopStepwise (executor : AgentExecutor) (lim : Json.Limits) (loads : Loads)
    (system : PyStr) (left k : ℕ) (s : AgentExecutor.LoopState) :
    protocol.PermitFree (executor.loopStepwise lim loads system left k s) := by
  induction left generalizing k s with
  | zero => exact Coro.Awaits.ofExcept _
  | succ left ih =>
    apply Coro.Awaits.bind (permitFree_callModel _)
    intro response
    apply Coro.Awaits.bind (.ofExcept _)
    intro calls
    refine Coro.Awaits.bind ?_ fun outcomes => ?_
    · unfold AgentExecutor.awaitTools
      split_ifs
      · exact trivial
      · exact .perform Kind.noConfusion
    · refine Coro.Awaits.bind (.ofExcept _) fun r => ?_
      cases r with
      | inl s' => exact ih (k + 1) s'
      | inr result => exact trivial

/-- An agent run never asks for a permit, whichever models and tools it awaits. -/
theorem permitFree_agentRun (app : Application) (body : AgentRunRequest) :
    protocol.PermitFree (agentRun app body) := by
  refine Coro.Awaits.bind (Coro.Awaits.attempt ?_) fun outcome => ?_
  · refine Coro.Awaits.bind ?_ fun result => ?_
    · apply Coro.Awaits.bind (.ofExcept _)
      intro system
      apply Coro.Awaits.bind (.ofExcept _)
      intro status
      exact permitFree_loopStepwise _ _ _ _ _ _ _
    · apply Coro.Awaits.bind (.perform Kind.noConfusion)
      intro _
      exact Coro.Awaits.bind (.perform Kind.noConfusion) fun _ => trivial
  · cases outcome with
    | ok result => exact Coro.Awaits.bind (.ofExcept _) fun _ => trivial
    | error exc =>
      exact Coro.Awaits.bind (.perform Kind.noConfusion) fun _ =>
        Coro.Awaits.bind (.ofExcept _) fun _ => trivial

end Gateway

namespace Application

/-- The request is for a chat that is built. -/
def asks (app : Application) (request : Request) : Bool :=
  app.reachesModel request && !request.isAgentRun

/-- A chat whose request is built (`asks`) waits for a permit before it does anything else. -/
theorem asks_handle {app : Application} {request : Request} (h : app.asks request = true) :
    Gateway.protocol.Asks (app.handle request) := by
  obtain ⟨hreaches, hchat⟩ := (Bool.and_eq_true _ _).mp h
  have hreturns (e : PyExc) : ¬Gateway.protocol.Possible .acquire (.error e) :=
    Bool.false_ne_true
  cases request with
  | chat uuid4 body =>
    obtain ⟨request, hrequest⟩ := Except.isOk_eq_true_iff.mp hreaches
    show Gateway.protocol.Asks (Gateway.chat uuid4 body >>= _)
    unfold Gateway.chat
    rw [hrequest]
    exact ⟨.acquire, _, rfl, rfl, hreturns⟩
  | chatStream uuid4 body =>
    obtain ⟨request, hrequest⟩ := Except.isOk_eq_true_iff.mp hreaches
    show Gateway.protocol.Asks (Gateway.chatStream uuid4 body >>= _)
    unfold Gateway.chatStream
    rw [hrequest]
    exact ⟨.acquire, _, rfl, rfl, hreturns⟩
  | agentRun body => exact absurd hchat Bool.false_ne_true

/-- Every other request comes to its end without asking for a permit: an agent run, and a chat whose
body is refused. -/
theorem permitFree_handle {app : Application} {request : Request} (h : app.asks request = false) :
    Gateway.protocol.PermitFree (app.handle request) := by
  cases request with
  | chat uuid4 body =>
    have hreaches : app.reachesModel (.chat uuid4 body) = false := (Bool.and_true _).symm.trans h
    obtain ⟨e, hrequest⟩ := Except.isOk_eq_false_iff.mp hreaches
    show Gateway.protocol.PermitFree (Gateway.chat uuid4 body >>= _)
    unfold Gateway.chat
    rw [hrequest]
    exact trivial
  | chatStream uuid4 body =>
    have hreaches : app.reachesModel (.chatStream uuid4 body) = false :=
      (Bool.and_true _).symm.trans h
    obtain ⟨e, hrequest⟩ := Except.isOk_eq_false_iff.mp hreaches
    show Gateway.protocol.PermitFree (Gateway.chatStream uuid4 body >>= _)
    unfold Gateway.chatStream
    rw [hrequest]
    exact trivial
  | agentRun body => exact Coro.Awaits.bind (Gateway.permitFree_agentRun app body) fun _ => trivial

/-! ## All requests are answered -/

/-- The state before the first step is that of the protocol in `Semaphore`, with the clients of
these requests. -/
theorem start_eq (app : Application) (requests : List Request) :
    app.start requests =
      Semaphore.Protocol.start (requests.map app.client) app.maxConcurrent := by
  unfold start Semaphore.Protocol.start
  rw [List.map_map]
  rfl

/-- No interleaving of the steps of the `protocol` goes on forever. Each comes to rest with all
requests answered and all permits back, if and only if `max_concurrent` is not zero or no request
`asks` for a permit, that is, none is for a chat whose request is built. Models may raise; every
send is taken to succeed. -/
theorem answered_iff (app : Application) (requests : List Request) :
    (¬∃ f : ℕ → Pool (App Response) Semaphore.State,
      f 0 = app.start requests ∧ ∀ k, Gateway.protocol.Step (f k) (f (k + 1))) ∧
    ((∀ p, Gateway.protocol.Reaches (app.start requests) p →
        (¬∃ p', Gateway.protocol.Step p p') →
        (∀ c ∈ p.clients, c.outcome?.isSome) ∧ p.shared = ⟨app.maxConcurrent, 0⟩) ↔
      0 < app.maxConcurrent ∨ ∀ request ∈ requests, app.asks request = false) := by
  refine ⟨Semaphore.Protocol.not_exists_infinite_run _, ?_⟩
  have hdichotomy : ∀ client ∈ requests.map app.client,
      Gateway.protocol.Asks client.code ∨ Gateway.protocol.PermitFree client.code := by
    refine List.forall_mem_map.mpr fun request _ => ?_
    cases hasks : app.asks request with
    | true => exact .inl (asks_handle hasks)
    | false => exact .inr (permitFree_handle hasks)
  have hfree : (∀ client ∈ requests.map app.client, Gateway.protocol.PermitFree client.code) ↔
      ∀ request ∈ requests, app.asks request = false := by
    rw [List.forall_mem_map]
    refine forall₂_congr fun request _ => ⟨fun hfree => ?_, permitFree_handle⟩
    by_contra hasks
    obtain ⟨op, next, hcode, hkind, -⟩ := asks_handle (Bool.eq_true_of_not_eq_false hasks)
    change Gateway.protocol.PermitFree (app.handle request) at hfree
    rw [hcode] at hfree
    exact hfree.1 hkind
  rw [start_eq, ← hfree,
    ← Semaphore.Protocol.completes_iff Gateway.responsive_protocol hdichotomy]
  refine forall₃_congr fun p _ _ => ⟨fun h => ⟨h.1, h.2⟩, fun h => ⟨h.ended, h.shared⟩⟩

end Application
