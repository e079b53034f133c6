import AthenaAI.ToMathlib.Coro
import AthenaAI.ToMathlib.Except
import AthenaAI.ToMathlib.List
import AthenaAI.ToMathlib.Pool
import Mathlib.Algebra.Order.BigOperators.Group.List
import Mathlib.Algebra.Order.Group.Nat
import Mathlib.Logic.Relation

/-!
# Semaphores

Coroutines that share a counting semaphore and a section which it is meant to guard. They take turns
in any order, and the environment decides how their operations end.

* `Semaphore.Protocol` says what the operations have to do with the semaphore and the section, and
  how they may end. `Protocol.Step` is one step of one of the coroutines.
* `Protocol.Disciplined` says, by recursion on a coroutine, that it acquires and releases, enters
  and leaves in turn, and what holds at its end. Its rules are `Disciplined.mono`,
  `Disciplined.bind`, `Disciplined.attempt_bind` and `Disciplined.perform`. `Protocol.Neutral` is
  the case of a coroutine that ends where it begins.
* `Protocol.CanEnter` says that a coroutine can get into the section.
* `Protocol.Client` is a disciplined coroutine with its access to the section: it stays away from
  it, it enters while it holds a permit, or it enters freely.

`Protocol.inside_le_iff`: however the coroutines take turns, there are never more of them in the
section than there are permits, if and only if none of them enters freely or there are no more of
them than permits anyway.
-/

namespace Semaphore

/-- What an operation has to do with the semaphore and the section. -/
inductive Kind where
  | acquire
  | release
  | enter
  | leave
  | other
  deriving DecidableEq

/-- The semaphore and the section. -/
structure State where
  /-- The permits that are left. -/
  permits : ℕ
  /-- How many are in the section. -/
  inside : ℕ

/-- The effect of an operation that returns or raises. There is none yet if the operation has to
wait. -/
def State.effect (s : State) : Kind → (returns : Bool) → Option State
  | .acquire, true => if s.permits = 0 then none else some { s with permits := s.permits - 1 }
  | .release, _ => some { s with permits := s.permits + 1 }
  | .enter, true => some { s with inside := s.inside + 1 }
  | .leave, _ => some { s with inside := s.inside - 1 }
  -- whoever fails to acquire has no permit, and whoever fails to enter is not inside
  | _, _ => some s

/-- How a coroutine gets into the section. -/
inductive Access where
  | never
  | guarded
  | free
  deriving DecidableEq

/-- Where a coroutine is. -/
inductive Place where
  | outside
  | holding
  /-- In the section, with a permit. -/
  | guarded
  /-- In the section, without a permit. -/
  | free

/-- The permits that a coroutine holds. -/
def Place.permits : Place → ℕ
  | .holding | .guarded => 1
  | .outside | .free => 0

/-- Whether it is in the section. -/
def Place.inside : Place → ℕ
  | .guarded | .free => 1
  | .outside | .holding => 0

/-- The move that an operation makes, if it is in place. -/
inductive Place.Move (access : Access) : Place → Kind → Bool → Place → Prop
  | acquire : Move access .outside .acquire true .holding
  | release (returns : Bool) : Move access .holding .release returns .outside
  | enter (haccess : access = .guarded) : Move access .holding .enter true .guarded
  | enterFree (haccess : access = .free) : Move access .outside .enter true .free
  | leave (returns : Bool) : Move access .guarded .leave returns .holding
  | leaveFree (returns : Bool) : Move access .free .leave returns .outside
  | notAcquired : Move access .outside .acquire false .outside
  | notEntered (haccess : access = .guarded) : Move access .holding .enter false .holding
  | notEnteredFree (haccess : access = .free) : Move access .outside .enter false .outside
  | other (place : Place) (returns : Bool) : Move access place .other returns place

/-- The places that a coroutine can get to. -/
inductive Place.AllowedBy (access : Access) : Place → Prop
  | outside : AllowedBy access .outside
  | holding : AllowedBy access .holding
  | guarded (haccess : access = .guarded) : AllowedBy access .guarded
  | free (haccess : access = .free) : AllowedBy access .free

theorem Place.Move.allowedBy {access : Access} {place place' : Place} {kind : Kind} {returns : Bool}
    (hmove : place.Move access kind returns place') (h : place.AllowedBy access) :
    place'.AllowedBy access := by
  cases hmove with
  | acquire => exact .holding
  | release _ => exact .outside
  | enter haccess => exact .guarded haccess
  | enterFree haccess => exact .free haccess
  | leave _ => exact .holding
  | leaveFree _ => exact .outside
  | notAcquired => exact h
  | notEntered _ => exact h
  | notEnteredFree _ => exact h
  | other _ _ => exact h

/-- The permits move between the semaphore and the coroutines, and the section counts those that are
in it. -/
theorem Place.Move.effect {access : Access} {place place' : Place} {kind : Kind} {returns : Bool}
    {s s' : State} (hmove : place.Move access kind returns place')
    (heffect : s.effect kind returns = some s') (hinside : place.inside ≤ s.inside) :
    s'.permits + place'.permits = s.permits + place.permits ∧
      s'.inside + place.inside = s.inside + place'.inside := by
  cases hmove with
  | acquire =>
    rw [State.effect] at heffect
    split_ifs at heffect with hzero
    obtain rfl := Option.some.inj heffect
    exact ⟨Nat.sub_add_cancel (Nat.pos_of_ne_zero hzero), rfl⟩
  | leave _ | leaveFree _ =>
    obtain rfl := Option.some.inj heffect
    exact ⟨rfl, Nat.sub_add_cancel hinside⟩
  | release _ | enter _ | enterFree _ | notAcquired | notEntered _ | notEnteredFree _ | other _ _ =>
    obtain rfl := Option.some.inj heffect
    exact ⟨rfl, rfl⟩

/-! ## Protocols -/

/-- The operations `Op` in their relation to a semaphore. -/
structure Protocol (Op : Type) (Resp : Op → Type) (Exc : Type) where
  /-- What an operation has to do with the semaphore and the section. -/
  kind : Op → Kind
  /-- How an operation may end. -/
  Possible : (op : Op) → Except Exc (Resp op) → Prop

namespace Protocol

variable {Op : Type} {Resp : Op → Type} {Exc α β : Type} (P : Protocol Op Resp Exc)

/-- One of the coroutines makes its next step: the operation that it awaits has its effect and
ends. -/
inductive Step (p : Pool (Coro Op Resp Exc α) State) : Pool (Coro Op Resp Exc α) State → Prop
  | mk {i : ℕ} {op : Op} {next : Except Exc (Resp op) → Coro Op Resp Exc α}
      {r : Except Exc (Resp op)} {s' : State} (hclient : p.clients[i]? = some (.await op next))
      (hr : P.Possible op r) (heffect : p.shared.effect (P.kind op) r.isOk = some s') :
    Step p ⟨p.clients.set i (next r), s'⟩

/-- The steps that coroutines make in any order. -/
abbrev Reaches : Pool (Coro Op Resp Exc α) State → Pool (Coro Op Resp Exc α) State → Prop :=
  Relation.ReflTransGen P.Step

/-! ## Discipline -/

/-- From this place the coroutine makes only moves that are in place, and at its end `Q` holds of
its outcome and of the place where it is then. -/
def Disciplined (access : Access) :
    Coro Op Resp Exc α → Place → (Q : Except Exc α → Place → Prop) → Prop
  | .ret a, place, Q => Q (.ok a) place
  | .raise e, place, Q => Q (.error e) place
  | .await op next, place, Q => ∀ r, P.Possible op r →
      ∃ place', place.Move access (P.kind op) r.isOk place' ∧
        Disciplined access (next r) place' Q

variable {P} {access : Access} {place : Place} {Q Q' : Except Exc α → Place → Prop}
  {c : Coro Op Resp Exc α}

/-- What `Disciplined` says of the end of a computation can be weakened. -/
theorem Disciplined.mono (h : P.Disciplined access c place Q)
    (hQ : ∀ r place', Q r place' → Q' r place') : P.Disciplined access c place Q' := by
  induction c generalizing place with
  | ret a => exact hQ _ _ h
  | raise e => exact hQ _ _ h
  | await op next ih =>
    intro r hr
    obtain ⟨place', hmove, hnext⟩ := h r hr
    exact ⟨place', hmove, ih r hnext⟩

/-- The rule of `Disciplined` for a sequence: its second part begins at the place where the first
part ends. -/
theorem Disciplined.bind {f : α → Coro Op Resp Exc β} {R : Except Exc β → Place → Prop}
    (h : P.Disciplined access c place fun r place' =>
      match r with
      | .ok a => P.Disciplined access (f a) place' R
      | .error e => R (.error e) place') :
    P.Disciplined access (c >>= f) place R := by
  induction c generalizing place with
  | ret a => exact h
  | raise e => exact h
  | await op next ih =>
    intro r hr
    obtain ⟨place', hmove, hnext⟩ := h r hr
    exact ⟨place', hmove, ih r hnext⟩

/-- The rule of `Disciplined` for caught exceptions: what follows has the outcome, whatever it is,
and begins where the attempt ended. -/
theorem Disciplined.attempt_bind {f : Except Exc α → Coro Op Resp Exc β}
    {R : Except Exc β → Place → Prop}
    (h : P.Disciplined access c place fun r place' => P.Disciplined access (f r) place' R) :
    P.Disciplined access (c.attempt >>= f) place R := by
  induction c generalizing place with
  | ret a => exact h
  | raise e => exact h
  | await op next ih =>
    intro r hr
    obtain ⟨place', hmove, hnext⟩ := h r hr
    exact ⟨place', hmove, ih r hnext⟩

/-- The rule of `Disciplined` for one operation: every answer that is possible moves the client to a
place that its access allows. -/
theorem Disciplined.perform {op : Op} {R : Except Exc (Resp op) → Place → Prop}
    (h : ∀ r, P.Possible op r →
      ∃ place', place.Move access (P.kind op) r.isOk place' ∧ R r place') :
    P.Disciplined access (Coro.perform op) place R := by
  intro r hr
  obtain ⟨place', hmove, hR⟩ := h r hr
  cases r <;> exact ⟨place', hmove, hR⟩

/-- A computation without operations stays where it is. -/
theorem Disciplined.ofExcept {x : Except Exc α} (h : Q x place) :
    P.Disciplined access (Coro.ofExcept x) place Q := by
  cases x <;> exact h

/-- From this place the coroutine makes only moves that are in place, and at its end it is back. -/
def Neutral (P : Protocol Op Resp Exc) (access : Access) (place : Place)
    (c : Coro Op Resp Exc α) : Prop :=
  P.Disciplined access c place fun _ place' => place' = place

/-- `Neutral` goes through a chain of computations, each of which leaves the semaphore alone. -/
theorem Neutral.bind {f : α → Coro Op Resp Exc β} (hc : P.Neutral access place c)
    (hf : ∀ a, P.Neutral access place (f a)) : P.Neutral access place (c >>= f) := by
  refine Disciplined.bind (Disciplined.mono hc ?_)
  rintro (e | a) place' rfl
  · rfl
  · exact hf a

theorem Neutral.attempt_bind {f : Except Exc α → Coro Op Resp Exc β}
    (hc : P.Neutral access place c) (hf : ∀ r, P.Neutral access place (f r)) :
    P.Neutral access place (c.attempt >>= f) := by
  refine Disciplined.attempt_bind (Disciplined.mono hc ?_)
  rintro r place' rfl
  exact hf r

theorem Neutral.ofExcept (x : Except Exc α) : P.Neutral access place (Coro.ofExcept x) :=
  Disciplined.ofExcept rfl

/-- An operation of the kind `other` is `Neutral`, whatever it answers. -/
theorem Neutral.perform {op : Op} (hkind : P.kind op = .other) :
    P.Neutral access place (Coro.perform op) :=
  Disciplined.perform fun r _ => ⟨place, hkind ▸ .other place r.isOk, rfl⟩

/-! ## Getting in -/

variable (P)

/-- The coroutine can get into the section with so many permits, before it has released any. -/
inductive CanEnter : ℕ → Coro Op Resp Exc α → Prop
  | enter {op : Op} {next : Except Exc (Resp op) → Coro Op Resp Exc α} {a : Resp op}
      (hkind : P.kind op = .enter) (ha : P.Possible op (.ok a)) : CanEnter 0 (.await op next)
  | acquire {m : ℕ} {op : Op} {next : Except Exc (Resp op) → Coro Op Resp Exc α} {a : Resp op}
      (hkind : P.kind op = .acquire) (ha : P.Possible op (.ok a)) (h : CanEnter m (next (.ok a))) :
    CanEnter (m + 1) (.await op next)
  | other {m : ℕ} {op : Op} {next : Except Exc (Resp op) → Coro Op Resp Exc α}
      {r : Except Exc (Resp op)} (hkind : P.kind op = .other) (hr : P.Possible op r)
      (h : CanEnter m (next r)) : CanEnter m (.await op next)

variable {P} {m : ℕ}

/-- `CanEnter` is about the first operations of a coroutine, so what changes only its end keeps
it. -/
theorem CanEnter.of_await (h : P.CanEnter m c) (F : Coro Op Resp Exc α → Coro Op Resp Exc β)
    (hF : ∀ op next, F (.await op next) = .await op fun r => F (next r)) :
    P.CanEnter m (F c) := by
  induction h with
  | enter hkind ha =>
    rw [hF]
    exact .enter hkind ha
  | acquire hkind ha _ ih =>
    rw [hF]
    exact .acquire hkind ha ih
  | other hkind hr _ ih =>
    rw [hF]
    exact .other hkind hr ih

/-- A computation that `CanEnter` still can when another one is put behind it. -/
theorem CanEnter.bind (h : P.CanEnter m c) (f : α → Coro Op Resp Exc β) :
    P.CanEnter m (c >>= f) :=
  h.of_await (· >>= f) fun _ _ => rfl

/-- A computation that `CanEnter` still can when its exceptions are caught and another one is put
behind it. -/
theorem CanEnter.attempt_bind (h : P.CanEnter m c) (f : Except Exc α → Coro Op Resp Exc β) :
    P.CanEnter m (c.attempt >>= f) :=
  h.of_await (fun c => c.attempt >>= f) fun _ _ => rfl

/-- A `Step` of the coroutine at a place in the list of clients leaves those before and behind it as
they are. -/
theorem Step.middle {before after : List (Coro Op Resp Exc α)} {op : Op}
    {next : Except Exc (Resp op) → Coro Op Resp Exc α} {r : Except Exc (Resp op)} {s s' : State}
    (hr : P.Possible op r) (heffect : s.effect (P.kind op) r.isOk = some s') :
    P.Step ⟨before ++ .await op next :: after, s⟩ ⟨before ++ next r :: after, s'⟩ := by
  have hclient :
      (before ++ Coro.await op next :: after)[before.length]? = some (.await op next) := by
    rw [List.getElem?_append_right (Nat.le_refl _), Nat.sub_self]
    rfl
  have hstep := Step.mk (P := P) (p := ⟨_, s⟩) hclient hr heffect
  rwa [List.set_append_right _ _ (Nat.le_refl _), Nat.sub_self] at hstep

/-- A coroutine that `CanEnter` does so while the others wait, if there are permits enough for
it. -/
theorem CanEnter.reaches (h : P.CanEnter m c) (before after : List (Coro Op Resp Exc α))
    {s : State} (hm : m ≤ s.permits) :
    ∃ c', P.Reaches ⟨before ++ c :: after, s⟩
      ⟨before ++ c' :: after, ⟨s.permits - m, s.inside + 1⟩⟩ := by
  induction h generalizing s with
  | enter hkind ha =>
    refine ⟨_, .single (Step.middle ha ?_)⟩
    rw [hkind]
    rfl
  | @acquire m op next a hkind ha _ ih =>
    have hpos : s.permits ≠ 0 := Nat.ne_of_gt (Nat.lt_of_lt_of_le (Nat.succ_pos m) hm)
    obtain ⟨c', hreach⟩ := ih (s := ⟨s.permits - 1, s.inside⟩) (Nat.le_sub_of_add_le hm)
    rw [Nat.sub_sub, Nat.add_comm 1 m] at hreach
    refine ⟨c', .head (Step.middle ha ?_) hreach⟩
    rw [hkind]
    exact if_neg hpos
  | other hkind hr _ ih =>
    obtain ⟨c', hreach⟩ := ih hm
    refine ⟨c', .head (Step.middle hr ?_) hreach⟩
    rw [hkind]
    rfl

end Protocol

/-! ## Clients -/

/-- The permits that a coroutine needs to get into the section, if it gets there at all. -/
def Access.permits : Access → Option ℕ
  | .never => none
  | .guarded => some 1
  | .free => some 0

namespace Protocol

variable {Op : Type} {Resp : Op → Type} {Exc : Type} (P : Protocol Op Resp Exc) (α : Type)

/-- A coroutine with its access to the section. -/
structure Client where
  /-- How it gets into the section. -/
  access : Access
  /-- What it does. -/
  code : Coro Op Resp Exc α
  /-- It makes only moves that are in place, and has given back its permit at its end. -/
  disciplined : P.Neutral access .outside code
  /-- It does get into the section if it is let in. -/
  canEnter : ∀ m, access.permits = some m → P.CanEnter m code

variable {P α}

/-- The clients before their first steps, with `n` permits. -/
def start (clients : List (P.Client α)) (n : ℕ) : Pool (Coro Op Resp Exc α) State :=
  ⟨clients.map Client.code, ⟨n, 0⟩⟩

/-- The clients are in these places. -/
structure Located (clients : List (P.Client α)) (n : ℕ) (p : Pool (Coro Op Resp Exc α) State)
    (places : List Place) : Prop where
  /-- The clients are those of the pool. -/
  length : p.clients.length = clients.length
  /-- Every client is in a place that it may get to. -/
  allowed : List.Forall₂ (fun client place => place.AllowedBy client.access) clients places
  /-- From there it goes on in a disciplined way. -/
  disciplined : ∀ (i : ℕ) client place c, clients[i]? = some client → places[i]? = some place →
    p.clients[i]? = some c →
    P.Disciplined client.access c place fun _ place => place = .outside
  /-- Every permit is left or held by a client. -/
  permits : p.shared.permits + (places.map Place.permits).sum = n
  /-- The section counts the clients in it. -/
  inside : p.shared.inside = (places.map Place.inside).sum

variable {clients : List (P.Client α)} {n : ℕ} {p p' : Pool (Coro Op Resp Exc α) State}
  {places : List Place}

/-- At the `start` every client is `outside` and all permits are free, so it is `Located`. -/
theorem located_start (clients : List (P.Client α)) (n : ℕ) :
    Located clients n (start clients n) (clients.map fun _ => .outside) where
  length := List.length_map _
  allowed := by
    rw [List.forall₂_map_right_iff, List.forall₂_same]
    exact fun _ _ => .outside
  disciplined i client place c hclient hplace hc := by
    rw [List.getElem?_map, hclient] at hplace
    rw [start, List.getElem?_map, hclient] at hc
    obtain rfl := Option.some.inj hplace
    obtain rfl := Option.some.inj hc
    exact client.disciplined
  permits := by simp [start, Place.permits]
  inside := by simp [start, Place.inside]

/-- `Located` is kept by every step: the client that makes it moves on to its next place, and the
counters move with it. -/
theorem Located.step (h : Located clients n p places) (hstep : P.Step p p') :
    ∃ places', Located clients n p' places' := by
  obtain @⟨i, op, next, r, s', hc, hr, heffect⟩ := hstep
  have hi : i < clients.length := h.length ▸ (List.getElem?_eq_some_iff.mp hc).1
  have hclient : clients[i]? = some clients[i] := List.getElem?_eq_getElem hi
  obtain ⟨hlength, hallowed⟩ := List.forall₂_iff_getElem?.mp h.allowed
  obtain ⟨place, hplace, hplaceAllowed⟩ := hallowed i _ hclient
  obtain ⟨place', hmove, hnext⟩ := h.disciplined i _ _ _ hclient hplace hc r hr
  have hmem : place.inside ∈ places.map Place.inside :=
    List.mem_map_of_mem (List.mem_of_getElem? hplace)
  obtain ⟨hpermits, hinside⟩ := hmove.effect heffect (h.inside ▸ List.le_sum_of_mem hmem)
  have hpermitsSum := List.sum_map_set Place.permits hplace place'
  have hinsideSum := List.sum_map_set Place.inside hplace place'
  refine ⟨places.set i place', ?_, ?_, ?_, ?_, ?_⟩
  · rw [List.length_set, h.length]
  · refine List.forall₂_iff_getElem?.mpr ⟨by rw [List.length_set, hlength], fun j client hj => ?_⟩
    by_cases hij : i = j
    · subst hij
      obtain rfl := Option.some.inj (hclient.symm.trans hj)
      exact ⟨place', List.getElem?_set_self (hlength ▸ hi), hmove.allowedBy hplaceAllowed⟩
    · rw [List.getElem?_set_ne hij]
      exact hallowed j client hj
  · intro j client place'' c' hj hplace'' hc'
    by_cases hij : i = j
    · subst hij
      rw [List.getElem?_set_self (hlength ▸ hi)] at hplace''
      rw [List.getElem?_set_self (h.length ▸ hi)] at hc'
      obtain rfl := Option.some.inj (hclient.symm.trans hj)
      obtain rfl := Option.some.inj hplace''
      obtain rfl := Option.some.inj hc'
      exact hnext
    · rw [List.getElem?_set_ne hij] at hplace'' hc'
      exact h.disciplined j client place'' c' hj hplace'' hc'
  · have hn := h.permits
    show s'.permits + _ = n
    omega
  · have hn := h.inside
    show s'.inside = _
    omega

/-- In every state that is reached the clients are `Located` at some places: the invariant of the
protocol. -/
theorem exists_located (hreach : P.Reaches (start clients n) p) :
    ∃ places, Located clients n p places := by
  induction hreach with
  | refl => exact ⟨_, located_start clients n⟩
  | tail _ hstep ih =>
    obtain ⟨places, hplaces⟩ := ih
    exact hplaces.step hstep

/-! ## The bound -/

/-- Whoever does not enter freely holds a permit in the section, so there are no more inside than
permits held. -/
theorem sum_inside_le_sum_permits
    (h : List.Forall₂ (fun (client : P.Client α) place => place.AllowedBy client.access) clients
      places)
    (hfree : ∀ client ∈ clients, client.access ≠ .free) :
    (places.map Place.inside).sum ≤ (places.map Place.permits).sum := by
  induction h with
  | nil => exact Nat.le_refl _
  | @cons client place clients places hallowed _ ih =>
    rw [List.map_cons, List.map_cons, List.sum_cons, List.sum_cons]
    refine Nat.add_le_add ?_ (ih fun client' h => hfree client' (List.mem_cons_of_mem _ h))
    cases hallowed with
    | outside | holding => exact Nat.zero_le _
    | guarded _ => exact Nat.le_refl _
    | free haccess => exact absurd haccess (hfree client List.mem_cons_self)

/-- Whoever is in the section is not one of those whose access is `never`. -/
theorem sum_inside_le_countP
    (h : List.Forall₂ (fun (client : P.Client α) place => place.AllowedBy client.access) clients
      places) :
    (places.map Place.inside).sum ≤ clients.countP fun client => client.access ≠ .never := by
  induction h with
  | nil => exact Nat.le_refl _
  | @cons client place clients places hallowed _ ih =>
    rw [List.map_cons, List.sum_cons, List.countP_cons, Nat.add_comm]
    refine Nat.add_le_add ih ?_
    cases hallowed with
    | outside | holding => exact Nat.zero_le _
    | guarded haccess | free haccess => simp [haccess, Place.inside]

/-- If no client enters freely, no more are in the section than there are permits, in every state
that is reached. -/
theorem inside_le_of_not_free (hfree : ∀ client ∈ clients, client.access ≠ .free)
    (hreach : P.Reaches (start clients n) p) : p.shared.inside ≤ n := by
  obtain ⟨places, hplaces⟩ := exists_located hreach
  calc p.shared.inside
    _ = (places.map Place.inside).sum := hplaces.inside
    _ ≤ (places.map Place.permits).sum := sum_inside_le_sum_permits hplaces.allowed hfree
    _ ≤ p.shared.permits + (places.map Place.permits).sum := Nat.le_add_left _ _
    _ = n := hplaces.permits

/-- There are never more in the section than there are clients whose access is not `never`. -/
theorem inside_le_countP (hreach : P.Reaches (start clients n) p) :
    p.shared.inside ≤ clients.countP fun client => client.access ≠ .never := by
  obtain ⟨places, hplaces⟩ := exists_located hreach
  rw [hplaces.inside]
  exact sum_inside_le_countP hplaces.allowed

/-- The clients that enter freely and as many of the others as there are permits for can be in the
section at once. -/
theorem exists_reaches_inside (clients : List (P.Client α)) (before : List (Coro Op Resp Exc α))
    (s : State) :
    ∃ p, P.Reaches ⟨before ++ clients.map Client.code, s⟩ p ∧
      p.shared.inside = s.inside + clients.countP (fun client => client.access = .free) +
        min s.permits (clients.countP fun client => client.access = .guarded) := by
  induction clients generalizing before s with
  | nil => exact ⟨_, .refl, by simp⟩
  | cons client clients ih =>
    rw [List.countP_cons, List.countP_cons, List.map_cons]
    -- the first client gets in and stays there, or it waits
    have hin m (hcan : P.CanEnter m client.code) (hm : m ≤ s.permits) :
        ∃ p, P.Reaches ⟨before ++ client.code :: clients.map Client.code, s⟩ p ∧
          p.shared.inside = s.inside + 1 + clients.countP (fun client => client.access = .free) +
            min (s.permits - m) (clients.countP fun client => client.access = .guarded) := by
      obtain ⟨c', hfirst⟩ := hcan.reaches before (clients.map Client.code) hm
      obtain ⟨p, hreach, hinside⟩ := ih (before ++ [c']) ⟨s.permits - m, s.inside + 1⟩
      rw [List.append_assoc, List.singleton_append] at hreach
      exact ⟨p, hfirst.trans hreach, hinside⟩
    have hout := ih (before ++ [client.code]) s
    rw [List.append_assoc, List.singleton_append] at hout
    cases haccess : client.access with
    | never => simpa using hout
    | free =>
      obtain ⟨p, hreach, hinside⟩ := hin 0 (client.canEnter 0 (by rw [haccess]; rfl))
        (Nat.zero_le s.permits)
      refine ⟨p, hreach, ?_⟩
      simp only [decide_true, if_true, reduceCtorEq, decide_false, Bool.false_eq_true, if_false]
      omega
    | guarded =>
      by_cases hpermits : s.permits = 0
      · simpa [hpermits] using hout
      · obtain ⟨p, hreach, hinside⟩ := hin 1 (client.canEnter 1 (by rw [haccess]; rfl))
          (Nat.pos_of_ne_zero hpermits)
        refine ⟨p, hreach, ?_⟩
        simp only [decide_true, if_true, reduceCtorEq, decide_false, Bool.false_eq_true, if_false]
        omega

/-- The clients that enter are those whose access is `free` and those whose access is `guarded`. -/
theorem countP_free_add_countP_guarded (clients : List (P.Client α)) :
    clients.countP (fun client => client.access = .free) +
        clients.countP (fun client => client.access = .guarded) =
      clients.countP fun client => client.access ≠ .never := by
  induction clients with
  | nil => rfl
  | cons client clients ih =>
    rw [List.countP_cons, List.countP_cons, List.countP_cons, ← ih]
    cases client.access <;> simp <;> omega

/-- However the clients take turns, there are never more of them in the section than there are
permits, if and only if none of them enters freely or no more of them enter at all. -/
theorem inside_le_iff (clients : List (P.Client α)) (n : ℕ) :
    (∀ p, P.Reaches (start clients n) p → p.shared.inside ≤ n) ↔
      (∀ client ∈ clients, client.access ≠ .free) ∨
        clients.countP (fun client => client.access ≠ .never) ≤ n := by
  refine ⟨fun h => or_iff_not_imp_left.mpr fun hfree => ?_, ?_⟩
  · obtain ⟨p, hreach, hinside⟩ := exists_reaches_inside clients [] ⟨n, 0⟩
    have hle := h p hreach
    have hcount := countP_free_add_countP_guarded clients
    have hpos : 0 < clients.countP fun client => client.access = .free := by
      rw [List.countP_pos_iff]
      push Not at hfree
      simpa using hfree
    simp only at hinside
    omega
  · rintro (hfree | hcount) p hreach
    · exact inside_le_of_not_free hfree hreach
    · exact Nat.le_trans (inside_le_countP hreach) hcount

end Protocol

end Semaphore
