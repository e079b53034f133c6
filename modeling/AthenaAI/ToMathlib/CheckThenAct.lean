import AthenaAI.ToMathlib.List
import AthenaAI.ToMathlib.Pool
import Mathlib.Algebra.BigOperators.Group.List.Basic
import Mathlib.Algebra.Order.Group.Multiset
import Mathlib.Algebra.Order.Monoid.Unbundled.Basic
import Mathlib.Data.Multiset.AddSub
import Mathlib.Tactic.Abel

/-!
# Check, then act

Clients that each want a list of items to be stored once. A client checks whether anything is
stored; if nothing is, it makes a preparatory step and then stores the items one at a time. The
check and the writes are separate steps, so two clients may both find the store empty.

* `Client.step items` is one client, and a `Pool` of them the system.
* `ledger` is what is stored together with what the clients are still going to store. Only a check
  of an empty store changes it (`ledger_step`).
* `final_perm_iff`: when all clients are done, the items are stored exactly once if and only if the
  first three steps of the schedule belong to one client, that is, if its first write comes before
  any other check.
-/

namespace CheckThenAct

variable {α : Type}

/-- The local state of a client. One with nothing left to write is done. -/
inductive Client (α : Type) where
  | checking
  | preparing
  | writing (todo : List α)

namespace Client

/-- The next step of a client whose task is to store `items`. -/
def step (items : List α) : Client α → List α → Option (Client α × List α)
  | .checking, stored => some (if stored.isEmpty then .preparing else .writing [], stored)
  | .preparing, stored => some (.writing items, stored)
  | .writing (x :: todo), stored => some (.writing todo, stored ++ [x])
  | .writing [], _ => none

/-- What the client is still going to store. -/
def owed (items : List α) : Client α → Multiset α
  | .checking => 0
  | .preparing => items
  | .writing todo => todo

end Client

/-- `n` clients that have not begun. -/
def start (n : ℕ) (stored : List α) : Pool (Client α) (List α) :=
  ⟨List.replicate n .checking, stored⟩

/-- All clients are done. -/
def Done (p : Pool (Client α) (List α)) : Prop := ∀ c ∈ p.clients, c = .writing []

/-- What is stored and what is still going to be. -/
def ledger (items : List α) (p : Pool (Client α) (List α)) : Multiset α :=
  (p.shared : Multiset α) + (p.clients.map (Client.owed items)).sum

variable {items : List α} {p p' : Pool (Client α) (List α)} {i j : ℕ} {schedule : List ℕ}

/-- Client `i` is about to check an empty store. -/
def ChecksEmpty (p : Pool (Client α) (List α)) (i : ℕ) : Prop :=
  p.clients[i]? = some .checking ∧ p.shared = []

/-! ## The ledger -/

/-- A step that `ChecksEmpty` adds the items to the `ledger`, as its client is going to store them;
no other step changes the ledger. -/
theorem ledger_step (hstep : p.step (Client.step items) i = some p') :
    (ChecksEmpty p i → ledger items p' = ledger items p + items) ∧
      (¬ChecksEmpty p i → ledger items p' = ledger items p) := by
  obtain ⟨c, c', stored, hc, hnext, rfl⟩ := Pool.step_eq_some_iff.mp hstep
  have hsum := List.sum_map_set (Client.owed items) hc c'
  unfold ledger ChecksEmpty
  rw [hc]
  cases c with
  | checking =>
    obtain ⟨rfl, rfl⟩ := Prod.mk.inj (Option.some.inj hnext)
    -- what the check finds decides whether the client will owe the items
    by_cases hempty : p.shared = []
    · rw [hempty, List.isEmpty_nil, if_pos rfl, Client.owed, Client.owed, add_zero] at hsum
      refine ⟨fun _ => ?_, fun hne => absurd ⟨rfl, hempty⟩ hne⟩
      rw [hempty, List.isEmpty_nil, if_pos rfl, hsum, add_assoc]
    · have hempty' : p.shared.isEmpty = false := List.isEmpty_eq_false_iff.mpr hempty
      rw [hempty', if_neg Bool.false_ne_true, Client.owed, Client.owed, add_zero,
        Multiset.coe_nil, add_zero] at hsum
      refine ⟨fun hne => absurd hne.2 hempty, fun _ => ?_⟩
      rw [hempty', if_neg Bool.false_ne_true, hsum]
  -- the items were owed before and still are
  | preparing =>
    obtain ⟨rfl, rfl⟩ := Prod.mk.inj (Option.some.inj hnext)
    refine ⟨fun hne => by simp at hne, fun _ => ?_⟩
    rw [add_right_cancel hsum]
  | writing todo =>
    refine ⟨fun hne => by simp at hne, fun _ => ?_⟩
    cases todo with
    | nil => simp [Client.step] at hnext
    | cons x todo =>
      obtain ⟨rfl, rfl⟩ := Prod.mk.inj (Option.some.inj hnext)
      -- the item moves from the client's list to the store
      have hmove : ((p.clients.set i (.writing todo)).map (Client.owed items)).sum + {x} =
          (p.clients.map (Client.owed items)).sum := by
        refine add_right_cancel (b := (todo : Multiset α)) ?_
        rw [add_assoc, Multiset.singleton_add]
        exact hsum
      rw [← hmove, ← Multiset.coe_add, Multiset.coe_singleton]
      abel

/-- No step takes anything off the `ledger`: what is stored or going to be stored stays so. -/
theorem ledger_le_step (hstep : p.step (Client.step items) i = some p') :
    ledger items p ≤ ledger items p' := by
  by_cases hempty : ChecksEmpty p i
  · rw [(ledger_step hstep).1 hempty]
    exact Multiset.le_add_right _ _
  · rw [(ledger_step hstep).2 hempty]

theorem ledger_le_run (hrun : p.run (Client.step items) schedule = some p') :
    ledger items p ≤ ledger items p' :=
  Pool.run_invariant (I := fun q => ledger items p ≤ ledger items q)
    (fun _ _ _ hle hstep => hle.trans (ledger_le_step hstep)) hrun le_rfl

/-- When all clients are `Done`, the `ledger` is what is stored, since nobody owes anything. -/
theorem ledger_of_done (items : List α) (hdone : Done p) : ledger items p = p.shared := by
  have hzero : (p.clients.map (Client.owed items)).sum = 0 := by
    refine List.sum_eq_zero fun m hm => ?_
    obtain ⟨c, hc, rfl⟩ := List.mem_map.mp hm
    rw [hdone c hc]
    rfl
  rw [ledger, hzero, add_zero]

/-! ## After the first write -/

theorem shared_ne_nil_step (hstep : p.step (Client.step items) i = some p')
    (hp : p.shared ≠ []) : p'.shared ≠ [] := by
  obtain ⟨c, c', stored, -, hnext, rfl⟩ := Pool.step_eq_some_iff.mp hstep
  -- no step of a client removes anything
  rcases c with _ | _ | _ | ⟨x, todo⟩
  · obtain ⟨-, rfl⟩ := Prod.mk.inj (Option.some.inj hnext)
    exact hp
  · obtain ⟨-, rfl⟩ := Prod.mk.inj (Option.some.inj hnext)
    exact hp
  · simp [Client.step] at hnext
  · obtain ⟨-, rfl⟩ := Prod.mk.inj (Option.some.inj hnext)
    simp

/-- Once something is stored, no check finds the store empty, so the `ledger` is final for the rest
of the schedule. -/
theorem ledger_run_of_shared_ne_nil (hrun : p.run (Client.step items) schedule = some p')
    (hp : p.shared ≠ []) : ledger items p' = ledger items p := by
  have hinv := Pool.run_invariant
    (I := fun q => q.shared ≠ [] ∧ ledger items q = ledger items p) ?_ hrun ⟨hp, rfl⟩
  · exact hinv.2
  · rintro q i q' ⟨hq, hledger⟩ hstep
    refine ⟨shared_ne_nil_step hstep hq, ?_⟩
    rw [(ledger_step hstep).2 fun hempty => hq hempty.2, hledger]

/-! ## The result -/

/-- A store that is not empty at the start is the same when all clients are `Done`, whatever the
schedule. -/
theorem final_of_stored {n : ℕ} {stored : List α} (hstored : stored ≠ [])
    (hrun : (start n stored).run (Client.step items) schedule = some p') (hdone : Done p') :
    (p'.shared : Multiset α) = stored := by
  rw [← ledger_of_done items hdone, ledger_run_of_shared_ne_nil hrun hstored]
  simp [ledger, start, Client.owed]

/-- If a check finds the store empty while the items are owed already, they end up stored more than
once. -/
theorem not_perm_of_checksEmpty (hitems : items ≠ []) (hledger : ledger items p = items)
    (hempty : ChecksEmpty p i)
    (hrun : p.run (Client.step items) (i :: schedule) = some p') (hdone : Done p') :
    ¬p'.shared.Perm items := by
  intro hperm
  obtain ⟨q, hstep, hrun⟩ := Pool.run_cons_eq_some_iff.mp hrun
  -- the items are owed twice after the check, and all that is owed gets stored
  have hle := Multiset.card_le_card (ledger_le_run hrun)
  rw [(ledger_step hstep).1 hempty, hledger, ledger_of_done _ hdone, Multiset.card_add,
    Multiset.coe_card, Multiset.coe_card, hperm.length_eq] at hle
  have := List.length_pos_of_ne_nil hitems
  omega

/-! ### One client moves first -/

/-- Client `i` of `n` has moved on to `c`, the others have not begun. -/
def only (n i : ℕ) (c : Client α) (stored : List α) : Pool (Client α) (List α) :=
  ⟨(List.replicate n .checking).set i c, stored⟩

variable {n : ℕ} {c : Client α} {stored : List α}

/-- At the `start` every client is about to check, so each of them can be taken for the one in
`only` that moves on. -/
theorem start_eq_only (n i : ℕ) (stored : List α) : start n stored = only n i .checking stored := by
  rw [start, only, List.set_replicate_self]

/-- In `only`, the step of the client that has moved is that of a client alone with the store. -/
theorem step_only_self (hstep : (only n i c stored).step (Client.step items) i = some p) :
    i < n ∧ ∃ c' stored', Client.step items c stored = some (c', stored') ∧
      p = only n i c' stored' := by
  obtain ⟨d, c', stored', hd, hnext, rfl⟩ := Pool.step_eq_some_iff.mp hstep
  have hi : i < n := by simpa [only] using (List.getElem?_eq_some_iff.mp hd).1
  obtain rfl : c = d := by simpa [only, hi] using hd
  refine ⟨hi, c', stored', hnext, ?_⟩
  rw [only, only, List.set_set]

/-- In `only`, the step of any other client is a check, and it finds the store empty as long as it
is. -/
theorem checksEmpty_only (hij : i ≠ j)
    (hstep : (only n i c []).step (Client.step items) j = some p) :
    ChecksEmpty (only n i c []) j := by
  obtain ⟨d, -, -, hd, -, -⟩ := Pool.step_eq_some_iff.mp hstep
  have hj := hd
  rw [only, List.getElem?_set_ne hij, List.getElem?_replicate] at hj
  split_ifs at hj
  exact ⟨by rw [hd, Option.some.inj hj], rfl⟩

/-- If one client is at work and the others are done, the ledger is what is stored and what that
client still owes. -/
theorem ledger_only (hi : i < n) : ledger items (only n i c stored) = stored + c.owed items := by
  have hsum := List.sum_map_set (Client.owed items) (l := List.replicate n .checking) (i := i)
    (a := .checking) (by simp [hi]) c
  have hchecking : (Client.checking : Client α).owed items = 0 := rfl
  rw [hchecking, add_zero, List.map_replicate, hchecking, List.sum_replicate, nsmul_zero,
    zero_add] at hsum
  rw [ledger, only, hsum]

theorem eq_writing_nil_of_done (hi : i < n) (hdone : Done (only n i c stored)) :
    c = .writing [] :=
  hdone c (List.mem_set (by simpa using hi) c)

/-- If another client makes a step while the first one owes all items, they do not end up stored
once. -/
theorem not_perm_of_other (hitems : items ≠ []) (hi : i < n) (hij : i ≠ j)
    (howed : c.owed items = items)
    (hrun : (only n i c []).run (Client.step items) (j :: schedule) = some p') (hdone : Done p') :
    ¬p'.shared.Perm items := by
  obtain ⟨p, hstep, -⟩ := Pool.run_cons_eq_some_iff.mp hrun
  exact not_perm_of_checksEmpty hitems (by simp [ledger_only hi, howed])
    (checksEmpty_only hij hstep) hrun hdone

/-- Clients that find the store empty at the start store the items exactly once if and only if one
of them makes the first three steps: its check, its preparation and its first write. -/
theorem final_perm_iff (hitems : items ≠ [])
    (hrun : (start n []).run (Client.step items) schedule = some p') (hdone : Done p') :
    p'.shared.Perm items ↔ ∃ i rest, schedule = i :: i :: i :: rest := by
  rcases schedule with _ | ⟨i, schedule⟩
  · obtain rfl := Option.some.inj hrun
    refine iff_of_false (fun hperm => hitems hperm.symm.eq_nil) (by simp)
  -- the first step is the check of client `i`
  rw [start_eq_only n i] at hrun
  obtain ⟨p₁, hstep, hrun⟩ := Pool.run_cons_eq_some_iff.mp hrun
  obtain ⟨hi, c₁, stored₁, hnext, rfl⟩ := step_only_self hstep
  obtain ⟨rfl, rfl⟩ := Prod.mk.inj (Option.some.inj hnext)
  rcases schedule with _ | ⟨j, schedule⟩
  · obtain rfl := Option.some.inj hrun
    exact absurd (eq_writing_nil_of_done hi hdone) (by simp)
  by_cases hij : i = j
  swap
  · exact iff_of_false (not_perm_of_other hitems hi hij rfl hrun hdone)
      fun ⟨_, _, hschedule⟩ => hij (by grind)
  -- the second one is its preparation
  obtain rfl := hij
  obtain ⟨p₂, hstep, hrun⟩ := Pool.run_cons_eq_some_iff.mp hrun
  obtain ⟨-, c₂, stored₂, hnext, rfl⟩ := step_only_self hstep
  obtain ⟨rfl, rfl⟩ := Prod.mk.inj (Option.some.inj hnext)
  rcases schedule with _ | ⟨j, schedule⟩
  · obtain rfl := Option.some.inj hrun
    exact absurd (eq_writing_nil_of_done hi hdone) (by simp [hitems])
  by_cases hij : i = j
  swap
  · exact iff_of_false (not_perm_of_other hitems hi hij rfl hrun hdone)
      fun ⟨_, _, hschedule⟩ => hij (by grind)
  -- the third one is its first write, and the checks to come find it
  obtain rfl := hij
  refine iff_of_true ?_ ⟨i, schedule, rfl⟩
  obtain ⟨p₃, hstep, hrun⟩ := Pool.run_cons_eq_some_iff.mp hrun
  obtain ⟨-, c₃, stored₃, hnext, rfl⟩ := step_only_self hstep
  obtain ⟨x, todo, rfl⟩ := List.exists_cons_of_ne_nil hitems
  obtain ⟨rfl, rfl⟩ := Prod.mk.inj (Option.some.inj hnext)
  have hledger := ledger_run_of_shared_ne_nil hrun (by simp [only])
  rw [ledger_of_done _ hdone, ledger_only hi] at hledger
  exact Multiset.coe_eq_coe.mp hledger

end CheckThenAct
