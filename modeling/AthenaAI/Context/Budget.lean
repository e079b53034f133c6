import AthenaAI.Python.Dict
import AthenaAI.Python.Value
import AthenaAI.ToMathlib.Run
import Mathlib.Algebra.Order.BigOperators.Group.List
import Mathlib.Tactic.Linarith

/-!
# The token budget

`athenai.context.budget`. A `TokenBudgetManager` has a limit for each bucket and one for all of them
together, and charges what is allocated to the bucket.

* `step` runs the manager beside a ledger of the amounts it has returned since the last reset;
  `Booked` says that the accounts are those of the ledger, and every call keeps it.
* `notOverspent_iff`: the ledger stays within all limits, if and only if every call that the code
  lets pass fits into the total budget together with what is charged to the key `total` (`Fits`).
  The code leaves that key out when it adds up what is used.
* `fits_of_sparesTotal`: in particular if `total` is never used as the key of a bucket.
-/

/-- The accounts of a token budget. -/
structure TokenBudgetManager where
  /-- The limit of each bucket. -/
  allocations : Dict PyStr ℤ
  /-- What is charged to each bucket. -/
  used : Dict PyStr ℤ
  /-- The limit of all buckets together. -/
  total : ℤ

namespace TokenBudgetManager

/-- The key that stands for all buckets. -/
def totalKey : PyStr := "total".toList

/-- The constructor. -/
def new (allocations : Dict PyStr ℤ) : TokenBudgetManager where
  allocations := allocations
  used := allocations.fromKeys 0
  total := (allocations.get totalKey).getD (allocations.sumWhere fun k => k ≠ totalKey)

variable (m : TokenBudgetManager) (key : PyStr) (tokens : ℤ)

/-- `total_budget`. -/
def totalBudget : ℤ := m.total

/-- `total_used`. -/
def totalUsed : ℤ := m.used.sumWhere fun k => k ≠ totalKey

/-- The limit of a bucket, `0` if it has none. -/
def limit : ℤ := (m.allocations.get key).getD 0

/-- What is charged to a bucket. -/
def current : ℤ := (m.used.get key).getD 0

/-- A `ContextOverflowError`. -/
def overflow (message : PyStr) : PyExc := .of .ContextOverflowError message

/-- `TokenBudgetManager.allocate`: what it returns, and the accounts after it. -/
def allocate : Except PyExc ℤ × TokenBudgetManager :=
  let bucketLimit := m.limit key
  if bucketLimit = 0 then
    (.error (overflow ("No budget allocated for bucket ".toList ++ key.repr)), m)
  else
    let current := m.current key
    if current + tokens > bucketLimit then
      (.error (overflow ("Bucket ".toList ++ key.repr ++ " overflow: ".toList ++
        PyStr.ofInt (current + tokens) ++ " > ".toList ++ PyStr.ofInt bucketLimit ++
        " tokens".toList)), m)
    else
      -- what is charged to `total` is not part of the sum
      let totalAfter := m.totalUsed + tokens
      if totalAfter > m.total then
        (.error (overflow ("Global token ceiling exceeded: ".toList ++ PyStr.ofInt totalAfter ++
          " > ".toList ++ PyStr.ofInt m.total)), m)
      else
        (.ok tokens, { m with used := m.used.set key (current + tokens) })

/-- `TokenBudgetManager.remaining`. -/
def remaining : ℤ := max 0 (m.limit key - m.current key)

/-- `TokenBudgetManager.reset`. -/
def reset : TokenBudgetManager := { m with used := m.allocations.fromKeys 0 }

/-- The checks of `allocate`. -/
def Passes : Prop :=
  m.limit key ≠ 0 ∧ m.current key + tokens ≤ m.limit key ∧ m.totalUsed + tokens ≤ m.total

variable {m key tokens}

/-- A call that `Passes` the two checks returns the tokens, and charges them to its key. -/
theorem allocate_of_passes (h : m.Passes key tokens) :
    m.allocate key tokens =
      (.ok tokens, { m with used := m.used.set key (m.current key + tokens) }) := by
  obtain ⟨hlimit, hbucket, htotal⟩ := h
  rw [allocate, if_neg hlimit, if_neg (not_lt.mpr hbucket), if_neg (not_lt.mpr htotal)]

/-- Any other call raises `ContextOverflowError` and leaves the manager as it is. -/
theorem allocate_of_not_passes (h : ¬m.Passes key tokens) :
    ∃ message, m.allocate key tokens = (.error (overflow message), m) := by
  unfold allocate
  dsimp only
  split_ifs with hlimit hbucket htotal
  · exact ⟨_, rfl⟩
  · exact ⟨_, rfl⟩
  · exact ⟨_, rfl⟩
  · exact absurd ⟨hlimit, not_lt.mp hbucket, not_lt.mp htotal⟩ h

/-! ## Runs -/

/-- A call that changes the accounts. -/
inductive BudgetOp where
  | allocate (key : PyStr) (tokens : ℤ)
  | reset

/-- A manager, and the amounts it has returned since the last reset, with their keys. -/
structure Books where
  /-- The manager. -/
  manager : TokenBudgetManager
  /-- What it has returned. -/
  ledger : List (PyStr × ℤ)

/-- One call. -/
def step (b : Books) : BudgetOp → Books
  | .allocate key tokens =>
    match b.manager.allocate key tokens with
    | (.ok n, m) => ⟨m, b.ledger ++ [(key, n)]⟩
    | (.error _, m) => ⟨m, b.ledger⟩
  | .reset => ⟨b.manager.reset, []⟩

namespace Books

variable (b : Books)

/-- What was returned in all. -/
def spent : ℤ := (b.ledger.map Prod.snd).sum

/-- What was returned for a key. -/
def spentOn (key : PyStr) : ℤ := ((b.ledger.filter fun entry => entry.1 = key).map Prod.snd).sum

/-- The ledger is within the total budget and within the limit of each key. -/
def Within : Prop :=
  b.spent ≤ b.manager.totalBudget ∧ ∀ key, b.spentOn key ≤ b.manager.limit key

/-- The accounts are those of the ledger. -/
structure Booked (allocations : Dict PyStr ℤ) : Prop where
  /-- The limits are the given ones. -/
  allocations_eq : b.manager.allocations = allocations
  /-- So is the total. -/
  total_eq : b.manager.total = (new allocations).total
  /-- There is an account for each bucket that has a limit. -/
  isSome_iff : ∀ key, (b.manager.used.get key).isSome ↔ (allocations.get key).isSome
  /-- Each bucket is charged what was returned for it. -/
  current_eq : ∀ key, b.manager.current key = b.spentOn key
  /-- What is used in all is what was returned, but for the key `total`. -/
  totalUsed_eq : b.manager.totalUsed + b.spentOn totalKey = b.spent

end Books

open Books

variable {allocations : Dict PyStr ℤ} {b : Books}

/-- In the accounts that the constructor and `reset` set up, nothing is charged to any key. -/
theorem current_fromKeys (allocations : Dict PyStr ℤ) (key : PyStr) :
    ((allocations.fromKeys (0 : ℤ)).get key).getD 0 = 0 := by
  rw [Dict.get_fromKeys]
  cases allocations.get key <;> rfl

/-- So the sum over any of these accounts is zero. -/
theorem sumWhere_fromKeys_zero (allocations : Dict PyStr ℤ) (p : PyStr → Bool) :
    (allocations.fromKeys (0 : ℤ)).sumWhere p = 0 := by
  refine List.sum_eq_zero fun n hn => ?_
  obtain ⟨item, hitem, rfl⟩ := List.mem_map.mp hn
  obtain ⟨_, -, rfl⟩ := List.mem_map.mp (List.mem_filter.mp hitem).1
  rfl

/-- After a `reset` the accounts are those of the empty ledger (`Booked`). -/
theorem booked_reset (hm : m.allocations = allocations)
    (htotal : m.total = (new allocations).total) :
    Booked ⟨m.reset, []⟩ allocations where
  allocations_eq := hm
  total_eq := htotal
  isSome_iff key := by
    show ((m.allocations.fromKeys (0 : ℤ)).get key).isSome ↔ _
    rw [Dict.get_fromKeys, Option.isSome_map, hm]
  current_eq key := current_fromKeys _ key
  totalUsed_eq := by
    show (m.allocations.fromKeys (0 : ℤ)).sumWhere _ + 0 = 0
    rw [sumWhere_fromKeys_zero, add_zero]

/-- The accounts of a new manager are those of the empty ledger. -/
theorem booked_new (allocations : Dict PyStr ℤ) : Booked ⟨new allocations, []⟩ allocations :=
  booked_reset (m := new allocations) rfl rfl

/-- If no limit in `allocations` is negative, then neither is that of a key without a limit, which
is zero. -/
theorem limit_nonneg (hlimits : ∀ item ∈ allocations.items, 0 ≤ item.2)
    (hm : m.allocations = allocations) (key : PyStr) : 0 ≤ m.limit key := by
  rw [limit, hm]
  cases hget : allocations.get key with
  | none => exact le_rfl
  | some n => exact hlimits _ (Dict.get_eq_some_iff.mp hget)

/-- The empty ledger is `Within` all limits, if none of these is negative. -/
theorem within_reset (hlimits : ∀ item ∈ allocations.items, 0 ≤ item.2)
    (hm : m.allocations = allocations) (htotal : m.total = (new allocations).total) :
    Within ⟨m.reset, []⟩ := by
  refine ⟨?_, fun key => limit_nonneg (m := m) hlimits hm key⟩
  show 0 ≤ m.total
  rw [htotal, new]
  dsimp only
  cases hget : allocations.get totalKey with
  | some n => exact hlimits _ (Dict.get_eq_some_iff.mp hget)
  | none =>
    refine List.sum_nonneg fun n hn => ?_
    obtain ⟨item, hitem, rfl⟩ := List.mem_map.mp hn
    exact hlimits item (List.mem_filter.mp hitem).1

/-- An entry at the end of the ledger adds to what was returned for its own key. -/
theorem spentOn_concat (b : Books) (key' : PyStr) (m : TokenBudgetManager) :
    (⟨m, b.ledger ++ [(key, tokens)]⟩ : Books).spentOn key' =
      b.spentOn key' + if key = key' then tokens else 0 := by
  simp only [spentOn, List.filter_append, List.map_append, List.sum_append]
  by_cases h : key = key'
  · simp [h]
  · simp [h]

/-- An entry at the end of the ledger adds to what was returned in all, whatever its key is. -/
theorem spent_concat (b : Books) (m : TokenBudgetManager) :
    (⟨m, b.ledger ++ [(key, tokens)]⟩ : Books).spent = b.spent + tokens := by
  simp [spent]

/-- A call that `Passes` is entered in the ledger, and charged to its key. -/
theorem step_of_passes (h : b.manager.Passes key tokens) :
    step b (.allocate key tokens) =
      ⟨{ b.manager with used := b.manager.used.set key (b.manager.current key + tokens) },
        b.ledger ++ [(key, tokens)]⟩ := by
  rw [step, allocate_of_passes h]

/-- A call that does not pass the checks leaves the manager and the ledger as they are. -/
theorem step_of_not_passes (h : ¬b.manager.Passes key tokens) :
    step b (.allocate key tokens) = b := by
  obtain ⟨message, hraise⟩ := allocate_of_not_passes h
  rw [step, hraise]

/-- Every call keeps the books: `Booked` says that what the manager has charged to each key is what
the ledger says was returned for it. -/
theorem booked_step (hb : b.Booked allocations) (op : BudgetOp) :
    (step b op).Booked allocations := by
  cases op with
  | reset => exact booked_reset hb.allocations_eq hb.total_eq
  | allocate key tokens =>
    by_cases h : b.manager.Passes key tokens
    · -- a bucket with a limit has an account
      have hlimit : (allocations.get key).isSome := by
        rw [← hb.allocations_eq]
        by_contra hnone
        exact h.1 (by rw [limit, Option.not_isSome_iff_eq_none.mp hnone]; rfl)
      obtain ⟨old, hold⟩ := Option.isSome_iff_exists.mp ((hb.isSome_iff key).mpr hlimit)
      have hcurrent : b.manager.current key = old := by rw [current, hold]; rfl
      rw [step_of_passes h]
      refine ⟨hb.allocations_eq, hb.total_eq, fun key' => ?_, fun key' => ?_, ?_⟩
      · rw [← hb.isSome_iff key']
        by_cases hkey : key' = key
        · rw [hkey, Dict.get_set_self hold, hold]
          rfl
        · rw [Dict.get_set_of_ne hold hkey]
      · rw [spentOn_concat, ← hb.current_eq key']
        by_cases hkey : key' = key
        · rw [hkey, if_pos rfl, current, Dict.get_set_self hold]
          rfl
        · rw [if_neg (Ne.symm hkey), add_zero, current, Dict.get_set_of_ne hold hkey]
          rfl
      · rw [spentOn_concat, spent_concat, ← hb.totalUsed_eq, totalUsed, Dict.sumWhere_set _ hold,
          hcurrent, totalUsed]
        by_cases hkey : key = totalKey
        · simp [hkey, add_assoc]
        · simp [hkey, add_right_comm]
    · rw [step_of_not_passes h]
      exact hb

/-! ## What the code makes sure of -/

variable (b) in
/-- The call raises and changes something: the total or what remains of a bucket. -/
def LosesTrack (op : BudgetOp) : Prop :=
  ∃ key tokens e, op = .allocate key tokens ∧ (b.manager.allocate key tokens).1 = .error e ∧
    ¬((step b op).manager.totalUsed = b.manager.totalUsed ∧
      ∀ key', (step b op).manager.remaining key' = b.manager.remaining key')

/-- A call that raises changes nothing, so no call ever `LosesTrack`, whatever the run. -/
theorem not_losesTrack (op : BudgetOp) : ¬LosesTrack b op := by
  rintro ⟨key, tokens, e, rfl, hraise, hchange⟩
  by_cases h : b.manager.Passes key tokens
  · rw [allocate_of_passes h] at hraise
    exact nomatch hraise
  · rw [step_of_not_passes h] at hchange
    exact hchange ⟨rfl, fun _ => rfl⟩

variable (b) in
/-- A call that passes the checks fits into the total budget together with everything that is
charged, also to the key `total`. -/
def Fits : BudgetOp → Prop
  | .allocate key tokens => b.manager.Passes key tokens →
      b.manager.totalUsed + b.manager.current totalKey + tokens ≤ b.manager.total
  | .reset => True

/-- From books that are `Within` the limits, a call leads to such books exactly if it `Fits`. This
is the step of the run theorem. -/
theorem within_step_iff (hlimits : ∀ item ∈ allocations.items, 0 ≤ item.2)
    (hb : b.Booked allocations) (hwithin : b.Within) (op : BudgetOp) :
    (step b op).Within ↔ Fits b op := by
  cases op with
  | allocate key tokens =>
    by_cases h : b.manager.Passes key tokens
    · have hspent : b.manager.totalUsed + b.manager.current totalKey + tokens =
          b.spent + tokens := by
        rw [hb.current_eq, hb.totalUsed_eq]
      rw [step_of_passes h, Fits, hspent, Within, spent_concat]
      refine ⟨fun hin _ => hin.1, fun hfits => ⟨hfits h, fun key' => ?_⟩⟩
      rw [spentOn_concat]
      show _ ≤ b.manager.limit key'
      -- the limit of the bucket is checked by the code
      by_cases hkey : key = key'
      · rw [if_pos hkey, ← hkey, ← hb.current_eq]
        exact h.2.1
      · rw [if_neg hkey, add_zero]
        exact hwithin.2 key'
    · rw [step_of_not_passes h]
      exact iff_of_true hwithin fun hpasses => absurd hpasses h
  | reset => exact iff_of_true (within_reset hlimits hb.allocations_eq hb.total_eq) trivial

/-- The call is not for the key `total`. -/
def SparesTotal : BudgetOp → Prop
  | .allocate key _ => key ≠ totalKey
  | .reset => True

/-- A call for another key returns nothing for the key `total`, so nothing is ever charged to it in
a run that `SparesTotal`. -/
theorem spentOn_totalKey_step {op : BudgetOp} (hop : SparesTotal op)
    (hzero : b.spentOn totalKey = 0) : (step b op).spentOn totalKey = 0 := by
  cases op with
  | reset => rfl
  | allocate key tokens =>
    by_cases h : b.manager.Passes key tokens
    · rw [step_of_passes h, spentOn_concat, hzero, if_neg hop, add_zero]
    · rw [step_of_not_passes h, hzero]

/-- Where `total` is never used as the key of a bucket, every call of a run fits: what the code adds
up is all that is charged. -/
theorem fits_of_sparesTotal (allocations : Dict PyStr ℤ) {ops : List BudgetOp}
    (hops : ∀ op ∈ ops, SparesTotal op) :
    ∀ s ∈ Run.steps step ⟨new allocations, []⟩ ops, Fits s.before s.event := by
  have hguard : ∀ s ∈ Run.steps step ⟨new allocations, []⟩ ops, SparesTotal s.event := by
    intro s hs
    apply hops
    rw [← Run.steps_map_event step ⟨new allocations, []⟩ ops]
    exact List.mem_map_of_mem hs
  obtain ⟨hbefore, -⟩ := Run.invariant_of_guard
    (P := fun b : Books => b.Booked allocations ∧ b.spentOn totalKey = 0)
    (G := fun _ op => SparesTotal op)
    (fun _ op hb hop => ⟨booked_step hb.1 op, spentOn_totalKey_step hop hb.2⟩)
    ⟨booked_new allocations, rfl⟩ hguard
  intro s hs
  obtain ⟨hb, hzero⟩ := hbefore s hs
  cases hevent : s.event with
  | reset => trivial
  | allocate key tokens =>
    intro hpasses
    rw [hb.current_eq, hzero, add_zero]
    exact hpasses.2.2

/-- In every state of a run of calls on a new manager the amounts returned since the last reset are
`Within` the total budget and the limit of each key, and no call that raises changes an account
(`LosesTrack`), if and only if each call of the run `Fits`: it has room in the total budget beside
everything charged so far, the key `total` included. No limit is negative. `fits_of_sparesTotal`
says that this is so whenever `total` is never a key of `allocate`. -/
theorem notOverspent_iff (hlimits : ∀ item ∈ allocations.items, 0 ≤ item.2)
    (ops : List BudgetOp) :
    ((∀ pre, pre <+: ops → (Run.after step ⟨new allocations, []⟩ pre).Within) ∧
      ∀ s ∈ Run.steps step ⟨new allocations, []⟩ ops, ¬LosesTrack s.before s.event) ↔
      ∀ s ∈ Run.steps step ⟨new allocations, []⟩ ops, Fits s.before s.event := by
  have hiff := Run.forall_prefix_iff (G := Fits)
    (P := fun b : Books => b.Booked allocations ∧ b.Within)
    (fun b op hb => (and_iff_right (booked_step hb.1 op)).trans
      (within_step_iff hlimits hb.1 hb.2 op))
    ⟨booked_new allocations, within_reset (m := new allocations) hlimits rfl rfl⟩ ops
  have hbooked (pre : List BudgetOp) :
      (Run.after step ⟨new allocations, []⟩ pre).Booked allocations :=
    Run.invariant (P := fun b : Books => b.Booked allocations) (fun _ op hb => booked_step hb op)
      (booked_new allocations) pre
  rw [← hiff]
  constructor
  · exact fun h pre hpre => ⟨hbooked pre, h.1 pre hpre⟩
  · exact fun h => ⟨fun pre hpre => (h pre hpre).2, fun s _ => not_losesTrack s.event⟩

/-- A budget of a hundred tokens, all of them for the system prompt. -/
def hundredTokens : Dict PyStr ℤ where
  items := [("system".toList, 100), (totalKey, 100)]
  nodup := by decide

/-- Sixty tokens are allocated to `total` and sixty to the system prompt, of a hundred in all: what
is charged to `total` is not counted when the second call is checked, so a hundred and twenty have
been returned. -/
theorem hundredTokens_overspent :
    ¬∀ pre, pre <+: [BudgetOp.allocate totalKey 60, .allocate "system".toList 60] →
      (Run.after step ⟨new hundredTokens, []⟩ pre).Within := by
  intro hall
  have hspent : (120 : ℤ) ≤ 100 := (hall _ List.prefix_rfl).1
  exact absurd hspent (by decide)

/-- `notOverspent_iff` for one call, which is not for the key `total`: by `fits_of_sparesTotal` the
call `Fits`, and the amounts stay within the budget. -/
theorem notOverspent_iff_sixty :
    (∀ pre, pre <+: [BudgetOp.allocate "system".toList 60] →
        (Run.after step ⟨new hundredTokens, []⟩ pre).Within) ∧
      ∀ s ∈ Run.steps step ⟨new hundredTokens, []⟩ [BudgetOp.allocate "system".toList 60],
        ¬LosesTrack s.before s.event := by
  refine (notOverspent_iff (by decide) _).mpr (fits_of_sparesTotal _ ?_)
  exact List.forall_mem_singleton.mpr (by decide : "system".toList ≠ totalKey)

end TokenBudgetManager
