import AthenaAI.Python.Value
import AthenaAI.ToMathlib.RateEnvelope
import AthenaAI.ToMathlib.Run

/-!
# The token bucket rate limiter

`athenai.resilience.rate_limiter`. The limiter keeps one level of tokens, refilled at
`refillRate` when `acquire` is called and capped at `capacity`. `acquire` runs under the limiter's
lock and never suspends there, so it is one atomic function of the state and the clock reading
`now`; levels, rates and seconds are exact rationals.

* `Acquire` is one call, and `step`, `granted` and `accepted` are a call and a run of calls.
* `grants` are the amounts and times of the calls that a run grants.
* `acquire_granted_iff` says that the one level decides as the envelope over the whole history of
  grants does (`RateEnvelope.Fits`): the invariant is that the level, brought up to date, is the
  room that the envelope leaves (`level_eq_room`).
-/

open RateEnvelope

/-- The fields of a limiter. -/
structure TokenBucketRateLimiter where
  /-- The most tokens the bucket holds. -/
  capacity : ℤ
  /-- The tokens added per second. -/
  refillRate : ℚ
  /-- The tokens in the bucket at `lastRefill`. -/
  tokens : ℚ
  /-- The clock reading at the latest refill. -/
  lastRefill : ℚ

namespace TokenBucketRateLimiter

/-- The constructor: a full bucket. -/
def init (capacity : ℤ) (refillRate now : ℚ) : TokenBucketRateLimiter where
  capacity := capacity
  refillRate := refillRate
  tokens := capacity
  lastRefill := now

/-- `acquire`: refill, then take `tokens` if the bucket has them, or raise `RateLimitError`. -/
def acquire (rl : TokenBucketRateLimiter) (tokens : ℤ := 1) (now : ℚ) :
    TokenBucketRateLimiter × Except PyExc Unit :=
  let elapsed := now - rl.lastRefill
  let refill := elapsed * rl.refillRate
  let rl := { rl with tokens := min (rl.capacity : ℚ) (rl.tokens + refill), lastRefill := now }
  -- a rejected call still leaves the refill behind
  if rl.tokens < (tokens : ℚ) then
    (rl, .error (.of .RateLimitError
      ("Rate limit exceeded: ".toList ++ PyStr.fixed1 rl.tokens ++
        " tokens available, ".toList ++ PyStr.ofInt tokens ++ " requested".toList)))
  else ({ rl with tokens := rl.tokens - (tokens : ℚ) }, .ok ())

/-- One call of `acquire`. -/
structure Acquire where
  /-- The tokens asked for. -/
  tokens : ℤ
  /-- The clock reading. -/
  now : ℚ

/-- The limiter after one call of `acquire`. -/
def step (rl : TokenBucketRateLimiter) (e : Acquire) : TokenBucketRateLimiter :=
  (rl.acquire e.tokens e.now).1

/-- The call is granted. -/
def granted (rl : TokenBucketRateLimiter) (e : Acquire) : Bool :=
  (rl.acquire e.tokens e.now).2.isOk

/-- The calls that are granted in a run, in order. -/
def accepted (rl : TokenBucketRateLimiter) (es : List Acquire) : List Acquire :=
  ((Run.steps step rl es).filter fun t => t.before.granted t.event).map Run.Step.event

/-- The amount and time of a call. -/
def Acquire.toGrant (e : Acquire) : Grant ℚ := ⟨e.now, e.tokens⟩

/-- The grants of a run, oldest first. -/
def grants (rl : TokenBucketRateLimiter) (es : List Acquire) : List (Grant ℚ) :=
  (rl.accepted es).map Acquire.toGrant

/-- The level of the bucket brought up to date at `now`. -/
def level (rl : TokenBucketRateLimiter) (now : ℚ) : ℚ :=
  min (rl.capacity : ℚ) (rl.tokens + rl.refillRate * (now - rl.lastRefill))

/-! ## One call -/

/-- What `acquire` does, by the `level` it finds: below the demand it refills the bucket and raises,
else it takes the tokens off too. -/
theorem acquire_eq (rl : TokenBucketRateLimiter) (tokens : ℤ) (now : ℚ) :
    rl.acquire tokens now =
      if rl.level now < (tokens : ℚ) then
        ({ rl with tokens := rl.level now, lastRefill := now },
          .error (.of .RateLimitError
            ("Rate limit exceeded: ".toList ++ PyStr.fixed1 (rl.level now) ++
              " tokens available, ".toList ++ PyStr.ofInt tokens ++ " requested".toList)))
      else ({ rl with tokens := rl.level now - (tokens : ℚ), lastRefill := now }, .ok ()) := by
  have hlevel : min (rl.capacity : ℚ) (rl.tokens + (now - rl.lastRefill) * rl.refillRate) =
      rl.level now := by
    rw [level, mul_comm]
  simp only [acquire, hlevel]

/-- `granted` says that the level at the clock reading of the call covers its demand. -/
theorem granted_iff (rl : TokenBucketRateLimiter) (e : Acquire) :
    rl.granted e ↔ (e.tokens : ℚ) ≤ rl.level e.now := by
  unfold granted
  rw [acquire_eq]
  split_ifs with h
  · exact iff_of_false Bool.false_ne_true (not_le.mpr h)
  · exact iff_of_true rfl (not_lt.mp h)

/-- A call is `granted` exactly if `acquire` returns and does not raise the `RateLimitError`: a
denied call is one that raised. -/
theorem granted_iff_ok (rl : TokenBucketRateLimiter) (e : Acquire) :
    rl.granted e ↔ (rl.acquire e.tokens e.now).2 = .ok () := by
  unfold granted
  cases (rl.acquire e.tokens e.now).2 with
  | error exc => exact iff_of_false Bool.false_ne_true nofun
  | ok u => exact iff_of_true rfl rfl

/-- The result of a call depends on the limiter through its `level` only, so two limiters of one
level answer alike. -/
theorem acquire_result_congr {rl rl' : TokenBucketRateLimiter} {now : ℚ}
    (h : rl.level now = rl'.level now) (tokens : ℤ) :
    (rl.acquire tokens now).2 = (rl'.acquire tokens now).2 := by
  rw [acquire_eq, acquire_eq, h]
  split_ifs <;> rfl

/-- Neither the capacity nor the rate changes, and the clock reading is kept, whatever the
outcome. -/
@[simp]
theorem step_capacity (rl : TokenBucketRateLimiter) (e : Acquire) :
    (rl.step e).capacity = rl.capacity := by
  rw [step, acquire_eq]
  split_ifs <;> rfl

@[simp]
theorem step_refillRate (rl : TokenBucketRateLimiter) (e : Acquire) :
    (rl.step e).refillRate = rl.refillRate := by
  rw [step, acquire_eq]
  split_ifs <;> rfl

@[simp]
theorem step_lastRefill (rl : TokenBucketRateLimiter) (e : Acquire) :
    (rl.step e).lastRefill = e.now := by
  rw [step, acquire_eq]
  split_ifs <;> rfl

/-- After a call the `level` starts from what the call left, and grows at the refill rate up to the
capacity. -/
theorem level_step (rl : TokenBucketRateLimiter) (e : Acquire) (now : ℚ) :
    (rl.step e).level now =
      min (rl.capacity : ℚ)
        ((rl.level e.now - if rl.granted e then (e.tokens : ℚ) else 0) +
          rl.refillRate * (now - e.now)) := by
  have hgranted := rl.granted_iff e
  rw [level, step_capacity, step_refillRate, step_lastRefill, step, acquire_eq]
  by_cases h : rl.level e.now < e.tokens
  · simp [h, not_le.mpr h, hgranted]
  · simp [h, not_lt.mp h, hgranted]

/-! ## The level is the room of the envelope -/

/-- The accepted calls of a run that goes on for one call; `grants_concat` is the same with their
tokens and times. -/
theorem accepted_concat (rl : TokenBucketRateLimiter) (es : List Acquire) (e : Acquire) :
    rl.accepted (es ++ [e]) =
      rl.accepted es ++ if (Run.after step rl es).granted e then [e] else [] := by
  rw [accepted, Run.steps_concat, List.filter_append, List.map_append, accepted]
  by_cases h : (Run.after step rl es).granted e <;> simp [h]

theorem grants_concat (rl : TokenBucketRateLimiter) (es : List Acquire) (e : Acquire) :
    rl.grants (es ++ [e]) =
      rl.grants es ++ if (Run.after step rl es).granted e then [e.toGrant] else [] := by
  rw [grants, accepted_concat, List.map_append, grants]
  split_ifs <;> rfl

/-- The clock readings of the calls never decrease, from the construction at `t₀` on. -/
def ClockNondecreasing (t₀ : ℚ) (es : List Acquire) : Prop :=
  (t₀ :: es.map Acquire.now).Pairwise (· ≤ ·)

/-- `ClockNondecreasing` of a run gives it for the part before the last call, with no reading there
that is later than the last one. -/
theorem clockNondecreasing_concat {t₀ : ℚ} {es : List Acquire} {e : Acquire}
    (h : ClockNondecreasing t₀ (es ++ [e])) :
    ClockNondecreasing t₀ es ∧ t₀ ≤ e.now ∧ ∀ e' ∈ es, e'.now ≤ e.now := by
  rw [ClockNondecreasing, List.map_append, ← List.cons_append, List.pairwise_append] at h
  obtain ⟨hes, -, hlast⟩ := h
  have hle (t : ℚ) (ht : t ∈ t₀ :: es.map Acquire.now) : t ≤ e.now :=
    hlast t ht e.now (List.mem_singleton_self _)
  exact ⟨hes, hle t₀ List.mem_cons_self, fun e' he' =>
    hle e'.now (List.mem_cons_of_mem _ (List.mem_map_of_mem he'))⟩

theorem clockNondecreasing_of_sublist {t₀ : ℚ} {es es' : List Acquire} (h : es'.Sublist es)
    (hclock : ClockNondecreasing t₀ es) : ClockNondecreasing t₀ es' :=
  hclock.sublist ((h.map Acquire.now).cons_cons t₀)

/-- The `accepted` calls are calls of the run in their order: the calls refused are left out and
nothing else changes. -/
theorem accepted_sublist (rl : TokenBucketRateLimiter) (es : List Acquire) :
    (rl.accepted es).Sublist es := by
  have h := List.filter_sublist (p := fun t => t.before.granted t.event) (l := Run.steps step rl es)
  simpa [accepted] using h.map Run.Step.event

section Envelope

variable {capacity : ℤ} {refillRate t₀ : ℚ}

/-- The latest refill of a limiter in a run is no later than the next call, if the clock never runs
back. -/
theorem lastRefill_le {es : List Acquire} {e : Acquire}
    (hclock : ClockNondecreasing t₀ (es ++ [e])) :
    (Run.after step (init capacity refillRate t₀) es).lastRefill ≤ e.now := by
  obtain ⟨-, hstart, hle⟩ := clockNondecreasing_concat hclock
  -- it is the time of the call before, or of the construction
  rcases List.eq_nil_or_concat es with rfl | ⟨es, e', rfl⟩
  · exact hstart
  · rw [List.concat_eq_append, Run.after_concat, step_lastRefill]
    exact hle e' (by simp)

/-- No sequence of calls changes `capacity` or `refillRate`, so the envelope is the same throughout
a run. -/
theorem config_after (rl : TokenBucketRateLimiter) (es : List Acquire) :
    (Run.after step rl es).capacity = rl.capacity ∧
      (Run.after step rl es).refillRate = rl.refillRate :=
  Run.invariant (P := fun rl' : TokenBucketRateLimiter =>
      rl'.capacity = rl.capacity ∧ rl'.refillRate = rl.refillRate)
    (fun rl' e h => by simpa using h) ⟨rfl, rfl⟩ es

/-- In every run the `level` of the bucket is the `room` that the grants so far leave under the rate
envelope. This ties the program to the library `RateEnvelope`. -/
theorem level_eq_room (hrate : 0 ≤ refillRate) {es : List Acquire}
    (hclock : ClockNondecreasing t₀ es) {now : ℚ}
    (hnow : (Run.after step (init capacity refillRate t₀) es).lastRefill ≤ now) :
    (Run.after step (init capacity refillRate t₀) es).level now =
      room (capacity : ℚ) refillRate now ((init capacity refillRate t₀).grants es) := by
  -- by induction on the calls so far: one more call does to the level what it does to the room
  induction es using List.reverseRecOn generalizing now with
  | nil =>
    have hfull : (0 : ℚ) ≤ refillRate * (now - t₀) := mul_nonneg hrate (sub_nonneg.mpr hnow)
    exact min_eq_left (by simpa [init] using hfull)
  | append_singleton es e ih =>
    obtain ⟨hes, -, -⟩ := clockNondecreasing_concat hclock
    obtain ⟨hcap, hrefill⟩ := config_after (init capacity refillRate t₀) es
    have hfound := ih hes (lastRefill_le hclock)
    rw [Run.after_concat, step_lastRefill] at hnow
    rw [Run.after_concat, level_step, hfound, hcap, hrefill, grants_concat]
    by_cases hgranted : (Run.after step (init capacity refillRate t₀) es).granted e
    · rw [if_pos hgranted, if_pos hgranted, room_concat]
      rfl
    -- a rejected call only brings the level up to date
    · rw [if_neg hgranted, if_neg hgranted, List.append_nil, room_later hrate _ hnow, sub_zero]
      rfl

/-- The `grants` of a run come in order of time, as the envelope expects them. -/
theorem grants_sorted {es : List Acquire} (hclock : ClockNondecreasing t₀ es) :
    ((init capacity refillRate t₀).grants es).Pairwise fun g g' => g.time ≤ g'.time := by
  have hsorted := clockNondecreasing_of_sublist
    (accepted_sublist (init capacity refillRate t₀) es) hclock
  rw [grants, List.pairwise_map]
  exact List.pairwise_map.mp (List.pairwise_cons.mp hsorted).2

/-- The `grants` of a run respect the envelope: within any span of time they amount to no more than
the capacity and the refill of the span. -/
theorem grants_respect (hrate : 0 ≤ refillRate) {es : List Acquire}
    (hclock : ClockNondecreasing t₀ es) :
    Respects (capacity : ℚ) refillRate ((init capacity refillRate t₀).grants es) := by
  induction es using List.reverseRecOn with
  | nil => exact fun earlier g later h => by cases earlier <;> cases h
  | append_singleton es e ih =>
    obtain ⟨hes, -, -⟩ := clockNondecreasing_concat hclock
    rw [grants_concat]
    split_ifs with hgranted
    -- the new grant was within the level, which is the room
    · refine (respects_concat_iff _ _).mpr ⟨ih hes, ?_⟩
      have hlevel : (Run.after step (init capacity refillRate t₀) es).level e.now =
          room (capacity : ℚ) refillRate e.now ((init capacity refillRate t₀).grants es) :=
        level_eq_room hrate hes (lastRefill_le hclock)
      rw [fits_iff_le_room]
      exact hlevel ▸ (granted_iff _ e).mp hgranted
    · rw [List.append_nil]
      exact ih hes

/-- A limiter that has seen only the granted calls of a run, and has granted them all, is at the
same level as one that has seen the whole run. -/
theorem level_after_accepted (hrate : 0 ≤ refillRate) {es : List Acquire} {e : Acquire}
    (hclock : ClockNondecreasing t₀ (es ++ [e]))
    (hgrants : (init capacity refillRate t₀).accepted ((init capacity refillRate t₀).accepted es) =
      (init capacity refillRate t₀).accepted es) :
    (Run.after step (init capacity refillRate t₀)
        ((init capacity refillRate t₀).accepted es)).level e.now =
      (Run.after step (init capacity refillRate t₀) es).level e.now := by
  have hsublist := accepted_sublist (init capacity refillRate t₀) es
  have hclock' := clockNondecreasing_of_sublist (hsublist.append_right [e]) hclock
  obtain ⟨hes, -, -⟩ := clockNondecreasing_concat hclock
  obtain ⟨hes', -, -⟩ := clockNondecreasing_concat hclock'
  rw [level_eq_room hrate hes (lastRefill_le hclock),
    level_eq_room hrate hes' (lastRefill_le hclock'), grants, hgrants, grants]

/-- The granted calls of a run are all granted when they are made alone: a call refused leaves no
trace in the `level` of later ones. -/
theorem accepted_accepted (hrate : 0 ≤ refillRate) {es : List Acquire}
    (hclock : ClockNondecreasing t₀ es) :
    (init capacity refillRate t₀).accepted ((init capacity refillRate t₀).accepted es) =
      (init capacity refillRate t₀).accepted es := by
  induction es using List.reverseRecOn with
  | nil => rfl
  | append_singleton es e ih =>
    -- the call finds the same level as in the whole run, so it is granted again
    have hes := ih (clockNondecreasing_concat hclock).1
    rw [accepted_concat]
    split_ifs with hgranted
    · have hagain : (Run.after step (init capacity refillRate t₀)
          ((init capacity refillRate t₀).accepted es)).granted e := by
        rw [granted_iff, level_after_accepted hrate hclock hes]
        exact (granted_iff _ e).mp hgranted
      rw [accepted_concat, if_pos hagain, hes]
    · rw [List.append_nil, hes]

/-- After every run of calls on a clock that never runs back, a call is granted exactly if its
amount `Fits` the envelope of the grants so far: it is at most `capacity`, and from each earlier
grant on, the granted amounts with this one are at most `capacity` and what has accrued since. So no
window of a run lets more through than `capacity` and what accrues over its length, and the calls
that were rejected have no bearing on the result. -/
theorem acquire_granted_iff (hcapacity : 0 ≤ capacity) (hrate : 0 ≤ refillRate)
    (es : List Acquire) (e : Acquire) (hclock : ClockNondecreasing t₀ (es ++ [e])) :
    let rl₀ := init capacity refillRate t₀
    let rl := Run.after step rl₀ es
    ((rl.acquire e.tokens e.now).2 = .ok () ↔
        Fits (capacity : ℚ) refillRate (rl₀.grants es) e.now e.tokens) ∧
      (∀ a b, a ≤ b →
        total ((rl₀.grants es).filter fun g => a ≤ g.time ∧ g.time ≤ b) ≤
          capacity + refillRate * (b - a)) ∧
      ((Run.after step rl₀ (rl₀.accepted es)).acquire e.tokens e.now).2 =
        (rl.acquire e.tokens e.now).2 := by
  intro rl₀ rl
  obtain ⟨hes, -, -⟩ := clockNondecreasing_concat hclock
  have hlevel : rl.level e.now = room (capacity : ℚ) refillRate e.now (rl₀.grants es) :=
    level_eq_room hrate hes (lastRefill_le hclock)
  refine ⟨?_, fun a b hab => ?_, ?_⟩
  · rw [fits_iff_le_room, ← hlevel, ← granted_iff, granted_iff_ok]
  · exact total_window_le (by exact_mod_cast hcapacity) hrate (grants_sorted hes)
      (grants_respect hrate hes) hab
  · exact acquire_result_congr
      (level_after_accepted hrate hclock (accepted_accepted hrate hes)) e.tokens

/-- A bucket of two tokens and half a token a second. -/
def slowBucket : TokenBucketRateLimiter := init 2 (1 / 2) 10

/-- It is asked for two tokens, and a second later for one. -/
def twoCalls : List Acquire := [⟨2, 10⟩, ⟨1, 11⟩]

/-- `acquire_granted_iff` after `twoCalls` to `slowBucket`: the first is granted and takes both
tokens, the second is refused, and after another second one token more is decided about by the first
grant alone. -/
theorem acquire_granted_iff_twoCalls :
    (slowBucket.accepted twoCalls).map Acquire.tokens = [2] ∧
      ((Run.after step slowBucket twoCalls).acquire 1 12).2 = .ok () ∧
      Fits (2 : ℚ) (1 / 2) (slowBucket.grants twoCalls) 12 1 ∧
      total ((slowBucket.grants twoCalls).filter fun g => 10 ≤ g.time ∧ g.time ≤ 12) ≤
        2 + 1 / 2 * (12 - 10) ∧
      ((Run.after step slowBucket (slowBucket.accepted twoCalls)).acquire 1 12).2 =
        ((Run.after step slowBucket twoCalls).acquire 1 12).2 := by
  have hclock : ClockNondecreasing 10 (twoCalls ++ [⟨1, 12⟩]) := by
    norm_num [ClockNondecreasing, twoCalls]
  have hgranted : ((Run.after step slowBucket twoCalls).acquire 1 12).2 = .ok () :=
    (granted_iff_ok _ ⟨1, 12⟩).mp (by decide +kernel)
  obtain ⟨hfits, hwindow, hrejected⟩ :=
    @acquire_granted_iff 2 (1 / 2) 10 (by decide) (by norm_num) twoCalls ⟨1, 12⟩ hclock
  refine ⟨by decide +kernel, hgranted, ?_, ?_, hrejected⟩
  · exact_mod_cast hfits.mp hgranted
  · exact_mod_cast hwindow 10 12 (by norm_num)

end Envelope

end TokenBucketRateLimiter
