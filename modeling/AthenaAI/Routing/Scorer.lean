import AthenaAI.Python.Str
import AthenaAI.ToMathlib.OrderBy
import Mathlib.Algebra.Order.Field.Basic
import Mathlib.Tactic.NormNum

/-!
# Scoring models

`athenai.routing.scorer`, with the weights of `athenai.routing.policies`. The score of a model adds
up its quality and the capped inverses of its cost and its latency, each with the weight that the
policy gives it. Numbers are exact.

* `norm` is what the score makes of a cost or a latency: the inverse of the value, or `1` for the
  value `0`, divided by a scale and capped.
* `norm_le_norm_iff`: it falls with the value, except that `0` is taken for `1`, which matters where
  the scale is above `1`.
* `forall_notBelow_iff`: a model that dominates another one scores at least as much under every
  policy, if and only if it is not free while the other one costs less than `1`.
-/

/-- A model of the catalog. -/
structure ModelMetadata where
  /-- The role of the model. -/
  role : PyStr
  /-- How good its answers are, between `0` and `1`. -/
  qualityScore : ℚ
  /-- What a thousand tokens cost. -/
  costPer1kTokens : ℚ
  /-- How long an answer takes on average. -/
  avgLatencyMs : ℚ
  /-- It may be used. -/
  isAvailable : Bool := true
  deriving DecidableEq

/-- The weights of a policy. -/
structure RoutingPolicy where
  /-- How much quality counts. -/
  qualityWeight : ℚ := 2 / 5
  /-- How much a low cost counts. -/
  costWeight : ℚ := 3 / 10
  /-- How much a low latency counts. -/
  latencyWeight : ℚ := 3 / 10

namespace RoutingPolicy

/-- `RoutingPolicy.default`. -/
def default : RoutingPolicy := {}

/-- No weight is negative. -/
structure Nonneg (policy : RoutingPolicy) : Prop where
  quality : 0 ≤ policy.qualityWeight
  cost : 0 ≤ policy.costWeight
  latency : 0 ≤ policy.latencyWeight

end RoutingPolicy

namespace ModelScorer

/-- `cost_score` and `latency_score`: the inverse of a value. -/
def inverse (value : ℚ) : ℚ := if value > 0 then 1 / value else 1

/-- `cost_norm` and `latency_norm`: the inverse, divided by a scale and capped. -/
def norm (scale value : ℚ) : ℚ := min (inverse value / scale) 1

/-- `ModelScorer.score`. -/
def score (model : ModelMetadata) (policy : RoutingPolicy) : ℚ :=
  if !model.isAvailable then -1
  else
    let costNorm := norm 100 model.costPer1kTokens
    let latencyNorm := norm (1 / 100) model.avgLatencyMs
    model.qualityScore * policy.qualityWeight + costNorm * policy.costWeight +
      latencyNorm * policy.latencyWeight

/-- `ModelScorer.rank`: the best model first; models with equal scores stay in their order. -/
def rank (models : List ModelMetadata) (policy : RoutingPolicy) : List ModelMetadata :=
  OrderBy.stable (fun model => score model policy) (models.filter fun model => model.isAvailable)

/-! ## One dimension -/

variable {scale value value' : ℚ}

@[simp]
theorem inverse_zero : inverse 0 = 1 := by simp [inverse]

theorem inverse_of_pos (h : 0 < value) : inverse value = 1 / value := by simp [inverse, h]

/-- For positive values `inverse` falls: the dearer or slower of two models has the lower one. -/
theorem inverse_le_inverse (h : 0 < value) (hle : value ≤ value') :
    inverse value' ≤ inverse value := by
  rw [inverse_of_pos h, inverse_of_pos (h.trans_le hle)]
  exact one_div_le_one_div_of_le h hle

/-- `inverse 0` is 1, so a positive value counts no more exactly from 1 on: what costs nothing
counts less than what costs below 1. -/
theorem inverse_le_inverse_zero_iff (h : 0 < value) : inverse value ≤ inverse 0 ↔ 1 ≤ value := by
  rw [inverse_of_pos h, inverse_zero, div_le_one h]

/-- A greater value does not count more, unless it is below `1` and the smaller one is `0`, on a
scale above `1`. -/
theorem norm_le_norm_iff (hscale : 0 < scale) (hvalue : 0 ≤ value) (hle : value ≤ value') :
    norm scale value' ≤ norm scale value ↔ ¬(1 < scale ∧ value = 0 ∧ 0 < value' ∧ value' < 1) := by
  unfold norm
  rcases hvalue.lt_or_eq with hpos | rfl
  · refine iff_of_true (min_le_min_right 1 ?_) fun h => hpos.ne' h.2.1
    exact div_le_div_of_nonneg_right (inverse_le_inverse hpos hle) hscale.le
  rcases hle.lt_or_eq with hpos | rfl
  · rw [inverse_zero]
    by_cases hone : 1 ≤ value'
    · refine iff_of_true (min_le_min_right 1 ?_) fun h => absurd hone (not_le.mpr h.2.2.2)
      have hinverse := (inverse_le_inverse_zero_iff hpos).mpr hone
      rw [inverse_zero] at hinverse
      exact div_le_div_of_nonneg_right hinverse hscale.le
    · rw [not_le] at hone
      by_cases hlarge : 1 < scale
      -- the smaller value is not capped, and counts less than the other one
      · refine iff_of_false (not_le.mpr ?_) (not_not_intro ⟨hlarge, rfl, hpos, hone⟩)
        have hlow : 1 / scale < 1 := (div_lt_one hscale).mpr hlarge
        rw [min_eq_left hlow.le, lt_min_iff]
        refine ⟨div_lt_div_of_pos_right ?_ hscale, hlow⟩
        rw [inverse_of_pos hpos]
        exact one_lt_one_div hpos hone
      -- the smaller value is capped
      · refine iff_of_true ?_ fun h => hlarge h.1
        have hcap : 1 ≤ 1 / scale := (one_le_div hscale).mpr (not_lt.mp hlarge)
        rw [min_eq_right hcap]
        exact min_le_right _ _
  · exact iff_of_true le_rfl fun h => lt_irrefl 0 h.2.2.1

/-! ## Two models -/

variable {model model' : ModelMetadata} {policy : RoutingPolicy}

/-- The first model is at least as good, as cheap and as fast as the second one. -/
structure Dominates (model model' : ModelMetadata) : Prop where
  quality : model'.qualityScore ≤ model.qualityScore
  cost_nonneg : 0 ≤ model.costPer1kTokens
  cost : model.costPer1kTokens ≤ model'.costPer1kTokens
  latency_nonneg : 0 ≤ model.avgLatencyMs
  latency : model.avgLatencyMs ≤ model'.avgLatencyMs

/-- The first model does not score below the second one, and is not ranked after it unless the
scores are equal. -/
structure NotBelow (model model' : ModelMetadata) (policy : RoutingPolicy) : Prop where
  score : score model' policy ≤ score model policy
  rank : ∀ models, [model', model].Sublist (rank models policy) →
    ModelScorer.score model policy = ModelScorer.score model' policy

/-- The score of an available model: its quality, and the two normalised inverses, each with the
weight of the policy. -/
theorem score_of_isAvailable (h : model.isAvailable) :
    score model policy = model.qualityScore * policy.qualityWeight +
      norm 100 model.costPer1kTokens * policy.costWeight +
        norm (1 / 100) model.avgLatencyMs * policy.latencyWeight := by
  simp [score, h]

/-- `rank` lists the models by falling score under the policy. -/
theorem rank_sorted (models : List ModelMetadata) (policy : RoutingPolicy) :
    (rank models policy).Pairwise fun m m' => score m' policy ≤ score m policy :=
  (OrderBy.isAnswer_stable _ _).descending

/-- `NotBelow`, the place in the ranking of the two models, is a comparison of their scores. -/
theorem notBelow_iff : NotBelow model model' policy ↔ score model' policy ≤ score model policy := by
  refine ⟨NotBelow.score, fun hscore => ⟨hscore, fun models hsub => ?_⟩⟩
  have hpair : [model', model].Pairwise fun m m' => score m' policy ≤ score m policy :=
    (rank_sorted models policy).sublist hsub
  exact le_antisymm (List.rel_of_pairwise_cons hpair (List.mem_singleton_self _)) hscore

/-- For a model that `Dominates` another one, the score is at least as high under every policy
exactly if the normalised cost is not below that of the other. -/
theorem forall_score_le_iff (hmodel : model.isAvailable) (hmodel' : model'.isAvailable)
    (h : Dominates model model') :
    (∀ policy : RoutingPolicy, policy.Nonneg → score model' policy ≤ score model policy) ↔
      norm 100 model'.costPer1kTokens ≤ norm 100 model.costPer1kTokens := by
  constructor
  · intro hall
    -- a policy under which only the cost counts
    have hcost := hall ⟨0, 1, 0⟩ ⟨le_rfl, zero_le_one, le_rfl⟩
    simpa [score_of_isAvailable hmodel, score_of_isAvailable hmodel'] using hcost
  · intro hcost policy hpolicy
    have hlatency : norm (1 / 100) model'.avgLatencyMs ≤ norm (1 / 100) model.avgLatencyMs := by
      rw [norm_le_norm_iff (by norm_num) h.latency_nonneg h.latency]
      exact fun hlarge => absurd hlarge.1 (by norm_num)
    rw [score_of_isAvailable hmodel, score_of_isAvailable hmodel']
    exact add_le_add (add_le_add (mul_le_mul_of_nonneg_right h.quality hpolicy.quality)
      (mul_le_mul_of_nonneg_right hcost hpolicy.cost))
      (mul_le_mul_of_nonneg_right hlatency hpolicy.latency)

/-- An available model that `Dominates` another one scores at least as much under every nonnegative
policy, and is ranked before it where the scores differ (`NotBelow`), if and only if it is not free
while the other one has a cost below `1`. A cost of zero is given the score of a cost of `1`. -/
theorem forall_notBelow_iff (hmodel : model.isAvailable) (hmodel' : model'.isAvailable)
    (h : Dominates model model') :
    (∀ policy : RoutingPolicy, policy.Nonneg → NotBelow model model' policy) ↔
      ¬(model.costPer1kTokens = 0 ∧ 0 < model'.costPer1kTokens ∧ model'.costPer1kTokens < 1) := by
  simp only [notBelow_iff]
  rw [forall_score_le_iff hmodel hmodel' h, norm_le_norm_iff (by norm_num) h.cost_nonneg h.cost]
  have hscale : (1 : ℚ) < 100 := by norm_num
  simp [hscale]

/-- A free model. -/
def freeModel : ModelMetadata := ⟨"fast".toList, 3 / 5, 0, 200, true⟩

/-- The same model at a cost of one cent. -/
def centModel : ModelMetadata := ⟨"fast".toList, 3 / 5, 1 / 100, 200, true⟩

/-- The free model scores below the one that costs a cent, which it dominates: its cost counts as
`1`, a hundred times that of the other one. -/
theorem freeModel_below :
    Dominates freeModel centModel ∧ RoutingPolicy.default.Nonneg ∧
      ¬NotBelow freeModel centModel .default ∧
      rank [freeModel, centModel] .default = [centModel, freeModel] := by
  refine ⟨⟨?_, ?_, ?_, ?_, ?_⟩, ⟨?_, ?_, ?_⟩, fun h => absurd h.score ?_, ?_⟩ <;> decide +kernel

/-- A model that is dearer and slower. -/
def dearModel : ModelMetadata := ⟨"default".toList, 3 / 5, 3 / 40, 3000, true⟩

/-- `forall_notBelow_iff` for two models that cost something: the cheaper one, which dominates the
other, is not below it under the default policy. -/
theorem notBelow_dearModel : NotBelow centModel dearModel .default := by
  have hdominates : Dominates centModel dearModel := by
    refine ⟨?_, ?_, ?_, ?_, ?_⟩ <;> decide +kernel
  have hnonneg : RoutingPolicy.default.Nonneg := by
    refine ⟨?_, ?_, ?_⟩ <;> decide +kernel
  refine (forall_notBelow_iff rfl rfl hdominates).mpr (fun h => ?_) .default hnonneg
  exact absurd h.1 (by decide +kernel)

end ModelScorer
