import AthenaAI.Routing.Router

/-!
# Selecting a model

`ModelRouter.select` of `athenai.routing.router`. A request is put into a tier by its length. The
lowest and the highest tier have a role of their own, which is taken if it is there; otherwise the
models are ranked.

The check of an entry of the catalog may look at the clock, so `clock i` is what it reads at entry
`i`. `select_spec` says which entry is chosen, and when none is.

* `classifyComplexity` is the tier of a length, `usable` the entries whose circuit is not open, with
  their places in the catalog, and `best` the choice among them.
* `Usable`, `Preferred` and `IsFirstBest` describe the entries without the lists of the program, and
  `Right` is the entry to choose. `exists_best`: where there is a usable entry, this one is chosen.
-/

/-- `RoutingContext`. -/
structure RoutingContext where
  /-- The length of the request. -/
  estimatedInputTokens : ℤ

/-- The tiers of requests. -/
inductive Complexity where
  | LOW
  | MEDIUM
  | HIGH
  deriving DecidableEq

namespace Complexity

/-- The text of a tier. -/
def value : Complexity → PyStr
  | LOW => "LOW".toList
  | MEDIUM => "MEDIUM".toList
  | HIGH => "HIGH".toList

/-- `_ROLE_FOR_COMPLEXITY`. -/
def role : Complexity → PyStr
  | LOW => "fast".toList
  | MEDIUM => "default".toList
  | HIGH => "reasoning".toList

end Complexity

/-- `_classify_complexity`, with the values of `_COMPLEXITY_THRESHOLDS`. -/
def classifyComplexity (tokens : ℤ) : Complexity :=
  if tokens < 500 then .LOW else if tokens < 2000 then .MEDIUM else .HIGH

/-- What `select` returns. -/
structure RoutingDecision where
  /-- The role of the model. -/
  selectedRole : PyStr
  /-- A text for the log. -/
  reason : PyStr
  /-- What the request will cost. -/
  estimatedCostUsd : ℚ
  /-- The tier. -/
  complexity : Complexity
  /-- Further data. -/
  metadata : PyDict := []

namespace ModelRouter

open ModelScorer

/-- The entries that may be used, with their places in the catalog. -/
def usable (router : ModelRouter) (clock : ℕ → ℚ) : List (ModelMetadata × ℕ) :=
  router.catalog.zipIdx.filter fun (model, i) =>
    model.isAvailable && !router.isCircuitOpen model.role (clock i)

/-- `available`. -/
def available (router : ModelRouter) (clock : ℕ → ℚ) : List ModelMetadata :=
  (router.usable clock).map Prod.fst

/-- The error if there is no model. -/
def modelUnavailable : PyExc :=
  .of (.other "ModelUnavailableError".toList)
    "All models are unavailable (circuit open or marked unhealthy)".toList

/-- `ranked[0]`. -/
def first (ranked : List ModelMetadata) : Except PyExc ModelMetadata :=
  match ranked with
  | [] => .error (.of (.other "IndexError".toList) "list index out of range".toList)
  | model :: _ => .ok model

/-- `best`. -/
def best (available : List ModelMetadata) (complexity : Complexity) (policy : RoutingPolicy) :
    Except PyExc ModelMetadata :=
  let preferred := available.find? fun model => model.role = complexity.role
  match preferred, complexity with
  | some model, .LOW | some model, .HIGH => .ok model
  | _, _ => first (rank available policy)

/-- The decision for a model. -/
def decisionFor (context : RoutingContext) (complexity : Complexity) (model : ModelMetadata) :
    RoutingDecision where
  selectedRole := model.role
  reason := "complexity=".toList ++ complexity.value ++ ", policy=default, circuit=CLOSED".toList
  estimatedCostUsd := max (1 / 10000) (context.estimatedInputTokens / 1000 * model.costPer1kTokens)
  complexity

/-- `ModelRouter.select`. -/
def select (router : ModelRouter) (context : RoutingContext) (policy : Option RoutingPolicy)
    (clock : ℕ → ℚ) : Except PyExc RoutingDecision := do
  let policy := policy.getD .default
  let complexity := classifyComplexity context.estimatedInputTokens
  let available := router.available clock
  if available.isEmpty then throw modelUnavailable
  let model ← best available complexity policy
  return decisionFor context complexity model

/-! ## The entries of the catalog -/

/-- Entry `i` of the catalog is marked available and not behind an open circuit. -/
def Usable (router : ModelRouter) (clock : ℕ → ℚ) (i : ℕ) (model : ModelMetadata) : Prop :=
  router.catalog[i]? = some model ∧ model.isAvailable ∧
    ¬router.isCircuitOpen model.role (clock i)

/-- Entry `i` is the first one that `P` holds of. -/
def IsFirst (P : ℕ → ModelMetadata → Prop) (i : ℕ) (model : ModelMetadata) : Prop :=
  P i model ∧ ∀ j model', P j model' → i ≤ j

/-- Entry `i` is the first usable one among those of maximal score. -/
def IsFirstBest (router : ModelRouter) (clock : ℕ → ℚ) (policy : RoutingPolicy) (i : ℕ)
    (model : ModelMetadata) : Prop :=
  IsFirst (fun j m => router.Usable clock j m ∧
    ∀ k m', router.Usable clock k m' → score m' policy ≤ score m policy) i model

/-- Entry `j` is usable and has the role that short requests, or long ones, go to. -/
def Preferred (router : ModelRouter) (clock : ℕ → ℚ) (tokens : ℤ) (j : ℕ) (model : ModelMetadata) :
    Prop :=
  router.Usable clock j model ∧
    ((tokens < 500 ∧ model.role = "fast".toList) ∨
      (2000 ≤ tokens ∧ model.role = "reasoning".toList))

/-- Entry `i` is the one to choose: the first preferred one, or else the first of maximal score. -/
structure Right (router : ModelRouter) (clock : ℕ → ℚ) (tokens : ℤ) (policy : RoutingPolicy) (i : ℕ)
    (model : ModelMetadata) : Prop where
  preferred : (∃ j m, router.Preferred clock tokens j m) →
    IsFirst (router.Preferred clock tokens) i model
  ranked : (¬∃ j m, router.Preferred clock tokens j m) → router.IsFirstBest clock policy i model

variable {router : ModelRouter} {clock : ℕ → ℚ} {i : ℕ} {model : ModelMetadata}

/-- The models that are scored are those that are `Usable` at the reading of the clock made for
them. -/
theorem mem_usable_iff : (model, i) ∈ router.usable clock ↔ router.Usable clock i model := by
  simp [usable, Usable, List.mk_mem_zipIdx_iff_getElem?]

/-- `usable` lists the models in the order of their places in the registry, so the first of several
equals is the earliest registered. -/
theorem usable_sorted (router : ModelRouter) (clock : ℕ → ℚ) :
    (router.usable clock).Pairwise fun e e' => e.2 < e'.2 := by
  have hplaces : (router.catalog.zipIdx.map Prod.snd).Pairwise (· < ·) := by
    rw [List.zipIdx_map_snd]
    exact List.pairwise_lt_range'
  exact (List.pairwise_map.mp hplaces).sublist List.filter_sublist

/-- An entry that stands in the list with others before and after it is the first one of its kind if
none of its kind stands before it. -/
theorem isFirst_of_split {P : ℕ → ModelMetadata → Prop} {before after : List (ModelMetadata × ℕ)}
    (hsplit : router.usable clock = before ++ (model, i) :: after) (hself : P i model)
    (husable : ∀ j m, P j m → router.Usable clock j m) (hbefore : ∀ e ∈ before, ¬P e.2 e.1) :
    IsFirst P i model := by
  refine ⟨hself, fun j m hm => ?_⟩
  have hsorted := router.usable_sorted clock
  have hmem : (m, j) ∈ before ++ (model, i) :: after := hsplit ▸ mem_usable_iff.mpr (husable j m hm)
  rw [hsplit, List.pairwise_append, List.pairwise_cons] at hsorted
  simp only [List.mem_append, List.mem_cons] at hmem
  rcases hmem with hmem | hmem | hmem
  · exact absurd hm (hbefore _ hmem)
  · exact (Prod.mk.inj hmem).2.ge
  · exact (hsorted.2.1.1 _ hmem).le

/-- `available` is empty exactly if no model is `Usable`, which is when `select` raises. -/
theorem available_eq_nil_iff :
    router.available clock = [] ↔ ¬∃ i model, router.Usable clock i model := by
  rw [available, List.map_eq_nil_iff, List.eq_nil_iff_forall_not_mem]
  simp only [← mem_usable_iff, Prod.forall, not_exists]
  exact forall_comm

/-- What `find?` returns is the model of the preferred role that `IsFirst` among the usable ones. -/
theorem isFirst_of_find? {role : PyStr}
    (h : (router.available clock).find? (fun m => m.role = role) = some model) :
    ∃ i, IsFirst (fun j m => router.Usable clock j m ∧ m.role = role) i model := by
  rw [available, List.find?_map, Option.map_eq_some_iff] at h
  obtain ⟨⟨m, i⟩, hfind, rfl⟩ := h
  obtain ⟨hrole, before, after, hsplit, hbefore⟩ := List.find?_eq_some_iff_append.mp hfind
  have hmem : (m, i) ∈ router.usable clock := by simp [hsplit]
  refine ⟨i, isFirst_of_split hsplit ⟨mem_usable_iff.mp hmem, by simpa using hrole⟩
    (fun _ _ hm => hm.1) fun e he hm => ?_⟩
  simpa [hm.2] using hbefore e he

/-- What `rank` lists first is the earliest model of maximal score: the sort is stable. -/
theorem isFirstBest_of_head? {policy : RoutingPolicy}
    (h : (rank (router.available clock) policy).head? = some model) :
    ∃ i, router.IsFirstBest clock policy i model := by
  have hall : (router.available clock).filter (fun m => m.isAvailable) =
      router.available clock := by
    refine List.filter_eq_self.mpr fun m hm => ?_
    obtain ⟨⟨_, i⟩, hmem, rfl⟩ := List.mem_map.mp hm
    exact (mem_usable_iff.mp hmem).2.1
  rw [rank, hall] at h
  have hmax := OrderBy.isFirstMax_of_head? h
  have hle (k : ℕ) (m : ModelMetadata) (hm : router.Usable clock k m) :
      score m policy ≤ score model policy :=
    hmax.le m (List.mem_map.mpr ⟨_, mem_usable_iff.mpr hm, rfl⟩)
  obtain ⟨before, after, hsplit, hbefore, -⟩ := hmax
  obtain ⟨before', rest, husable, hmap, hrest⟩ := List.map_eq_append_iff.mp hsplit
  obtain ⟨⟨m, i⟩, after', rfl, rfl, -⟩ := List.map_eq_cons_iff.mp hrest
  have hmem : (m, i) ∈ router.usable clock := by simp [husable]
  refine ⟨i, isFirst_of_split husable ⟨mem_usable_iff.mp hmem, hle⟩ (fun _ _ hm => hm.1) ?_⟩
  -- an earlier entry has a lower score
  rintro e he ⟨-, hbest⟩
  have hlt := hbefore e.1 (hmap ▸ List.mem_map_of_mem he)
  exact absurd (hbest i m (mem_usable_iff.mp hmem)) (not_le.mpr hlt)

/-- `Preferred` says that the complexity has a role of its own, and that the model is usable and has
this role. -/
theorem preferred_iff {tokens : ℤ} {j : ℕ} {m : ModelMetadata} :
    router.Preferred clock tokens j m ↔ classifyComplexity tokens ≠ .MEDIUM ∧
      router.Usable clock j m ∧ m.role = (classifyComplexity tokens).role := by
  unfold Preferred
  rcases lt_or_ge tokens 500 with hlow | hlow
  · have htier : classifyComplexity tokens = .LOW := if_pos hlow
    have hhigh : ¬2000 ≤ tokens := by omega
    rw [htier, and_iff_right hlow, or_iff_left fun h => hhigh h.1]
    exact (and_iff_right nofun).symm
  · rw [or_iff_right fun h => absurd h.1 (not_lt.mpr hlow)]
    rcases lt_or_ge tokens 2000 with hmedium | hhigh
    · have htier : classifyComplexity tokens = .MEDIUM :=
        (if_neg (not_lt.mpr hlow)).trans (if_pos hmedium)
      exact iff_of_false (fun h => absurd h.2.1 (not_le.mpr hmedium)) fun h => h.1 htier
    · have htier : classifyComplexity tokens = .HIGH :=
        (if_neg (not_lt.mpr hlow)).trans (if_neg (not_lt.mpr hhigh))
      rw [htier, and_iff_right hhigh]
      exact (and_iff_right nofun).symm

/-- Where a model is available, `first` of the ranking returns the one that `IsFirstBest`. -/
theorem exists_first (hne : router.available clock ≠ []) (policy : RoutingPolicy) :
    ∃ i model, first (rank (router.available clock) policy) = .ok model ∧
      router.IsFirstBest clock policy i model := by
  cases hrank : rank (router.available clock) policy with
  | nil =>
    have hperm : (rank (router.available clock) policy).Perm
        ((router.available clock).filter fun m => m.isAvailable) :=
      (OrderBy.isAnswer_stable _ _).perm
    rw [hrank] at hperm
    have hnone := List.nil_perm.mp hperm
    obtain ⟨m, hm⟩ := List.exists_mem_of_ne_nil _ hne
    obtain ⟨⟨m, i⟩, hmem, rfl⟩ := List.mem_map.mp hm
    exact absurd (mem_usable_iff.mp hmem).2.1 (List.filter_eq_nil_iff.mp hnone m hm)
  | cons model ranked =>
    obtain ⟨i, hbest⟩ := isFirstBest_of_head? (by rw [hrank, List.head?_cons])
    exact ⟨i, model, rfl, hbest⟩

/-- Where a model is available, `best` returns the one that is `Right` for the tokens of the
request. -/
theorem exists_best (hne : router.available clock ≠ []) (tokens : ℤ) (policy : RoutingPolicy) :
    ∃ i model, best (router.available clock) (classifyComplexity tokens) policy = .ok model ∧
      router.Right clock tokens policy i model := by
  obtain ⟨i, model, hfirst, hbest⟩ := exists_first hne policy
  cases hfind : (router.available clock).find? fun m => m.role = (classifyComplexity tokens).role
  with
  | none =>
    have hnone : ¬∃ j m, router.Preferred clock tokens j m := by
      rintro ⟨j, m, hm⟩
      obtain ⟨-, husable, hrole⟩ := preferred_iff.mp hm
      have hmem : m ∈ router.available clock :=
        List.mem_map.mpr ⟨_, mem_usable_iff.mpr husable, rfl⟩
      simpa [hrole] using List.find?_eq_none.mp hfind m hmem
    refine ⟨i, model, ?_, fun hsome => absurd hsome hnone, fun _ => hbest⟩
    simp [best, hfind, hfirst]
  | some m =>
    by_cases htier : classifyComplexity tokens = .MEDIUM
    · have hnone : ¬∃ j m, router.Preferred clock tokens j m :=
        fun ⟨_, _, hm⟩ => (preferred_iff.mp hm).1 htier
      refine ⟨i, model, ?_, fun hsome => absurd hsome hnone, fun _ => hbest⟩
      rw [htier] at hfind ⊢
      simp [best, hfind, hfirst]
    · obtain ⟨j, husable, hleast⟩ := isFirst_of_find? hfind
      have hpreferred : IsFirst (router.Preferred clock tokens) j m :=
        ⟨preferred_iff.mpr ⟨htier, husable⟩,
          fun k m' hm' => hleast k m' (preferred_iff.mp hm').2⟩
      refine ⟨j, m, ?_, fun _ => hpreferred, fun hnone => absurd ⟨j, m, hpreferred.1⟩ hnone⟩
      cases hcomplexity : classifyComplexity tokens with
      | MEDIUM => exact absurd hcomplexity htier
      | LOW | HIGH =>
        rw [hcomplexity] at hfind
        simp [best, hfind]

/-- `select` raises a `ModelUnavailableError` exactly if no entry of the catalog is `Usable`, that
is, marked available and not behind an open circuit. Otherwise it chooses the one that is `Right`:
the first usable entry with the role `fast` for fewer than 500 tokens, or `reasoning` for 2000 or
more, if there is one, and in every other case the first one of maximal score. -/
theorem select_spec (router : ModelRouter) (context : RoutingContext)
    (policy : Option RoutingPolicy) (clock : ℕ → ℚ) :
    (router.select context policy clock = .error modelUnavailable ↔
      ¬∃ i model, router.Usable clock i model) ∧
    ((∃ i model, router.Usable clock i model) →
      ∃ i model, router.Usable clock i model ∧
        router.Right clock context.estimatedInputTokens (policy.getD .default) i model ∧
        router.select context policy clock =
          .ok (decisionFor context (classifyComplexity context.estimatedInputTokens) model)) := by
  by_cases hnone : router.available clock = []
  · have hselect : router.select context policy clock = .error modelUnavailable := by
      simp [select, hnone, throw, throwThe, MonadExceptOf.throw, bind, Except.bind]
    have husable := available_eq_nil_iff.mp hnone
    exact ⟨iff_of_true hselect husable, fun hsome => absurd hsome husable⟩
  · obtain ⟨i, model, hbest, hright⟩ :=
      exists_best hnone context.estimatedInputTokens (policy.getD .default)
    have hselect : router.select context policy clock =
        .ok (decisionFor context (classifyComplexity context.estimatedInputTokens) model) := by
      simp [select, hnone, hbest, bind, Except.bind, pure, Except.pure]
    have husable : ¬¬∃ i model, router.Usable clock i model := mt available_eq_nil_iff.mpr hnone
    refine ⟨iff_of_false (fun h => nomatch hselect.symm.trans h) husable, fun _ => ?_⟩
    refine ⟨i, model, ?_, hright, hselect⟩
    by_cases hpreferred : ∃ j m, router.Preferred clock context.estimatedInputTokens j m
    · exact (hright.preferred hpreferred).1.1
    · exact (hright.ranked hpreferred).1.1

end ModelRouter
