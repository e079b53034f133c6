import AthenaAI.Context.Budget
import AthenaAI.Context.Packing
import AthenaAI.ToMathlib.Except

/-!
# The context engine

`athenai.context.engine`. `build` fetches memories and document chunks, estimates the tokens of
every piece of content and packs all of it under the total budget of a `TokenBudgetManager`.

* `ordered_bucketsOf`: the pieces are tried in the order system prompt, conversation, memories,
  document chunks, tool results.
* `prompt_packed_iff`: every context that is built contains the system prompt, if and only if the
  estimate of the prompt is within the total budget or the retrieval fails.
* `budgets_respected_iff`: `build` asks for no bucket's own limit, so these are respected for all
  contents exactly if none of them is below the total budget, and for given contents exactly if no
  step of the packing loop takes its bucket over its limit.
-/

/-- What `build` returns. -/
structure BuiltContext where
  /-- What was packed. -/
  packed : PackedContext
  /-- What it counts. -/
  totalTokens : ℤ
  /-- The memories that were fetched. -/
  memoryItems : List PyStr := []
  /-- The chunks that were fetched. -/
  ragItems : List PyStr := []
  /-- The system prompt. -/
  systemPrompt : PyStr := []

/-- The arguments of `build`. The functions that fetch are given by how they end. -/
structure ContextSources where
  /-- The system prompt. -/
  systemPrompt : PyStr
  /-- The messages of the conversation. -/
  conversation : List PyStr := []
  /-- How `memory_fn` ends. -/
  memoryFn : Except PyExc (List PyStr) := .ok []
  /-- How `rag_fn` ends. -/
  ragFn : Except PyExc (List PyStr) := .ok []
  /-- `memory_fn` ends before `rag_fn`. -/
  memoryFirst : Bool := true
  /-- The results of tools. -/
  toolResults : Option (List PyStr) := none

/-- The engine. -/
structure ContextEngine where
  /-- The budget. -/
  budget : TokenBudgetManager

namespace ContextEngine

open ContextPacker FirstFit

/-- `asyncio.gather` of the two functions that fetch: the first exception is raised. -/
def gather (sources : ContextSources) : Except PyExc (List PyStr × List PyStr) :=
  match sources.memoryFn, sources.ragFn with
  | .ok memoryItems, .ok ragItems => .ok (memoryItems, ragItems)
  | .error e, .ok _ => .error e
  | .ok _, .error e => .error e
  | .error e, .error e' => .error (if sources.memoryFirst then e else e')

/-- `_count`: four characters are a token. -/
def count (text : PyStr) : ℤ := max 1 (text.length / 4 : ℕ)

/-- The items of a bucket. -/
def itemsOf (bucket : PyStr) (texts : List PyStr) : List ContextItem :=
  texts.map fun text => ⟨bucket, text, count text, 0⟩

/-- The names of `fourBuckets` are different, as those of a `dict` have to be. -/
theorem nodup_fourNames :
    ["system".toList, "conversation".toList, "memory".toList, "rag".toList].Nodup := by
  decide

/-- The buckets that `build` always packs. -/
def fourBuckets (sources : ContextSources) (memoryItems ragItems : List PyStr) : Buckets where
  items := [("system".toList, itemsOf "system".toList [sources.systemPrompt]),
    ("conversation".toList, itemsOf "conversation".toList sources.conversation),
    ("memory".toList, itemsOf "memory".toList memoryItems),
    ("rag".toList, itemsOf "rag".toList ragItems)]
  nodup := nodup_fourNames

/-- The buckets that `build` packs. -/
def bucketsOf (sources : ContextSources) (memoryItems ragItems : List PyStr) : Buckets :=
  match sources.toolResults with
  | none => fourBuckets sources memoryItems ragItems
  -- an empty list counts as none
  | some [] => fourBuckets sources memoryItems ragItems
  | some toolResults => (fourBuckets sources memoryItems ragItems).set "tools".toList
      (itemsOf "tools".toList toolResults)

variable (engine : ContextEngine) (sources : ContextSources)

/-- `ContextEngine.build`. -/
def build : Except PyExc BuiltContext := do
  let (memoryItems, ragItems) ← gather sources
  let packed := pack (bucketsOf sources memoryItems ragItems) engine.budget.totalBudget
  return {
    packed := packed
    totalTokens := packed.totalTokens
    memoryItems := memoryItems
    ragItems := ragItems
    systemPrompt := sources.systemPrompt }

/-! ## The pieces of content in their order -/

/-- The pieces of a bucket, with the rank of the bucket. -/
def pieces (bucket : PyStr) (texts : List PyStr) : List ContextItem :=
  (itemsOf bucket texts).map (ranked (PRIORITY_ORDER.idxOf bucket))

/-- All pieces of content. -/
def allPieces (memoryItems ragItems : List PyStr) : List ContextItem :=
  pieces "system".toList [sources.systemPrompt] ++
    (pieces "conversation".toList sources.conversation ++ (pieces "memory".toList memoryItems ++
      (pieces "rag".toList ragItems ++ pieces "tools".toList (sources.toolResults.getD []))))

variable {engine sources} {memoryItems ragItems : List PyStr} {item : ContextItem} {bucket : PyStr}
  {texts : List PyStr}

/-- The items that `pack` tries for a known bucket that `build` has filled are the pieces of its
texts. -/
theorem knownItems_of_mem {buckets : Buckets} (h : (bucket, itemsOf bucket texts) ∈ buckets.items) :
    knownItems buckets bucket = pieces bucket texts := by
  rw [knownItems, Dict.get_eq_some_iff.mpr h]
  rfl

/-- Where every bucket has one of the names in `PRIORITY_ORDER`, there are no `unknownItems`, and
`pack` tries nothing after the known ones. -/
theorem unknownItems_eq_nil {buckets : Buckets}
    (h : ∀ name ∈ buckets.items.map Prod.fst, name ∈ PRIORITY_ORDER) :
    unknownItems buckets = [] := by
  rw [unknownItems, List.filter_eq_nil_iff.mpr fun b hb => ?_]
  · rfl
  · simpa using h b.1 (List.mem_map_of_mem hb)

/-- There is no bucket for tool results among `fourBuckets`; it is added at the end if there are
any. -/
theorem get_tools_fourBuckets (sources : ContextSources) (memoryItems ragItems : List PyStr) :
    (fourBuckets sources memoryItems ragItems).get "tools".toList = none := by
  refine Dict.get_eq_none_iff.mpr ?_
  show "tools".toList ∉ ["system".toList, "conversation".toList, "memory".toList, "rag".toList]
  decide

/-- With or without the tool results, the pieces are tried in the order of their buckets. -/
theorem ordered_of_items {buckets : Buckets} {rest : List (PyStr × List ContextItem)}
    (hitems : buckets.items = (fourBuckets sources memoryItems ragItems).items ++ rest)
    (hrest : rest.map Prod.fst ⊆ ["tools".toList])
    (htools : knownItems buckets "tools".toList = pieces "tools".toList texts) :
    ordered buckets =
      pieces "system".toList [sources.systemPrompt] ++
        (pieces "conversation".toList sources.conversation ++
          (pieces "memory".toList memoryItems ++
            (pieces "rag".toList ragItems ++ pieces "tools".toList texts))) := by
  have hunknown : unknownItems buckets = [] := by
    refine unknownItems_eq_nil fun name hname => ?_
    rw [hitems, List.map_append, List.mem_append] at hname
    rcases hname with hname | hname
    · have hfour : ["system".toList, "conversation".toList, "memory".toList, "rag".toList] ⊆
          PRIORITY_ORDER := by decide
      exact hfour hname
    · rw [List.mem_singleton.mp (hrest hname)]
      decide
  have hmem (name : PyStr) (texts : List PyStr)
      (h : (name, itemsOf name texts) ∈ (fourBuckets sources memoryItems ragItems).items) :
      knownItems buckets name = pieces name texts :=
    knownItems_of_mem (hitems ▸ List.mem_append_left rest h)
  rw [ordered, hunknown, List.append_nil, PRIORITY_ORDER]
  simp only [List.flatMap_cons, List.flatMap_nil, List.append_nil]
  rw [hmem _ [sources.systemPrompt] (by simp [fourBuckets]),
    hmem _ sources.conversation (by simp [fourBuckets]),
    hmem _ memoryItems (by simp [fourBuckets]), hmem _ ragItems (by simp [fourBuckets]), htools]

/-- What `build` gives to `pack` is tried in the order of `allPieces`: the prompt, the conversation,
the memory, the retrieved texts and the tool results. -/
theorem ordered_bucketsOf : ordered (bucketsOf sources memoryItems ragItems) =
    allPieces sources memoryItems ragItems := by
  have hnone : knownItems (fourBuckets sources memoryItems ragItems) "tools".toList =
      pieces "tools".toList [] := by
    rw [knownItems, get_tools_fourBuckets]
    rfl
  have hfour := ordered_of_items (List.append_nil _).symm (List.nil_subset _) hnone
  unfold bucketsOf allPieces
  rcases sources.toolResults with _ | _ | ⟨tool, tools⟩
  · exact hfour
  · exact hfour
  · have hitems : ((fourBuckets sources memoryItems ragItems).set "tools".toList
        (itemsOf "tools".toList (tool :: tools))).items =
        (fourBuckets sources memoryItems ragItems).items ++
          [("tools".toList, itemsOf "tools".toList (tool :: tools))] :=
      Dict.items_set_of_none (get_tools_fourBuckets sources memoryItems ragItems)
    refine ordered_of_items hitems (List.Subset.refl _) (knownItems_of_mem ?_)
    rw [hitems]
    exact List.mem_append_right _ (List.mem_singleton_self _)

/-- What `build` returns where nothing raises. -/
def built (engine : ContextEngine) (sources : ContextSources) (memoryItems ragItems : List PyStr) :
    BuiltContext where
  packed := pack (bucketsOf sources memoryItems ragItems) engine.budget.totalBudget
  totalTokens :=
    (pack (bucketsOf sources memoryItems ragItems) engine.budget.totalBudget).totalTokens
  memoryItems := memoryItems
  ragItems := ragItems
  systemPrompt := sources.systemPrompt

/-- `build` returns exactly if both functions that fetch do, and then what it returns is `built`
from the texts that they have fetched. -/
theorem build_eq_ok_iff {context : BuiltContext} :
    engine.build sources = .ok context ↔
      ∃ memoryItems ragItems, sources.memoryFn = .ok memoryItems ∧ sources.ragFn = .ok ragItems ∧
        context = engine.built sources memoryItems ragItems := by
  rw [build, Except.bind_eq_ok_iff]
  have hgather : ∀ fetched : List PyStr × List PyStr, gather sources = .ok fetched ↔
      sources.memoryFn = .ok fetched.1 ∧ sources.ragFn = .ok fetched.2 := by
    rintro ⟨memoryItems, ragItems⟩
    unfold gather
    cases sources.memoryFn <;> cases sources.ragFn <;> simp
  constructor
  · rintro ⟨⟨memoryItems, ragItems⟩, hfetched, hreturn⟩
    obtain ⟨hmemory, hrag⟩ := (hgather _).mp hfetched
    exact ⟨memoryItems, ragItems, hmemory, hrag, (Except.ok.inj hreturn).symm⟩
  · rintro ⟨memoryItems, ragItems, hmemory, hrag, rfl⟩
    exact ⟨(memoryItems, ragItems), (hgather _).mpr ⟨hmemory, hrag⟩, rfl⟩

/-- What is packed are the pieces that first fit keeps, offered in the order of `allPieces` under
the total budget. -/
theorem items_built : (engine.built sources memoryItems ragItems).packed.items =
    kept ContextItem.tokenCount engine.budget.totalBudget
      (allPieces sources memoryItems ragItems) := by
  rw [built, pack_eq, ordered_bucketsOf]

/-! ## The system prompt -/

/-- The packed items contain the system prompt. -/
def HasPrompt (context : BuiltContext) (systemPrompt : PyStr) : Prop :=
  ∃ item ∈ context.packed.items, item.bucket = "system".toList ∧ item.content = systemPrompt

/-- Every context that `build` returns `HasPrompt`, if and only if the estimate of the system prompt
by itself is within the total budget: `pack` takes the prompt first, and drops it if it does not
fit. The other case is that nothing is returned, since a function that fetches raises. -/
theorem prompt_packed_iff (engine : ContextEngine) (sources : ContextSources) :
    (∀ context, engine.build sources = .ok context → HasPrompt context sources.systemPrompt) ↔
      count sources.systemPrompt ≤ engine.budget.totalBudget ∨
        sources.memoryFn.isOk = false ∨ sources.ragFn.isOk = false := by
  constructor
  · intro hall
    by_contra hnot
    obtain ⟨hlarge, hfetch⟩ := not_or.mp hnot
    obtain ⟨hmemory, hrag⟩ := not_or.mp hfetch
    obtain ⟨memoryItems, hmemory⟩ :=
      Except.isOk_eq_true_iff.mp (Bool.eq_true_of_not_eq_false hmemory)
    obtain ⟨ragItems, hrag⟩ := Except.isOk_eq_true_iff.mp (Bool.eq_true_of_not_eq_false hrag)
    obtain ⟨item, hitem, hbucket, -⟩ :=
      hall _ (build_eq_ok_iff.mpr ⟨memoryItems, ragItems, hmemory, hrag, rfl⟩)
    -- the prompt is tried first and dropped, and no other piece is of its bucket
    rw [items_built, allPieces, kept_append] at hitem
    have hprompt : kept ContextItem.tokenCount engine.budget.totalBudget
        (pieces "system".toList [sources.systemPrompt]) = [] :=
      kept_eq_nil_iff.mpr fun a ha => by
        rw [List.mem_singleton.mp ha]
        exact not_le.mp hlarge
    rw [hprompt, List.nil_append] at hitem
    have hother := kept_subset hitem
    simp only [List.mem_append] at hother
    have hpieces {name : PyStr} {texts : List PyStr} (h : item ∈ pieces name texts) :
        item.bucket = name := by
      obtain ⟨_, hmem, rfl⟩ := List.mem_map.mp h
      obtain ⟨_, -, rfl⟩ := List.mem_map.mp hmem
      rfl
    rcases hother with h | h | h | h
    all_goals exact absurd (hbucket.symm.trans (hpieces h)) (by decide)
  · rintro (hfits | hraises) context hbuild
    · obtain ⟨memoryItems, ragItems, -, -, rfl⟩ := build_eq_ok_iff.mp hbuild
      refine ⟨⟨"system".toList, sources.systemPrompt, count sources.systemPrompt, 0⟩, ?_, rfl, rfl⟩
      rw [items_built, allPieces]
      show _ ∈ kept _ _ (_ :: _)
      rw [kept_cons_of_le (show ContextItem.tokenCount _ ≤ _ from hfits)]
      exact List.mem_cons_self
    · obtain ⟨memoryItems, ragItems, hmemory, hrag, -⟩ := build_eq_ok_iff.mp hbuild
      rw [hmemory, hrag] at hraises
      exact absurd hraises (by simp [Except.isOk, Except.toBool])

/-- A budget of one token, for the system prompt. -/
def oneToken : Dict PyStr ℤ where
  items := [("system".toList, 1)]
  nodup := List.nodup_singleton _

/-- A system prompt and nothing else. -/
def promptOnly : ContextSources := { systemPrompt := "be brief".toList }

/-- A prompt of two tokens does not fit into a budget of one, and `build` returns without it: the
prompt is an item like any other, and is dropped. -/
theorem promptOnly_not_packed :
    ¬∀ context, (ContextEngine.mk (.new oneToken)).build promptOnly = .ok context →
      HasPrompt context promptOnly.systemPrompt := by
  intro hall
  obtain ⟨item, hitem, -⟩ := hall ((ContextEngine.mk (.new oneToken)).built promptOnly [] []) rfl
  have hnone : ((ContextEngine.mk (.new oneToken)).built promptOnly [] []).packed.items = [] := by
    decide
  rw [hnone] at hitem
  exact List.not_mem_nil hitem

/-! ## The limits of the buckets -/

/-- What the items of a bucket count. -/
def tokensOf (items : List ContextItem) (bucket : PyStr) : ℤ :=
  ((items.filter fun item => item.bucket = bucket).map ContextItem.tokenCount).sum

/-- What is packed is within the limit of every bucket that has one, and within the total. -/
def Respects (budget : TokenBudgetManager) (result : PackedContext) : Prop :=
  (∀ allocation ∈ budget.allocations.items,
    tokensOf result.items allocation.1 ≤ allocation.2) ∧
    result.totalTokens ≤ budget.totalBudget

/-- If the item is packed next, its bucket stays within its limit. -/
def KeepsLimit (budget : TokenBudgetManager) (result : PackedContext) (item : ContextItem) :
    Prop :=
  result.totalTokens + item.tokenCount ≤ budget.totalBudget →
    ∀ allocation ∈ budget.allocations.items, allocation.1 = item.bucket →
      tokensOf result.items item.bucket + item.tokenCount ≤ allocation.2

variable {budget : TokenBudgetManager} {result : PackedContext} {items : List ContextItem}

/-- One more item adds its tokens to its own bucket, and to no other one. -/
theorem tokensOf_concat (items : List ContextItem) (item : ContextItem) (bucket : PyStr) :
    tokensOf (items ++ [item]) bucket =
      tokensOf items bucket + if item.bucket = bucket then item.tokenCount else 0 := by
  simp only [tokensOf, List.filter_append, List.map_append, List.sum_append]
  by_cases h : item.bucket = bucket
  · simp [h]
  · simp [h]

/-- Some of the items of a bucket count no more than all items, if no item counts less than
nothing. -/
theorem tokensOf_le_of_sublist {items' : List ContextItem} (hsub : items'.Sublist items)
    (hcounts : ∀ item ∈ items, 0 ≤ item.tokenCount) (bucket : PyStr) :
    tokensOf items' bucket ≤ tokensOf items bucket := by
  refine List.Sublist.sum_le_sum ((hsub.filter _).map _) fun n hn => ?_
  obtain ⟨item, hitem, rfl⟩ := List.mem_map.mp hn
  exact hcounts item (List.mem_filter.mp hitem).1

/-- If no item counts less than nothing, then what a bucket holds is at most what all items
count. -/
theorem tokensOf_le_sum (hcounts : ∀ item ∈ items, 0 ≤ item.tokenCount) (bucket : PyStr) :
    tokensOf items bucket ≤ (items.map ContextItem.tokenCount).sum := by
  refine List.Sublist.sum_le_sum (List.filter_sublist.map _) fun n hn => ?_
  obtain ⟨item, hitem, rfl⟩ := List.mem_map.mp hn
  exact hcounts item hitem

/-- From a packing that `Respects` the limits, the next item leads to one that does exactly if it
`KeepsLimit`. -/
theorem respects_packStep_iff (h : Respects budget result) (item : ContextItem) :
    Respects budget (packStep budget.totalBudget result item) ↔ KeepsLimit budget result item := by
  unfold packStep
  split
  case isTrue hfits =>
    rw [Respects, KeepsLimit]
    simp only [tokensOf_concat]
    constructor
    · rintro ⟨hlimits, -⟩ - allocation hmem hkey
      have hlimit := hlimits allocation hmem
      rwa [hkey, if_pos rfl] at hlimit
    · refine fun hkeeps => ⟨fun allocation hmem => ?_, hfits⟩
      by_cases hbucket : item.bucket = allocation.1
      · rw [if_pos hbucket, ← hbucket]
        exact hkeeps hfits allocation hmem hbucket.symm
      · rw [if_neg hbucket, add_zero]
        exact h.1 allocation hmem
  case isFalse hfits => exact iff_of_true h fun hfits' => absurd hfits' hfits

/-- A packing is within the limits throughout, exactly if it is so at its end: what a bucket counts
only grows. -/
theorem forall_prefix_respects_iff (hbudget : 0 ≤ budget.totalBudget)
    (hcounts : ∀ item ∈ items, 0 ≤ item.tokenCount) :
    (∀ pre, pre <+: items → Respects budget (Run.after (packStep budget.totalBudget) {} pre)) ↔
      Respects budget (Run.after (packStep budget.totalBudget) {} items) := by
  refine ⟨fun hall => hall items List.prefix_rfl, fun hend pre hpre =>
    ⟨fun allocation hmem => ?_, ?_⟩⟩
  · obtain ⟨post, rfl⟩ := hpre
    refine le_trans ?_ (hend.1 allocation hmem)
    -- what is packed at the end begins with what is packed by then
    rw [items_after, items_after]
    refine tokensOf_le_of_sublist ?_ (fun item hitem => hcounts item (kept_subset hitem)) _
    rw [kept_append]
    exact List.sublist_append_left _ _
  · exact totalTokens_after_le hbudget pre

variable {allocations : Dict PyStr ℤ}

/-- The total budget of a new manager is not negative if none of its limits is, whether it is given
under the key `total` or is the sum of the others. -/
theorem totalBudget_nonneg (hlimits : ∀ allocation ∈ allocations.items, 0 ≤ allocation.2) :
    0 ≤ (TokenBudgetManager.new allocations).totalBudget :=
  (TokenBudgetManager.within_reset (m := .new allocations) hlimits rfl rfl).1

/-- With nonnegative limits, a packing `Respects` them at its end exactly if each of its steps
`KeepsLimit`. -/
theorem respects_after_iff (hlimits : ∀ allocation ∈ allocations.items, 0 ≤ allocation.2)
    (hcounts : ∀ item ∈ items, 0 ≤ item.tokenCount) :
    Respects (.new allocations)
        (Run.after (packStep (TokenBudgetManager.new allocations).totalBudget) {} items) ↔
      ∀ s ∈ Run.steps (packStep (TokenBudgetManager.new allocations).totalBudget) {} items,
        KeepsLimit (.new allocations) s.before s.event := by
  have hempty : Respects (.new allocations) {} := ⟨hlimits, totalBudget_nonneg hlimits⟩
  rw [← forall_prefix_respects_iff (totalBudget_nonneg hlimits) hcounts]
  exact Run.forall_prefix_iff (P := Respects (.new allocations))
    (G := KeepsLimit (.new allocations)) (fun result item h => respects_packStep_iff h item)
    hempty items

/-- A piece of a known bucket counts at least zero tokens (in fact one), and carries the name of its
bucket. -/
theorem tokenCount_of_mem_pieces (hbucket : bucket ∈ PRIORITY_ORDER)
    (h : item ∈ pieces bucket texts) : 0 ≤ item.tokenCount ∧ item.bucket ∈ PRIORITY_ORDER := by
  obtain ⟨_, hmem, rfl⟩ := List.mem_map.mp h
  obtain ⟨text, -, rfl⟩ := List.mem_map.mp hmem
  exact ⟨zero_le_one.trans (le_max_left _ _), hbucket⟩

/-- So do all pieces that `build` packs. -/
theorem tokenCount_of_mem_allPieces (h : item ∈ allPieces sources memoryItems ragItems) :
    0 ≤ item.tokenCount ∧ item.bucket ∈ PRIORITY_ORDER := by
  simp only [allPieces, List.mem_append] at h
  rcases h with h | h | h | h | h
  all_goals exact tokenCount_of_mem_pieces (by decide) h

/-- If no limit of a packed bucket is below the total budget, every packing respects them: the items
of one bucket count no more than all items, which are within the budget. -/
theorem respects_built_of_le (hlimits : ∀ allocation ∈ allocations.items, 0 ≤ allocation.2)
    (hlarge : ∀ allocation ∈ allocations.items, allocation.1 ∈ PRIORITY_ORDER →
      (TokenBudgetManager.new allocations).totalBudget ≤ allocation.2) :
    Respects (.new allocations)
      ((ContextEngine.mk (.new allocations)).built sources memoryItems ragItems).packed := by
  set engine : ContextEngine := ⟨.new allocations⟩
  have hpieces : ∀ item ∈ (engine.built sources memoryItems ragItems).packed.items,
      0 ≤ item.tokenCount ∧ item.bucket ∈ PRIORITY_ORDER := fun item hitem =>
    tokenCount_of_mem_allPieces (kept_subset (items_built ▸ hitem))
  have htotal : (engine.built sources memoryItems ragItems).packed.totalTokens ≤
      engine.budget.totalBudget := totalTokens_after_le (totalBudget_nonneg hlimits) _
  refine ⟨fun allocation hmem => ?_, htotal⟩
  by_cases hbucket : allocation.1 ∈ PRIORITY_ORDER
  · calc tokensOf (engine.built sources memoryItems ragItems).packed.items allocation.1
        ≤ ((engine.built sources memoryItems ragItems).packed.items.map
            ContextItem.tokenCount).sum := tokensOf_le_sum (fun item h => (hpieces item h).1) _
      _ = (engine.built sources memoryItems ragItems).packed.totalTokens :=
          (totalTokens_pack _ _).symm
      _ ≤ engine.budget.totalBudget := htotal
      _ ≤ allocation.2 := hlarge allocation hmem hbucket
  -- nothing is packed of another bucket
  · have hnone : (engine.built sources memoryItems ragItems).packed.items.filter
        (fun item => item.bucket = allocation.1) = [] := by
      refine List.filter_eq_nil_iff.mpr fun item hitem heq => hbucket ?_
      rw [← of_decide_eq_true heq]
      exact (hpieces item hitem).2
    rw [tokensOf, hnone]
    exact hlimits allocation hmem

/-- A text of `n` tokens. -/
def textOf (n : ℕ) : PyStr := List.replicate (4 * n) 'a'

/-- There is a text of every positive count: `count` estimates a token for every four characters,
and one at least. -/
theorem count_textOf {n : ℕ} (h : 1 ≤ n) : count (textOf n) = n := by
  rw [count, textOf, List.length_replicate, Nat.mul_div_cancel_left n (by decide)]
  exact max_eq_right (by exact_mod_cast h)

/-- A text of `n` tokens in one bucket, and a system prompt that is larger if it is not there. -/
def onlyIn (bucket : PyStr) (n : ℕ) : ContextSources where
  systemPrompt := textOf (if bucket = "system".toList then n else n + 1)
  conversation := if bucket = "conversation".toList then [textOf n] else []
  memoryFn := .ok (if bucket = "memory".toList then [textOf n] else [])
  ragFn := .ok (if bucket = "rag".toList then [textOf n] else [])
  toolResults := if bucket = "tools".toList then some [textOf n] else none

/-- Under a budget of `n` tokens, only the text of `n` tokens is packed of the contents `onlyIn`
a bucket: the prompt, which is tried first, is larger than the budget if it is not that text
itself. -/
theorem exists_kept_onlyIn {n : ℕ} (hn : 1 ≤ n) (hbucket : bucket ∈ PRIORITY_ORDER) :
    ∃ memoryItems ragItems, (onlyIn bucket n).memoryFn = .ok memoryItems ∧
      (onlyIn bucket n).ragFn = .ok ragItems ∧
      kept ContextItem.tokenCount n (allPieces (onlyIn bucket n) memoryItems ragItems) =
        pieces bucket [textOf n] := by
  -- the larger prompt does not fit, the text does
  have hpieces (name : PyStr) :
      kept ContextItem.tokenCount (n : ℤ) (pieces name [textOf n]) = pieces name [textOf n] :=
    kept_cons_of_le (count_textOf hn).le
  have hprompt (name : PyStr) :
      kept ContextItem.tokenCount (n : ℤ)
        (pieces "system".toList [textOf (n + 1)] ++ pieces name [textOf n]) =
          pieces name [textOf n] := by
    refine (kept_cons_of_lt ?_).trans (hpieces name)
    show (n : ℤ) < count (textOf (n + 1))
    rw [count_textOf (Nat.le_add_left 1 n)]
    exact_mod_cast Nat.lt_succ_self n
  simp only [PRIORITY_ORDER, List.mem_cons, List.not_mem_nil, or_false] at hbucket
  rcases hbucket with rfl | rfl | rfl | rfl | rfl
  · exact ⟨_, _, rfl, rfl, hpieces _⟩
  all_goals exact ⟨_, _, rfl, rfl, hprompt _⟩

/-- If all contexts respect a budget, then no bucket that `build` packs has a limit below the total:
a text of as many tokens as the total is packed into it. -/
theorem totalBudget_le_of_respected (hlimits : ∀ allocation ∈ allocations.items, 0 ≤ allocation.2)
    (hall : ∀ sources context, (ContextEngine.mk (.new allocations)).build sources = .ok context →
      Respects (.new allocations) context.packed) {allocation : PyStr × ℤ}
    (hmem : allocation ∈ allocations.items) (hbucket : allocation.1 ∈ PRIORITY_ORDER) :
    (TokenBudgetManager.new allocations).totalBudget ≤ allocation.2 := by
  set budget := TokenBudgetManager.new allocations
  rcases le_or_gt budget.totalBudget 0 with hzero | hpos
  · exact hzero.trans (hlimits allocation hmem)
  · obtain ⟨n, hn⟩ := Int.eq_ofNat_of_zero_le hpos.le
    have hone : 1 ≤ n := by omega
    obtain ⟨memoryItems, ragItems, hmemory, hrag, hkept⟩ := exists_kept_onlyIn hone hbucket
    have hrespects := hall _ _ (build_eq_ok_iff.mpr ⟨memoryItems, ragItems, hmemory, hrag, rfl⟩)
    have hlimit := hrespects.1 allocation hmem
    rw [items_built] at hlimit
    change tokensOf (kept _ budget.totalBudget _) _ ≤ _ at hlimit
    rw [hn, hkept] at hlimit
    rw [hn]
    refine le_trans (le_of_eq ?_) hlimit
    simp [tokensOf, pieces, itemsOf, ranked, count_textOf hone]

/-- The context built from given contents respects the budget exactly if every step of the packing
loop keeps its bucket within its limit. -/
theorem respects_built_iff (hlimits : ∀ allocation ∈ allocations.items, 0 ≤ allocation.2) :
    Respects (.new allocations)
        ((ContextEngine.mk (.new allocations)).built sources memoryItems ragItems).packed ↔
      ∀ s ∈ Run.steps (packStep (TokenBudgetManager.new allocations).totalBudget) {}
          (ordered (bucketsOf sources memoryItems ragItems)),
        KeepsLimit (.new allocations) s.before s.event :=
  respects_after_iff hlimits fun _ hitem =>
    (tokenCount_of_mem_allPieces (ordered_bucketsOf ▸ hitem)).1

/-- For every budget with nonnegative limits: all contexts that are built respect it, if and only if
no limit of a bucket in `PRIORITY_ORDER` is below the total budget, which alone is passed to `pack`;
and the contexts built from given contents do, if and only if every step of the packing loop keeps
its bucket within its limit (`KeepsLimit`, said of the state before the step and the item). -/
theorem budgets_respected_iff (hlimits : ∀ allocation ∈ allocations.items, 0 ≤ allocation.2) :
    ((∀ sources context, (ContextEngine.mk (.new allocations)).build sources = .ok context →
        Respects (.new allocations) context.packed) ↔
      ∀ allocation ∈ allocations.items, allocation.1 ∈ PRIORITY_ORDER →
        (TokenBudgetManager.new allocations).totalBudget ≤ allocation.2) ∧
    ∀ (sources : ContextSources) (memoryItems ragItems : List PyStr),
      sources.memoryFn = .ok memoryItems → sources.ragFn = .ok ragItems →
      ((∀ context, (ContextEngine.mk (.new allocations)).build sources = .ok context →
          Respects (.new allocations) context.packed) ↔
        ∀ s ∈ Run.steps (packStep (TokenBudgetManager.new allocations).totalBudget) {}
            (ordered (bucketsOf sources memoryItems ragItems)),
          KeepsLimit (.new allocations) s.before s.event) := by
  constructor
  · constructor
    · exact fun hall allocation hmem hbucket =>
        totalBudget_le_of_respected hlimits hall hmem hbucket
    · intro hlarge sources context hbuild
      obtain ⟨memoryItems, ragItems, -, -, rfl⟩ := build_eq_ok_iff.mp hbuild
      exact respects_built_of_le hlimits hlarge
  · intro sources memoryItems ragItems hmemory hrag
    rw [← respects_built_iff hlimits]
    constructor
    · exact fun hall => hall _ (build_eq_ok_iff.mpr ⟨memoryItems, ragItems, hmemory, hrag, rfl⟩)
    · intro hrespects context hbuild
      obtain ⟨_, _, hmemory', hrag', rfl⟩ := build_eq_ok_iff.mp hbuild
      obtain rfl := Except.ok.inj (hmemory.symm.trans hmemory')
      obtain rfl := Except.ok.inj (hrag.symm.trans hrag')
      exact hrespects

/-- Limits of four tokens for the system prompt and one for document chunks, of eight in all. -/
def smallRag : Dict PyStr ℤ where
  items := [("system".toList, 4), ("rag".toList, 1), ("total".toList, 8)]
  nodup := by decide

/-- A short prompt and a chunk of five tokens. -/
def longChunk : ContextSources where
  systemPrompt := "hi".toList
  ragFn := .ok [textOf 5]

/-- The chunk of five tokens is packed under a limit of one for its bucket, since the budget in all
has room for it: `build` never looks at the limits of the buckets. -/
theorem longChunk_not_respected :
    ¬∀ sources context, (ContextEngine.mk (.new smallRag)).build sources = .ok context →
      Respects (.new smallRag) context.packed := by
  intro hall
  have hrespects := hall longChunk _ (build_eq_ok_iff.mpr ⟨[], [textOf 5], rfl, rfl, rfl⟩)
  exact absurd (hrespects.1 ("rag".toList, 1) (by decide)) (by decide)

/-- `budgets_respected_iff` for a budget of one token in one bucket: the limit is the total budget,
and the long chunk is dropped. -/
theorem budgets_respected_iff_oneToken :
    Respects (.new oneToken)
      ((ContextEngine.mk (.new oneToken)).built longChunk [] [textOf 5]).packed :=
  (budgets_respected_iff (by decide)).1.mpr (by decide) longChunk _
    (build_eq_ok_iff.mpr ⟨[], [textOf 5], rfl, rfl, rfl⟩)

end ContextEngine
