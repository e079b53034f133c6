import AthenaAI.Context.Engine

/-!
# Which turns of a conversation are kept

`build` packs the messages of a conversation in the order in which they are given, the oldest first,
and drops those that no longer fit. `get_recent` and the summaries, where they cut a history, keep
its latest messages.

* `PackStep` is a step of the packing loop, which keeps its item or drops it.
* `conversationSteps` are the steps for the messages of a conversation. `packed_conversation`: those
  that keep a message are the messages in the context that `build` returns, and those that drop one
  are noted there.
* `map_steps_packStep`: the steps of the packing loop are the offers of `FirstFit`.
* `recentOutlive_iff`: no message is given up while an older one of its size or more is kept, if and
  only if the messages are cut by size: those up to some size fit together, and none of the others
  fits beside the older ones of them.
-/

namespace ContextPacker

open FirstFit

/-- A step of the packing loop. -/
abbrev PackStep := Run.Step PackedContext ContextItem

namespace PackStep

/-- The step includes its item. -/
def keeps (t : PackStep) : Bool := t.after.items = t.before.items ++ [t.event]

/-- The step notes the bucket of its item as dropped. -/
def drops (t : PackStep) : Bool :=
  t.after.droppedBuckets = t.before.droppedBuckets ++ [t.event.bucket]

end PackStep

variable {tokenCeiling : ℤ} {items : List ContextItem}

/-- A step of the packing loop includes its item if it fits under the ceiling, beside what is
included already, and drops it if not. -/
theorem keeps_drops_of_mem_steps {start : PackedContext} {t : PackStep}
    (ht : t ∈ Run.steps (packStep tokenCeiling) start items) :
    (t.keeps ↔ t.event.tokenCount ≤ tokenCeiling - t.before.totalTokens) ∧
      (t.drops ↔ tokenCeiling - t.before.totalTokens < t.event.tokenCount) := by
  obtain ⟨pre, item, post, -, rfl⟩ := (Run.mem_steps_iff _).mp ht
  simp only [PackStep.keeps, PackStep.drops, packStep]
  split
  case isTrue hfits => constructor <;> simp <;> omega
  case isFalse hfits => constructor <;> simp <;> omega

/-- What is included in the end are the items of the steps that keep theirs (`PackStep.keeps`), in
the order of the steps. -/
theorem items_after_eq (tokenCeiling : ℤ) (start : PackedContext) (items : List ContextItem) :
    (Run.after (packStep tokenCeiling) start items).items = start.items ++
      ((Run.steps (packStep tokenCeiling) start items).filter PackStep.keeps).map
        Run.Step.event := by
  induction items generalizing start with
  | nil => simp
  | cons item items ih =>
    rw [Run.after_cons, ih, Run.steps_cons, List.filter_cons]
    by_cases hfits : start.totalTokens + item.tokenCount ≤ tokenCeiling
    · simp [PackStep.keeps, packStep, hfits]
    · simp [PackStep.keeps, packStep, hfits]

/-- What is noted in the end are the buckets of the items of the steps that drop theirs
(`PackStep.drops`). -/
theorem droppedBuckets_after_eq (tokenCeiling : ℤ) (start : PackedContext)
    (items : List ContextItem) :
    (Run.after (packStep tokenCeiling) start items).droppedBuckets = start.droppedBuckets ++
      ((Run.steps (packStep tokenCeiling) start items).filter PackStep.drops).map
        fun t => t.event.bucket := by
  induction items generalizing start with
  | nil => simp
  | cons item items ih =>
    rw [Run.after_cons, ih, Run.steps_cons, List.filter_cons]
    by_cases hfits : start.totalTokens + item.tokenCount ≤ tokenCeiling
    · simp [PackStep.drops, packStep, hfits]
    · simp [PackStep.drops, packStep, hfits]

/-- The steps of the packing loop, each with the room it finds, are the offers of first fit
(`FirstFit.offers`). -/
theorem map_steps_packStep (tokenCeiling : ℤ) (start : PackedContext) (items : List ContextItem) :
    (Run.steps (packStep tokenCeiling) start items).map
        (fun t => (tokenCeiling - t.before.totalTokens, t.event)) =
      offers ContextItem.tokenCount (tokenCeiling - start.totalTokens) items := by
  induction items generalizing start with
  | nil => rfl
  | cons item items ih =>
    rw [Run.steps_cons, List.map_cons, ih, offers, packStep]
    congr 2
    split
    case isTrue hfits => rw [if_pos (by omega), sub_sub]
    case isFalse hfits => rw [if_neg (by omega)]

end ContextPacker

namespace ContextEngine

open ContextPacker FirstFit

variable {engine : ContextEngine} {sources : ContextSources} {memoryItems ragItems : List PyStr}

/-- The steps in which `build` packs the messages of the conversation. -/
def conversationSteps (engine : ContextEngine) (sources : ContextSources)
    (memoryItems ragItems : List PyStr) : List PackStep :=
  (Run.steps (packStep engine.budget.totalBudget) {}
    (ordered (bucketsOf sources memoryItems ragItems))).filter
      fun t => t.event.bucket = "conversation".toList

/-- The steps that keep a message are the messages in the context that is built, and those that drop
one are noted in it for the bucket of the conversation. -/
theorem packed_conversation {context : BuiltContext} (hbuild : engine.build sources = .ok context) :
    let steps := conversationSteps engine sources context.memoryItems context.ragItems
    context.packed.items.filter (fun item => item.bucket = "conversation".toList) =
        (steps.filter PackStep.keeps).map Run.Step.event ∧
      context.packed.droppedBuckets.filter (fun bucket => bucket = "conversation".toList) =
        (steps.filter PackStep.drops).map fun t => t.event.bucket := by
  obtain ⟨memoryItems, ragItems, -, -, rfl⟩ := build_eq_ok_iff.mp hbuild
  intro steps
  constructor
  · have hitems := items_after_eq engine.budget.totalBudget {}
      (ordered (bucketsOf sources memoryItems ragItems))
    change (engine.built sources memoryItems ragItems).packed.items = _ at hitems
    show _ = ((List.filter _ _).filter _).map _
    rw [hitems, List.nil_append, List.filter_map, List.filter_filter, List.filter_filter]
    simp only [Function.comp_def, Bool.and_comm]
    rfl
  · have hdropped := droppedBuckets_after_eq engine.budget.totalBudget {}
      (ordered (bucketsOf sources memoryItems ragItems))
    change (engine.built sources memoryItems ragItems).packed.droppedBuckets = _ at hdropped
    show _ = ((List.filter _ _).filter _).map _
    rw [hdropped, List.nil_append, List.filter_map, List.filter_filter, List.filter_filter]
    simp only [Function.comp_def, Bool.and_comm]
    rfl

/-- If `build` drops a message, it keeps no older one of its size or more. -/
def RecentOutlive (engine : ContextEngine) (sources : ContextSources) : Prop :=
  ∀ context, engine.build sources = .ok context →
    (conversationSteps engine sources context.memoryItems context.ragItems).Pairwise
      fun old new => new.drops → old.keeps → old.event.tokenCount < new.event.tokenCount

/-- What the system prompt leaves of the budget. -/
def roomForConversation (engine : ContextEngine) (sources : ContextSources) : ℤ :=
  if count sources.systemPrompt ≤ engine.budget.totalBudget then
    engine.budget.totalBudget - count sources.systemPrompt
  else engine.budget.totalBudget

/-- What the messages of at most some size count. -/
def countUpTo (size : ℤ) (messages : List PyStr) : ℤ :=
  ((messages.filter fun message => count message ≤ size).map count).sum

/-- Of the offers of the pieces of a source, all are of the conversation, or none, since they have
one bucket. -/
theorem filter_offers_pieces (c : ℤ) (name : PyStr) (texts : List PyStr) :
    (offers ContextItem.tokenCount c (pieces name texts)).filter
        (fun offer => offer.2.bucket = "conversation".toList) =
      if name = "conversation".toList then offers ContextItem.tokenCount c (pieces name texts)
      else [] := by
  have hbucket : ∀ offer ∈ offers ContextItem.tokenCount c (pieces name texts),
      offer.2.bucket = name := by
    intro offer hoffer
    obtain ⟨_, hmem, heq⟩ := List.mem_map.mp (snd_mem_of_mem_offers hoffer)
    obtain ⟨_, -, rfl⟩ := List.mem_map.mp hmem
    rw [← heq]
    rfl
  split_ifs with hname
  · exact List.filter_eq_self.mpr fun offer hoffer =>
      decide_eq_true ((hbucket offer hoffer).trans hname)
  · exact List.filter_eq_nil_iff.mpr fun offer hoffer heq =>
      hname ((hbucket offer hoffer).symm.trans (of_decide_eq_true heq))

/-- The messages of the conversation are offered the room that the system prompt leaves
(`roomForConversation`), in their order, before anything else is. -/
theorem map_conversationSteps (engine : ContextEngine) (sources : ContextSources)
    (memoryItems ragItems : List PyStr) :
    (conversationSteps engine sources memoryItems ragItems).map
        (fun t => (engine.budget.totalBudget - t.before.totalTokens, t.event)) =
      offers ContextItem.tokenCount (roomForConversation engine sources)
        (pieces "conversation".toList sources.conversation) := by
  have hsteps := map_steps_packStep engine.budget.totalBudget {}
    (ordered (bucketsOf sources memoryItems ragItems))
  rw [show ({} : PackedContext).totalTokens = 0 from rfl, sub_zero, ordered_bucketsOf] at hsteps
  have hmap := congrArg
    (List.filter fun offer : ℤ × ContextItem => offer.2.bucket = "conversation".toList) hsteps
  rw [List.filter_map] at hmap
  rw [conversationSteps, ordered_bucketsOf]
  refine hmap.trans ?_
  -- of all the pieces only the messages are of the bucket
  rw [allPieces]
  simp only [offers_append, List.filter_append, filter_offers_pieces]
  rw [if_neg (by decide), if_pos trivial, if_neg (by decide), if_neg (by decide),
    if_neg (by decide)]
  simp only [List.nil_append, List.append_nil]
  rfl

/-- No message is dropped after an older one of its size or more is kept, exactly if the messages
are cut by size. -/
theorem pairwise_conversationSteps_iff (engine : ContextEngine) (sources : ContextSources)
    (memoryItems ragItems : List PyStr) :
    ((conversationSteps engine sources memoryItems ragItems).Pairwise
        fun old new => new.drops → old.keeps →
          old.event.tokenCount < new.event.tokenCount) ↔
      ∃ size : ℤ, ∀ older message newer, sources.conversation = older ++ message :: newer →
        (count message ≤ size ↔
          countUpTo size older + count message ≤ roomForConversation engine sources) := by
  have hsize : ∀ item ∈ pieces "conversation".toList sources.conversation,
      0 ≤ item.tokenCount := fun item hitem =>
    (tokenCount_of_mem_pieces (by decide) hitem).1
  have hoffers := pairwise_offers_iff (c := roomForConversation engine sources) hsize
  rw [← map_conversationSteps engine sources memoryItems ragItems,
    List.pairwise_map, map_conversationSteps] at hoffers
  refine (List.Pairwise.iff_of_mem fun {old new} hold hnew => ?_).trans
    (hoffers.trans (exists_congr fun size => ?_))
  -- a step keeps its message if it fits, and drops it if not
  · obtain ⟨hkeeps, -⟩ := keeps_drops_of_mem_steps (List.mem_filter.mp hold).1
    obtain ⟨-, hdrops⟩ := keeps_drops_of_mem_steps (List.mem_filter.mp hnew).1
    rw [hkeeps, hdrops]
    exact imp.swap
  · have hcut := forall_offers_iff count (roomForConversation engine sources)
      sources.conversation size
    refine Iff.trans ?_ hcut
    rw [pieces, itemsOf, List.map_map, offers_map, List.forall_mem_map]
    rfl

/-- `build` drops no message after it has kept an older one of its size or more (`RecentOutlive`),
if and only if the messages are cut by size: there is a size such that each message is of at most
that size exactly if it fits, beside all older messages of at most that size (`countUpTo`), into
what the system prompt leaves of the budget (`roomForConversation`). The other case is that nothing
is built, since a function that fetches raises. -/
theorem recentOutlive_iff (engine : ContextEngine) (sources : ContextSources) :
    RecentOutlive engine sources ↔
      (∃ size : ℤ, ∀ older message newer, sources.conversation = older ++ message :: newer →
        (count message ≤ size ↔
          countUpTo size older + count message ≤ roomForConversation engine sources)) ∨
      sources.memoryFn.isOk = false ∨ sources.ragFn.isOk = false := by
  constructor
  · intro hrecent
    by_cases hmemory : sources.memoryFn.isOk = false
    · exact Or.inr (Or.inl hmemory)
    by_cases hrag : sources.ragFn.isOk = false
    · exact Or.inr (Or.inr hrag)
    obtain ⟨memoryItems, hmemory⟩ :=
      Except.isOk_eq_true_iff.mp (Bool.eq_true_of_not_eq_false hmemory)
    obtain ⟨ragItems, hrag⟩ := Except.isOk_eq_true_iff.mp (Bool.eq_true_of_not_eq_false hrag)
    refine Or.inl ((pairwise_conversationSteps_iff engine sources memoryItems ragItems).mp ?_)
    have hsteps := hrecent _ (build_eq_ok_iff.mpr ⟨memoryItems, ragItems, hmemory, hrag, rfl⟩)
    exact hsteps
  · rintro (hsize | hraises) context hbuild
    · exact (pairwise_conversationSteps_iff engine sources _ _).mpr hsize
    · obtain ⟨memoryItems, ragItems, hmemory, hrag, -⟩ := build_eq_ok_iff.mp hbuild
      rw [hmemory, hrag] at hraises
      exact absurd hraises (by simp [Except.isOk, Except.toBool])

/-- A budget of three tokens. -/
def threeTokens : Dict PyStr ℤ where
  items := [("system".toList, 3)]
  nodup := List.nodup_singleton _

/-- An earlier message and the current question, of two tokens each. -/
def question : ContextSources where
  systemPrompt := "hi".toList
  conversation := ["user: hey".toList, "user: why?".toList]

/-- The prompt and the earlier message take up the budget, and the question is dropped, which is the
newest message and no larger than the one that is kept. -/
theorem question_not_recentOutlive : ¬RecentOutlive ⟨.new threeTokens⟩ question := by
  intro hrecent
  have hsteps := hrecent _ (build_eq_ok_iff.mpr ⟨[], [], rfl, rfl, rfl⟩)
  exact absurd hsteps (by decide)

end ContextEngine
