import AthenaAI.Python.Dict
import AthenaAI.Python.Str
import AthenaAI.ToMathlib.FirstFit
import AthenaAI.ToMathlib.Run
import Mathlib.Algebra.Order.Group.Int

/-!
# Context packing

`athenai.context.packing`. `pack` lays out the items of named buckets in the order of the buckets'
priority, until the token ceiling is reached: an item that no longer fits is dropped, and the next
one is tried.

* `ordered` are the items in the order in which they are tried, `packStep` is the body of the loop.
* `pack_eq`: `pack` is the first-fit packing of `FirstFit` with the token counts as sizes.
* `lowestFirst_iff`: no item is kept that is of lower priority than a dropped one, if and only if,
  from the first rank on whose items do not all fit, no item of a later rank fits into the room that
  is left.
* `pack_accounts`: every item is kept or noted as dropped, in order, and no dropped one would fit.
* `totalTokens_pack_mono`: a larger ceiling never makes the total smaller.
-/

/-- One unit of content. -/
structure ContextItem where
  /-- The bucket it is from. -/
  bucket : PyStr
  /-- The text. -/
  content : PyStr
  /-- What it counts against the ceiling. -/
  tokenCount : ℤ
  /-- The rank of its bucket; `pack` sets it. -/
  priority : ℕ := 0
  deriving DecidableEq

/-- What `pack` returns. -/
structure PackedContext where
  /-- The items that fit. -/
  items : List ContextItem := []
  /-- What they count. -/
  totalTokens : ℤ := 0
  /-- The bucket of each item that did not fit. -/
  droppedBuckets : List PyStr := []
  deriving DecidableEq

/-- The names of the known buckets, by falling priority. -/
def PRIORITY_ORDER : List PyStr :=
  ["system".toList, "conversation".toList, "memory".toList, "rag".toList, "tools".toList]

/-- The contents of the buckets, by name. -/
abbrev Buckets := Dict PyStr (List ContextItem)

namespace ContextPacker

/-- An item with its priority set. -/
def ranked (rank : ℕ) (item : ContextItem) : ContextItem := { item with priority := rank }

/-- The items of a known bucket. -/
def knownItems (buckets : Buckets) (name : PyStr) : List ContextItem :=
  ((buckets.get name).getD []).map (ranked (PRIORITY_ORDER.idxOf name))

/-- The items of the buckets that are not known, in the order of the `dict`. -/
def unknownItems (buckets : Buckets) : List ContextItem :=
  (buckets.items.filter fun bucket => bucket.1 ∉ PRIORITY_ORDER).flatMap fun bucket =>
    bucket.2.map (ranked PRIORITY_ORDER.length)

/-- The items in the order in which they are tried. -/
def ordered (buckets : Buckets) : List ContextItem :=
  PRIORITY_ORDER.flatMap (knownItems buckets) ++ unknownItems buckets

/-- The body of the loop: the item is included if it fits, and dropped as a whole if not. -/
def packStep (tokenCeiling : ℤ) (result : PackedContext) (item : ContextItem) : PackedContext :=
  if result.totalTokens + item.tokenCount ≤ tokenCeiling then
    { result with
      items := result.items ++ [item]
      totalTokens := result.totalTokens + item.tokenCount }
  else { result with droppedBuckets := result.droppedBuckets ++ [item.bucket] }

/-- `ContextPacker.pack`. -/
def pack (buckets : Buckets) (tokenCeiling : ℤ) : PackedContext :=
  (ordered buckets).foldl (packStep tokenCeiling) {}

/-! ## Packing is first-fit -/

open FirstFit

variable {tokenCeiling : ℤ} {items : List ContextItem}

/-- The loop, from any `result` on, keeps and drops the items that first fit keeps and drops
(`FirstFit.kept`, `FirstFit.dropped`) in the room that the result leaves under the ceiling. -/
theorem foldl_packStep (result : PackedContext) (items : List ContextItem) :
    items.foldl (packStep tokenCeiling) result =
      { items := result.items ++
          kept ContextItem.tokenCount (tokenCeiling - result.totalTokens) items
        totalTokens := tokenCeiling -
          room ContextItem.tokenCount (tokenCeiling - result.totalTokens) items
        droppedBuckets := result.droppedBuckets ++
          (dropped ContextItem.tokenCount (tokenCeiling - result.totalTokens) items).map
            ContextItem.bucket } := by
  induction items generalizing result with
  | nil => simp
  | cons item items ih =>
    rw [List.foldl_cons, ih, packStep]
    split
    case isTrue hfits =>
      have hle : item.tokenCount ≤ tokenCeiling - result.totalTokens := by omega
      rw [kept_cons_of_le hle, room_cons_of_le hle, dropped_cons_of_le hle]
      simp [sub_sub]
    case isFalse hfits =>
      have hlt : tokenCeiling - result.totalTokens < item.tokenCount := by omega
      rw [kept_cons_of_lt hlt, room_cons_of_lt hlt, dropped_cons_of_lt hlt]
      simp

/-- What the loop has included after some items is what first fit keeps of these. -/
theorem items_after (tokenCeiling : ℤ) (items : List ContextItem) :
    (Run.after (packStep tokenCeiling) {} items).items =
      kept ContextItem.tokenCount tokenCeiling items := by
  rw [Run.after, foldl_packStep]
  simp

/-- What is included stays within a nonnegative ceiling, after every item. -/
theorem totalTokens_after_le (hceiling : 0 ≤ tokenCeiling) (items : List ContextItem) :
    (Run.after (packStep tokenCeiling) {} items).totalTokens ≤ tokenCeiling := by
  refine Run.invariant (P := fun r : PackedContext => r.totalTokens ≤ tokenCeiling)
    (fun r item hr => ?_) hceiling items
  unfold packStep
  split
  case isTrue hfits => exact hfits
  case isFalse => exact hr

/-- `pack` is first fit under the ceiling, on the items `ordered` by the priority of their
buckets. -/
theorem pack_eq (buckets : Buckets) (tokenCeiling : ℤ) :
    pack buckets tokenCeiling =
      { items := kept ContextItem.tokenCount tokenCeiling (ordered buckets)
        totalTokens := tokenCeiling - room ContextItem.tokenCount tokenCeiling (ordered buckets)
        droppedBuckets := (dropped ContextItem.tokenCount tokenCeiling (ordered buckets)).map
          ContextItem.bucket } := by
  rw [pack, foldl_packStep]
  simp

/-- The total is what the included items count. -/
theorem totalTokens_pack (buckets : Buckets) (tokenCeiling : ℤ) :
    (pack buckets tokenCeiling).totalTokens =
      ((pack buckets tokenCeiling).items.map ContextItem.tokenCount).sum := by
  have hroom : room ContextItem.tokenCount tokenCeiling (ordered buckets) +
      ((kept ContextItem.tokenCount tokenCeiling (ordered buckets)).map
        ContextItem.tokenCount).sum = tokenCeiling := room_add_sum_kept
  rw [pack_eq]
  dsimp only
  omega

/-! ## The order of the items -/

/-- The priority of an item of a known bucket is the place of the bucket in `PRIORITY_ORDER`. -/
theorem priority_of_mem_knownItems {buckets : Buckets} {name : PyStr} {item : ContextItem}
    (h : item ∈ knownItems buckets name) : item.priority = PRIORITY_ORDER.idxOf name := by
  obtain ⟨_, -, rfl⟩ := List.mem_map.mp h
  rfl

/-- All items of other buckets have one priority, that behind the last of these places, whatever
they were given. -/
theorem priority_of_mem_unknownItems {buckets : Buckets} {item : ContextItem}
    (h : item ∈ unknownItems buckets) : item.priority = PRIORITY_ORDER.length := by
  obtain ⟨_, -, h⟩ := List.mem_flatMap.mp h
  obtain ⟨_, -, rfl⟩ := List.mem_map.mp h
  rfl

/-- The items are tried by falling priority, that is, by rising rank: a bucket that comes earlier in
`PRIORITY_ORDER` is tried earlier. -/
theorem ordered_sorted (buckets : Buckets) :
    (ordered buckets).Pairwise fun a b => a.priority ≤ b.priority := by
  refine List.pairwise_append.mpr ⟨?_, ?_, fun a ha b hb => ?_⟩
  · -- the names come in the order of their places
    have hnames : PRIORITY_ORDER.Pairwise fun a b =>
        PRIORITY_ORDER.idxOf a ≤ PRIORITY_ORDER.idxOf b := by decide
    rw [List.pairwise_flatMap]
    refine ⟨fun name _ => ?_, hnames.imp fun hle a ha b hb => ?_⟩
    · refine List.pairwise_of_forall_mem_list fun a ha b hb => ?_
      rw [priority_of_mem_knownItems ha, priority_of_mem_knownItems hb]
    · rw [priority_of_mem_knownItems ha, priority_of_mem_knownItems hb]
      exact hle
  · refine List.pairwise_of_forall_mem_list fun a ha b hb => ?_
    rw [priority_of_mem_unknownItems ha, priority_of_mem_unknownItems hb]
  · obtain ⟨name, hname, ha⟩ := List.mem_flatMap.mp ha
    rw [priority_of_mem_knownItems ha, priority_of_mem_unknownItems hb]
    exact (List.idxOf_lt_length_of_mem hname).le

/-- An item under a name is an item of the bucket of this name. -/
theorem exists_of_mem_get {buckets : Buckets} {name : PyStr} {item : ContextItem}
    (h : item ∈ (buckets.get name).getD []) :
    ∃ bucket ∈ buckets.items, bucket.1 = name ∧ item ∈ bucket.2 := by
  cases hget : buckets.get name with
  | none =>
    rw [hget] at h
    exact absurd h List.not_mem_nil
  | some items =>
    rw [hget] at h
    exact ⟨_, Dict.get_eq_some_iff.mp hget, rfl, h⟩

/-- An item that is tried comes from a bucket. -/
theorem exists_of_mem_ordered {buckets : Buckets} {item : ContextItem}
    (h : item ∈ ordered buckets) :
    ∃ bucket ∈ buckets.items, ∃ original ∈ bucket.2, item = ranked item.priority original := by
  rcases List.mem_append.mp h with h | h
  · obtain ⟨name, -, h⟩ := List.mem_flatMap.mp h
    obtain ⟨original, horiginal, rfl⟩ := List.mem_map.mp h
    obtain ⟨bucket, hbucket, -, hmem⟩ := exists_of_mem_get horiginal
    exact ⟨bucket, hbucket, original, hmem, rfl⟩
  · obtain ⟨bucket, hbucket, h⟩ := List.mem_flatMap.mp h
    obtain ⟨original, horiginal, rfl⟩ := List.mem_map.mp h
    exact ⟨bucket, (List.mem_filter.mp hbucket).1, original, horiginal, rfl⟩

/-- The items that are tried count no less than nothing, if those of the buckets do not: only the
priority was set. -/
theorem tokenCount_nonneg_of_mem_ordered {buckets : Buckets}
    (hcounts : ∀ bucket ∈ buckets.items, ∀ item ∈ bucket.2, 0 ≤ item.tokenCount)
    {item : ContextItem} (h : item ∈ ordered buckets) : 0 ≤ item.tokenCount := by
  obtain ⟨bucket, hbucket, original, horiginal, heq⟩ := exists_of_mem_ordered h
  rw [heq]
  exact hcounts bucket hbucket original horiginal

/-! ## Which items are dropped -/

/-- The item is dropped when its turn comes. -/
def Drops (buckets : Buckets) (tokenCeiling : ℤ) (item : ContextItem) : Prop :=
  ∃ pre post, ordered buckets = pre ++ item :: post ∧
    tokenCeiling < (pre.foldl (packStep tokenCeiling) {}).totalTokens + item.tokenCount

/-- If an item is dropped, no item of a lower priority is kept. -/
def LowestFirst (buckets : Buckets) (tokenCeiling : ℤ) : Prop :=
  ∀ d, Drops buckets tokenCeiling d → ∀ k ∈ (pack buckets tokenCeiling).items,
    ¬d.priority < k.priority

/-- The items up to a rank. -/
def upTo (buckets : Buckets) (rank : ℕ) : List ContextItem :=
  (ordered buckets).filter fun item => item.priority ≤ rank

variable {buckets : Buckets}

/-- `pack` drops an item exactly if first-fit packing of the `ordered` items does. -/
theorem drops_iff {item : ContextItem} :
    Drops buckets tokenCeiling item ↔
      item ∈ dropped ContextItem.tokenCount tokenCeiling (ordered buckets) := by
  rw [mem_dropped_iff]
  refine exists_congr fun pre => exists_congr fun post => and_congr_right fun _ => ?_
  rw [foldl_packStep]
  simp only [sub_zero]
  omega

/-- The lowest priority is dropped first (`LowestFirst`), if and only if, once the items up to some
rank do not fit together, no item of a later rank fits into the `room` that first fit leaves beside
them. Otherwise `pack` keeps that item and drops one of a higher priority. -/
theorem lowestFirst_iff
    (hcounts : ∀ bucket ∈ buckets.items, ∀ item ∈ bucket.2, 0 ≤ item.tokenCount) :
    LowestFirst buckets tokenCeiling ↔
      ∀ rank, tokenCeiling < ((upTo buckets rank).map ContextItem.tokenCount).sum →
        ∀ item ∈ ordered buckets, rank < item.priority →
          room ContextItem.tokenCount tokenCeiling (upTo buckets rank) < item.tokenCount := by
  have hiff := forall_rank_le_iff (c := tokenCeiling) (ordered_sorted buckets)
    fun _ => tokenCount_nonneg_of_mem_ordered hcounts
  unfold upTo
  rw [← hiff, LowestFirst, pack_eq]
  simp only [drops_iff, not_lt]

/-- A system prompt of five tokens and a message of three. -/
def promptAndMessage : Buckets where
  items := [("system".toList, [⟨"system".toList, "be brief".toList, 5, 0⟩]),
    ("conversation".toList, [⟨"conversation".toList, "hi".toList, 3, 0⟩])]
  nodup := by decide

/-- Under a ceiling of four tokens the prompt is dropped, which does not fit, and the message of a
lower priority is kept, which does. -/
theorem promptAndMessage_not_lowestFirst : ¬LowestFirst promptAndMessage 4 := by
  intro hlowest
  refine hlowest ⟨"system".toList, "be brief".toList, 5, 0⟩ ⟨[], _, rfl, by decide⟩
    ⟨"conversation".toList, "hi".toList, 3, 1⟩ ?_ (by decide)
  decide

/-- `lowestFirst_iff` where everything fits: nothing is dropped, so the lowest priority is dropped
first. -/
theorem promptAndMessage_lowestFirst : LowestFirst promptAndMessage 8 := by
  refine (lowestFirst_iff (by decide)).mpr fun rank hlarge => absurd hlarge (not_lt.mpr ?_)
  -- whatever the rank, its items are some of all
  have hsub : (upTo promptAndMessage rank).Sublist (ordered promptAndMessage) :=
    List.filter_sublist
  exact (List.Sublist.sum_le_sum (hsub.map ContextItem.tokenCount) (by decide)).trans (by decide)

/-! ## Every item is accounted for -/

/-- The items with the names of their buckets, in the order of priority. -/
def flattened (buckets : Buckets) : List (PyStr × ContextItem) :=
  (PRIORITY_ORDER.flatMap fun name => ((buckets.get name).getD []).map fun item => (name, item)) ++
    (buckets.items.filter fun bucket => bucket.1 ∉ PRIORITY_ORDER).flatMap fun bucket =>
      bucket.2.map fun item => (bucket.1, item)

/-- What `pack` returns is made of the items `keeps` of the flattened input, and of the buckets of
the other items `drops`, none of which would still fit. -/
structure Accounts (buckets : Buckets) (tokenCeiling : ℤ) (packed : PackedContext)
    (keeps drops : List (PyStr × ContextItem)) : Prop where
  splits : Splits (flattened buckets) keeps drops
  /-- The kept items have got the ranks of their buckets. -/
  items : packed.items = keeps.map fun kept => ranked (PRIORITY_ORDER.idxOf kept.1) kept.2
  droppedBuckets : packed.droppedBuckets = drops.map Prod.fst
  totalTokens : packed.totalTokens = (keeps.map fun kept => kept.2.tokenCount).sum
  le_ceiling : packed.totalTokens ≤ tokenCeiling
  maximal : ∀ dropped ∈ drops, tokenCeiling < packed.totalTokens + dropped.2.tokenCount

/-- The items are tried in the order of the `flattened` input: those of the named buckets first, and
then the others as they come. -/
theorem ordered_eq_map_flattened (buckets : Buckets) :
    ordered buckets =
      (flattened buckets).map fun item => ranked (PRIORITY_ORDER.idxOf item.1) item.2 := by
  unfold ordered flattened unknownItems
  rw [List.map_append, List.map_flatMap, List.map_flatMap]
  congr 1
  · refine List.flatMap_congr fun name _ => ?_
    simp [knownItems, Function.comp_def]
  · refine List.flatMap_congr fun bucket hbucket => ?_
    have hunknown : bucket.1 ∉ PRIORITY_ORDER := by simpa using (List.mem_filter.mp hbucket).2
    have hrank : PRIORITY_ORDER.idxOf bucket.1 = PRIORITY_ORDER.length :=
      List.idxOf_eq_length hunknown
    simp only [List.map_map, Function.comp_def, hrank]

/-- An item of the flattened input is an item of the bucket it is named with. -/
theorem exists_of_mem_flattened {item : PyStr × ContextItem} (h : item ∈ flattened buckets) :
    ∃ bucket ∈ buckets.items, item.1 = bucket.1 ∧ item.2 ∈ bucket.2 := by
  rcases List.mem_append.mp h with h | h
  · obtain ⟨name, -, h⟩ := List.mem_flatMap.mp h
    obtain ⟨original, horiginal, rfl⟩ := List.mem_map.mp h
    obtain ⟨bucket, hbucket, hname, hmem⟩ := exists_of_mem_get horiginal
    exact ⟨bucket, hbucket, hname.symm, hmem⟩
  · obtain ⟨bucket, hbucket, h⟩ := List.mem_flatMap.mp h
    obtain ⟨original, horiginal, rfl⟩ := List.mem_map.mp h
    exact ⟨bucket, (List.mem_filter.mp hbucket).1, rfl, horiginal⟩

/-- If the items carry the names of their buckets and no count is negative, then under every
nonnegative ceiling `pack` `Accounts` for its input: it keeps a subsequence of the flattened buckets
and notes the bucket of every other item; the total is what the kept items count, within the
ceiling; and no dropped item could still be added. -/
theorem pack_accounts
    (hnames : ∀ bucket ∈ buckets.items, ∀ item ∈ bucket.2, item.bucket = bucket.1)
    (hcounts : ∀ bucket ∈ buckets.items, ∀ item ∈ bucket.2, 0 ≤ item.tokenCount)
    (hceiling : 0 ≤ tokenCeiling) :
    ∃ keeps drops, Accounts buckets tokenCeiling (pack buckets tokenCeiling) keeps drops := by
  have hsize : ∀ item ∈ flattened buckets, 0 ≤ item.2.tokenCount := by
    intro item hitem
    obtain ⟨bucket, hbucket, -, hmem⟩ := exists_of_mem_flattened hitem
    exact hcounts bucket hbucket _ hmem
  let size : PyStr × ContextItem → ℤ := fun item => item.2.tokenCount
  have hroom : room size tokenCeiling (flattened buckets) +
      ((kept size tokenCeiling (flattened buckets)).map size).sum = tokenCeiling :=
    room_add_sum_kept
  have htotal : (pack buckets tokenCeiling).totalTokens =
      ((kept size tokenCeiling (flattened buckets)).map size).sum := by
    rw [totalTokens_pack, pack_eq, ordered_eq_map_flattened, kept_map, List.map_map]
    rfl
  refine ⟨kept size tokenCeiling (flattened buckets), dropped size tokenCeiling (flattened buckets),
    splits_kept_dropped, ?_, ?_, htotal, totalTokens_after_le hceiling _, fun item hitem => ?_⟩
  · rw [pack_eq, ordered_eq_map_flattened, kept_map]
    rfl
  · rw [pack_eq, ordered_eq_map_flattened, dropped_map, List.map_map]
    refine List.map_congr_left fun item hitem => ?_
    -- the item carries the name of its bucket
    obtain ⟨bucket, hbucket, hname, hmem⟩ := exists_of_mem_flattened (dropped_subset hitem)
    exact (hnames bucket hbucket _ hmem).trans hname.symm
  · have hlarge : room size tokenCeiling (flattened buckets) < size item :=
      room_lt_of_mem_dropped hsize hitem
    have hcount : size item = item.2.tokenCount := rfl
    omega

/-- `pack_accounts` for a prompt of five tokens and a message of three under a ceiling of four: the
message is kept, and the bucket of the prompt is noted. -/
theorem promptAndMessage_accounts :
    ∃ keeps drops, Accounts promptAndMessage 4 (pack promptAndMessage 4) keeps drops :=
  pack_accounts (by decide) (by decide) (by decide)

/-! ## Larger ceilings -/

/-- With a larger ceiling `pack` includes at least as many tokens, whatever the buckets are, if no
item counts less than nothing. Single items may well be lost: what is kept in place of them counts
at least as much. -/
theorem totalTokens_pack_mono {tokenCeiling' : ℤ}
    (hcounts : ∀ bucket ∈ buckets.items, ∀ item ∈ bucket.2, 0 ≤ item.tokenCount)
    (hle : tokenCeiling ≤ tokenCeiling') :
    (pack buckets tokenCeiling).totalTokens ≤ (pack buckets tokenCeiling').totalTokens := by
  rw [totalTokens_pack, totalTokens_pack, pack_eq, pack_eq]
  exact sum_kept_mono (fun _ => tokenCount_nonneg_of_mem_ordered hcounts) hle

/-- `totalTokens_pack_mono` where only the larger ceiling lets the prompt in: the totals are three
and five tokens. -/
theorem promptAndMessage_totalTokens :
    (pack promptAndMessage 4).totalTokens ≤ (pack promptAndMessage 5).totalTokens :=
  totalTokens_pack_mono (by decide) (by decide)

end ContextPacker
