import Mathlib.Algebra.BigOperators.Group.List.Basic
import Mathlib.Algebra.Group.Basic
import Mathlib.Data.List.Induction
import Mathlib.Data.List.Nodup
import Mathlib.Tactic.Abel

/-!
# Typed dictionaries

A `dict` whose keys and values are of one type each, in insertion order. No key occurs twice.

* `Dict.get`, `Dict.set`: `d.get(key)` and `d[key] = value`;
* `Dict.ofItems`: a dict to which items have been assigned one after the other. The last value of a
  key counts (`Dict.get_ofItems`), but the first assignment to it decides on its place
  (`Dict.pairwise_ofItems`);
* `Dict.fromKeys`: `dict.fromkeys(d, value)`;
* `Dict.sumWhere`: `sum(v for k, v in d.items() if p(k))`, with what an assignment adds to it.
-/

/-- A `dict`. -/
structure Dict (κ α : Type) where
  /-- The items, in insertion order. -/
  items : List (κ × α)
  /-- No key occurs twice. -/
  nodup : (items.map Prod.fst).Nodup

namespace Dict

variable {κ α β : Type} [DecidableEq κ]

/-- `d.get(key)`. -/
def get (d : Dict κ α) (key : κ) : Option α := d.items.lookup key

/-- `dict.fromkeys(d, value)`. -/
def fromKeys (d : Dict κ α) (value : β) : Dict κ β where
  items := d.items.map fun item => (item.1, value)
  nodup := by
    rw [List.map_map]
    exact d.nodup

/-- `d[key] = value`. -/
def set (d : Dict κ α) (key : κ) (value : α) : Dict κ α :=
  if h : key ∈ d.items.map Prod.fst then
    -- a key that is there already keeps its place
    { items := d.items.map fun item => if item.1 = key then (key, value) else item
      nodup := by
        rw [List.map_map]
        convert d.nodup using 2
        ext item
        by_cases hitem : item.1 = key <;> simp [hitem] }
  else
    { items := d.items ++ [(key, value)]
      nodup := by
        rw [List.map_append]
        refine List.nodup_append.mpr ⟨d.nodup, List.nodup_singleton _, fun k hk k' hk' heq => ?_⟩
        rw [heq, List.mem_singleton.mp hk'] at hk
        exact h hk }

/-- The dict that has no keys. -/
def empty : Dict κ α := ⟨[], List.nodup_nil⟩

/-- `d = {}`, and then `d[key] = value` for each of the items. -/
def ofItems (items : List (κ × α)) : Dict κ α :=
  items.foldl (fun d item => d.set item.1 item.2) empty

/-- When a key is assigned to for the first time. -/
def firstAt (items : List (κ × α)) (key : κ) : ℕ := (items.map Prod.fst).idxOf key

/-- The value that is assigned to a key last. -/
def lastOf (items : List (κ × α)) (key : κ) : Option α := items.reverse.lookup key

/-- `sum(v for k, v in d.items() if p(k))`. -/
def sumWhere [AddCommGroup α] (p : κ → Bool) (d : Dict κ α) : α :=
  ((d.items.filter fun item => p item.1).map Prod.snd).sum

variable {d : Dict κ α} {key key' : κ} {value old : α}

theorem get_eq_some_iff : d.get key = some value ↔ (key, value) ∈ d.items := by
  obtain ⟨items, hnodup⟩ := d
  show items.lookup key = some value ↔ (key, value) ∈ items
  induction items with
  | nil => simp
  | cons item items ih =>
    obtain ⟨k, v⟩ := item
    rw [List.map_cons, List.nodup_cons] at hnodup
    rw [List.lookup_cons, List.mem_cons]
    by_cases hk : key = k
    · subst hk
      have hnot : (key, value) ∉ items := fun hmem =>
        hnodup.1 (List.mem_map.mpr ⟨_, hmem, rfl⟩)
      simp [hnot, eq_comm]
    · rw [beq_eq_false_iff_ne.mpr hk]
      simp [hk, ih hnodup.2]

theorem get_eq_none_iff : d.get key = none ↔ key ∉ d.items.map Prod.fst := by
  rw [Option.eq_none_iff_forall_ne_some, List.mem_map]
  constructor
  · rintro h ⟨⟨k, v⟩, hmem, rfl⟩
    exact h v (get_eq_some_iff.mpr hmem)
  · exact fun h v hv => h ⟨_, get_eq_some_iff.mp hv, rfl⟩

/-- `dict.fromkeys` gives the same value to every key. -/
theorem get_fromKeys (value : β) : (d.fromKeys value).get key = (d.get key).map fun _ => value := by
  cases hget : d.get key with
  | none =>
    refine get_eq_none_iff.mpr ?_
    rw [fromKeys, List.map_map]
    exact get_eq_none_iff.mp hget
  | some v =>
    refine get_eq_some_iff.mpr (List.mem_map.mpr ⟨(key, v), ?_, rfl⟩)
    exact get_eq_some_iff.mp hget

/-- An assignment to a key that is there changes the value of its item, and leaves the items in
their order. -/
theorem items_set_of_mem (h : d.get key = some old) :
    (d.set key value).items =
      d.items.map fun item => if item.1 = key then (key, value) else item := by
  have hmem : key ∈ d.items.map Prod.fst :=
    List.mem_map.mpr ⟨_, get_eq_some_iff.mp h, rfl⟩
  rw [set, dif_pos hmem]

/-- An assignment to a new key puts its item behind the others. -/
theorem items_set_of_none (h : d.get key = none) :
    (d.set key value).items = d.items ++ [(key, value)] := by
  rw [set, dif_neg (get_eq_none_iff.mp h)]

theorem get_set_self (h : d.get key = some old) : (d.set key value).get key = some value := by
  rw [get_eq_some_iff, items_set_of_mem h]
  exact List.mem_map.mpr ⟨_, get_eq_some_iff.mp h, if_pos rfl⟩

theorem get_set_of_ne (h : d.get key = some old) (hne : key' ≠ key) :
    (d.set key value).get key' = d.get key' := by
  ext v
  rw [get_eq_some_iff, get_eq_some_iff, items_set_of_mem h, List.mem_map]
  constructor
  · rintro ⟨item, hitem, heq⟩
    by_cases hkey : item.1 = key
    · rw [if_pos hkey] at heq
      exact absurd (congrArg Prod.fst heq).symm hne
    · rw [if_neg hkey] at heq
      exact heq ▸ hitem
  · exact fun hmem => ⟨_, hmem, if_neg hne⟩

/-! ## Assignments one after the other -/

theorem get_set : (d.set key value).get key' = if key' = key then some value else d.get key' := by
  split_ifs with hkey
  · subst hkey
    cases hget : d.get key' with
    | some old => exact get_set_self hget
    | none =>
      rw [get_eq_some_iff, items_set_of_none hget]
      exact List.mem_append_right _ (List.mem_singleton_self _)
  · cases hget : d.get key with
    | some old => exact get_set_of_ne hget hkey
    | none =>
      ext v
      rw [get_eq_some_iff, get_eq_some_iff, items_set_of_none hget, List.mem_append,
        List.mem_singleton, Prod.mk.injEq]
      exact or_iff_left fun h => hkey h.1

/-- An assignment leaves the keys in their order, and puts a new key behind them. -/
theorem keys_set :
    (d.set key value).items.map Prod.fst =
      if key ∈ d.items.map Prod.fst then d.items.map Prod.fst
      else d.items.map Prod.fst ++ [key] := by
  unfold set
  split_ifs with hmem
  · rw [List.map_map]
    refine List.map_congr_left fun item _ => ?_
    show (if item.1 = key then (key, value) else item).1 = item.1
    split_ifs with hitem
    · exact hitem.symm
    · rfl
  · exact List.map_append

theorem ofItems_concat (items : List (κ × α)) (key : κ) (value : α) :
    ofItems (items ++ [(key, value)]) = (ofItems items).set key value := List.foldl_append

theorem get_ofItems (items : List (κ × α)) (key : κ) :
    (ofItems items).get key = lastOf items key := by
  unfold lastOf
  induction items using List.reverseRecOn with
  | nil => rfl
  | append_singleton items item ih =>
    rw [ofItems_concat, get_set, ih, List.reverse_append, List.reverse_singleton,
      List.singleton_append, List.lookup_cons]
    split_ifs with hkey
    · rw [beq_iff_eq.mpr hkey]
    · rw [beq_eq_false_iff_ne.mpr hkey]

theorem mem_of_lastOf {items : List (κ × α)} (h : lastOf items key = some value) :
    (key, value) ∈ items := by
  obtain ⟨before, after, hitems, -⟩ := List.lookup_eq_some_iff.mp h
  rw [← List.mem_reverse, hitems]
  exact List.mem_append_right _ List.mem_cons_self

/-- The keys of the `dict` are those of the items. -/
theorem mem_keys_ofItems (items : List (κ × α)) (key : κ) :
    key ∈ (ofItems items).items.map Prod.fst ↔ key ∈ items.map Prod.fst := by
  induction items using List.reverseRecOn with
  | nil => rfl
  | append_singleton items item ih =>
    rw [ofItems_concat, keys_set, List.map_append, List.mem_append, List.map_singleton,
      List.mem_singleton, ← ih]
    split_ifs with hmem
    · exact ⟨.inl, fun h => h.elim id fun heq => heq ▸ hmem⟩
    · rw [List.mem_append, List.mem_singleton]

/-- A further assignment does not change when a key was assigned to for the first time. -/
theorem firstAt_concat_of_mem {items : List (κ × α)} (h : key ∈ (ofItems items).items.map Prod.fst)
    (item : κ × α) : firstAt (items ++ [item]) key = firstAt items key := by
  rw [firstAt, List.map_append]
  exact List.idxOf_append_of_mem ((mem_keys_ofItems items key).mp h)

/-- The keys stand in the order in which they were first assigned to (`firstAt`), whatever was
assigned later. -/
theorem pairwise_ofItems (items : List (κ × α)) :
    (ofItems items).items.Pairwise fun item item' =>
      firstAt items item.1 < firstAt items item'.1 := by
  suffices hkeys : ((ofItems items).items.map Prod.fst).Pairwise fun key key' =>
      firstAt items key < firstAt items key' by
    rw [List.pairwise_map] at hkeys
    exact hkeys
  induction items using List.reverseRecOn with
  | nil => exact List.Pairwise.nil
  | append_singleton items item ih =>
    have hold : ((ofItems items).items.map Prod.fst).Pairwise fun key key' =>
        firstAt (items ++ [item]) key < firstAt (items ++ [item]) key' := by
      refine ih.imp_of_mem fun hkey hkey' hlt => ?_
      rw [firstAt_concat_of_mem hkey, firstAt_concat_of_mem hkey']
      exact hlt
    rw [ofItems_concat, keys_set]
    split_ifs with hmem
    · exact hold
    -- a new key comes after the others
    · refine List.pairwise_append.mpr ⟨hold, List.pairwise_singleton _ _, fun key hkey _ hnew => ?_⟩
      rw [List.mem_singleton.mp hnew, firstAt_concat_of_mem hkey]
      have hlt : firstAt items key < (items.map Prod.fst).length :=
        List.idxOf_lt_length_of_mem ((mem_keys_ofItems items key).mp hkey)
      refine hlt.trans_le ?_
      rw [firstAt, List.map_append, List.idxOf_append_of_notMem
        fun h => hmem ((mem_keys_ofItems items item.1).mpr h)]
      exact Nat.le_add_right _ _

/-- An assignment adds to the sum over some keys what it adds to the value of its own key, if this
is one of them. -/
theorem sumWhere_set [AddCommGroup α] (p : κ → Bool) (h : d.get key = some old) :
    (d.set key value).sumWhere p = d.sumWhere p + if p key then value - old else 0 := by
  rw [sumWhere, sumWhere, items_set_of_mem h]
  rw [get_eq_some_iff] at h
  obtain ⟨items, hnodup⟩ := d
  show ((List.filter _ (items.map _)).map Prod.snd).sum = _
  change (key, old) ∈ items at h
  induction items with
  | nil => exact absurd h List.not_mem_nil
  | cons item items ih =>
    obtain ⟨k, v⟩ := item
    rw [List.map_cons, List.nodup_cons] at hnodup
    rcases List.mem_cons.mp h with heq | hmem
    -- the key is that of the first item, and of no other
    · obtain ⟨rfl, rfl⟩ := Prod.mk.inj heq
      have hrest : (items.map fun item => if item.1 = key then (key, value) else item) = items := by
        refine (List.map_congr_left fun item hitem => ?_).trans (List.map_id items)
        refine if_neg fun hkey : item.1 = key => hnodup.1 ?_
        exact List.mem_map.mpr ⟨item, hitem, hkey⟩
      rw [List.map_cons, hrest]
      by_cases hp : p key
      · simp only [if_true, List.filter_cons, hp, List.map_cons, List.sum_cons]
        abel
      · simp [hp]
    · have hne : k ≠ key := by
        rintro rfl
        exact hnodup.1 (List.mem_map.mpr ⟨_, hmem, rfl⟩)
      have hsum := ih hnodup.2 hmem
      rw [List.map_cons]
      by_cases hp : p k
      · simp only [hne, if_false, List.filter_cons, hp, if_true, List.map_cons, List.sum_cons]
        rw [hsum, add_assoc]
      · simp only [hne, if_false, List.filter_cons, hp, Bool.false_eq_true]
        exact hsum

end Dict
