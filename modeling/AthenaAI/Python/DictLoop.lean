import AthenaAI.Python.Dict
import AthenaAI.Python.Value
import AthenaAI.ToMathlib.List
import Mathlib.Data.List.Infix

/-!
# Loops over a dict that others change

`for key, value in d.items(): results[key] = await visit(value)`. While a visit is suspended, others
may assign to the dict. The iterator remembers how many items there were, and looks at that number
before each item and before it ends.

* `Dict.update`: assignments to a dict one after the other. They keep the keys in their places and
  may add further ones (`Dict.keys_prefix_update`, `Dict.length_update_eq_iff`).
* `Dict.loop` is the loop, and `Dict.stage` the dict as its visits find it.
* A loop is `Dict.Undisturbed` if no visit is overtaken by an assignment to a new key. Then it ends
  with the results of the values that its visits found (`Dict.exists_loop_of_undisturbed`), and
  otherwise it raises (`Dict.loop_of_not_undisturbed`).
-/

namespace Dict

variable {κ α β : Type} [DecidableEq κ]

/-- The keys, in insertion order. -/
def keys (d : Dict κ α) : List κ := d.items.map Prod.fst

/-- `d[key] = value` for each of the items. -/
def update (d : Dict κ α) (items : List (κ × α)) : Dict κ α :=
  items.foldl (fun d item => d.set item.1 item.2) d

/-- The different keys of a list, in the order in which they first come up. -/
def distinct (keys : List κ) : List κ := keys.eraseDups

/-- `RuntimeError("dictionary changed size during iteration")`. -/
def sizeChanged : PyExc := .of .RuntimeError "dictionary changed size during iteration".toList

variable (visit : ℕ → κ × α → β × List (κ × α))

/-- The loop from position `pos` on, over a dict that had `used` items when it began. `visit i item`
is the result of visit `i` and what others assign during it. -/
def loopFrom (used : ℕ) : (remaining pos : ℕ) → Dict κ α → Dict κ β → Except PyExc (Dict κ β)
  | 0, _, d, results => if d.items.length = used then .ok results else .error sizeChanged
  | remaining + 1, pos, d, results =>
    -- the size is compared before the next item is taken
    if d.items.length = used then
      match d.items[pos]? with
      | some item =>
        loopFrom used remaining (pos + 1) (d.update (visit pos item).2)
          (results.set item.1 (visit pos item).1)
      | none => .ok results
    else .error sizeChanged

/-- The loop over a dict: the results it ends with, or what the iterator raises. -/
def loop (d : Dict κ α) : Except PyExc (Dict κ β) :=
  loopFrom visit d.items.length d.items.length 0 d empty

/-- The dict that visit `i` finds. -/
def stage (d : Dict κ α) : ℕ → Dict κ α
  | 0 => d
  | i + 1 =>
    match (stage d i).items[i]? with
    | some item => (stage d i).update (visit i item).2
    | none => stage d i

/-! ## Assignments -/

variable {d : Dict κ α} {items : List (κ × α)}

/-- `distinct` leaves out repetitions, and no key. -/
theorem mem_distinct {keys : List κ} {key : κ} : key ∈ distinct keys ↔ key ∈ keys :=
  List.mem_eraseDups

/-- `distinct` keeps the last of some keys exactly if it has not come before. -/
theorem distinct_concat (keys : List κ) (key : κ) :
    distinct (keys ++ [key]) = if key ∈ keys then distinct keys else distinct keys ++ [key] :=
  List.eraseDups_concat keys key

omit [DecidableEq κ] in
@[simp]
theorem length_keys (d : Dict κ α) : d.keys.length = d.items.length := List.length_map _

@[simp]
theorem update_nil (d : Dict κ α) : d.update [] = d := rfl

@[simp]
theorem update_cons (d : Dict κ α) (item : κ × α) (items : List (κ × α)) :
    d.update (item :: items) = (d.set item.1 item.2).update items := rfl

/-- `dict.update` with two lists of items, one after the other, is the update with both. -/
theorem update_append (d : Dict κ α) (items items' : List (κ × α)) :
    d.update (items ++ items') = (d.update items).update items' := List.foldl_append

/-- Setting a key that is there leaves the keys in their order; a new key is put behind them. -/
theorem keys_set_of_mem {key : κ} (h : key ∈ d.keys) (value : α) :
    (d.set key value).keys = d.keys :=
  keys_set.trans (if_pos h)

theorem keys_set_of_notMem {key : κ} (h : key ∉ d.keys) (value : α) :
    (d.set key value).keys = d.keys ++ [key] :=
  keys_set.trans (if_neg h)

/-- The keys of a `dict` are a prefix of its keys after any setting. -/
theorem keys_prefix_set (d : Dict κ α) (key : κ) (value : α) :
    d.keys <+: (d.set key value).keys := by
  by_cases hmem : key ∈ d.keys
  · rw [keys_set_of_mem hmem]
  · rw [keys_set_of_notMem hmem]
    exact List.prefix_append _ _

/-- Under a key stands the value that was last assigned to it (`lastOf`), or the old one if there
was no assignment. -/
theorem get_update (d : Dict κ α) (items : List (κ × α)) (key : κ) :
    (d.update items).get key = (lastOf items key).or (d.get key) := by
  induction items using List.reverseRecOn with
  | nil => rfl
  | append_singleton items item ih =>
    rw [update_append, update_cons, update_nil, get_set, ih, lastOf, lastOf, List.reverse_append,
      List.reverse_singleton, List.singleton_append, List.lookup_cons]
    split_ifs with hkey
    · rw [beq_iff_eq.mpr hkey]
      rfl
    · rw [beq_eq_false_iff_ne.mpr hkey]

/-- A dict to which the items of another one have been assigned has its values. -/
theorem get_ofItems_items (d : Dict κ α) (key : κ) : (ofItems d.items).get key = d.get key := by
  ext value
  rw [get_ofItems]
  constructor
  · exact fun h => get_eq_some_iff.mpr (mem_of_lastOf h)
  · intro h
    have hkey : key ∈ (ofItems d.items).items.map Prod.fst := by
      rw [mem_keys_ofItems]
      exact List.mem_map_of_mem (get_eq_some_iff.mp h)
    obtain ⟨value', hvalue'⟩ :=
      Option.ne_none_iff_exists'.mp (mt get_eq_none_iff.mp (not_not.mpr hkey))
    rw [get_ofItems] at hvalue'
    -- the key has one value only
    rw [hvalue', ← get_eq_some_iff.mpr (mem_of_lastOf hvalue'), h]

/-- Assignments leave the keys where they are. -/
theorem keys_prefix_update (d : Dict κ α) (items : List (κ × α)) :
    d.keys <+: (d.update items).keys := by
  induction items generalizing d with
  | nil => exact List.prefix_rfl
  | cons item items ih => exact (keys_prefix_set d item.1 item.2).trans (ih _)

/-- Assignments to keys that are there do not change the keys. -/
theorem keys_update_of_forall_mem (h : ∀ item ∈ items, item.1 ∈ d.keys) :
    (d.update items).keys = d.keys := by
  induction items generalizing d with
  | nil => rfl
  | cons item items ih =>
    obtain ⟨hitem, hitems⟩ := List.forall_mem_cons.mp h
    have hset : (d.set item.1 item.2).keys = d.keys := keys_set_of_mem hitem item.2
    rw [update_cons, ih fun item' hitem' => hset ▸ hitems item' hitem', hset]

/-- The size changes exactly with an assignment to a new key. -/
theorem length_update_eq_iff :
    (d.update items).items.length = d.items.length ↔ ∀ item ∈ items, item.1 ∈ d.keys := by
  constructor
  · intro hlength
    induction items generalizing d with
    | nil => exact fun _ h => absurd h List.not_mem_nil
    | cons item items ih =>
      have hle : (d.set item.1 item.2).items.length ≤ (d.update (item :: items)).items.length := by
        rw [← length_keys, ← length_keys, update_cons]
        exact (keys_prefix_update _ items).length_le
      by_cases hmem : item.1 ∈ d.keys
      · have hset : (d.set item.1 item.2).keys = d.keys := keys_set_of_mem hmem item.2
        refine List.forall_mem_cons.mpr ⟨hmem, fun item' hitem' => ?_⟩
        rw [← hset]
        refine ih ?_ item' hitem'
        rw [← length_keys (d.set item.1 item.2), hset, length_keys]
        exact hlength
      -- a new key makes the dict longer, and nothing makes it shorter again
      · rw [← length_keys (d.set item.1 item.2), keys_set_of_notMem hmem, List.length_append,
          length_keys, hlength] at hle
        exact absurd hle (by simp)
  · intro h
    rw [← length_keys, keys_update_of_forall_mem h, length_keys]

/-- The item at the place of a key is the one under the key: keys and items stand in one order. -/
theorem getElem?_items_eq_some_iff {i : ℕ} {key : κ} {value : α} :
    d.items[i]? = some (key, value) ↔ d.keys[i]? = some key ∧ d.get key = some value := by
  rw [keys, List.getElem?_map, Option.map_eq_some_iff, get_eq_some_iff]
  constructor
  · intro hitem
    exact ⟨⟨_, hitem, rfl⟩, List.mem_of_getElem? hitem⟩
  · rintro ⟨⟨⟨_, value'⟩, hitem, rfl⟩, hmem⟩
    -- the key has one value only
    have hvalue := get_eq_some_iff.mpr (List.mem_of_getElem? hitem)
    rw [get_eq_some_iff.mpr hmem] at hvalue
    rw [hitem, Option.some.inj hvalue]

/-! ## The loop -/

/-- No visit is overtaken by an assignment to a key that the dict did not have. -/
def Undisturbed (d : Dict κ α) : Prop :=
  ∀ i item, (stage visit d i).items[i]? = some item →
    ∀ assigned ∈ (visit i item).2, assigned.1 ∈ d.keys

/-- The item that visit `i` adds to the results. -/
def outcome (d : Dict κ α) (i : ℕ) : Option (κ × β) :=
  (stage visit d i).items[i]?.map fun item => (item.1, (visit i item).1)

variable {visit} {used remaining pos : ℕ} {results : Dict κ β}

/-- A visit of the loop updates the `dict` with what was set during its await. -/
theorem stage_succ {i : ℕ} {item : κ × α} (h : (stage visit d i).items[i]? = some item) :
    stage visit d (i + 1) = (stage visit d i).update (visit i item).2 := by
  rw [stage, h]

/-- A loop that finds the size as it was (`used`) visits the next item, and goes on with what the
visit has left of the `dict`. -/
theorem loopFrom_succ {item : κ × α} (hsize : (stage visit d pos).items.length = used)
    (hitem : (stage visit d pos).items[pos]? = some item) :
    loopFrom visit used (remaining + 1) pos (stage visit d pos) results =
      loopFrom visit used remaining (pos + 1) (stage visit d (pos + 1))
        (results.set item.1 (visit pos item).1) := by
  rw [loopFrom, if_pos hsize, hitem, stage_succ hitem]

/-- Under `Undisturbed` visits the loop finds the keys that it began with, at each of its stages. -/
theorem keys_stage (h : Undisturbed visit d) (i : ℕ) : (stage visit d i).keys = d.keys := by
  induction i with
  | zero => rfl
  | succ i ih =>
    cases hitem : (stage visit d i).items[i]? with
    | none => rw [stage, hitem, ih]
    | some item =>
      rw [stage_succ hitem, keys_update_of_forall_mem, ih]
      intro assigned hassigned
      rw [ih]
      exact h i item hitem assigned hassigned

/-- The visits are `Undisturbed` if the size is the same at all stages: a key that is added is never
taken away again. -/
theorem undisturbed_of_length
    (h : ∀ i ≤ d.items.length, (stage visit d i).items.length = d.items.length) :
    Undisturbed visit d := by
  -- up to the end of the dict no key is added
  have hkeys (i : ℕ) (hi : i ≤ d.items.length) : (stage visit d i).keys = d.keys := by
    induction i with
    | zero => rfl
    | succ i ih =>
      obtain ⟨item, hitem⟩ : ∃ item, (stage visit d i).items[i]? = some item :=
        ⟨_, List.getElem?_eq_getElem (by rw [h i (by omega)]; omega)⟩
      have hlength := h (i + 1) hi
      rw [stage_succ hitem, ← h i (by omega), length_update_eq_iff] at hlength
      rw [stage_succ hitem, keys_update_of_forall_mem hlength, ih (by omega)]
  intro i item hitem
  have hi : i < d.items.length := by
    by_contra hge
    -- past the end nothing is visited, so the dict is as it was at the end
    have hend (j : ℕ) : stage visit d (d.items.length + j) = stage visit d d.items.length := by
      induction j with
      | zero => rfl
      | succ j ih =>
        rw [Nat.add_succ, stage, List.getElem?_eq_none, ih]
        rw [ih, h _ le_rfl]
        omega
    obtain ⟨j, rfl⟩ := Nat.exists_eq_add_of_le (not_lt.mp hge)
    rw [hend, List.getElem?_eq_none (by rw [h _ le_rfl]; omega)] at hitem
    exact absurd hitem nofun
  have hlength := h (i + 1) hi
  rw [stage_succ hitem, ← h i hi.le, length_update_eq_iff, hkeys i hi.le] at hlength
  exact hlength

/-- An `Undisturbed` loop goes on to the end of the `dict`, and has the `outcome` of each visit. By
induction on the items that remain. -/
theorem loopFrom_of_undisturbed (h : Undisturbed visit d) (hpos : pos + remaining = d.items.length)
    (hlength : results.items.length = pos)
    (hresults : ∀ j < pos, results.items[j]? = outcome visit d j) :
    ∃ final, loopFrom visit d.items.length remaining pos (stage visit d pos) results = .ok final ∧
      ∀ j, final.items[j]? = outcome visit d j := by
  have hsize (i : ℕ) : (stage visit d i).items.length = d.items.length := by
    rw [← length_keys, keys_stage h, length_keys]
  induction remaining generalizing pos results with
  | zero =>
    refine ⟨results, by rw [loopFrom, if_pos (hsize pos)], fun j => ?_⟩
    by_cases hj : j < pos
    · exact hresults j hj
    · rw [outcome, List.getElem?_eq_none (by omega), List.getElem?_eq_none (by rw [hsize]; omega)]
      rfl
  | succ remaining ih =>
    obtain ⟨item, hitem⟩ : ∃ item, (stage visit d pos).items[pos]? = some item :=
      ⟨_, List.getElem?_eq_getElem (by rw [hsize]; omega)⟩
    have hkey : d.keys[pos]? = some item.1 := by
      rw [← keys_stage h pos]
      exact (getElem?_items_eq_some_iff.mp hitem).1
    -- the key has no result yet: the results so far are those of the keys before it
    have hnew : results.get item.1 = none := by
      rw [get_eq_none_iff, List.mem_map]
      rintro ⟨done, hdone, heq⟩
      obtain ⟨j, hj, hget⟩ := List.mem_iff_getElem.mp hdone
      have hdone' : results.items[j]? = some done := hget ▸ List.getElem?_eq_getElem hj
      rw [hresults j (hlength ▸ hj), outcome, Option.map_eq_some_iff] at hdone'
      obtain ⟨visited, hvisited, rfl⟩ := hdone'
      have hbefore := (getElem?_items_eq_some_iff.mp hvisited).1
      rw [keys_stage h j, show visited.1 = item.1 from heq, ← hkey] at hbefore
      have hsame := (List.getElem?_inj (by rw [List.length_map]; omega) d.nodup).mp hbefore
      omega
    rw [loopFrom_succ (hsize pos) hitem]
    have hitems : (results.set item.1 (visit pos item).1).items =
        results.items ++ [(item.1, (visit pos item).1)] := items_set_of_none hnew
    refine ih (by omega) (by rw [hitems]; simp [hlength]) fun j hj => ?_
    rw [hitems]
    by_cases hlt : j < pos
    · rw [List.getElem?_append_left (by omega), hresults j hlt]
    · obtain rfl : j = pos := by omega
      rw [List.getElem?_append_right (by omega), hlength, Nat.sub_self, outcome, hitem]
      rfl

/-- A loop that finds another size at some stage, be it behind its last item, raises
`sizeChanged`. -/
theorem loopFrom_of_length_ne {i : ℕ} (hpos : pos + remaining = used) (hi : pos ≤ i)
    (hle : i ≤ used) (hne : (stage visit d i).items.length ≠ used) :
    loopFrom visit used remaining pos (stage visit d pos) results = .error sizeChanged := by
  induction remaining generalizing pos results with
  | zero =>
    obtain rfl : i = pos := by omega
    rw [loopFrom, if_neg hne]
  | succ remaining ih =>
    by_cases hsize : (stage visit d pos).items.length = used
    · obtain ⟨item, hitem⟩ : ∃ item, (stage visit d pos).items[pos]? = some item :=
        ⟨_, List.getElem?_eq_getElem (by omega)⟩
      have hlater : i ≠ pos := by
        rintro rfl
        exact hne hsize
      rw [loopFrom_succ hsize hitem]
      exact ih (by omega) (by omega)
    · rw [loopFrom, if_neg hsize]

/-- A loop that is not `Undisturbed` raises `sizeChanged`, and its results are lost. -/
theorem loop_of_not_undisturbed (h : ¬Undisturbed visit d) : loop visit d = .error sizeChanged := by
  obtain ⟨i, hle, hne⟩ :
      ∃ i ≤ d.items.length, (stage visit d i).items.length ≠ d.items.length := by
    by_contra hall
    exact h (undisturbed_of_length fun i hi => not_not.mp fun hne => hall ⟨i, hi, hne⟩)
  exact loopFrom_of_length_ne (Nat.zero_add _) (Nat.zero_le i) hle hne

/-! ## The loop in terms of the keys -/

/-- Whether a loop is undisturbed depends on the values that its visits find under the keys it began
with. -/
theorem undisturbed_iff :
    Undisturbed visit d ↔
      ∀ i key value, d.keys[i]? = some key → (stage visit d i).get key = some value →
        ∀ assigned ∈ (visit i (key, value)).2, assigned.1 ∈ d.keys := by
  constructor
  · intro h i key value hkey hvalue
    rw [← keys_stage h i] at hkey
    exact h i _ (getElem?_items_eq_some_iff.mpr ⟨hkey, hvalue⟩)
  · intro h
    have hvisit (i : ℕ) (hkeys : (stage visit d i).keys = d.keys) (item : κ × α)
        (hitem : (stage visit d i).items[i]? = some item) :
        ∀ assigned ∈ (visit i item).2, assigned.1 ∈ d.keys := by
      obtain ⟨hkey, hvalue⟩ := getElem?_items_eq_some_iff.mp hitem
      exact h i item.1 item.2 (hkeys ▸ hkey) hvalue
    -- so the keys are always those that the loop began with
    have hkeys (i : ℕ) : (stage visit d i).keys = d.keys := by
      induction i with
      | zero => rfl
      | succ i ih =>
        cases hitem : (stage visit d i).items[i]? with
        | none => rw [stage, hitem, ih]
        | some item =>
          rw [stage_succ hitem, keys_update_of_forall_mem (ih ▸ hvisit i ih item hitem), ih]
    exact fun i item hitem => hvisit i (hkeys i) item hitem

/-- The results of an `Undisturbed` loop: under each key, in the order of the keys, that of the
value which its visit found there. -/
theorem exists_loop_of_undisturbed (h : Undisturbed visit d) :
    ∃ results, loop visit d = .ok results ∧ results.keys = d.keys ∧
      ∀ i key value, d.keys[i]? = some key → (stage visit d i).get key = some value →
        results.get key = some (visit i (key, value)).1 := by
  obtain ⟨results, hloop, hresults⟩ := loopFrom_of_undisturbed h (Nat.zero_add _)
    (rfl : (empty : Dict κ β).items.length = 0) fun j hj => absurd hj (Nat.not_lt_zero j)
  refine ⟨results, hloop, List.ext_getElem? fun i => ?_, fun i key value hkey hvalue => ?_⟩
  · rw [keys, List.getElem?_map, hresults i, outcome, Option.map_map, ← keys_stage h i, keys,
      List.getElem?_map]
    rfl
  · rw [← keys_stage h i] at hkey
    refine get_eq_some_iff.mpr (List.mem_of_getElem? (i := i) ?_)
    rw [hresults i, outcome, getElem?_items_eq_some_iff.mpr ⟨hkey, hvalue⟩]
    rfl

/-- The keys after assignments: first those that were there, then the others in the order of their
first assignments. -/
theorem keys_update (d : Dict κ α) (items : List (κ × α)) :
    (d.update items).keys = distinct (d.keys ++ items.map Prod.fst) := by
  induction items using List.reverseRecOn with
  | nil =>
    rw [List.map_nil, List.append_nil]
    exact (List.eraseDups_of_nodup d.nodup).symm
  | append_singleton items item ih =>
    have hmem : item.1 ∈ (d.update items).keys ↔ item.1 ∈ d.keys ++ items.map Prod.fst := by
      rw [ih, mem_distinct]
    rw [update_append, List.map_append, ← List.append_assoc, List.map_singleton,
      distinct_concat, ← ih]
    simp only [← hmem]
    exact keys_set

end Dict
