import Mathlib.Data.List.Nodup

/-!
# Keyed tables

A table of a relational database, as the list of its rows in the order in which they were inserted.
A key identifies a row: `Table key` carries the proof that no two rows have the same one.

* `Table.insertIfNew`: `INSERT … ON CONFLICT (key) DO NOTHING`;
* `Table.upsert`: `INSERT … ON CONFLICT (key) DO UPDATE`;
* `Table.deleteWhere`: `DELETE … WHERE`;
* `Table.select`: the rows that a condition selects;
* `Table.get`: the row under a key.

Each has a lemma that says which rows there are afterwards. `get_upsert` and `get_deleteWhere_key`
read a table that is only written and deleted from by key as a map.
-/

variable {ρ κ : Type}

/-- A table whose rows are identified by a key. -/
structure Table (key : ρ → κ) where
  /-- The rows, in the order in which they were inserted. -/
  rows : List ρ
  /-- No key occurs twice. -/
  nodup : (rows.map key).Nodup

namespace Table

variable {key : ρ → κ}

/-- The table without rows. -/
def empty : Table key := ⟨[], List.nodup_nil⟩

@[ext]
theorem ext {t t' : Table key} (h : t.rows = t'.rows) : t = t' := by
  cases t
  cases h
  rfl

/-- The rows of a `Table` have different keys, so the row with a key is the only one with it. -/
theorem eq_of_key_eq (t : Table key) {r r' : ρ} (hr : r ∈ t.rows) (hr' : r' ∈ t.rows)
    (hkey : key r = key r') : r = r' := List.inj_on_of_nodup_map t.nodup hr hr' hkey

theorem rows_nodup (t : Table key) : t.rows.Nodup := .of_map key t.nodup

/-! ## Deleting and selecting -/

/-- `DELETE … WHERE p`. -/
def deleteWhere (t : Table key) (p : ρ → Bool) : Table key where
  rows := t.rows.filter fun r => !p r
  nodup := t.nodup.sublist (List.filter_sublist.map _)

/-- `SELECT … WHERE p`, in the order of the table. -/
def select (t : Table key) (p : ρ → Bool) : List ρ := t.rows.filter p

@[simp]
theorem mem_deleteWhere (t : Table key) (p : ρ → Bool) (r : ρ) :
    r ∈ (t.deleteWhere p).rows ↔ r ∈ t.rows ∧ p r = false := by
  simp [deleteWhere]

@[simp]
theorem mem_select (t : Table key) (p : ρ → Bool) (r : ρ) :
    r ∈ t.select p ↔ r ∈ t.rows ∧ p r = true := List.mem_filter

theorem select_nodup (t : Table key) (p : ρ → Bool) : (t.select p).Nodup :=
  t.rows_nodup.filter p

/-- Among the rows that `select` answers, in any order, a row is the only one with its key exactly
if the table has it and it is selected. -/
theorem filter_eq_singleton_iff [DecidableEq κ] {t : Table key} {p : ρ → Bool} {l : List ρ}
    (hl : l.Perm (t.select p)) {k : κ} {r : ρ} :
    (l.filter fun r' => key r' = k) = [r] ↔ r ∈ t.rows ∧ p r = true ∧ key r = k := by
  have hmem r' :
      (r' ∈ l.filter fun r' => key r' = k) ↔ (r' ∈ t.rows ∧ p r' = true) ∧ key r' = k := by
    rw [List.mem_filter, hl.mem_iff, mem_select, decide_eq_true_iff]
  refine ⟨fun h => ?_, fun ⟨hr, hp, hkey⟩ => ?_⟩
  · have hr := (hmem r).mp (h ▸ List.mem_cons_self)
    exact ⟨hr.1.1, hr.1.2, hr.2⟩
  · have hnodup := (hl.nodup_iff.mpr (t.select_nodup p)).filter fun r' => key r' = k
    refine List.perm_singleton.mp
      ((List.perm_ext_iff_of_nodup hnodup (List.nodup_singleton r)).mpr ?_)
    intro r'
    rw [hmem, List.mem_singleton]
    refine ⟨fun h => t.eq_of_key_eq h.1.1 hr (h.2.trans hkey.symm), ?_⟩
    rintro rfl
    exact ⟨⟨hr, hp⟩, hkey⟩

/-- `select` answers no row that `deleteWhere` has deleted, and all others as before. -/
theorem select_deleteWhere (t : Table key) (p q : ρ → Bool) :
    (t.deleteWhere p).select q = (t.select q).filter fun r => !p r := by
  unfold select deleteWhere
  rw [List.filter_filter, List.filter_filter]
  exact List.filter_congr fun r _ => Bool.and_comm _ _

/-! ## Inserting -/

/-- A row has the key. -/
def Has (t : Table key) (k : κ) : Prop := k ∈ t.rows.map key

theorem has_iff {t : Table key} {k : κ} : t.Has k ↔ ∃ r ∈ t.rows, key r = k := List.mem_map

private theorem nodup_append_singleton {rows : List ρ} {row : ρ} (hrows : (rows.map key).Nodup)
    (hrow : key row ∉ rows.map key) : ((rows ++ [row]).map key).Nodup := by
  rw [List.map_append, List.map_singleton]
  refine List.nodup_append.mpr ⟨hrows, List.nodup_singleton _, fun k hk k' hk' => ?_⟩
  rintro rfl
  exact hrow (List.mem_singleton.mp hk' ▸ hk)

variable [DecidableEq κ]

instance (t : Table key) (k : κ) : Decidable (t.Has k) :=
  inferInstanceAs (Decidable (k ∈ t.rows.map key))

/-- `INSERT … ON CONFLICT (key) DO NOTHING`. -/
def insertIfNew (t : Table key) (row : ρ) : Table key :=
  if h : t.Has (key row) then t else ⟨t.rows ++ [row], nodup_append_singleton t.nodup h⟩

/-- `INSERT … ON CONFLICT (key) DO UPDATE`, where `update old` is the updated row. -/
def upsert (t : Table key) (row : ρ) (update : ρ → ρ) (hupdate : ∀ r, key (update r) = key r) :
    Table key :=
  if h : t.Has (key row) then
    { rows := t.rows.map fun r => if key r = key row then update r else r
      nodup := by
        have hkeys : (key ∘ fun r => if key r = key row then update r else r) = key := by
          ext r
          show key (if key r = key row then update r else r) = key r
          split_ifs
          · exact hupdate r
          · rfl
        rw [List.map_map, hkeys]
        exact t.nodup }
  else ⟨t.rows ++ [row], nodup_append_singleton t.nodup h⟩

variable {t : Table key} {row r : ρ}

/-- `insertIfNew` does nothing if the key is there (`ON CONFLICT DO NOTHING`). -/
theorem insertIfNew_of_has (h : t.Has (key row)) : t.insertIfNew row = t := dif_pos h

theorem rows_insertIfNew_of_not_has (h : ¬t.Has (key row)) :
    (t.insertIfNew row).rows = t.rows ++ [row] := by
  rw [insertIfNew, dif_neg h]

theorem mem_insertIfNew :
    r ∈ (t.insertIfNew row).rows ↔ r ∈ t.rows ∨ (r = row ∧ ¬t.Has (key row)) := by
  by_cases h : t.Has (key row)
  · rw [insertIfNew_of_has h]
    exact (or_iff_left fun hr => hr.2 h).symm
  · rw [rows_insertIfNew_of_not_has h, List.mem_append, List.mem_singleton]
    exact or_congr_right (and_iff_left h).symm

/-- After `insertIfNew` the key is there, so a second insertion under it does nothing. -/
theorem has_insertIfNew (t : Table key) (row : ρ) : (t.insertIfNew row).Has (key row) := by
  by_cases h : t.Has (key row)
  · rwa [insertIfNew_of_has h]
  · exact has_iff.mpr ⟨row, mem_insertIfNew.mpr (.inr ⟨rfl, h⟩), rfl⟩

/-- A deletion that concerns the new row undoes its insertion, if there was one. -/
theorem deleteWhere_insertIfNew_of_pos {p : ρ → Bool} (hrow : p row = true) :
    (t.insertIfNew row).deleteWhere p = t.deleteWhere p := by
  by_cases h : t.Has (key row)
  · rw [insertIfNew_of_has h]
  · ext1
    simp [deleteWhere, rows_insertIfNew_of_not_has h, hrow]

/-- A deletion that spares the new row, and the one that has its key already, can be done before the
insertion. -/
theorem deleteWhere_insertIfNew_of_neg {p : ρ → Bool} (hrow : p row = false)
    (hkey : ∀ r ∈ t.rows, key r = key row → p r = false) :
    (t.insertIfNew row).deleteWhere p = (t.deleteWhere p).insertIfNew row := by
  have hhas : (t.deleteWhere p).Has (key row) ↔ t.Has (key row) := by
    rw [has_iff, has_iff]
    refine exists_congr fun r => ?_
    rw [mem_deleteWhere]
    exact ⟨fun h => ⟨h.1.1, h.2⟩, fun h => ⟨⟨h.1, hkey r h.1 h.2⟩, h.2⟩⟩
  by_cases h : t.Has (key row)
  · rw [insertIfNew_of_has h, insertIfNew_of_has (hhas.mpr h)]
  · ext1
    rw [rows_insertIfNew_of_not_has (mt hhas.mp h)]
    simp [deleteWhere, rows_insertIfNew_of_not_has h, hrow]

variable {update : ρ → ρ} {hupdate : ∀ r, key (update r) = key r}

/-- If a row has the key, `upsert` puts `update` of it in its place and leaves the others. -/
theorem mem_upsert_of_has (h : t.Has (key row)) :
    r ∈ (t.upsert row update hupdate).rows ↔
      (r ∈ t.rows ∧ key r ≠ key row) ∨ ∃ r' ∈ t.rows, key r' = key row ∧ r = update r' := by
  rw [upsert, dif_pos h, List.mem_map]
  refine ⟨?_, ?_⟩
  · rintro ⟨r', hr', rfl⟩
    split_ifs with hkey
    · exact .inr ⟨r', hr', hkey, rfl⟩
    · exact .inl ⟨hr', hkey⟩
  · rintro (⟨hr, hkey⟩ | ⟨r', hr', hkey, rfl⟩)
    · exact ⟨r, hr, if_neg hkey⟩
    · exact ⟨r', hr', if_pos hkey⟩

/-- If no row has the key, `upsert` adds the new one and leaves the others. -/
theorem mem_upsert_of_not_has (h : ¬t.Has (key row)) :
    r ∈ (t.upsert row update hupdate).rows ↔ r ∈ t.rows ∨ r = row := by
  rw [upsert, dif_neg h, List.mem_append, List.mem_singleton]

/-! ## The row under a key -/

/-- The row under a key. -/
def get (t : Table key) (k : κ) : Option ρ := t.rows.find? fun r => key r = k

theorem get_eq_some_iff {k : κ} : t.get k = some r ↔ r ∈ t.rows ∧ key r = k := by
  constructor
  · intro h
    have hkey := List.find?_some h
    exact ⟨List.mem_of_find?_eq_some h, of_decide_eq_true hkey⟩
  · rintro ⟨hr, rfl⟩
    cases hfind : t.get (key r) with
    | none => exact absurd (decide_eq_true rfl) (List.find?_eq_none.mp hfind r hr)
    | some r' =>
      have hkey := List.find?_some hfind
      rw [t.eq_of_key_eq (List.mem_of_find?_eq_some hfind) hr (of_decide_eq_true hkey)]

theorem get_eq_none_iff {k : κ} : t.get k = none ↔ ¬t.Has k := by
  rw [get, List.find?_eq_none, has_iff]
  simp

/-- `get` after `upsert`: under the key the updated or the new row, under every other key what was
there. -/
theorem get_upsert (k : κ) : (t.upsert row update hupdate).get k =
    if k = key row then some (((t.get k).map update).getD row) else t.get k := by
  refine Option.ext fun r => ?_
  rw [get_eq_some_iff]
  by_cases hhas : t.Has (key row)
  · rw [mem_upsert_of_has hhas]
    split_ifs with hk
    · obtain ⟨old, hold⟩ := Option.ne_none_iff_exists'.mp fun h => get_eq_none_iff.mp h hhas
      obtain ⟨hmem, hkey⟩ := get_eq_some_iff.mp hold
      rw [hk, hold, Option.map_some, Option.getD_some, Option.some_inj]
      constructor
      · rintro ⟨⟨-, hne⟩ | ⟨r', hr', hkey', rfl⟩, hself⟩
        · exact absurd hself hne
        · rw [t.eq_of_key_eq hmem hr' (hkey.trans hkey'.symm)]
      · rintro rfl
        exact ⟨.inr ⟨old, hmem, hkey, rfl⟩, (hupdate old).trans hkey⟩
    · rw [get_eq_some_iff]
      constructor
      · rintro ⟨⟨hr, -⟩ | ⟨r', -, hkey', rfl⟩, hself⟩
        · exact ⟨hr, hself⟩
        · exact absurd (hself.symm.trans ((hupdate r').trans hkey')) hk
      · rintro ⟨hr, rfl⟩
        exact ⟨.inl ⟨hr, hk⟩, rfl⟩
  · rw [mem_upsert_of_not_has hhas]
    split_ifs with hk
    · rw [hk, get_eq_none_iff.mpr hhas, Option.map_none, Option.getD_none, Option.some_inj]
      constructor
      · rintro ⟨hr | rfl, hself⟩
        · exact absurd (has_iff.mpr ⟨r, hr, hself⟩) hhas
        · rfl
      · rintro rfl
        exact ⟨.inr rfl, rfl⟩
    · rw [get_eq_some_iff]
      constructor
      · rintro ⟨hr | rfl, hself⟩
        · exact ⟨hr, hself⟩
        · exact absurd hself.symm hk
      · rintro ⟨hr, hself⟩
        exact ⟨.inl hr, hself⟩

/-- `get` after deleting a key: nothing under it, and under every other key what was there. -/
theorem get_deleteWhere_key (t : Table key) (k k' : κ) :
    (t.deleteWhere fun r => key r = k').get k = if k = k' then none else t.get k := by
  refine Option.ext fun r => ?_
  rw [get_eq_some_iff, mem_deleteWhere]
  split_ifs with hk
  · refine iff_of_false ?_ nofun
    rintro ⟨⟨-, hne⟩, rfl⟩
    exact of_decide_eq_false hne hk
  · rw [get_eq_some_iff]
    constructor
    · rintro ⟨⟨hr, -⟩, hself⟩
      exact ⟨hr, hself⟩
    · rintro ⟨hr, rfl⟩
      exact ⟨⟨hr, decide_eq_false hk⟩, rfl⟩

end Table
