import Mathlib.Data.List.Nodup
import Mathlib.Data.Bool.Basic
import Mathlib.Tactic.Push

/-!
# Upserts

New data for the rows of a table: a row whose key is among the keys of the data is set to them, if
that changes anything, and the data without a row become rows of their own.

## Main results

* `Upsert.settled_of_mem`: afterwards there is a row for all data, and nothing is left to change.
* `Upsert.rows_append`: doing it in batches is doing it at once.
* `Upsert.rows_rows`: doing it again changes nothing.
* `Upsert.foldl_changed`: it is done by an insertion and one update after the other.
-/

/-- What **rows** and **data** have to do with each other. -/
structure Upsert (ρ δ κ : Type) where
  /-- The key of a row. -/
  keyOf : ρ → κ
  /-- The key of data. -/
  key : δ → κ
  /-- The row that data become. -/
  new : δ → ρ
  /-- A row with data. -/
  set : δ → ρ → ρ
  /-- Do data change anything about a row? -/
  changes : δ → ρ → Bool

namespace Upsert

variable {ρ δ κ : Type} [DecidableEq κ] {u : Upsert ρ δ κ} {good : δ → Prop} {ds ds₁ ds₂ : List δ}
  {table : List ρ} {d : δ} {r : ρ}

/-- Data that are good keep the key, and nothing is left to change when they are set. -/
structure Lawful (u : Upsert ρ δ κ) (good : δ → Prop) : Prop where
  keyOf_new : ∀ d, good d → u.keyOf (u.new d) = u.key d
  keyOf_set : ∀ d r, good d → u.key d = u.keyOf r → u.keyOf (u.set d r) = u.keyOf r
  changes_new : ∀ d, good d → u.changes d (u.new d) = false
  changes_set : ∀ d r, good d → u.key d = u.keyOf r → u.changes d (u.set d r) = false

/-- Are there data for a row, and which? -/
def dataOf (u : Upsert ρ δ κ) (ds : List δ) (r : ρ) : Option δ := ds.find? (u.key · = u.keyOf r)

/-- What becomes of a row. -/
def row (u : Upsert ρ δ κ) (ds : List δ) (r : ρ) : ρ :=
  match u.dataOf ds r with
  | some d => if u.changes d r then u.set d r else r
  | none => r

/-- Is there no row for the data? -/
def missing (u : Upsert ρ δ κ) (table : List ρ) (d : δ) : Bool :=
  table.all fun r => u.keyOf r ≠ u.key d

/-- **What becomes of a table.** -/
def rows (u : Upsert ρ δ κ) (ds : List δ) (table : List ρ) : List ρ :=
  table.map (u.row ds) ++ (ds.filter (u.missing table)).map u.new

/-- There is a row for the data, and nothing to change about it. -/
def Settled (u : Upsert ρ δ κ) (table : List ρ) (d : δ) : Prop :=
  ∃ r ∈ table, u.keyOf r = u.key d ∧ u.changes d r = false

theorem missing_iff : u.missing table d = true ↔ ∀ r ∈ table, u.keyOf r ≠ u.key d := by
  simp [missing]

theorem dataOf_eq_none : u.dataOf ds r = none ↔ ∀ d ∈ ds, u.key d ≠ u.keyOf r := by
  simp [dataOf]

theorem mem_of_dataOf (h : u.dataOf ds r = some d) : d ∈ ds ∧ u.key d = u.keyOf r :=
  ⟨List.mem_of_find?_eq_some h, by simpa using List.find?_some h⟩

/-- Data are found by their key. -/
theorem dataOf_of_mem (hkeys : (ds.map u.key).Nodup) (hd : d ∈ ds) (h : u.key d = u.keyOf r) :
    u.dataOf ds r = some d := by
  cases hfound : u.dataOf ds r with
  | none => exact absurd h (dataOf_eq_none.mp hfound d hd)
  | some d' =>
      obtain ⟨hmem, hkey⟩ := mem_of_dataOf hfound
      exact congrArg some (List.inj_on_of_nodup_map hkeys hmem hd (hkey.trans h.symm))

theorem row_of_none (h : ∀ d ∈ ds, u.key d ≠ u.keyOf r) : u.row ds r = r := by
  rw [row, dataOf_eq_none.mpr h]

theorem row_of_mem (hkeys : (ds.map u.key).Nodup) (hd : d ∈ ds) (h : u.key d = u.keyOf r) :
    u.row ds r = if u.changes d r then u.set d r else r := by
  rw [row, dataOf_of_mem hkeys hd h]

/-- **Rows keep their keys.** -/
theorem keyOf_row (hu : u.Lawful good) (hgood : ∀ d ∈ ds, good d) (r : ρ) :
    u.keyOf (u.row ds r) = u.keyOf r := by
  rw [row]
  split
  · next d hfound =>
      obtain ⟨hmem, hkey⟩ := mem_of_dataOf hfound
      split
      · exact hu.keyOf_set d r (hgood d hmem) hkey
      · rfl
  · rfl

/-- A row has nothing left to change. -/
theorem changes_row (hu : u.Lawful good) (hgood : good d) (hkeys : (ds.map u.key).Nodup)
    (hd : d ∈ ds) (h : u.key d = u.keyOf r) : u.changes d (u.row ds r) = false := by
  rw [row_of_mem hkeys hd h]
  split
  · exact hu.changes_set d r hgood h
  · next hsame => exact Bool.eq_false_of_not_eq_true hsame

/-- **Nothing is left to do** for the data. -/
theorem settled_of_mem (hu : u.Lawful good) (hgood : ∀ d ∈ ds, good d)
    (hkeys : (ds.map u.key).Nodup) (hd : d ∈ ds) : u.Settled (u.rows ds table) d := by
  by_cases hmissing : u.missing table d = true
  · refine ⟨u.new d, List.mem_append_right _ (List.mem_map_of_mem ?_), hu.keyOf_new d (hgood d hd),
      hu.changes_new d (hgood d hd)⟩
    exact List.mem_filter.mpr ⟨hd, hmissing⟩
  · rw [missing_iff] at hmissing
    push Not at hmissing
    obtain ⟨r, hr, hkey⟩ := hmissing
    exact ⟨u.row ds r, List.mem_append_left _ (List.mem_map_of_mem hr),
      (keyOf_row hu hgood r).trans hkey, changes_row hu (hgood d hd) hkeys hd hkey.symm⟩

/-- **Other rows** stay as they are. -/
theorem mem_rows_of_none (hr : r ∈ table) (h : ∀ d ∈ ds, u.key d ≠ u.keyOf r) :
    r ∈ u.rows ds table :=
  List.mem_append_left _ (List.mem_map.mpr ⟨r, hr, row_of_none h⟩)

/-- A row with nothing to change stays as it is. -/
theorem mem_rows_of_same (hr : r ∈ table)
    (h : ∀ d ∈ ds, u.key d = u.keyOf r → u.changes d r = false) : r ∈ u.rows ds table := by
  refine List.mem_append_left _ (List.mem_map.mpr ⟨r, hr, ?_⟩)
  rw [row]
  split
  · next d hfound =>
      obtain ⟨hd, hkey⟩ := mem_of_dataOf hfound
      rw [h d hd hkey]
      rfl
  · rfl

/-- **Where a row comes from.** -/
theorem mem_rows (hkeys : (ds.map u.key).Nodup) (h : r ∈ u.rows ds table) :
    (r ∈ table ∧ ∀ d ∈ ds, u.key d = u.keyOf r → u.changes d r = false) ∨
      (∃ old ∈ table, ∃ d ∈ ds, u.key d = u.keyOf old ∧ r = u.set d old) ∨
        ∃ d ∈ ds, u.missing table d = true ∧ r = u.new d := by
  rcases List.mem_append.mp h with h | h
  · obtain ⟨old, hold, rfl⟩ := List.mem_map.mp h
    by_cases hnone : ∀ d ∈ ds, u.key d ≠ u.keyOf old
    · rw [row_of_none hnone]
      exact .inl ⟨hold, fun d hd hkey => absurd hkey (hnone d hd)⟩
    · push Not at hnone
      obtain ⟨d, hd, hkey⟩ := hnone
      rw [row_of_mem hkeys hd hkey]
      split
      · exact .inr (.inl ⟨old, hold, d, hd, hkey, rfl⟩)
      · next hsame =>
          refine .inl ⟨hold, fun d' hd' hkey' => ?_⟩
          obtain rfl := List.inj_on_of_nodup_map hkeys hd' hd (hkey'.trans hkey.symm)
          exact Bool.eq_false_of_not_eq_true hsame
  · obtain ⟨d, hd, rfl⟩ := List.mem_map.mp h
    obtain ⟨hmem, hmissing⟩ := List.mem_filter.mp hd
    exact .inr (.inr ⟨d, hmem, hmissing, rfl⟩)

/-- Data are missing afterwards if they were before and are not among the data. -/
theorem missing_rows (hu : u.Lawful good) (hgood : ∀ d ∈ ds, good d)
    (hother : ∀ d' ∈ ds, u.key d' ≠ u.key d) :
    u.missing (u.rows ds table) d = u.missing table d := by
  rw [Bool.eq_iff_iff, missing_iff, missing_iff]
  constructor
  · intro h r hr
    rw [← keyOf_row hu hgood r]
    exact h _ (List.mem_append_left _ (List.mem_map_of_mem hr))
  · intro h r hr
    rcases List.mem_append.mp hr with hr | hr
    · obtain ⟨old, hold, rfl⟩ := List.mem_map.mp hr
      rw [keyOf_row hu hgood]
      exact h old hold
    · obtain ⟨d', hd', rfl⟩ := List.mem_map.mp hr
      have hmem := List.mem_of_mem_filter hd'
      rw [hu.keyOf_new d' (hgood d' hmem)]
      exact hother d' hmem

/-- **Batches.** The data in two parts are the data at once. -/
theorem rows_append (hu : u.Lawful good) (hgood : ∀ d ∈ ds₁, good d)
    (hkeys : ((ds₁ ++ ds₂).map u.key).Nodup) :
    u.rows (ds₁ ++ ds₂) table = u.rows ds₂ (u.rows ds₁ table) := by
  rw [List.map_append] at hkeys
  obtain ⟨hkeys₁, hkeys₂, hdisjoint⟩ := List.nodup_append.mp hkeys
  have hother (d₁ d₂ : δ) (h₁ : d₁ ∈ ds₁) (h₂ : d₂ ∈ ds₂) : u.key d₁ ≠ u.key d₂ :=
    hdisjoint _ (List.mem_map_of_mem h₁) _ (List.mem_map_of_mem h₂)
  have hrow (r : ρ) : u.row (ds₁ ++ ds₂) r = u.row ds₂ (u.row ds₁ r) := by
    have hdata : u.dataOf (ds₁ ++ ds₂) r = (u.dataOf ds₁ r).or (u.dataOf ds₂ r) :=
      List.find?_append
    by_cases hnone : ∀ d ∈ ds₁, u.key d ≠ u.keyOf r
    · rw [row_of_none hnone, row, hdata, dataOf_eq_none.mpr hnone, Option.none_or, row]
    · push Not at hnone
      obtain ⟨d, hd, hkey⟩ := hnone
      have hlater : u.row ds₂ (u.row ds₁ r) = u.row ds₁ r := by
        refine row_of_none fun d₂ hd₂ hsame => ?_
        rw [keyOf_row hu hgood] at hsame
        exact hother d d₂ hd hd₂ (hkey.trans hsame.symm)
      rw [hlater, row, hdata, dataOf_of_mem hkeys₁ hd hkey, Option.some_or, row,
        dataOf_of_mem hkeys₁ hd hkey]
  have hnew : ((ds₁.filter (u.missing table)).map u.new).map (u.row ds₂) =
      (ds₁.filter (u.missing table)).map u.new := by
    rw [List.map_map]
    refine List.map_congr_left fun d hd => row_of_none fun d₂ hd₂ hsame => ?_
    have hmem := List.mem_of_mem_filter hd
    rw [hu.keyOf_new d (hgood d hmem)] at hsame
    exact hother d d₂ hmem hd₂ hsame.symm
  have hmissing : ds₂.filter (u.missing (u.rows ds₁ table)) = ds₂.filter (u.missing table) :=
    List.filter_congr fun d₂ hd₂ => missing_rows hu hgood fun d₁ hd₁ => hother d₁ d₂ hd₁ hd₂
  calc u.rows (ds₁ ++ ds₂) table
      = table.map (fun r => u.row ds₂ (u.row ds₁ r)) ++
          ((ds₁.filter (u.missing table)).map u.new ++
            (ds₂.filter (u.missing table)).map u.new) := by
        rw [rows, List.filter_append, List.map_append]
        exact congrArg (· ++ _) (List.map_congr_left fun r _ => hrow r)
    _ = u.rows ds₂ (u.rows ds₁ table) := by
        rw [rows, hmissing, rows, List.map_append, hnew, List.map_map, List.append_assoc]
        rfl

/-- Where nothing is left to do nothing happens. -/
theorem rows_of_settled (hkeys : (ds.map u.key).Nodup) (hrows : (table.map u.keyOf).Nodup)
    (h : ∀ d ∈ ds, u.Settled table d) : u.rows ds table = table := by
  have hrow : table.map (u.row ds) = table := by
    refine (List.map_congr_left fun r hr => ?_).trans (List.map_id table)
    by_cases hnone : ∀ d ∈ ds, u.key d ≠ u.keyOf r
    · exact row_of_none hnone
    · push Not at hnone
      obtain ⟨d, hd, hkey⟩ := hnone
      obtain ⟨r', hr', hkey', hsame⟩ := h d hd
      obtain rfl := List.inj_on_of_nodup_map hrows hr' hr (hkey'.trans hkey)
      rw [row_of_mem hkeys hd hkey, if_neg (Bool.not_eq_true _ ▸ hsame), id]
  have hnone : ds.filter (u.missing table) = [] := by
    refine List.filter_eq_nil_iff.mpr fun d hd hmissing => ?_
    obtain ⟨r, hr, hkey, -⟩ := h d hd
    exact missing_iff.mp hmissing r hr hkey
  rw [rows, hrow, hnone, List.map_nil, List.append_nil]

/-- Without data nothing happens. -/
theorem rows_nil (table : List ρ) : u.rows [] table = table := by
  change table.map id ++ [] = table
  rw [List.append_nil, List.map_id]

/-- **Keys** stay distinct. -/
theorem nodup_rows (hu : u.Lawful good) (hgood : ∀ d ∈ ds, good d) (hkeys : (ds.map u.key).Nodup)
    (hrows : (table.map u.keyOf).Nodup) : ((u.rows ds table).map u.keyOf).Nodup := by
  have hold : (table.map (u.row ds)).map u.keyOf = table.map u.keyOf := by
    rw [List.map_map]
    exact List.map_congr_left fun r _ => keyOf_row hu hgood r
  have hnew : ((ds.filter (u.missing table)).map u.new).map u.keyOf =
      (ds.filter (u.missing table)).map u.key := by
    rw [List.map_map]
    exact List.map_congr_left fun d hd => hu.keyOf_new d (hgood d (List.mem_of_mem_filter hd))
  rw [rows, List.map_append, hold, hnew]
  refine List.nodup_append.mpr ⟨hrows, (List.filter_sublist.map _).nodup hkeys, ?_⟩
  rintro k hk k' hk' rfl
  obtain ⟨r, hr, rfl⟩ := List.mem_map.mp hk
  obtain ⟨d, hd, hkey⟩ := List.mem_map.mp hk'
  exact missing_iff.mp (List.mem_filter.mp hd).2 r hr hkey.symm

/-- **Again** changes nothing. -/
theorem rows_rows (hu : u.Lawful good) (hgood : ∀ d ∈ ds, good d) (hkeys : (ds.map u.key).Nodup)
    (hrows : (table.map u.keyOf).Nodup) : u.rows ds (u.rows ds table) = u.rows ds table :=
  rows_of_settled hkeys (nodup_rows hu hgood hkeys hrows) fun _ hd =>
    settled_of_mem hu hgood hkeys hd

/-! ### One after the other -/

/-- The rows with the key of the data are set to them. -/
def setRows (u : Upsert ρ δ κ) (d : δ) (table : List ρ) : List ρ :=
  table.map fun r => if u.keyOf r = u.key d then u.set d r else r

/-- Setting rows one after the other is looking for the data of each. -/
theorem foldl_setRows (hu : u.Lawful good) (hgood : ∀ d ∈ ds, good d)
    (hkeys : (ds.map u.key).Nodup) (table : List ρ) :
    ds.foldl (fun rows d => u.setRows d rows) table =
      table.map fun r => ((u.dataOf ds r).map (u.set · r)).getD r := by
  induction ds generalizing table with
  | nil => exact (List.map_id table).symm
  | cons d ds ih =>
      rw [List.map_cons, List.nodup_cons] at hkeys
      rw [List.foldl_cons, ih (fun d' hd' => hgood d' (List.mem_cons_of_mem d hd')) hkeys.2,
        setRows, List.map_map]
      refine List.map_congr_left fun r _ => ?_
      have hcons : u.dataOf (d :: ds) r =
          if u.key d = u.keyOf r then some d else u.dataOf ds r := by
        rw [dataOf, List.find?_cons, dataOf]
        split
        · next hkey => rw [if_pos (of_decide_eq_true hkey)]
        · next hkey => rw [if_neg (of_decide_eq_false hkey)]
      rw [Function.comp, hcons]
      by_cases hkey : u.keyOf r = u.key d
      · have hset : u.dataOf ds (u.set d r) = none := by
          refine dataOf_eq_none.mpr fun d' hd' hsame => hkeys.1 ?_
          rw [hu.keyOf_set d r (hgood d List.mem_cons_self) hkey.symm, hkey] at hsame
          exact hsame ▸ List.mem_map_of_mem hd'
        rw [if_pos hkey, hset, if_pos hkey.symm]
        rfl
      · rw [if_neg hkey, if_neg (Ne.symm hkey)]

/-- Do data change a row of the table? -/
def changed (u : Upsert ρ δ κ) (table : List ρ) (d : δ) : Bool :=
  table.any fun r => decide (u.keyOf r = u.key d) && u.changes d r

theorem changed_iff : u.changed table d = true ↔
    ∃ r ∈ table, u.keyOf r = u.key d ∧ u.changes d r = true := by
  simp [changed]

/-- **In place.** The missing data are appended, and then the rows that change are set. -/
theorem foldl_changed (hu : u.Lawful good) (hgood : ∀ d ∈ ds, good d)
    (hkeys : (ds.map u.key).Nodup) (hrows : (table.map u.keyOf).Nodup) :
    (ds.filter (u.changed table)).foldl (fun rows d => u.setRows d rows)
        (table ++ (ds.filter (u.missing table)).map u.new) = u.rows ds table := by
  have hsub : ((ds.filter (u.changed table)).map u.key).Nodup :=
    (List.filter_sublist.map _).nodup hkeys
  rw [foldl_setRows hu (fun d hd => hgood d (List.mem_of_mem_filter hd)) hsub, List.map_append,
    rows]
  congr 1
  · refine List.map_congr_left fun r hr => ?_
    by_cases hnone : ∀ d ∈ ds, u.key d ≠ u.keyOf r
    · rw [row_of_none hnone,
        dataOf_eq_none.mpr fun d hd => hnone d (List.mem_of_mem_filter hd)]
      rfl
    · push Not at hnone
      obtain ⟨d, hd, hkey⟩ := hnone
      rw [row_of_mem hkeys hd hkey]
      split
      · next hchanges =>
          have hmem : d ∈ ds.filter (u.changed table) :=
            List.mem_filter.mpr ⟨hd, changed_iff.mpr ⟨r, hr, hkey.symm, hchanges⟩⟩
          rw [dataOf_of_mem hsub hmem hkey]
          rfl
      · next hsame =>
          have hnot : u.dataOf (ds.filter (u.changed table)) r = none := by
            refine dataOf_eq_none.mpr fun d' hd' hkey' => hsame ?_
            obtain ⟨hmem, hchanged⟩ := List.mem_filter.mp hd'
            obtain rfl := List.inj_on_of_nodup_map hkeys hmem hd (hkey'.trans hkey.symm)
            obtain ⟨r', hr', hkey'', hchanges⟩ := changed_iff.mp hchanged
            obtain rfl := List.inj_on_of_nodup_map hrows hr' hr (hkey''.trans hkey)
            exact hchanges
          rw [hnot]
          rfl
  · refine (List.map_congr_left fun r hr => ?_).trans (List.map_id _)
    obtain ⟨d, hd, rfl⟩ := List.mem_map.mp hr
    obtain ⟨hmem, hmissing⟩ := List.mem_filter.mp hd
    have hnot : u.dataOf (ds.filter (u.changed table)) (u.new d) = none := by
      refine dataOf_eq_none.mpr fun d' hd' hkey => ?_
      obtain ⟨-, hchanged⟩ := List.mem_filter.mp hd'
      obtain ⟨r, hr, hkey', -⟩ := changed_iff.mp hchanged
      rw [hu.keyOf_new d (hgood d hmem)] at hkey
      exact missing_iff.mp hmissing r hr (hkey'.trans hkey)
    rw [hnot]
    rfl

end Upsert
