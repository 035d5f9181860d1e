import Fctf.MigrationBatches

/-!
# Batches that Upsert

Where keys are compared alike by Python and by the database, and none of them is there twice, what
the code does with a batch is the upsert of its data, and batches one after the other are the upsert
of all data at once, however they are cut.

## Main results

* `batchesDone_eq`: the rows after all batches.
* `batchesDone_of_settled`: where nothing is left to do, everything is counted as unchanged.
-/

open Concurrent

namespace Fctf

namespace Migrator

variable {V : Type} {values : Values V} {w w' : World V} {α : Type} {task : Task V}
  {direction : Direction} {table : String} {pk columns : List String} {isKey : V → Prop}
  {batch ds : List (Data V)} {rows : List (Row V)}

/-! ### The upsert of rows -/

/-- Data and rows of a table with a key. -/
def scheme (values : Values V) (table : String) (pk columns : List String) :
    Upsert (Row V) (Data V) (List V) where
  keyOf row := pk.map row
  key := keyOfData pk
  new := freshRow values table
  set data row := row.setAll data
  changes data row := hasChanges values pk columns row data

/-- Values that are compared alike by everyone, such as whole numbers. -/
structure Exact (values : Values V) (isKey : V → Prop) : Prop where
  py : ∀ a b, isKey a → isKey b → (values.py a b = true ↔ a = b)
  sql : ∀ a b, isKey a → isKey b → (values.sql a b = true ↔ a = b)

/-- Data with a whole key of such values, and other values that equal themselves. -/
structure Keyed (values : Values V) (pk : List String) (isKey : V → Prop) (data : Data V) :
    Prop where
  key : ∀ column ∈ pk, ∃ v, data.lookup column = some v ∧ isKey v
  nodup : (data.map Prod.fst).Nodup
  py_refl : ∀ c ∈ data, values.py c.2 c.2 = true

theorem lookup_of_mem {data : Data V} (h : (data.map Prod.fst).Nodup) {c : String × V}
    (hc : c ∈ data) : data.lookup c.1 = some c.2 := by
  induction data with
  | nil => cases hc
  | cons d data ih =>
      rw [List.map_cons, List.nodup_cons] at h
      rcases List.mem_cons.mp hc with rfl | hc
      · rw [List.lookup_cons, beq_self_eq_true]
      · have hne : (c.1 == d.1) = false := by
          refine beq_false_of_ne fun heq => h.1 ?_
          exact heq ▸ List.mem_map_of_mem hc
        rw [List.lookup_cons, hne]
        exact ih h.2 hc

/-- The key of keyed data. -/
theorem Keyed.keyOfData_eq {data : Data V} (h : Keyed values pk isKey data) (row : Row V) :
    keyOfData pk data = pk.map (row.setAll data) := by
  rw [keyOfData, ← List.filterMap_eq_map]
  refine List.filterMap_congr fun column hcolumn => ?_
  obtain ⟨v, hv, -⟩ := h.key column hcolumn
  rw [hv, Function.comp, Row.setAll, hv, Option.getD_some]

theorem Keyed.changes_eq_false {data : Data V} (h : Keyed values pk isKey data) {row : Row V}
    (hset : ∀ column v, data.lookup column = some v → row column = v) :
    hasChanges values pk columns row data = false := by
  rw [hasChanges, List.any_eq_false]
  intro c hc hchanged
  rw [hset c.1 c.2 (lookup_of_mem h.nodup hc), h.py_refl c hc] at hchanged
  simp at hchanged

/-- Keyed data keep the key. -/
theorem scheme_lawful (values : Values V) (table : String) (pk columns : List String)
    (isKey : V → Prop) :
    (scheme values table pk columns).Lawful (Keyed values pk isKey) where
  keyOf_new data h := (h.keyOfData_eq (values.unset table)).symm
  keyOf_set data row h hkey := (h.keyOfData_eq row).symm.trans hkey
  changes_new data h := h.changes_eq_false fun column v hv => by
    change (data.lookup column).getD _ = v
    rw [hv, Option.getD_some]
  changes_set data row h _ := h.changes_eq_false fun column v hv => by
    change (data.lookup column).getD _ = v
    rw [hv, Option.getD_some]

/-- A row with a key of such values. -/
def KeyedRow (pk : List String) (isKey : V → Prop) (row : Row V) : Prop :=
  ∀ column ∈ pk, isKey (row column)

/-- Exact tuples. -/
theorem tupleEq_iff (hexact : Exact values isKey) {as bs : List V} (ha : ∀ a ∈ as, isKey a)
    (hb : ∀ b ∈ bs, isKey b) : tupleEq values as bs = true ↔ as = bs := by
  induction as generalizing bs with
  | nil => cases bs <;> simp [tupleEq]
  | cons a as ih =>
      cases bs with
      | nil => simp [tupleEq]
      | cons b bs =>
          rw [tupleEq, Bool.and_eq_true, hexact.py a b (ha a List.mem_cons_self)
            (hb b List.mem_cons_self), ih (fun x hx => ha x (List.mem_cons_of_mem a hx))
            fun x hx => hb x (List.mem_cons_of_mem b hx), List.cons.injEq]

/-- The condition for a key is met by the rows with that key. -/
theorem meets_keyCondition (hexact : Exact values isKey) {data : Data V} {row : Row V}
    (hdata : Keyed values pk isKey data) (hrow : KeyedRow pk isKey row) :
    row.meets values (keyCondition pk data) = true ↔ pk.map row = keyOfData pk data := by
  induction pk with
  | nil => simp [Row.meets, keyCondition, keyOfData]
  | cons column pk ih =>
      obtain ⟨v, hv, hkey⟩ := hdata.key column List.mem_cons_self
      have hrest := ih ⟨fun c hc => hdata.key c (List.mem_cons_of_mem _ hc), hdata.nodup,
        hdata.py_refl⟩ fun c hc => hrow c (List.mem_cons_of_mem _ hc)
      have hdataKey : keyOfData (column :: pk) data = v :: keyOfData pk data :=
        List.filterMap_cons_some hv
      have hcondition : keyCondition (column :: pk) data = (column, v) :: keyCondition pk data :=
        List.filterMap_cons_some (by rw [hv]; rfl)
      rw [hdataKey, hcondition, List.map_cons, List.cons.injEq, ← hrest,
        ← hexact.sql (row column) v (hrow column List.mem_cons_self) hkey, Row.meets, List.all_cons,
        Bool.and_eq_true, Row.meets]

/-- What an upsert can rely on: exact keys, and none of them twice. -/
structure Sound (values : Values V) (pk : List String) (isKey : V → Prop) (ds : List (Data V))
    (rows : List (Row V)) : Prop where
  exact : Exact values isKey
  key : pk ≠ []
  data : ∀ d ∈ ds, Keyed values pk isKey d
  keys : (ds.map (keyOfData pk)).Nodup
  keyed : ∀ r ∈ rows, KeyedRow pk isKey r
  rowKeys : (rows.map fun r : Row V => pk.map r).Nodup

/-- The query finds the rows with a key of the data. -/
theorem mem_existingRows (h : Sound values pk isKey batch rows) {r : Row V} :
    r ∈ existingRows values pk batch rows ↔
      r ∈ rows ∧ ∃ d ∈ batch, pk.map r = keyOfData pk d := by
  rw [existingRows, List.mem_filter, List.any_filter, List.any_map, List.any_eq_true]
  refine and_congr_right fun hr => exists_congr fun d => and_congr_right fun hd => ?_
  have hne : (keyCondition pk d).isEmpty = false := by
    obtain ⟨column, rest, rfl⟩ := List.exists_cons_of_ne_nil h.key
    obtain ⟨v, hv, -⟩ := (h.data d hd).key column List.mem_cons_self
    rw [keyCondition, List.filterMap_cons_some (by rw [hv]; rfl)]
    rfl
  rw [Function.comp, hne, ← meets_keyCondition h.exact (h.data d hd) (h.keyed r hr)]
  rfl

/-- The row in the dictionary is the row with the key. -/
theorem existingRow_eq_some (h : Sound values pk isKey batch rows) {d : Data V} (hd : d ∈ batch)
    {r : Row V} : existingRow values pk (existingRows values pk batch rows) d = some r →
      r ∈ rows ∧ pk.map r = keyOfData pk d := by
  intro hfound
  obtain ⟨hmem, -⟩ := (mem_existingRows h).mp
    (List.mem_reverse.mp (List.mem_of_find?_eq_some hfound))
  have hkey := List.find?_some hfound
  rw [tupleEq_iff h.exact] at hkey
  · exact ⟨hmem, hkey⟩
  · intro a ha
    obtain ⟨column, hcolumn, rfl⟩ := List.mem_map.mp ha
    exact h.keyed r hmem column hcolumn
  · intro b hb
    obtain ⟨column, hcolumn, hlookup⟩ := List.mem_filterMap.mp hb
    obtain ⟨v, hv, hkey⟩ := (h.data d hd).key column hcolumn
    rw [hv] at hlookup
    exact Option.some.inj hlookup ▸ hkey

theorem existingRow_isSome (h : Sound values pk isKey batch rows) {d : Data V} (hd : d ∈ batch)
    {r : Row V} (hr : r ∈ rows) (hkey : pk.map r = keyOfData pk d) :
    (existingRow values pk (existingRows values pk batch rows) d).isSome = true := by
  refine List.find?_isSome.mpr
    ⟨r, List.mem_reverse.mpr ((mem_existingRows h).mpr ⟨hr, d, hd, hkey⟩),
      (tupleEq_iff h.exact ?_ ?_).mpr hkey⟩
  · intro a ha
    obtain ⟨column, hcolumn, rfl⟩ := List.mem_map.mp ha
    exact h.keyed r hr column hcolumn
  · intro b hb
    rw [← hkey] at hb
    obtain ⟨column, hcolumn, rfl⟩ := List.mem_map.mp hb
    exact h.keyed r hr column hcolumn

/-- A row that is set keeps a key of such values. -/
theorem KeyedRow.setAll {d : Data V} (hd : Keyed values pk isKey d) (r : Row V) :
    KeyedRow pk isKey (r.setAll d) := by
  intro column hcolumn
  obtain ⟨v, hv, hkey⟩ := hd.key column hcolumn
  rw [Row.setAll, hv]
  exact hkey

/-- A part of the data. -/
theorem Sound.left {ds₁ ds₂ : List (Data V)} (h : Sound values pk isKey (ds₁ ++ ds₂) rows) :
    Sound values pk isKey ds₁ rows where
  exact := h.exact
  key := h.key
  data d hd := h.data d (List.mem_append_left _ hd)
  keys := (List.nodup_append.mp (List.map_append ▸ h.keys)).1
  keyed := h.keyed
  rowKeys := h.rowKeys

section Keys

variable [DecidableEq V]

/-- New data are the missing ones. -/
theorem isNew_eq (table : String) (columns : List String) (h : Sound values pk isKey batch rows)
    {d : Data V} (hd : d ∈ batch) :
    isNew values pk (existingRows values pk batch rows) d =
      (scheme values table pk columns).missing rows d := by
  rw [Bool.eq_iff_iff, Upsert.missing_iff, isNew, Option.isNone_iff_eq_none]
  constructor
  · intro hnone r hr hkey
    have hsome := existingRow_isSome h hd hr hkey
    rw [hnone] at hsome
    cases hsome
  · intro hmissing
    cases hfound : existingRow values pk (existingRows values pk batch rows) d with
    | none => rfl
    | some r =>
        obtain ⟨hr, hkey⟩ := existingRow_eq_some h hd hfound
        exact absurd hkey (hmissing r hr)

/-- Changed data are those that change a row. -/
theorem isChanged_eq (table : String) (h : Sound values pk isKey batch rows) {d : Data V}
    (hd : d ∈ batch) :
    isChanged values pk columns (existingRows values pk batch rows) d =
      (scheme values table pk columns).changed rows d := by
  rw [Bool.eq_iff_iff, Upsert.changed_iff, isChanged, Option.any_eq_true]
  constructor
  · rintro ⟨r, hfound, hchanges⟩
    obtain ⟨hr, hkey⟩ := existingRow_eq_some h hd hfound
    exact ⟨r, hr, hkey, hchanges⟩
  · rintro ⟨r, hr, hkey, hchanges⟩
    obtain ⟨r', hfound⟩ := Option.isSome_iff_exists.mp (existingRow_isSome h hd hr hkey)
    obtain ⟨hr', hkey'⟩ := existingRow_eq_some h hd hfound
    obtain rfl := List.inj_on_of_nodup_map h.rowKeys hr' hr (hkey'.trans hkey.symm)
    exact ⟨r', hfound, hchanges⟩

/-- An update by a key sets the rows with that key. -/
theorem updateRows_eq (table : String) (columns : List String) (hexact : Exact values isKey)
    {d : Data V} (hd : Keyed values pk isKey d) (hrows : ∀ r ∈ rows, KeyedRow pk isKey r) :
    updateRows values (keyCondition pk d) d rows =
      (scheme values table pk columns).setRows d rows := by
  refine List.map_congr_left fun r hr => ?_
  have hmeets := meets_keyCondition hexact hd (hrows r hr)
  by_cases hkey : pk.map r = keyOfData pk d
  · rw [if_pos (hmeets.mpr hkey)]
    exact (if_pos hkey).symm
  · rw [if_neg fun hm => hkey (hmeets.mp hm)]
    exact (if_neg hkey).symm

/-- The updates, one after the other. -/
theorem foldl_updateRows (table : String) (columns : List String) (hexact : Exact values isKey)
    (hds : ∀ d ∈ ds, Keyed values pk isKey d) (hrows : ∀ r ∈ rows, KeyedRow pk isKey r) :
    ds.foldl (fun rows d => updateRows values (keyCondition pk d) d rows) rows =
      ds.foldl (fun rows d => (scheme values table pk columns).setRows d rows) rows := by
  induction ds generalizing rows with
  | nil => rfl
  | cons d ds ih =>
      have hd := hds d List.mem_cons_self
      rw [List.foldl_cons, List.foldl_cons, updateRows_eq table columns hexact hd hrows]
      refine ih (fun d' hd' => hds d' (List.mem_cons_of_mem d hd')) fun r hr => ?_
      obtain ⟨old, hold, rfl⟩ := List.mem_map.mp hr
      split
      · exact .setAll hd old
      · exact hrows old hold

/-- **The upsert of a batch** is the upsert of its data. -/
theorem upsertedRows_eq (h : Sound values pk isKey batch rows) :
    upsertedRows values table columns pk batch rows =
      (scheme values table pk columns).rows batch rows := by
  have hnew : batch.filter (isNew values pk (existingRows values pk batch rows)) =
      batch.filter ((scheme values table pk columns).missing rows) :=
    List.filter_congr fun d hd => isNew_eq table columns h hd
  have hchanged : batch.filter (isChanged values pk columns (existingRows values pk batch rows)) =
      batch.filter ((scheme values table pk columns).changed rows) :=
    List.filter_congr fun d hd => isChanged_eq table h hd
  rw [upsertedRows, hnew, hchanged, foldl_updateRows table columns h.exact
    (fun d hd => h.data d (List.mem_of_mem_filter hd)) fun r hr => ?_]
  · exact Upsert.foldl_changed (scheme_lawful values table pk columns isKey) h.data h.keys h.rowKeys
  · rcases List.mem_append.mp hr with hr | hr
    · exact h.keyed r hr
    · obtain ⟨d, hd, rfl⟩ := List.mem_map.mp hr
      exact .setAll (h.data d (List.mem_of_mem_filter hd)) _

/-- The rows that come of sound ones have keys of such values. -/
theorem Sound.keyed_rows (h : Sound values pk isKey ds rows) :
    ∀ r ∈ (scheme values table pk columns).rows ds rows, KeyedRow pk isKey r := by
  intro r hr
  rcases Upsert.mem_rows h.keys hr with ⟨hr, -⟩ | ⟨old, -, d, hd, -, rfl⟩ | ⟨d, hd, -, rfl⟩
  · exact h.keyed r hr
  · exact .setAll (h.data d hd) old
  · exact .setAll (h.data d hd) _

theorem Sound.nodup_rows (h : Sound values pk isKey ds rows) :
    (((scheme values table pk columns).rows ds rows).map fun r : Row V => pk.map r).Nodup :=
  Upsert.nodup_rows (scheme_lawful values table pk columns isKey) h.data h.keys h.rowKeys

/-- The other part, after the first. -/
theorem Sound.right {ds₁ ds₂ : List (Data V)} (h : Sound values pk isKey (ds₁ ++ ds₂) rows) :
    Sound values pk isKey ds₂ ((scheme values table pk columns).rows ds₁ rows) where
  exact := h.exact
  key := h.key
  data d hd := h.data d (List.mem_append_right _ hd)
  keys := (List.nodup_append.mp (List.map_append ▸ h.keys)).2.1
  keyed := h.left.keyed_rows
  rowKeys := h.left.nodup_rows

/-- The data, after themselves. -/
theorem Sound.again (h : Sound values pk isKey ds rows) :
    Sound values pk isKey ds ((scheme values table pk columns).rows ds rows) where
  exact := h.exact
  key := h.key
  data := h.data
  keys := h.keys
  keyed := h.keyed_rows
  rowKeys := h.nodup_rows

/-- A batch in the mode of an upsert. -/
theorem batchRows_eq (hmode : task.mode = "upsert") (h : Sound values task.pk isKey batch rows) :
    batchRows values task columns batch rows =
      (scheme values task.target task.pk columns).rows batch rows := by
  rw [batchRows, if_neg (by rw [hmode]; decide), if_pos hmode, upsertedRows_eq h]

/-- **Batches** are the data at once, however they are cut. -/
theorem batchesDone_eq (hmode : task.mode = "upsert") (counts : BatchResult)
    (batches : List (List (Data V))) (h : Sound values task.pk isKey batches.flatten rows) :
    (batchesDone values task columns counts rows batches).2 =
      (scheme values task.target task.pk columns).rows batches.flatten rows := by
  induction batches generalizing counts rows with
  | nil =>
      change rows = rows.map _ ++ []
      rw [List.append_nil]
      exact (List.map_id rows).symm
  | cons batch batches ih =>
      rw [List.flatten_cons] at h ⊢
      rw [batchesDone, batchRows_eq hmode h.left, ih _ h.right]
      exact (Upsert.rows_append (scheme_lawful values task.target task.pk columns isKey) h.left.data
        h.keys).symm

/-- Where nothing is left to do, everything is counted as unchanged. -/
theorem batchesDone_of_settled (hmode : task.mode = "upsert") (counts : BatchResult)
    (batches : List (List (Data V))) (h : Sound values task.pk isKey batches.flatten rows)
    (hsettled : ∀ d ∈ batches.flatten,
      (scheme values task.target task.pk columns).Settled rows d) :
    (batchesDone values task columns counts rows batches).1 =
      counts.add ⟨0, 0, batches.flatten.length⟩ := by
  induction batches generalizing counts with
  | nil => rfl
  | cons batch batches ih =>
      rw [List.flatten_cons] at h hsettled
      have hbatch (d : Data V) (hd : d ∈ batch) :=
        hsettled d (List.mem_append_left _ hd)
      have hrows : batchRows values task columns batch rows = rows := by
        rw [batchRows_eq hmode h.left]
        exact Upsert.rows_of_settled h.left.keys h.left.rowKeys hbatch
      have hnew :
          batch.filter (isNew values task.pk (existingRows values task.pk batch rows)) = [] := by
        refine List.filter_eq_nil_iff.mpr fun d hd hmissing => ?_
        rw [isNew_eq task.target columns h.left hd, Upsert.missing_iff]
          at hmissing
        obtain ⟨r, hr, hkey, -⟩ := hbatch d hd
        exact hmissing r hr hkey
      have hchanged : batch.filter
          (isChanged values task.pk columns (existingRows values task.pk batch rows)) = [] := by
        refine List.filter_eq_nil_iff.mpr fun d hd hchanged => ?_
        rw [isChanged_eq task.target h.left hd, Upsert.changed_iff] at hchanged
        obtain ⟨r, hr, hkey, hsame⟩ := hbatch d hd
        obtain ⟨r', hr', hkey', hchanges⟩ := hchanged
        obtain rfl := List.inj_on_of_nodup_map h.rowKeys hr hr' (hkey.trans hkey'.symm)
        rw [hsame] at hchanges
        cases hchanges
      have hcounts : batchCounts values task columns batch rows = ⟨0, 0, batch.length⟩ := by
        have hpartition := length_partition values task.pk columns
          (existingRows values task.pk batch rows) batch
        rw [hnew, hchanged, List.length_nil, Nat.zero_add] at hpartition
        rw [batchCounts, if_neg (by rw [hmode]; decide), if_pos hmode, upsertCounts, hnew, hchanged,
          hpartition]
        rfl
      have hrest : Sound values task.pk isKey batches.flatten rows :=
        ⟨h.exact, h.key, fun d hd => h.data d (List.mem_append_right _ hd),
          (List.nodup_append.mp (List.map_append ▸ h.keys)).2.1, h.keyed, h.rowKeys⟩
      rw [batchesDone, hrows, hcounts, ih _ hrest fun d hd =>
        hsettled d (List.mem_append_right _ hd), List.flatten_cons, List.length_append]
      exact BatchResult.mk.injEq .. ▸ ⟨rfl, rfl, Nat.add_assoc _ _ _⟩

end Keys

end Migrator

end Fctf
