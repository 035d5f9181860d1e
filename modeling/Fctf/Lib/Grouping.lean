import Mathlib.Data.List.Dedup
import Mathlib.Data.List.Induction
import Mathlib.Logic.Function.Basic
import Mathlib.Data.List.Perm.Subperm

/-!
# Groups and Distinct Values

Rows that are grouped by a key, and values that are counted once each: what a query with
`GROUP BY` and `COUNT(DISTINCT ..)` yields, over any rows and any key.

## Main results

* `mem_groupBy`: what the groups are.
* `tally_eq_some`: what a sum for each key is.
* `length_le_dedup_iff`: a count of distinct values reaches a list without repetitions if all of
  its values are there.
-/

namespace Grouping

variable {α β κ : Type} [DecidableEq κ]

/-- The rows of a key. -/
def ofKey (key : α → κ) (l : List α) (k : κ) : List α := l.filter fun x => key x = k

/-- The groups: every key that occurs, with its rows. -/
def groupBy (key : α → κ) (l : List α) : List (κ × List α) :=
  (l.map key).dedup.map fun k => (k, ofKey key l k)

section Groups

variable {key : α → κ} {l : List α} {g : κ × List α} {x : α} {k : κ}

theorem mem_ofKey : x ∈ ofKey key l k ↔ x ∈ l ∧ key x = k := by
  rw [ofKey, List.mem_filter, decide_eq_true_eq]

/-- **What the groups are.** -/
theorem mem_groupBy : g ∈ groupBy key l ↔ (∃ x ∈ l, key x = g.1) ∧ g.2 = ofKey key l g.1 := by
  obtain ⟨k, rows⟩ := g
  simp only [groupBy, List.mem_map, List.mem_dedup, Prod.mk.injEq]
  constructor
  · rintro ⟨_, hk, rfl, rfl⟩
    exact ⟨hk, rfl⟩
  · rintro ⟨hk, rfl⟩
    exact ⟨k, hk, rfl, rfl⟩

/-- No group is empty. -/
theorem ne_nil_of_mem_groupBy (h : g ∈ groupBy key l) : g.2 ≠ [] := by
  obtain ⟨⟨x, hx, hkey⟩, hrows⟩ := mem_groupBy.mp h
  rw [hrows]
  exact List.ne_nil_of_mem (mem_ofKey.mpr ⟨hx, hkey⟩)

/-- The group of a row. -/
theorem ofKey_mem_groupBy (hx : x ∈ l) : (key x, ofKey key l (key x)) ∈ groupBy key l :=
  mem_groupBy.mpr ⟨⟨x, hx, rfl⟩, rfl⟩

/-- A key has one group. -/
theorem eq_of_mem_groupBy {g' : κ × List α} (h : g ∈ groupBy key l) (h' : g' ∈ groupBy key l)
    (hkey : g.1 = g'.1) : g = g' :=
  Prod.ext hkey (by rw [(mem_groupBy.mp h).2, (mem_groupBy.mp h').2, hkey])

end Groups

/-- A row is found by its key, where keys are not repeated. -/
theorem find?_key {key : α → κ} {l : List α} (h : (l.map key).Nodup) {x : α} (hx : x ∈ l) :
    l.find? (fun y => key y = key x) = some x := by
  induction l with
  | nil => cases hx
  | cons y l ih =>
      rw [List.map_cons, List.nodup_cons] at h
      rcases List.mem_cons.mp hx with rfl | hx
      · exact List.find?_cons_of_pos (by simp)
      · have hne : key y ≠ key x := fun heq => h.1 (heq ▸ List.mem_map_of_mem hx)
        rw [List.find?_cons_of_neg (by simpa using hne), ih h.2 hx]

/-- The values that satisfy a predicate, counted. -/
theorem length_filter_filterMap {f : α → Option β} {p : β → Bool} (l : List α) :
    ((l.filterMap f).filter p).length = (l.filter fun x => (f x).any p).length := by
  induction l with
  | nil => rfl
  | cons x l ih =>
      cases hx : f x with
      | none => rw [List.filterMap_cons_none hx, List.filter_cons_of_neg (by simp [hx]), ih]
      | some y =>
          rw [List.filterMap_cons_some hx, List.filter_cons, List.filter_cons, hx, Option.any_some]
          cases p y <;> simp [ih]

/-! ### First occurrences and tallies -/

/-- The first row of each key, in order. -/
def firsts (key : α → κ) (l : List α) : List α :=
  l.foldl (fun seen x => if seen.any (fun y => key y = key x) then seen else seen ++ [x]) []

section Firsts

variable {key : α → κ} {l : List α} {x : α}

theorem firsts_concat (key : α → κ) (l : List α) (x : α) :
    firsts key (l ++ [x]) =
      if (firsts key l).any (fun y => key y = key x) then firsts key l
      else firsts key l ++ [x] := by
  rw [firsts, List.foldl_concat]
  rfl

theorem mem_of_mem_firsts (h : x ∈ firsts key l) : x ∈ l := by
  induction l using List.reverseRecOn with
  | nil => cases h
  | append_singleton l y ih =>
      rw [firsts_concat] at h
      split at h
      · exact List.mem_append_left _ (ih h)
      · exact (List.mem_append.mp h).elim (fun h => List.mem_append_left _ (ih h))
          (List.mem_append_right _)

/-- Every key that occurs has a first row. -/
theorem exists_mem_firsts (h : x ∈ l) : ∃ y ∈ firsts key l, key y = key x := by
  induction l using List.reverseRecOn with
  | nil => cases h
  | append_singleton l z ih =>
      rw [firsts_concat]
      rcases List.mem_append.mp h with h | h
      · obtain ⟨y, hy, hkey⟩ := ih h
        refine ⟨y, ?_, hkey⟩
        split
        · exact hy
        · exact List.mem_append_left _ hy
      · obtain rfl := List.mem_singleton.mp h
        split
        · next hseen => simpa only [List.any_eq_true, decide_eq_true_eq] using hseen
        · exact ⟨x, List.mem_append_right _ (List.mem_singleton_self x), rfl⟩

/-- A key has one first row. -/
theorem nodup_firsts (key : α → κ) (l : List α) : ((firsts key l).map key).Nodup := by
  induction l using List.reverseRecOn with
  | nil => exact List.nodup_nil
  | append_singleton l x ih =>
      rw [firsts_concat]
      split
      · exact ih
      · next hnew =>
          rw [List.map_append, List.map_cons, List.map_nil]
          refine List.nodup_append.mpr ⟨ih, List.nodup_singleton _, fun k hk k' hk' heq => ?_⟩
          obtain ⟨y, hy, rfl⟩ := List.mem_map.mp hk
          rw [List.mem_singleton.mp hk'] at heq
          exact hnew (List.any_eq_true.mpr ⟨y, hy, decide_eq_true heq⟩)

theorem ofKey_concat (key : α → κ) (l : List α) (x : α) (k : κ) :
    ofKey key (l ++ [x]) k = ofKey key l k ++ if key x = k then [x] else [] := by
  rw [ofKey, List.filter_append]
  congr 1
  split
  · next h => exact List.filter_cons_of_pos (decide_eq_true h)
  · next h => exact List.filter_cons_of_neg (by simpa using h)

end Firsts

section Tally

variable {σ : Type} (key : α → κ) (f : σ → α → Option σ)

/-- One sum for each key: every row is added to the sum of its key, and a key that has not
occurred yet has the sum that it starts with. -/
def tally (start : σ) (l : List α) : Option (κ → σ) :=
  l.foldlM (fun sums x => (f (sums (key x)) x).map (Function.update sums (key x)))
    fun _ => start

variable {key f}

/-- **What a tally is**: the sum of each key is that of its own rows. -/
theorem tally_eq_some {start : σ} {l : List α} {sums : κ → σ} :
    tally key f start l = some sums ↔ ∀ k, (ofKey key l k).foldlM f start = some (sums k) := by
  induction l using List.reverseRecOn generalizing sums with
  | nil =>
      simp only [tally, ofKey, List.filter_nil, List.foldlM_nil, Option.pure_def, Option.some.injEq]
      exact funext_iff
  | append_singleton l x ih =>
      have hstep : tally key f start (l ++ [x]) =
          (tally key f start l).bind fun sums =>
            (f (sums (key x)) x).map (Function.update sums (key x)) := by
        simp [tally]
      have hother : ∀ k, k ≠ key x → ofKey key (l ++ [x]) k = ofKey key l k := by
        intro k hk
        rw [ofKey_concat, if_neg (Ne.symm hk), List.append_nil]
      have hown : (ofKey key (l ++ [x]) (key x)).foldlM f start =
          ((ofKey key l (key x)).foldlM f start).bind fun s => f s x := by
        rw [ofKey_concat, if_pos rfl, List.foldlM_append]
        simp
      rw [hstep, Option.bind_eq_some_iff]
      constructor
      · rintro ⟨before, hbefore, hx⟩ k
        obtain ⟨s, hs, rfl⟩ := Option.map_eq_some_iff.mp hx
        by_cases hk : k = key x
        · rw [hk, hown, ih.mp hbefore, Option.bind_some, hs, Function.update_self]
        · rw [hother k hk, ih.mp hbefore, Function.update_of_ne hk]
      · intro h
        obtain ⟨s, hs, hx⟩ := Option.bind_eq_some_iff.mp (hown ▸ h (key x))
        refine ⟨Function.update sums (key x) s, ih.mpr fun k => ?_, ?_⟩
        · by_cases hk : k = key x
          · rw [hk, hs, Function.update_self]
          · rw [← hother k hk, h k, Function.update_of_ne hk]
        · rw [Function.update_self, hx, Option.map_some, Function.update_idem,
            Function.update_eq_self]

end Tally

section Distinct

variable [DecidableEq β] {l ids : List β}

/-- A list of some of these values has at most so many distinct ones. -/
theorem length_dedup_le (hsub : l ⊆ ids) : l.dedup.length ≤ ids.length :=
  (List.subperm_of_subset l.nodup_dedup fun _ hx => hsub (List.mem_dedup.mp hx)).length_le

/-- **A count of distinct values is full** if every value is there. -/
theorem length_le_dedup_iff (hids : ids.Nodup) (hsub : l ⊆ ids) :
    ids.length ≤ l.dedup.length ↔ ids ⊆ l := by
  have hperm := List.subperm_of_subset l.nodup_dedup fun _ hx => hsub (List.mem_dedup.mp hx)
  constructor
  · intro hlength x hx
    exact List.mem_dedup.mp ((hperm.perm_of_length_le hlength).mem_iff.mpr hx)
  · intro hall
    exact (List.subperm_of_subset hids fun _ hx => List.mem_dedup.mpr (hall hx)).length_le

end Distinct

/-! ### Texts -/

/-- How a database takes texts: equal ones have one sort key, and a group of texts is shown as
one of them. -/
structure Collation where
  sortKey : String → String
  pick : List String → String
  pick_mem : ∀ l, l ≠ [] → pick l ∈ l

namespace Collation

/-- Does the database take two texts for equal? -/
def eq (sql : Collation) (a b : String) : Bool := sql.sortKey a = sql.sortKey b

theorem eq_iff {sql : Collation} {a b : String} :
    sql.eq a b = true ↔ sql.sortKey a = sql.sortKey b := decide_eq_true_iff

/-- The collation that takes texts as they are. -/
def binary : Collation where
  sortKey := id
  pick := fun l => l.headD ""
  pick_mem := by
    intro l hl
    cases l with
    | nil => exact absurd rfl hl
    | cons a l => exact List.mem_cons_self

end Collation

end Grouping
