import Mathlib.Data.List.Count
import Mathlib.Data.List.Nodup
import Mathlib.Order.Nat

/-!
# Tables with Row Ids

A table hands out its row ids in order and uses none of them twice. A row is inserted, or
deleted; while it is there it stays as it is.

## Main results

* `Table.count_insert`, `Table.count_delete`, `Table.count_deleteId`: what an insertion and a
  deletion change of the number of rows that satisfy a condition.
* `Table.Was.later`: what was read of a row holds for as long as the row is there.
-/

/-- A **table**: its rows with their ids, and the id of the next row. -/
structure Table (α : Type) where
  /-- The rows, oldest first. -/
  rows : List (ℕ × α)
  /-- The id of the next row. -/
  nextId : ℕ
  /-- No id is there twice. -/
  nodup : (rows.map Prod.fst).Nodup
  /-- The next id is new. -/
  fresh : ∀ r ∈ rows, r.1 < nextId
  deriving DecidableEq

namespace Table

variable {α : Type} {t t' : Table α} {i : ℕ} {a : α} {p q : ℕ × α → Bool}

/-- No rows. -/
def empty : Table α := ⟨[], 1, List.nodup_nil, nofun⟩

/-- A new row. -/
def insert (t : Table α) (a : α) : Table α where
  rows := t.rows ++ [(t.nextId, a)]
  nextId := t.nextId + 1
  nodup := by
    rw [List.map_append]
    refine List.Nodup.append t.nodup (List.nodup_singleton _) ?_
    rw [List.map_singleton, List.disjoint_singleton, List.mem_map]
    rintro ⟨r, hr, hid⟩
    exact absurd (t.fresh r hr) (hid ▸ lt_irrefl _)
  fresh := by
    intro r hr
    rcases List.mem_append.mp hr with hr | hr
    · exact Nat.lt_succ_of_lt (t.fresh r hr)
    · obtain rfl := List.mem_singleton.mp hr
      exact Nat.lt_succ_self _

/-- The table without the rows that satisfy `p`. -/
def delete (t : Table α) (p : ℕ × α → Bool) : Table α where
  rows := t.rows.filter (!p ·)
  nextId := t.nextId
  nodup := (List.filter_sublist.map _).nodup t.nodup
  fresh r hr := t.fresh r (List.mem_of_mem_filter hr)

/-- The row with an id is another one now. -/
def update (t : Table α) (i : ℕ) (a : α) : Table α where
  rows := t.rows.map fun r => if r.1 = i then (i, a) else r
  nextId := t.nextId
  nodup := by
    have hids : (t.rows.map fun r => if r.1 = i then (i, a) else r).map Prod.fst =
        t.rows.map Prod.fst := by
      rw [List.map_map]
      refine List.map_congr_left fun r _ => ?_
      by_cases hr : r.1 = i
      · rw [Function.comp, if_pos hr, hr]
      · rw [Function.comp, if_neg hr]
    exact hids ▸ t.nodup
  fresh := by
    intro r hr
    obtain ⟨r', hr', rfl⟩ := List.mem_map.mp hr
    split
    · next hi => exact hi ▸ t.fresh r' hr'
    · exact t.fresh r' hr'

/-- The table without the row with an id. -/
def deleteId (t : Table α) (i : ℕ) : Table α := t.delete (·.1 = i)

/-- How many rows satisfy `p`? -/
def count (t : Table α) (p : ℕ × α → Bool) : ℕ := t.rows.countP p

@[simp] theorem nextId_insert : (t.insert a).nextId = t.nextId + 1 := rfl

@[simp] theorem nextId_delete : (t.delete p).nextId = t.nextId := rfl

theorem mem_insert {r : ℕ × α} : r ∈ (t.insert a).rows ↔ r ∈ t.rows ∨ r = (t.nextId, a) := by
  rw [insert, List.mem_append, List.mem_singleton]

theorem mem_delete {r : ℕ × α} : r ∈ (t.delete p).rows ↔ r ∈ t.rows ∧ p r = false := by
  rw [delete, List.mem_filter, Bool.not_eq_true']

/-- The rows after an update of one that is there. -/
theorem mem_update {r : ℕ × α} (h : ∃ b, (i, b) ∈ t.rows) :
    r ∈ (t.update i a).rows ↔ (r.1 ≠ i ∧ r ∈ t.rows) ∨ r = (i, a) := by
  rw [update, List.mem_map]
  constructor
  · rintro ⟨r', hr', rfl⟩
    by_cases hi : r'.1 = i
    · exact .inr (if_pos hi)
    · rw [if_neg hi]
      exact .inl ⟨hi, hr'⟩
  · rintro (⟨hi, hr⟩ | rfl)
    · exact ⟨r, hr, if_neg hi⟩
    · obtain ⟨b, hb⟩ := h
      exact ⟨(i, b), hb, if_pos rfl⟩

/-- A row is known by its id. -/
theorem eq_of_id {b : α} (ha : (i, a) ∈ t.rows) (hb : (i, b) ∈ t.rows) : a = b :=
  (Prod.mk.inj (List.inj_on_of_nodup_map t.nodup ha hb rfl)).2

/-! ### Counting rows -/

theorem count_insert : (t.insert a).count p = t.count p + (p (t.nextId, a)).toNat := by
  rw [count, insert, List.countP_append, List.countP_singleton, count]
  cases p (t.nextId, a) <;> rfl

/-- What is left, and what was deleted. -/
theorem count_delete : (t.delete q).count p + t.count (fun r => p r && q r) = t.count p := by
  rw [count, delete, List.countP_filter, count, count, List.countP_eq_countP_filter_add t.rows p q,
    List.countP_filter, List.countP_filter, Nat.add_comm]

/-- A row that is not there is not missed. -/
theorem deleteId_eq_self (h : ∀ r ∈ t.rows, r.1 ≠ i) : (t.deleteId i).rows = t.rows :=
  List.filter_eq_self.mpr fun r hr => by simpa using h r hr

/-- A row that is there is there once. -/
theorem count_id (h : (i, a) ∈ t.rows) :
    t.count (fun r => p r && decide (r.1 = i)) = (p (i, a)).toNat := by
  obtain ⟨l, l', hrows⟩ := List.append_of_mem h
  have hnodup := t.nodup
  rw [hrows, List.map_append, List.map_cons, List.nodup_middle, List.nodup_cons,
    List.mem_append] at hnodup
  have hother (m : List (ℕ × α)) (hm : i ∉ m.map Prod.fst) :
      m.countP (fun r => p r && decide (r.1 = i)) = 0 := by
    refine List.countP_eq_zero.mpr fun r hr hboth => hm (List.mem_map.mpr ⟨r, hr, ?_⟩)
    exact of_decide_eq_true (Bool.and_eq_true_iff.mp hboth).2
  rw [count, hrows, List.countP_append, List.countP_cons, hother l (hnodup.1 ∘ .inl),
    hother l' (hnodup.1 ∘ .inr)]
  cases p (i, a) <;> simp

/-- One row less. -/
theorem count_deleteId (h : (i, a) ∈ t.rows) :
    (t.deleteId i).count p + (p (i, a)).toNat = t.count p := by
  rw [← count_id h, deleteId]
  exact count_delete

/-! ### What was read of a row -/

/-- A table as it was, and as it may be later. -/
instance : Preorder (Table α) where
  le t t' := t.nextId ≤ t'.nextId ∧ ∀ r ∈ t'.rows, r.1 < t.nextId → r ∈ t.rows
  le_refl t := ⟨le_refl _, fun _ hr _ => hr⟩
  le_trans t₁ t₂ t₃ h₁₂ h₂₃ :=
    ⟨h₁₂.1.trans h₂₃.1, fun r hr hlt => h₁₂.2 r (h₂₃.2 r hr (hlt.trans_le h₁₂.1)) hlt⟩

theorem le_insert : t ≤ t.insert a := by
  refine ⟨Nat.le_succ _, fun r hr hlt => ?_⟩
  rcases mem_insert.mp hr with hr | rfl
  · exact hr
  · exact absurd hlt (lt_irrefl _)

theorem delete_le : t ≤ t.delete p := ⟨le_refl _, fun _ hr _ => (mem_delete.mp hr).1⟩

/-- The row with the id `i` is `a`, or was. -/
def Was (t : Table α) (i : ℕ) (a : α) : Prop := i < t.nextId ∧ ∀ r ∈ t.rows, r.1 = i → r.2 = a

theorem was_of_mem (h : (i, a) ∈ t.rows) : t.Was i a := by
  refine ⟨t.fresh _ h, ?_⟩
  rintro ⟨_, b⟩ hb rfl
  exact eq_of_id hb h

/-- **What was read of a row** holds for as long as the row is there. -/
theorem Was.later (h : t.Was i a) (hle : t ≤ t') : t'.Was i a :=
  ⟨h.1.trans_le hle.1, fun r hr hi => h.2 r (hle.2 r hr (hi ▸ h.1)) hi⟩

end Table
