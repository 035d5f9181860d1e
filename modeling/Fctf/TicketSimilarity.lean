import Fctf.Lib.EditDistance
import Mathlib.Data.Rat.Cast.Order
import Mathlib.Tactic.Positivity
import Mathlib.Tactic.Linarith

/-!
# Similar Tickets

`TicketService.CreateTicket` refuses a ticket whose description is close to one that its author has
already sent. `LevenshteinDistance` fills a table row by row and `StringSimilarity` scales its last
entry by the longer length.

A string is the list of its UTF-16 units. The quotient is exact here where the service divides
doubles.

## Main results

* `Filled.levenshteinTable`: every entry of the table is the distance of two beginnings.
* `similarity_editDistance`: the last entry counts the edits of a shortest script, and the
  similarity is symmetric, between zero and one, and one for equal strings only.
-/

namespace Fctf.Tickets

open EditDistance

/-! ### The table -/

/-- `int[m + 1, n + 1]`. -/
abbrev Table (m n : ℕ) := Vector (Vector ℕ (n + 1)) (m + 1)

variable {m n : ℕ}

def Table.get (d : Table m n) (i j : ℕ) : ℕ :=
  (d[i]?.bind fun row => row[j]?).getD 0

def Table.set (d : Table m n) (i j value : ℕ) : Table m n :=
  d.setIfInBounds i ((d[i]?.getD (Vector.replicate (n + 1) 0)).setIfInBounds j value)

theorem Table.get_set (d : Table m n) {i j : ℕ} (hi : i ≤ m) (hj : j ≤ n) (value i' j' : ℕ) :
    (d.set i j value).get i' j' = if i' = i ∧ j' = j then value else d.get i' j' := by
  have hi' : i < m + 1 := Nat.lt_succ_of_le hi
  have hj' : j < n + 1 := Nat.lt_succ_of_le hj
  unfold Table.set Table.get
  by_cases hrow : i = i'
  · subst hrow
    by_cases hcolumn : j = j'
    · subst hcolumn
      simp [hi', hj']
    · simp [hi', hcolumn, Ne.symm hcolumn]
  · simp [hrow, Ne.symm hrow]

section Source

variable (s t : List UInt16)

/-- `for (int i = 0; i <= s.Length; i++) d[i, 0] = i`. -/
def firstColumn (d : Table s.length t.length) : Table s.length t.length :=
  (List.range (s.length + 1)).foldl (fun d i => d.set i 0 i) d

/-- `for (int j = 0; j <= t.Length; j++) d[0, j] = j`. -/
def firstRow (d : Table s.length t.length) : Table s.length t.length :=
  (List.range (t.length + 1)).foldl (fun d j => d.set 0 j j) d

/-- The body of the inner loop. -/
def cell (i : ℕ) (d : Table s.length t.length) (j : ℕ) : Table s.length t.length :=
  let cost := if s[i - 1]? = t[j - 1]? then 0 else 1
  d.set i j
    (min (min (d.get (i - 1) j + 1) (d.get i (j - 1) + 1)) (d.get (i - 1) (j - 1) + cost))

/-- The inner loop. -/
def row (d : Table s.length t.length) (i : ℕ) : Table s.length t.length :=
  (List.range' 1 t.length).foldl (cell s t i) d

/-- The table after all of its loops. -/
def levenshteinTable : Table s.length t.length :=
  (List.range' 1 s.length).foldl (row s t)
    (firstRow s t (firstColumn s t (Vector.replicate _ (Vector.replicate _ 0))))

/-- `LevenshteinDistance`. -/
def levenshteinDistance : ℕ :=
  (levenshteinTable s t).get s.length t.length

/-- `StringSimilarity`; no string is a null reference. -/
def stringSimilarity : Option (List UInt16) → Option (List UInt16) → ℚ
  | some s1, some s2 =>
    if s1.isEmpty || s2.isEmpty then 0
    else
      let maxLen := max s1.length s2.length
      if maxLen = 0 then 1
      else 1 - (levenshteinDistance s1 s2 : ℚ) / maxLen
  | _, _ => 0

end Source

/-! ### The loops -/

/-- What a counting loop keeps. -/
theorem foldl_range'_keeps {β : Type} (P : ℕ → β → Prop) (f : β → ℕ → β) (start : ℕ) {count : ℕ}
    (hstep : ∀ k b, k < count → P k b → P (k + 1) (f b (start + k))) {b : β} (h : P 0 b) :
    P count ((List.range' start count).foldl f b) := by
  induction count with
  | zero => exact h
  | succ count ih =>
      rw [List.range'_1_concat, List.foldl_concat]
      exact hstep count _ (Nat.lt_succ_self count)
        (ih fun k b hk => hstep k b (Nat.lt_succ_of_lt hk))

variable {s t : List UInt16}

/-- The first `rows` rows and, of the next one, the first `columns` entries hold distances, and so
do the borders. -/
def Filled (s t : List UInt16) (rows columns : ℕ) (d : Table s.length t.length) : Prop :=
  ∀ i j, i ≤ s.length → j ≤ t.length →
    i < rows ∨ i = rows ∧ j < columns ∨ i = 0 ∨ j = 0 → d.get i j = distance (s.take i) (t.take j)

theorem distance_take_zero_left (s t : List UInt16) {j : ℕ} (hj : j ≤ t.length) :
    distance (s.take 0) (t.take j) = j := by
  rw [List.take_zero, distance_nil_left, List.length_take, min_eq_left hj]

theorem distance_take_zero_right (s t : List UInt16) {i : ℕ} (hi : i ≤ s.length) :
    distance (s.take i) (t.take 0) = i := by
  rw [List.take_zero, distance_nil_right, List.length_take, min_eq_left hi]

theorem firstColumn_get (d : Table s.length t.length) {i : ℕ} (hi : i ≤ s.length) :
    (firstColumn s t d).get i 0 = i := by
  have hloop : ∀ i' < s.length + 1, (firstColumn s t d).get i' 0 = i' := by
    unfold firstColumn
    rw [List.range_eq_range']
    refine foldl_range'_keeps
      (fun k (d : Table s.length t.length) => ∀ i' < k, d.get i' 0 = i') _ 0
      (fun k d hk hkept i' hi' => ?_) (fun i' hi' => absurd hi' (Nat.not_lt_zero i'))
    rw [Table.get_set d (by omega) (Nat.zero_le _)]
    by_cases hlast : i' = 0 + k
    · simp [hlast]
    · rw [if_neg (fun hboth => hlast hboth.1)]
      exact hkept i' (by omega)
  exact hloop i (Nat.lt_succ_of_le hi)

/-- The first row leaves the first column as it is, the corner included. -/
theorem firstRow_get (d : Table s.length t.length)
    (hcolumn : ∀ i ≤ s.length, d.get i 0 = i) :
    (∀ i ≤ s.length, (firstRow s t d).get i 0 = i) ∧
      ∀ j < t.length + 1, (firstRow s t d).get 0 j = j := by
  unfold firstRow
  rw [List.range_eq_range']
  refine foldl_range'_keeps
    (fun k (d : Table s.length t.length) =>
      (∀ i ≤ s.length, d.get i 0 = i) ∧ ∀ j < k, d.get 0 j = j) _ 0
    (fun k d hk ⟨hfirst, hkept⟩ => ⟨fun i hi => ?_, fun j hj => ?_⟩)
    ⟨hcolumn, fun j hj => absurd hj (Nat.not_lt_zero j)⟩
  · rw [Table.get_set d (Nat.zero_le _) (by omega)]
    by_cases hcorner : i = 0 ∧ 0 = 0 + k
    · rw [if_pos hcorner, ← hcorner.2, hcorner.1]
    · rw [if_neg hcorner]
      exact hfirst i hi
  · rw [Table.get_set d (Nat.zero_le _) (by omega)]
    by_cases hlast : j = 0 + k
    · rw [if_pos ⟨rfl, hlast⟩, hlast]
    · rw [if_neg (fun hboth => hlast hboth.2)]
      exact hkept j (by omega)

theorem Filled.borders :
    Filled s t 1 1
      (firstRow s t (firstColumn s t (Vector.replicate _ (Vector.replicate _ 0)))) := by
  obtain ⟨hcolumn, hrow⟩ := firstRow_get (s := s) (t := t)
    (firstColumn s t (Vector.replicate _ (Vector.replicate _ 0)))
    (fun i hi => firstColumn_get _ hi)
  intro i j hi hj hborder
  obtain rfl | rfl : i = 0 ∨ j = 0 := by omega
  · rw [hrow j (Nat.lt_succ_of_le hj), distance_take_zero_left s t hj]
  · rw [hcolumn i hi, distance_take_zero_right s t hi]

/-- **One entry** from its three neighbours. -/
theorem Filled.cell {i k : ℕ} {d : Table s.length t.length} (h : Filled s t (i + 1) (k + 1) d)
    (hi : i < s.length) (hk : k < t.length) :
    Filled s t (i + 1) (k + 1 + 1) (cell s t (i + 1) d (1 + k)) := by
  intro i' j' hi' hj' hfilled
  unfold Tickets.cell
  rw [Nat.add_comm 1 k, Nat.add_sub_cancel, Nat.add_sub_cancel, Table.get_set d hi hk]
  by_cases hhere : i' = i + 1 ∧ j' = k + 1
  · obtain ⟨rfl, rfl⟩ := hhere
    have habove := h i (k + 1) hi.le hk (.inl (Nat.lt_succ_self i))
    have hleft := h (i + 1) k hi hk.le (.inr (.inl ⟨rfl, Nat.lt_succ_self k⟩))
    have hdiagonal := h i k hi.le hk.le (.inl (Nat.lt_succ_self i))
    rw [if_pos ⟨rfl, rfl⟩, habove, hleft, hdiagonal, List.getElem?_eq_getElem hi,
      List.getElem?_eq_getElem hk, List.take_succ_eq_append_getElem hi,
      List.take_succ_eq_append_getElem hk, distance_concat]
    simp only [Option.some.injEq]
  · rw [if_neg hhere]
    exact h i' j' hi' hj' (by omega)

/-- **One row**. -/
theorem Filled.row {i : ℕ} {d : Table s.length t.length} (h : Filled s t (i + 1) 1 d)
    (hi : i < s.length) : Filled s t (i + 1 + 1) 1 (row s t d (1 + i)) := by
  rw [Nat.add_comm 1 i]
  have hrow : Filled s t (i + 1) (t.length + 1) (Tickets.row s t d (i + 1)) :=
    foldl_range'_keeps (fun k d => Filled s t (i + 1) (k + 1) d) _ 1
      (fun k d hk hkept => hkept.cell hi hk) h
  intro i' j' hi' hj' hfilled
  exact hrow i' j' hi' hj' (by omega)

/-- **All entries** are distances. -/
theorem Filled.levenshteinTable : Filled s t (s.length + 1) 1 (levenshteinTable s t) :=
  foldl_range'_keeps (fun k d => Filled s t (k + 1) 1 d) _ 1
    (fun k d hk hkept => hkept.row hk) Filled.borders

theorem levenshteinDistance_eq (s t : List UInt16) : levenshteinDistance s t = distance s t := by
  have hlast := Filled.levenshteinTable s.length t.length le_rfl le_rfl
    (.inl (Nat.lt_succ_self s.length))
  rwa [List.take_length, List.take_length] at hlast

/-! ### The quotient -/

theorem stringSimilarity_some (hs : s ≠ []) (ht : t ≠ []) :
    stringSimilarity (some s) (some t) =
      1 - (distance s t : ℚ) / (max s.length t.length : ℕ) := by
  have hlength : 0 < s.length := List.length_pos_iff.mpr hs
  dsimp only [stringSimilarity]
  rw [if_neg (by simp [hs, ht]), if_neg (by omega), levenshteinDistance_eq]

/-- **Similarity is the scaled edit distance**. -/
theorem similarity_editDistance (s t : List UInt16) (hs : s ≠ []) (ht : t ≠ []) :
    IsLeast {k | Script k s t} (levenshteinDistance s t) ∧
      stringSimilarity (some s) (some t) = stringSimilarity (some t) (some s) ∧
      0 ≤ stringSimilarity (some s) (some t) ∧ stringSimilarity (some s) (some t) ≤ 1 ∧
      (stringSimilarity (some s) (some t) = 1 ↔ s = t) := by
  have hlength : 0 < s.length := List.length_pos_iff.mpr hs
  have hpositive : (0 : ℚ) < (max s.length t.length : ℕ) :=
    Nat.cast_pos.mpr (lt_of_lt_of_le hlength (le_max_left _ _))
  refine ⟨levenshteinDistance_eq s t ▸ isLeast_distance s t, ?_, ?_, ?_, ?_⟩
  · rw [stringSimilarity_some hs ht, stringSimilarity_some ht hs, distance_comm, max_comm]
  · have hle : (distance s t : ℚ) / (max s.length t.length : ℕ) ≤ 1 :=
      (div_le_one hpositive).mpr (Nat.cast_le.mpr (distance_le s t))
    rw [stringSimilarity_some hs ht]
    linarith
  · have hnonneg : (0 : ℚ) ≤ (distance s t : ℚ) / (max s.length t.length : ℕ) := by positivity
    rw [stringSimilarity_some hs ht]
    linarith
  · rw [stringSimilarity_some hs ht, sub_eq_self, div_eq_zero_iff, or_iff_left hpositive.ne',
      Nat.cast_eq_zero, distance_eq_zero_iff]

/-- `ab` against `b`: one edit. -/
theorem similarity_editDistance_example :
    IsLeast {k | Script k ([97, 98] : List UInt16) [98]} (levenshteinDistance [97, 98] [98]) ∧
      stringSimilarity (some [97, 98]) (some [98]) = stringSimilarity (some [98]) (some [97, 98]) ∧
      0 ≤ stringSimilarity (some [97, 98]) (some [98]) ∧
      stringSimilarity (some [97, 98]) (some [98]) ≤ 1 ∧
      (stringSimilarity (some [97, 98]) (some [98]) = 1 ↔ ([97, 98] : List UInt16) = [98]) :=
  similarity_editDistance [97, 98] [98] (by decide) (by decide)

end Fctf.Tickets
