import Mathlib.Data.List.Basic
import Mathlib.Order.Bounds.Basic
import Mathlib.Order.Lattice.Nat

/-!
# The Edit Distance

The least number of insertions, deletions and substitutions that turn one list into another one,
and the recursion that computes it.

## Main results

* `EditDistance.isLeast_distance`: the recursion gives the length of a shortest script.
* `EditDistance.distance_comm`, `EditDistance.distance_le`, `EditDistance.distance_eq_zero_iff`:
  symmetry, bounds, and when there is nothing to edit.
* `EditDistance.distance_concat`: the recursion from the other end.
-/

namespace EditDistance

variable {α : Type*}

/-- One edit. -/
inductive Edit : List α → List α → Prop
  | insert (front back : List α) (a : α) : Edit (front ++ back) (front ++ a :: back)
  | delete (front back : List α) (a : α) : Edit (front ++ a :: back) (front ++ back)
  | substitute (front back : List α) (a b : α) : Edit (front ++ a :: back) (front ++ b :: back)

/-- A script of `n` edits. -/
inductive Script : ℕ → List α → List α → Prop
  | done (s : List α) : Script 0 s s
  | step {n : ℕ} {s t u : List α} : Edit s t → Script n t u → Script (n + 1) s u

variable {s s' t u : List α} {m n : ℕ}

/-! ### Scripts -/

theorem Edit.symm (h : Edit s t) : Edit t s := by
  cases h with
  | insert front back a => exact .delete front back a
  | delete front back a => exact .insert front back a
  | substitute front back a b => exact .substitute front back b a

theorem Edit.cons (h : Edit s t) (a : α) : Edit (a :: s) (a :: t) := by
  cases h with
  | insert front back b => exact .insert (a :: front) back b
  | delete front back b => exact .delete (a :: front) back b
  | substitute front back b c => exact .substitute (a :: front) back b c

theorem Edit.reverse (h : Edit s t) : Edit s.reverse t.reverse := by
  cases h with
  | insert front back a =>
      rw [List.reverse_append, List.reverse_append, List.reverse_cons, List.append_assoc]
      exact .insert back.reverse front.reverse a
  | delete front back a =>
      rw [List.reverse_append, List.reverse_append, List.reverse_cons, List.append_assoc]
      exact .delete back.reverse front.reverse a
  | substitute front back a b =>
      rw [List.reverse_append, List.reverse_append, List.reverse_cons, List.reverse_cons,
        List.append_assoc, List.append_assoc]
      exact .substitute back.reverse front.reverse a b

theorem Script.trans (h : Script m s t) (h' : Script n t u) : Script (m + n) s u := by
  induction h with
  | done => rwa [Nat.zero_add]
  | step hedit _ ih =>
      rw [Nat.add_right_comm]
      exact .step hedit (ih h')

theorem Script.symm (h : Script n s t) : Script n t s := by
  induction h with
  | done => exact .done _
  | step hedit _ ih => exact ih.trans (.step hedit.symm (.done _))

theorem Script.cons (h : Script n s t) (a : α) : Script n (a :: s) (a :: t) := by
  induction h with
  | done => exact .done _
  | step hedit _ ih => exact .step (hedit.cons a) ih

theorem Script.reverse (h : Script n s t) : Script n s.reverse t.reverse := by
  induction h with
  | done => exact .done _
  | step hedit _ ih => exact .step hedit.reverse ih

/-- Everything can be inserted. -/
theorem script_length (t : List α) : Script t.length [] t := by
  induction t with
  | nil => exact .done _
  | cons a t ih => exact ih.trans (.step (.insert [] t a) (.done _))

/-! ### The recursion -/

section Distance

variable [DecidableEq α]

/-- The **edit distance**: delete, insert, or go on with the rest. -/
def distance : List α → List α → ℕ
  | [], t => t.length
  | s, [] => s.length
  | a :: s, b :: t =>
    min (min (distance s (b :: t) + 1) (distance (a :: s) t + 1))
      (distance s t + if a = b then 0 else 1)
termination_by s t => s.length + t.length

@[simp] theorem distance_nil_left (t : List α) : distance [] t = t.length := by
  rw [distance]

@[simp] theorem distance_nil_right (s : List α) : distance s [] = s.length := by
  cases s with
  | nil => rw [distance]
  | cons a s => rw [distance]; exact nofun

theorem distance_cons (a b : α) (s t : List α) :
    distance (a :: s) (b :: t) =
      min (min (distance s (b :: t) + 1) (distance (a :: s) t + 1))
        (distance s t + if a = b then 0 else 1) := by
  rw [distance]

/-- A script of that length. -/
theorem script_distance (s t : List α) : Script (distance s t) s t := by
  fun_induction distance s t with
  | case1 t => exact script_length t
  | case2 s hs => exact (script_length s).symm
  | case3 a s b t ihdelete ihinsert ihrest =>
      rcases min_choice (min (distance s (b :: t) + 1) (distance (a :: s) t + 1))
        (distance s t + if a = b then 0 else 1) with hmin | hmin
      · rw [hmin]
        rcases min_choice (distance s (b :: t) + 1) (distance (a :: s) t + 1) with hmin | hmin
        · rw [hmin]
          exact .step (.delete [] s a) ihdelete
        · rw [hmin]
          exact ihinsert.trans (.step (.insert [] t b) (.done _))
      · rw [hmin]
        split
        · next hab => exact hab ▸ ihrest.cons a
        · exact (ihrest.cons a).trans (.step (.substitute [] t a b) (.done _))

/-- An insertion into the target. -/
theorem distance_cons_right_le (s t : List α) (b : α) : distance s (b :: t) ≤ distance s t + 1 := by
  cases s with
  | nil => simp
  | cons a s =>
      rw [distance_cons]
      exact (min_le_left _ _).trans (min_le_right _ _)

/-- A deletion from the source. -/
theorem distance_cons_left_le (s t : List α) (a : α) : distance (a :: s) t ≤ distance s t + 1 := by
  cases t with
  | nil => simp
  | cons b t =>
      rw [distance_cons]
      exact (min_le_left _ _).trans (min_le_left _ _)

theorem distance_cons_cons_le (s t : List α) (a b : α) :
    distance (a :: s) (b :: t) ≤ distance s t + if a = b then 0 else 1 := by
  rw [distance_cons]
  exact min_le_right _ _

/-- Every one of the three ways leads below a bound. -/
theorem le_distance_cons {k : ℕ} {a b : α} (hdelete : k ≤ distance s (b :: t) + 1)
    (hinsert : k ≤ distance (a :: s) t + 1)
    (hrest : k ≤ distance s t + if a = b then 0 else 1) :
    k ≤ distance (a :: s) (b :: t) := by
  rw [distance_cons]
  exact le_min (le_min hdelete hinsert) hrest

/-- An insertion into the source. -/
theorem distance_le_cons_left (s t : List α) (a : α) : distance s t ≤ distance (a :: s) t + 1 := by
  induction t with
  | nil =>
      rw [distance_nil_right, distance_nil_right, List.length_cons]
      omega
  | cons b t ih =>
      have hright := distance_cons_right_le s t b
      have hall : distance s (b :: t) - 1 ≤ distance (a :: s) (b :: t) :=
        le_distance_cons (by omega) (by omega) (by split <;> omega)
      omega

theorem distance_substitute_le (s t : List α) (a b : α) :
    distance (a :: s) t ≤ distance (b :: s) t + 1 := by
  induction t with
  | nil => simp
  | cons c t ih =>
      have hdelete := distance_cons_left_le s (c :: t) a
      have hinsert := distance_cons_right_le (a :: s) t c
      have hrest := distance_cons_cons_le s t a c
      have hall : distance (a :: s) (c :: t) - 1 ≤ distance (b :: s) (c :: t) := by
        refine le_distance_cons (by omega) (by omega) ?_
        split at hrest <;> split <;> omega
      omega

/-- What holds of the tails holds of the lists. -/
theorem distance_cons_mono (h : ∀ t, distance s t ≤ distance s' t + 1) (a : α) (t : List α) :
    distance (a :: s) t ≤ distance (a :: s') t + 1 := by
  induction t with
  | nil =>
      have hlength := h []
      rw [distance_nil_right, distance_nil_right] at hlength
      simpa using hlength
  | cons b t ih =>
      have hdelete := (distance_cons_left_le s (b :: t) a).trans (Nat.succ_le_succ (h (b :: t)))
      have hinsert := distance_cons_right_le (a :: s) t b
      have hrest := distance_cons_cons_le s t a b
      have htail := h t
      have hall : distance (a :: s) (b :: t) - 1 ≤ distance (a :: s') (b :: t) :=
        le_distance_cons (by omega) (by omega) (by omega)
      omega

/-- **One edit** changes the distance by one at most. -/
theorem distance_le_of_edit (h : Edit s s') (t : List α) : distance s t ≤ distance s' t + 1 := by
  have hfront (front : List α) {l l' : List α} (hl : ∀ t, distance l t ≤ distance l' t + 1) :
      ∀ t, distance (front ++ l) t ≤ distance (front ++ l') t + 1 := by
    induction front with
    | nil => exact hl
    | cons a front ih => exact distance_cons_mono ih a
  cases h with
  | insert front back a => exact hfront front (fun t => distance_le_cons_left back t a) t
  | delete front back a => exact hfront front (fun t => distance_cons_left_le back t a) t
  | substitute front back a b => exact hfront front (fun t => distance_substitute_le back t a b) t

theorem distance_self (s : List α) : distance s s = 0 := by
  induction s with
  | nil => exact distance_nil_left []
  | cons a s ih =>
      have hle := distance_cons_cons_le s s a a
      rw [if_pos rfl, ih] at hle
      exact Nat.le_zero.mp hle

/-- No script is shorter. -/
theorem distance_le_of_script (h : Script n s t) : distance s t ≤ n := by
  induction h with
  | done s => exact (distance_self s).le
  | step hedit _ ih => exact (distance_le_of_edit hedit _).trans (Nat.succ_le_succ ih)

/-- **The distance is the length of a shortest script.** -/
theorem isLeast_distance (s t : List α) : IsLeast {n | Script n s t} (distance s t) :=
  ⟨script_distance s t, fun _ => distance_le_of_script⟩

/-! ### Consequences -/

theorem distance_comm (s t : List α) : distance s t = distance t s :=
  le_antisymm (distance_le_of_script (script_distance t s).symm)
    (distance_le_of_script (script_distance s t).symm)

theorem distance_reverse (s t : List α) : distance s.reverse t.reverse = distance s t := by
  refine le_antisymm (distance_le_of_script (script_distance s t).reverse) ?_
  have hback := (script_distance s.reverse t.reverse).reverse
  rw [List.reverse_reverse, List.reverse_reverse] at hback
  exact distance_le_of_script hback

/-- The recursion from the other end. -/
theorem distance_concat (s t : List α) (a b : α) :
    distance (s ++ [a]) (t ++ [b]) =
      min (min (distance s (t ++ [b]) + 1) (distance (s ++ [a]) t + 1))
        (distance s t + if a = b then 0 else 1) := by
  rw [← distance_reverse, List.reverse_concat, List.reverse_concat, distance_cons,
    ← List.reverse_concat, ← List.reverse_concat, distance_reverse, distance_reverse,
    distance_reverse]

/-- No more edits than letters of the longer list. -/
theorem distance_le (s t : List α) : distance s t ≤ max s.length t.length := by
  induction s generalizing t with
  | nil => rw [distance_nil_left]; exact le_max_right _ _
  | cons a s ih =>
      cases t with
      | nil => rw [distance_nil_right]; exact le_max_left _ _
      | cons b t =>
          have hle := distance_cons_cons_le s t a b
          have htail := ih t
          rw [List.length_cons, List.length_cons]
          split at hle <;> omega

theorem distance_eq_zero_iff : distance s t = 0 ↔ s = t := by
  refine ⟨fun hzero => ?_, fun heq => heq ▸ distance_self s⟩
  have hscript := script_distance s t
  rw [hzero] at hscript
  cases hscript
  rfl

end Distance

end EditDistance
