import Fctf.Lib.Protocol
import Mathlib.Algebra.BigOperators.Group.List.Lemmas
import Mathlib.Algebra.Order.Group.Multiset
import Mathlib.Data.Multiset.Range

/-!
# Things in Custody

A queue hands things to parties, each of which passes its things on one by one. That
nothing is lost and nothing is passed on twice means that every thing is in one place: in
the queue, in the hands of one party, or passed on. `heldBy` is what is in the hands of all
parties together.

## Main results

* `heldBy_split`: what one party takes and gives away is all that changes hands.
-/

namespace Concurrent

/-! ### What parties hold -/

section Held

variable {Q γ : Type} {held : Q → Multiset γ} {qs : List Q} {pid : ℕ} {q : Q}

/-- What all parties hold together. -/
def heldBy (held : Q → Multiset γ) (qs : List Q) : Multiset γ := (qs.map held).sum

@[simp] theorem heldBy_nil : heldBy held [] = 0 := rfl

theorem heldBy_append_singleton (qs : List Q) (q : Q) :
    heldBy held (qs ++ [q]) = heldBy held qs + held q := by
  rw [heldBy, List.map_append, List.sum_append, List.map_singleton, List.sum_singleton, heldBy]

/-- What one party holds, and what the others do. -/
theorem heldBy_split (h : qs[pid]? = some q) :
    ∃ rest, heldBy held qs = held q + rest ∧
      ∀ q', heldBy held (qs.set pid q') = held q' + rest := by
  induction qs generalizing pid with
  | nil => cases h
  | cons a qs ih =>
      cases pid with
      | zero =>
          obtain rfl := Option.some.inj h
          exact ⟨heldBy held qs, rfl, fun q' => rfl⟩
      | succ n =>
          obtain ⟨rest, hqs, hset⟩ := @ih n h
          refine ⟨held a + rest, ?_, fun q' => ?_⟩
          · rw [heldBy, List.map_cons, List.sum_cons, ← heldBy, hqs]
            exact add_left_comm _ _ _
          · rw [List.set_cons_succ, heldBy, List.map_cons, List.sum_cons, ← heldBy, hset]
            exact add_left_comm _ _ _

/-- Nobody holds anything. -/
theorem heldBy_eq_zero (h : ∀ q ∈ qs, held q = 0) : heldBy held qs = 0 := by
  refine List.sum_eq_zero fun s hs => ?_
  obtain ⟨q, hq, rfl⟩ := List.mem_map.mp hs
  exact h q hq

end Held

end Concurrent
