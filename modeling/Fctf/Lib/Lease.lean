import Mathlib.Data.Int.Notation
import Mathlib.Data.List.Induction
import Mathlib.Logic.Function.Basic
import Mathlib.Order.Basic

/-!
# Leases

A lock with a time to live belongs to whoever has got it until it is given back or the time
is over. Nothing stops a holder that is late, so all that can be said is who holds the lock
at a time.

Such a lock often guards a copy: a party that changes the original owes the copy a refresh,
and refreshes it under the lock from what it reads there. `Fresh` is the invariant of that
pattern: a refresh that is due will read all changes made so far.

## Main results

* `Lease.Unique.got`, `Lease.Unique.returned`, `Lease.Unique.later`: a lock that is given
  only when nobody holds it has one holder.
* `Fresh.due`, `Fresh.read`, `Fresh.write`: the steps of a refresh.
-/

namespace Concurrent

/-- What happens to a lock with a time to live: a party gets it until a deadline, or gives it
back. -/
inductive LeaseEvent (ι T : Type) where
  | got (party : ι) (deadline : T)
  | returned (party : ι)
  deriving DecidableEq, Repr

namespace Lease

variable {ι T : Type} [DecidableEq ι]

/-- The lock after an event: until when a party has it, if it has not given it back. -/
def next (p : ι) (old : Option T) : LeaseEvent ι T → Option T
  | .got p' deadline => if p' = p then some deadline else old
  | .returned p' => if p' = p then none else old

/-- Until when a party has the lock that it has not given back. -/
def deadline (l : List (LeaseEvent ι T)) (p : ι) : Option T := l.foldl (next p) none

/-- A party holds the lock. -/
def Holds [LT T] [DecidableLT T] (l : List (LeaseEvent ι T)) (now : T) (p : ι) : Prop :=
  (deadline l p).any (now < ·) = true

instance [LT T] [DecidableLT T] (l : List (LeaseEvent ι T)) (now : T) (p : ι) :
    Decidable (Holds l now p) :=
  inferInstanceAs (Decidable (_ = true))

variable [Preorder T] [DecidableLT T]

variable {now now' t : T} {l : List (LeaseEvent ι T)} {p p' : ι}

omit [Preorder T] [DecidableLT T] in
theorem deadline_append (l : List (LeaseEvent ι T)) (x : LeaseEvent ι T) (p : ι) :
    deadline (l ++ [x]) p = next p (deadline l p) x := by
  rw [deadline, List.foldl_append]
  rfl

omit [Preorder T] [DecidableLT T] in
@[simp] theorem deadline_got : deadline (l ++ [.got p t]) p = some t := by
  rw [deadline_append, next, if_pos rfl]

omit [Preorder T] [DecidableLT T] in
theorem deadline_got_of_ne (h : p ≠ p') : deadline (l ++ [.got p t]) p' = deadline l p' := by
  rw [deadline_append, next, if_neg h]

omit [Preorder T] [DecidableLT T] in
@[simp] theorem deadline_returned : deadline (l ++ [.returned p]) p = none := by
  rw [deadline_append, next, if_pos rfl]

omit [Preorder T] [DecidableLT T] in
theorem deadline_returned_of_ne (h : p ≠ p') :
    deadline (l ++ [.returned p]) p' = deadline l p' := by
  rw [deadline_append, next, if_neg h]

/-- Who holds the lock has it until a time to come. -/
theorem holds_iff : Holds l now p ↔ ∃ t, deadline l p = some t ∧ now < t := by
  rw [Holds, Option.any_eq_true]
  exact exists_congr fun t => and_congr_right fun _ => decide_eq_true_iff

/-- A lock that was not given back is held until its time is over. -/
theorem Holds.later (h : Holds l now' p) (hle : now ≤ now') : Holds l now p := by
  obtain ⟨t, ht, hlt⟩ := holds_iff.mp h
  exact holds_iff.mpr ⟨t, ht, lt_of_le_of_lt hle hlt⟩

theorem Holds.of_returned (h : Holds (l ++ [.returned p']) now p) : Holds l now p := by
  by_cases hp : p' = p
  · subst hp
    rw [Holds, deadline_returned] at h
    cases h
  · rwa [Holds, deadline_returned_of_ne hp] at h

theorem Holds.of_got_of_ne (hne : p' ≠ p) (h : Holds (l ++ [.got p' t]) now p) :
    Holds l now p := by
  rwa [Holds, deadline_got_of_ne hne] at h

omit [Preorder T] [DecidableLT T] in
/-- A party that has a deadline has got the lock. -/
theorem exists_got_of_deadline {t : T} (h : deadline l p = some t) : .got p t ∈ l := by
  induction l using List.reverseRecOn with
  | nil => cases h
  | append_singleton l x ih =>
      cases x with
      | returned p' =>
          by_cases hp : p' = p
          · subst hp
            rw [deadline_returned] at h
            cases h
          · rw [deadline_returned_of_ne hp] at h
            exact List.mem_append_left _ (ih h)
      | got p' t' =>
          by_cases hp : p' = p
          · subst hp
            rw [deadline_got] at h
            obtain rfl := Option.some.inj h
            exact List.mem_append_right _ (List.mem_singleton_self _)
          · rw [deadline_got_of_ne hp] at h
            exact List.mem_append_left _ (ih h)

/-- A party that holds the lock has got it. -/
theorem Holds.exists_got (h : Holds l now p) : ∃ t, .got p t ∈ l := by
  obtain ⟨t, ht, -⟩ := holds_iff.mp h
  exact ⟨t, exists_got_of_deadline ht⟩

/-- One party at most holds the lock. -/
def Unique (l : List (LeaseEvent ι T)) (now : T) : Prop :=
  ∀ p p', Holds l now p → Holds l now p' → p = p'

theorem unique_nil : Unique ([] : List (LeaseEvent ι T)) now := fun _ _ h => nomatch h

theorem Unique.later (h : Unique l now) (hle : now ≤ now') : Unique l now' :=
  fun p p' hp hp' => h p p' (hp.later hle) (hp'.later hle)

theorem Unique.returned (h : Unique l now) : Unique (l ++ [.returned p]) now :=
  fun p p' hp hp' => h p p' hp.of_returned hp'.of_returned

/-- A lock that nobody holds may be given to anyone. -/
theorem Unique.got (h : ∀ p, ¬Holds l now p) (t : T) : Unique (l ++ [.got p t]) now := by
  have hown {p' : ι} (hp : Holds (l ++ [.got p t]) now p') : p = p' := by
    by_contra hne
    exact h p' (hp.of_got_of_ne hne)
  exact fun p p' hp hp' => (hown hp).symm.trans (hown hp')

end Lease

/-! ### A copy that is refreshed under the lock -/

/-- Where a party stands that has changed the original. -/
inductive Refresh (α : Type) where
  /-- It owes nothing. -/
  | idle
  /-- It has not read the original since. -/
  | due
  /-- It has read `x`, and the copy is not written yet. -/
  | read (x : α)

/-- **The copy is brought up to date**: what the copy shows, and what a holder of the lock has
read, is not later than the original; it is the original if nobody owes a refresh. -/
structure Fresh {α : Type} [PartialOrder α] (work : ℕ → Refresh α) (holds : ℕ → Prop)
    (copy original : α) : Prop where
  /-- The copy. -/
  le : copy ≤ original
  /-- The copy when all is done. -/
  settled : (∀ p, work p = .idle) → copy = original
  /-- What was read. -/
  pending : ∀ p x, work p = .read x → holds p →
    copy ≤ x ∧ x ≤ original ∧ ((∀ p, work p ≠ .due) → x = original)

section Fresh

variable {α : Type} [PartialOrder α] {work : ℕ → Refresh α} {holds holds' : ℕ → Prop}
  {copy original original' x : α} {pid : ℕ}

theorem fresh_self (work : ℕ → Refresh α) (holds : ℕ → Prop) (hwork : ∀ p, work p = .idle)
    (x : α) : Fresh work holds x x :=
  ⟨le_refl x, fun _ => rfl, fun p y h => by rw [hwork p] at h; cases h⟩

/-- Whoever has read the original gets no lock. -/
theorem Fresh.of_holds (h : Fresh work holds copy original)
    (hholds : ∀ p x, work p = .read x → holds' p → holds p) :
    Fresh work holds' copy original :=
  ⟨h.le, h.settled, fun p x hp hold => h.pending p x hp (hholds p x hp hold)⟩

/-- **The original changes**, and its party owes a refresh. -/
theorem Fresh.due (h : Fresh work holds copy original) (hle : original ≤ original') :
    Fresh (Function.update work pid .due) holds copy original' := by
  refine ⟨le_trans h.le hle, fun hidle => ?_, fun p x hp hold => ?_⟩
  · have := hidle pid
    rw [Function.update_self] at this
    cases this
  · by_cases hpid : p = pid
    · subst hpid
      rw [Function.update_self] at hp
      cases hp
    · rw [Function.update_of_ne hpid] at hp
      obtain ⟨hcopy, horiginal, -⟩ := h.pending p x hp hold
      refine ⟨hcopy, le_trans horiginal hle, fun hdue => ?_⟩
      exact absurd (Function.update_self pid _ work) (hdue pid)

/-- **The original is read** by the one holder of the lock. -/
theorem Fresh.read (h : Fresh work holds copy original) (honly : ∀ p, holds p → p = pid) :
    Fresh (Function.update work pid (.read original)) holds copy original := by
  refine ⟨h.le, fun hidle => ?_, fun p x hp hold => ?_⟩
  · have := hidle pid
    rw [Function.update_self] at this
    cases this
  · obtain rfl := honly p hold
    rw [Function.update_self] at hp
    obtain rfl := Refresh.read.inj hp
    exact ⟨h.le, le_refl _, fun _ => rfl⟩

/-- **The copy is written** by the one holder of the lock. -/
theorem Fresh.write (h : Fresh work holds copy original) (hread : work pid = .read x)
    (hold : holds pid) (honly : ∀ p, holds p → p = pid) :
    Fresh (Function.update work pid .idle) holds x original := by
  obtain ⟨-, hle, hlast⟩ := h.pending pid x hread hold
  refine ⟨hle, fun hidle => hlast fun p hdue => ?_, fun p y hp hold' => ?_⟩
  · by_cases hpid : p = pid
    · rw [hpid, hread] at hdue
      cases hdue
    · have := hidle p
      rw [Function.update_of_ne hpid, hdue] at this
      cases this
  · obtain rfl := honly p hold'
    rw [Function.update_self] at hp
    cases hp

end Fresh

end Concurrent
