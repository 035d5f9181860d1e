import Mathlib.Logic.Basic
import Mathlib.Order.Defs.PartialOrder

/-!
# Programs over Atomic Operations

A service method that awaits a database, a cache or a remote API is, for everyone else,
a sequence of atomic operations with pure code in between. `Prog I ε α` is the tree of
such a method: it either has returned (`ret`, with a value or an exception) or performs
one operation of the interface `I` and continues with the reply. An operation may raise,
so the continuation takes an `Except`.

The monad of `Prog` is sequencing with exceptions, so a method body can be written in
`do` notation with `try`/`catch` and read beside its source.

## Main results

* `Prog.bind_assoc`, `Prog.bind_ret`, the monad laws, packaged as `LawfulMonad`.
* `Prog.eval_bind`, `Prog.eval_handle`: running a sequence of programs alone is running one
  after the other.
* `Interface.plus`, `Prog.onFirst`: a program over one of two interfaces.
* `Prog.Throughout` and `Prog.Throughout.bind`: a predicate on operations that holds at
  every node of a tree, and its closure under sequencing.
* `Prog.Guarded` and `Prog.Guarded.bind`: the same where the operations may only be good
  in view of the replies received so far, and of the time at which they came.
-/

namespace Concurrent

/-- An **interface**: the atomic operations and the type of each one's reply. -/
structure Interface where
  /-- The operations. -/
  Op : Type
  /-- What an operation answers when it does not raise. -/
  Reply : Op → Type

/-- The operations of two interfaces. -/
def Interface.plus (I K : Interface) : Interface := ⟨I.Op ⊕ K.Op, Sum.elim I.Reply K.Reply⟩

/-- A program over the interface `I`, raising exceptions of type `ε`. -/
inductive Prog (I : Interface) (ε α : Type) : Type where
  | ret (r : Except ε α)
  | call (o : I.Op) (k : Except ε (I.Reply o) → Prog I ε α)

namespace Prog

variable {I : Interface} {ε α β γ : Type}

/-- Sequencing: an exception of the first program ends the whole. -/
def bind : Prog I ε α → (α → Prog I ε β) → Prog I ε β
  | ret (.ok a), f => f a
  | ret (.error e), _ => ret (.error e)
  | call o k, f => call o fun r => (k r).bind f

/-- Exception handling: the handler runs when the program raises. -/
def handle : Prog I ε α → (ε → Prog I ε α) → Prog I ε α
  | ret (.ok a), _ => ret (.ok a)
  | ret (.error e), h => h e
  | call o k, h => call o fun r => (k r).handle h

/-- The program that performs one operation and returns its reply. -/
def perform (o : I.Op) : Prog I ε (I.Reply o) :=
  call o ret

instance : Monad (Prog I ε) where
  pure a := ret (.ok a)
  bind := bind

instance : MonadExceptOf ε (Prog I ε) where
  throw e := ret (.error e)
  tryCatch := handle

/-! ### Equations -/

@[simp] theorem pure_eq (a : α) : (pure a : Prog I ε α) = ret (.ok a) := rfl

@[simp] theorem throw_eq (e : ε) : (throw e : Prog I ε α) = ret (.error e) := rfl

@[simp] theorem tryCatch_eq (p : Prog I ε α) (h : ε → Prog I ε α) :
    tryCatch p h = p.handle h := rfl

@[simp] theorem tryCatchThe_eq (p : Prog I ε α) (h : ε → Prog I ε α) :
    tryCatchThe ε p h = p.handle h := rfl

@[simp] theorem ret_ok_bind (a : α) (f : α → Prog I ε β) :
    (ret (.ok a) >>= f) = f a := rfl

@[simp] theorem ret_error_bind (e : ε) (f : α → Prog I ε β) :
    (ret (.error e) >>= f) = ret (.error e) := rfl

@[simp] theorem call_bind (o : I.Op) (k : Except ε (I.Reply o) → Prog I ε α)
    (f : α → Prog I ε β) :
    (call o k >>= f) = call o fun r => k r >>= f := rfl

@[simp] theorem perform_bind (o : I.Op) (f : I.Reply o → Prog I ε β) :
    (perform o >>= f) = call o fun r => (ret r >>= f) := rfl

@[simp] theorem ret_ok_handle (a : α) (h : ε → Prog I ε α) :
    (ret (.ok a) : Prog I ε α).handle h = ret (.ok a) := rfl

@[simp] theorem ret_error_handle (e : ε) (h : ε → Prog I ε α) :
    (ret (.error e) : Prog I ε α).handle h = h e := rfl

@[simp] theorem call_handle (o : I.Op) (k : Except ε (I.Reply o) → Prog I ε α)
    (h : ε → Prog I ε α) :
    (call o k).handle h = call o fun r => (k r).handle h := rfl

/-! ### Monad laws -/

/-- Returning at the end changes nothing. -/
theorem bind_ret (p : Prog I ε α) : (p >>= fun a => ret (.ok a)) = p := by
  induction p with
  | ret r => cases r <;> rfl
  | call o k ih =>
      rw [call_bind]
      exact congrArg (call o) (funext ih)

/-- Sequencing is associative. -/
theorem bind_assoc (p : Prog I ε α) (f : α → Prog I ε β) (g : β → Prog I ε γ) :
    (p >>= f >>= g) = p >>= fun a => f a >>= g := by
  induction p with
  | ret r => cases r <;> rfl
  | call o k ih =>
      simp only [call_bind]
      exact congrArg (call o) (funext ih)

instance : LawfulMonad (Prog I ε) :=
  LawfulMonad.mk' (Prog I ε) bind_ret (fun _ _ => rfl) bind_assoc

/-! ### Running a program alone -/

/-- Run a program with nobody else taking steps. `exec` performs one operation. -/
def eval {σ : Type} (exec : (o : I.Op) → σ → Except ε (I.Reply o) × σ) :
    Prog I ε α → σ → Except ε α × σ
  | ret r, s => (r, s)
  | call o k, s => (k (exec o s).1).eval exec (exec o s).2

section Eval

variable {σ : Type} {exec : (o : I.Op) → σ → Except ε (I.Reply o) × σ}

@[simp] theorem eval_ret (r : Except ε α) (s : σ) :
    (ret r : Prog I ε α).eval exec s = (r, s) := rfl

@[simp] theorem eval_call (o : I.Op) (k : Except ε (I.Reply o) → Prog I ε α) (s : σ) :
    (call o k).eval exec s = (k (exec o s).1).eval exec (exec o s).2 := rfl

/-- A sequence run alone is its first part run alone, then the rest unless it raised. -/
theorem eval_bind (p : Prog I ε α) (f : α → Prog I ε β) (s : σ) :
    (p >>= f).eval exec s =
      match p.eval exec s with
      | (.ok a, s') => (f a).eval exec s'
      | (.error e, s') => (.error e, s') := by
  induction p generalizing s with
  | ret r => cases r <;> rfl
  | call o k ih => rw [call_bind, eval_call, ih, eval_call]

/-- A program whose exceptions are handled, run alone. -/
theorem eval_handle (p : Prog I ε α) (g : ε → Prog I ε α) (s : σ) :
    (p.handle g).eval exec s =
      match p.eval exec s with
      | (.ok a, s') => (.ok a, s')
      | (.error e, s') => (g e).eval exec s' := by
  induction p generalizing s with
  | ret r => cases r <;> rfl
  | call o k ih => rw [call_handle, eval_call, ih, eval_call]

/-- A second part that changes nothing leaves the state of the first. -/
theorem eval_bind_snd {p : Prog I ε α} {f : α → Prog I ε β} {s : σ}
    (hf : ∀ a s', ((f a).eval exec s').2 = s') :
    ((p >>= f).eval exec s).2 = (p.eval exec s).2 := by
  rw [eval_bind]
  generalize p.eval exec s = out
  obtain ⟨_ | a, s'⟩ := out
  · rfl
  · exact hf a s'

end Eval

/-! ### Two interfaces -/

/-- A program over the first interface. -/
def onFirst {K : Interface} : Prog I ε α → Prog (I.plus K) ε α
  | ret r => ret r
  | call o k => call (.inl o) fun r => (k r).onFirst

/-! ### Predicates on every operation of a program -/

/-- `φ` holds of every operation the program can still perform. -/
def Throughout (φ : I.Op → Prop) : Prog I ε α → Prop
  | ret _ => True
  | call o k => φ o ∧ ∀ r, (k r).Throughout φ

section Throughout

variable {φ ψ : I.Op → Prop}

@[simp] theorem throughout_ret (r : Except ε α) :
    (ret r : Prog I ε α).Throughout φ := trivial

@[simp] theorem throughout_call (o : I.Op) (k : Except ε (I.Reply o) → Prog I ε α) :
    (call o k).Throughout φ ↔ φ o ∧ ∀ r, (k r).Throughout φ := Iff.rfl

@[simp] theorem throughout_perform (o : I.Op) :
    (perform o : Prog I ε (I.Reply o)).Throughout φ ↔ φ o :=
  ⟨fun h => h.1, fun h => ⟨h, fun _ => trivial⟩⟩

/-- What every operation of a program keeps, the program run alone keeps. -/
theorem Throughout.eval {σ : Type} {exec : (o : I.Op) → σ → Except ε (I.Reply o) × σ}
    {J : σ → Prop} {p : Prog I ε α} {s : σ} (h : p.Throughout φ) (hJ : J s)
    (hstep : ∀ o s, φ o → J s → J (exec o s).2) : J (p.eval exec s).2 := by
  induction p generalizing s with
  | ret r => exact hJ
  | call o k ih => exact ih _ (h.2 _) (hstep o s h.1 hJ)

/-- A change of the state that no operation of a program notices or undoes, the program run
alone does not notice or undo. -/
theorem Throughout.eval_comm {σ : Type} {exec : (o : I.Op) → σ → Except ε (I.Reply o) × σ}
    {g : σ → σ} {p : Prog I ε α} (h : p.Throughout φ)
    (hstep : ∀ o s, φ o → exec o (g s) = ((exec o s).1, g (exec o s).2)) (s : σ) :
    p.eval exec (g s) = ((p.eval exec s).1, g (p.eval exec s).2) := by
  induction p generalizing s with
  | ret r => rfl
  | call o k ih =>
      rw [eval_call, hstep o s h.1, eval_call]
      exact ih _ (h.2 _) _

/-- A weaker predicate also holds throughout. -/
theorem Throughout.mono (h : ∀ o, φ o → ψ o) {p : Prog I ε α}
    (hp : p.Throughout φ) : p.Throughout ψ := by
  induction p with
  | ret r => trivial
  | call o k ih => exact ⟨h o hp.1, fun r => ih r (hp.2 r)⟩

/-- Sequencing keeps a predicate that both parts have throughout. -/
theorem Throughout.bind {p : Prog I ε α} {f : α → Prog I ε β}
    (hp : p.Throughout φ) (hf : ∀ a, (f a).Throughout φ) : (p >>= f).Throughout φ := by
  induction p with
  | ret r =>
      cases r with
      | ok a => exact hf a
      | error e => trivial
  | call o k ih => exact ⟨hp.1, fun r => ih r (hp.2 r)⟩

/-- Exception handling keeps a predicate that both parts have throughout. -/
theorem Throughout.handle {p : Prog I ε α} {h : ε → Prog I ε α}
    (hp : p.Throughout φ) (hh : ∀ e, (h e).Throughout φ) :
    (p.handle h).Throughout φ := by
  induction p with
  | ret r =>
      cases r with
      | ok a => trivial
      | error e => exact hh e
  | call o k ih => exact ⟨hp.1, fun r => ih r (hp.2 r)⟩

/-- What is true of all operations holds throughout. -/
theorem Throughout.of_forall (h : ∀ o, φ o) (p : Prog I ε α) : p.Throughout φ := by
  induction p with
  | ret r => trivial
  | call o k ih => exact ⟨h o, ih⟩

/-- A loop keeps a predicate that its body has throughout. -/
theorem Throughout.forM {l : List β} {body : β → Prog I ε PUnit}
    (hbody : ∀ x, (body x).Throughout φ) : (ForM.forM l body).Throughout φ := by
  induction l with
  | nil => trivial
  | cons x l ih =>
      rw [List.forM_cons]
      exact (hbody x).bind fun _ => ih

end Throughout

/-- A program over the first of two interfaces performs only its operations. -/
theorem throughout_onFirst {K : Interface} {φ : (I.plus K).Op → Prop} (h : ∀ o, φ (.inl o))
    (p : Prog I ε α) : (p.onFirst : Prog (I.plus K) ε α).Throughout φ := by
  induction p with
  | ret r => trivial
  | call o k ih => exact ⟨h o, fun r => ih r⟩

/-! ### Operations that are good in view of the replies -/

/-- Whatever replies come, at whatever later times, as long as `ρ` allows them: every
operation the program performs satisfies `φ` at the time it is performed. -/
def Guarded {T : Type} [Preorder T] (φ : T → I.Op → Prop)
    (ρ : T → (o : I.Op) → Except ε (I.Reply o) → Prop) : T → Prog I ε α → Prop
  | _, ret _ => True
  | t, call o k =>
      ∀ t', t ≤ t' → φ t' o ∧ ∀ r, ρ t' o r → (k r).Guarded φ ρ t'

section Guarded

variable {T : Type} [Preorder T] {φ : T → I.Op → Prop}
  {ρ : T → (o : I.Op) → Except ε (I.Reply o) → Prop}

@[simp] theorem guarded_ret (t : T) (r : Except ε α) :
    (ret r : Prog I ε α).Guarded φ ρ t := trivial

theorem guarded_call {t : T} {o : I.Op} {k : Except ε (I.Reply o) → Prog I ε α} :
    (call o k).Guarded φ ρ t ↔
      ∀ t', t ≤ t' → φ t' o ∧ ∀ r, ρ t' o r → (k r).Guarded φ ρ t' := Iff.rfl

/-- What is guarded now is guarded later. -/
theorem Guarded.later {p : Prog I ε α} {t t' : T} (h : p.Guarded φ ρ t) (hle : t ≤ t') :
    p.Guarded φ ρ t' := by
  cases p with
  | ret r => trivial
  | call o k => exact fun u hu => h u (le_trans hle hu)

/-- Sequencing keeps a guarantee of both parts. -/
theorem Guarded.bind {p : Prog I ε α} {f : α → Prog I ε β} {t : T}
    (hp : p.Guarded φ ρ t) (hf : ∀ a t', t ≤ t' → (f a).Guarded φ ρ t') :
    (p >>= f).Guarded φ ρ t := by
  induction p generalizing t with
  | ret r =>
      cases r with
      | ok a => exact hf a t (le_refl t)
      | error e => trivial
  | call o k ih =>
      intro u hu
      refine ⟨(hp u hu).1, fun r hr => ?_⟩
      exact ih r ((hp u hu).2 r hr) fun a t' ht => hf a t' (le_trans hu ht)

/-- Exception handling keeps a guarantee of both parts. -/
theorem Guarded.handle {p : Prog I ε α} {h : ε → Prog I ε α} {t : T}
    (hp : p.Guarded φ ρ t) (hh : ∀ e t', t ≤ t' → (h e).Guarded φ ρ t') :
    (p.handle h).Guarded φ ρ t := by
  induction p generalizing t with
  | ret r =>
      cases r with
      | ok a => trivial
      | error e => exact hh e t (le_refl t)
  | call o k ih =>
      intro u hu
      refine ⟨(hp u hu).1, fun r hr => ?_⟩
      exact ih r ((hp u hu).2 r hr) fun e t' ht => hh e t' (le_trans hu ht)

/-- A loop keeps a guarantee of its body. -/
theorem Guarded.forM {l : List β} {body : β → Prog I ε PUnit} {t : T}
    (hbody : ∀ x t', t ≤ t' → (body x).Guarded φ ρ t') :
    (ForM.forM l body).Guarded φ ρ t := by
  induction l generalizing t with
  | nil => trivial
  | cons x l ih =>
      rw [List.forM_cons]
      exact (hbody x t (le_refl t)).bind fun _ t' ht =>
        ih fun y u hu => hbody y u (le_trans ht hu)

/-- A program run alone keeps what every good operation keeps, as long as the replies are
such as `ρ` allows them. -/
theorem Guarded.eval {σ : Type} {exec : (o : I.Op) → σ → Except ε (I.Reply o) × σ}
    {J : σ → Prop} {p : Prog I ε α} {t : T} {s : σ} (h : p.Guarded φ ρ t) (hJ : J s)
    (hreply : ∀ o s, ρ t o (exec o s).1)
    (hstep : ∀ o s, φ t o → J s → J (exec o s).2) : J (p.eval exec s).2 := by
  induction p generalizing s with
  | ret r => exact hJ
  | call o k ih =>
      obtain ⟨ho, hk⟩ := h t (le_refl t)
      exact ih _ (hk _ (hreply o s)) (hstep o s ho hJ)

/-- What is good at all times whatever the replies is guarded. -/
theorem Throughout.guarded {ψ : I.Op → Prop} (h : ∀ t o, ψ o → φ t o) {p : Prog I ε α}
    (hp : p.Throughout ψ) (t : T) : p.Guarded φ ρ t := by
  induction p generalizing t with
  | ret r => trivial
  | call o k ih => exact fun u _ => ⟨h u o hp.1, fun r _ => ih r (hp.2 r) u⟩

end Guarded

end Prog

end Concurrent
