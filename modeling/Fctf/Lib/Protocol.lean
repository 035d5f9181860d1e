import Fctf.Lib.Log
import Mathlib.Data.List.Forall2

/-!
# Protocols of a Call

What matters about a running call is often not its program but where it stands: has it
read the counter yet, what did it read, is its write still to come. A `Protocol` is an
automaton of such standings. `Prog.Follows` says that a program performs, from a
standing, only operations the protocol allows there, and moves on with each reply.

Whether a program follows a protocol is a fact about the program alone, shown by walking
through it once. An invariant of a service can then be stated over the shared state and
the standings of the calls, and no proof about runs looks into a program again.

## Main results

* `Prog.Follows.bind`, `Prog.Follows.handle`, `Prog.Follows.mono`: a program is walked
  through part by part.
* `Prog.Follows.forM`: the rule for a loop over a list.
* `Prog.Follows.of_invariant`, `Prog.Follows.keep`: a program that keeps to standings of one
  kind, and one whose operations do not leave it.
* `Prog.Follows.onFirst`: a program over one of two interfaces.
* `Prog.Follows.eval`: a program run alone ends in a standing it may return in.
* `Service.Records.protocol_invariant`, `Service.Reaches.protocol_invariant`: the induction
  over a run with standings.
* `Service.Records.local_invariant`: the same with an assertion about each call of its own.
-/

namespace Concurrent

variable {I : Interface} {ε α β γ Q : Type}

/-- A **protocol**: which operations may be performed in which standing, and the
standing after the reply. -/
structure Protocol (I : Interface) (ε Q : Type) where
  /-- The operations allowed. -/
  allows : Q → I.Op → Prop
  /-- The standing after a reply. -/
  next : Q → (o : I.Op) → Except ε (I.Reply o) → Q

namespace Prog

/-- The program follows the protocol from a standing, and what it returns in its last
standing satisfies `post`. -/
def Follows (R : Protocol I ε Q) (post : Q → Except ε α → Prop) : Q → Prog I ε α → Prop
  | q, ret r => post q r
  | q, call o k => R.allows q o ∧ ∀ r, (k r).Follows R post (R.next q o r)

section Follows

variable {R : Protocol I ε Q} {post post' : Q → Except ε α → Prop} {q : Q}

@[simp] theorem follows_ret {r : Except ε α} :
    (ret r : Prog I ε α).Follows R post q ↔ post q r := Iff.rfl

@[simp] theorem follows_call {o : I.Op} {k : Except ε (I.Reply o) → Prog I ε α} :
    (call o k).Follows R post q ↔
      R.allows q o ∧ ∀ r, (k r).Follows R post (R.next q o r) := Iff.rfl

/-- A weaker conclusion. -/
theorem Follows.mono {p : Prog I ε α} (h : p.Follows R post q)
    (hpost : ∀ q r, post q r → post' q r) : p.Follows R post' q := by
  induction p generalizing q with
  | ret r => exact hpost q r h
  | call o k ih => exact ⟨h.1, fun r => ih r (h.2 r)⟩

/-- Sequencing: the second part takes over in the standing the first part ends in. -/
theorem Follows.bind {p : Prog I ε α} {f : α → Prog I ε β} {post : Q → Except ε β → Prop}
    (h : p.Follows R
      (fun q r => match r with
        | .ok a => (f a).Follows R post q
        | .error e => post q (.error e)) q) :
    (p >>= f).Follows R post q := by
  induction p generalizing q with
  | ret r =>
      cases r with
      | ok a => exact h
      | error e => exact h
  | call o k ih => exact ⟨h.1, fun r => ih r (h.2 r)⟩

/-- Exception handling: the handler takes over where the program raises. -/
theorem Follows.handle {p : Prog I ε α} {g : ε → Prog I ε α}
    (h : p.Follows R
      (fun q r => match r with
        | .ok a => post q (.ok a)
        | .error e => (g e).Follows R post q) q) :
    (p.handle g).Follows R post q := by
  induction p generalizing q with
  | ret r =>
      cases r with
      | ok a => exact h
      | error e => exact h
  | call o k ih => exact ⟨h.1, fun r => ih r (h.2 r)⟩

/-- A program that stays in one standing. -/
theorem Follows.of_throughout {p : Prog I ε α}
    (h : p.Throughout fun o => R.allows q o ∧ ∀ r, R.next q o r = q)
    (hpost : ∀ r, post q r) : p.Follows R post q := by
  induction p with
  | ret r => exact hpost r
  | call o k ih =>
      refine ⟨h.1.1, fun r => ?_⟩
      rw [h.1.2 r]
      exact ih r (h.2 r)

/-- A program whose operations all keep to standings of one kind ends in one. -/
theorem Follows.of_invariant {Inv : Q → Prop} {p : Prog I ε α}
    (h : p.Throughout fun o => ∀ q, Inv q → R.allows q o ∧ ∀ r, Inv (R.next q o r))
    (hq : Inv q) : p.Follows R (fun q _ => Inv q) q := by
  induction p generalizing q with
  | ret r => exact hq
  | call o k ih => exact ⟨(h.1 q hq).1, fun r => ih r (h.2 r) ((h.1 q hq).2 r)⟩

/-- A kind of standings that no operation leaves, no program leaves. -/
theorem Follows.keep {Inv : Q → Prop} {p : Prog I ε α} (h : p.Follows R post q)
    (hnext : ∀ q o r, Inv q → Inv (R.next q o r)) :
    p.Follows R (fun q' r => post q' r ∧ (Inv q → Inv q')) q := by
  induction p generalizing q with
  | ret r => exact ⟨h, id⟩
  | call o k ih =>
      refine ⟨h.1, fun r => (ih r (h.2 r)).mono fun q' r' hq' => ⟨hq'.1, fun hq => ?_⟩⟩
      exact hq'.2 (hnext q o r hq)

/-- A program over the first of two interfaces follows a protocol of both if it follows its
part of it. -/
theorem Follows.onFirst {K : Interface} {R : Protocol (I.plus K) ε Q} {p : Prog I ε α}
    (h : p.Follows ⟨fun q o => R.allows q (.inl o), fun q o r => R.next q (.inl o) r⟩ post q) :
    (p.onFirst : Prog (I.plus K) ε α).Follows R post q := by
  induction p generalizing q with
  | ret r => exact h
  | call o k ih => exact ⟨h.1, fun r => ih r (h.2 r)⟩

/-- A loop whose body returns to a standing in which `Inv` holds. -/
theorem Follows.forM {Inv : Q → Prop} {l : List γ} {body : γ → Prog I ε PUnit}
    (hbody : ∀ x ∈ l, ∀ q, Inv q → (body x).Follows R (fun q _ => Inv q) q)
    (hq : Inv q) : (forM l body).Follows R (fun q _ => Inv q) q := by
  induction l generalizing q with
  | nil => exact hq
  | cons x l ih =>
      rw [List.forM_cons]
      refine Follows.bind ((hbody x List.mem_cons_self q hq).mono fun q' r hr => ?_)
      cases r with
      | ok a => exact ih (fun y hy => hbody y (List.mem_cons_of_mem x hy)) hr
      | error e => exact hr

/-- **A program run alone** ends in a standing it may return in, and keeps what every
operation allowed keeps. -/
theorem Follows.eval {σ : Type} {exec : (o : I.Op) → σ → Except ε (I.Reply o) × σ}
    {J : Q → σ → Prop} {p : Prog I ε α} {s : σ} (h : p.Follows R post q) (hJ : J q s)
    (hstep : ∀ q o s, R.allows q o → J q s → J (R.next q o (exec o s).1) (exec o s).2) :
    ∃ q', J q' (p.eval exec s).2 ∧ post q' (p.eval exec s).1 := by
  induction p generalizing q s with
  | ret r => exact ⟨q, hJ, h⟩
  | call o k ih => exact ih _ (h.2 _) (hstep q o s h.1 hJ)

end Follows

end Prog

namespace Service

variable {σ : Type} {S : Service I ε α σ}

/-- Related lists stay related when both are changed at one place. -/
theorem forall₂_set {X : γ → β → Prop} {l : List γ} {m : List β} (h : List.Forall₂ X l m)
    {a : γ} {b : β} (hab : X a b) (n : ℕ) : List.Forall₂ X (l.set n a) (m.set n b) := by
  induction h generalizing n with
  | nil => exact .nil
  | cons hxy _ ih =>
      cases n with
      | zero => exact .cons hab ‹_›
      | succ n => exact .cons hxy (ih n)

/-- What is at the same place of related lists is related. -/
theorem forall₂_getElem? {X : γ → β → Prop} {l : List γ} {m : List β}
    (h : List.Forall₂ X l m) {n : ℕ} {a : γ} {b : β} (ha : l[n]? = some a)
    (hb : m[n]? = some b) : X a b := by
  induction h generalizing n with
  | nil => cases ha
  | cons hxy _ ih =>
      cases n with
      | zero =>
          obtain rfl := Option.some.inj ha
          obtain rfl := Option.some.inj hb
          exact hxy
      | succ n => exact ih ha hb

/-- Every call stands where `qs` says, and will end in a standing `post` allows. -/
def Standings (R : S.Call → Protocol I ε Q) (post : S.Call → Q → Except ε α → Prop)
    (w : S.Pool) (qs : List Q) : Prop :=
  List.Forall₂ (fun p q => p.2.Follows (R p.1) (post p.1) q) w.procs qs

section Standings

variable {R : S.Call → Protocol I ε Q} {post : S.Call → Q → Except ε α → Prop} {w : S.Pool}
  {qs : List Q}

/-- The standing of one call. -/
theorem Standings.get (h : Standings R post w qs) {pid : ℕ} {c : S.Call} {p : Prog I ε α}
    (hp : w.procs[pid]? = some (c, p)) :
    ∃ q, qs[pid]? = some q ∧ p.Follows (R c) (post c) q := by
  obtain ⟨hlen, hall⟩ := List.forall₂_iff_get.mp h
  obtain ⟨hlt, hget⟩ := List.getElem?_eq_some_iff.mp hp
  have hlt' : pid < qs.length := hlen ▸ hlt
  refine ⟨qs[pid], List.getElem?_eq_getElem _, ?_⟩
  have := hall pid hlt hlt'
  simpa [hget] using this

/-- The call that stands somewhere. -/
theorem Standings.exists_of_getElem? (h : Standings R post w qs) {pid : ℕ} {q : Q}
    (hq : qs[pid]? = some q) :
    ∃ c p, w.procs[pid]? = some (c, p) ∧ p.Follows (R c) (post c) q := by
  have hlt : pid < w.procs.length := h.length_eq ▸ (List.getElem?_eq_some_iff.mp hq).1
  have hp := List.getElem?_eq_getElem hlt
  exact ⟨_, _, hp, forall₂_getElem? h hp hq⟩

/-- The standings after a call took a step. -/
theorem Standings.set {s : σ} (h : Standings R post w qs) {pid : ℕ} {c : S.Call}
    {p : Prog I ε α} {q : Q} (hp : p.Follows (R c) (post c) q) :
    Standings R post ⟨s, w.procs.set pid (c, p)⟩ (qs.set pid q) :=
  forall₂_set h hp pid

/-- **Induction over a logged run, with standings.** `J` speaks of the log, of the
configuration and of the standing of every call. A new call starts in `init`. -/
theorem Records.protocol_invariant {G : List S.Entry → S.Pool → S.Move → Prop}
    {J : List S.Entry → S.Pool → List Q → Prop} {s₀ : σ} {log : List S.Entry}
    (h : Records G (S.start s₀) log w) (init : S.Call → Q) (h₀ : J [] (S.start s₀) [])
    (hprogram : ∀ log w c, G log w (.spawn c) →
      (S.program c).Follows (R c) (post c) (init c))
    (hspawn : ∀ log w qs c, J log w qs → Standings R post w qs → G log w (.spawn c) →
      J log ⟨w.shared, w.procs ++ [(c, S.program c)]⟩ (qs ++ [init c]))
    (hact : ∀ log w qs pid e c o k q, J log w qs → Standings R post w qs →
      Pending w pid c o k → qs[pid]? = some q → G log w (.act pid e) →
      (Prog.call o k).Follows (R c) (post c) q →
      J (log ++ [⟨pid, c, e, o, w.shared⟩])
        ⟨(S.exec e o w.shared).2, w.procs.set pid (c, k (S.exec e o w.shared).1)⟩
        (qs.set pid ((R c).next q o (S.exec e o w.shared).1)))
    (hext : ∀ log w qs x, J log w qs → Standings R post w qs → G log w (.ambient x) →
      J log ⟨S.ambient x w.shared, w.procs⟩ qs) :
    ∃ qs, J log w qs ∧ Standings R post w qs := by
  induction h with
  | refl => exact ⟨[], h₀, List.Forall₂.nil⟩
  | spawn _ hg ih =>
      obtain ⟨qs, hJ, hst⟩ := ih
      exact ⟨_, hspawn _ _ qs _ hJ hst hg,
        List.rel_append hst (.cons (hprogram _ _ _ hg) .nil)⟩
  | act _ hp hg ih =>
      obtain ⟨qs, hJ, hst⟩ := ih
      obtain ⟨q, hq, hf⟩ := hst.get hp
      exact ⟨_, hact _ _ qs _ _ _ _ _ q hJ hst hp hq hg hf, hst.set (hf.2 _)⟩
  | ambient _ hg ih =>
      obtain ⟨qs, hJ, hst⟩ := ih
      exact ⟨qs, hext _ _ qs _ hJ hst hg, hst⟩

/-- **Induction over a run, with standings.** `J` speaks of the configuration and of the
standing of every call. A new call starts in `init`. -/
theorem Reaches.protocol_invariant {G : S.Pool → S.Move → Prop}
    {J : S.Pool → List Q → Prop} {s₀ : σ} (h : Reaches G (S.start s₀) w) (init : S.Call → Q)
    (h₀ : J (S.start s₀) [])
    (hprogram : ∀ w c, G w (.spawn c) → (S.program c).Follows (R c) (post c) (init c))
    (hspawn : ∀ w qs c, J w qs → Standings R post w qs → G w (.spawn c) →
      J ⟨w.shared, w.procs ++ [(c, S.program c)]⟩ (qs ++ [init c]))
    (hact : ∀ w qs pid e c o k q, J w qs → Standings R post w qs → Pending w pid c o k →
      qs[pid]? = some q → G w (.act pid e) → (Prog.call o k).Follows (R c) (post c) q →
      J ⟨(S.exec e o w.shared).2, w.procs.set pid (c, k (S.exec e o w.shared).1)⟩
        (qs.set pid ((R c).next q o (S.exec e o w.shared).1)))
    (hext : ∀ w qs x, J w qs → G w (.ambient x) → J ⟨S.ambient x w.shared, w.procs⟩ qs) :
    ∃ qs, J w qs ∧ Standings R post w qs := by
  obtain ⟨log, hlog⟩ := h.records
  refine hlog.protocol_invariant (J := fun _ => J) init h₀ (fun _ => hprogram) (fun _ => hspawn)
    (fun _ => hact) fun _ w qs x hJ _ hg => hext w qs x hJ hg

/-- A run's log names calls of its configuration only. -/
theorem Records.exists_of_mem {G : List S.Entry → S.Pool → S.Move → Prop} {w₀ : S.Pool}
    {log : List S.Entry} (h : Records G w₀ log w) :
    ∀ n ∈ log, ∃ p, w.procs[n.pid]? = some (n.call, p) := by
  induction h with
  | refl => exact fun n hn => nomatch hn
  | spawn _ _ ih =>
      intro n hn
      obtain ⟨p, hp⟩ := ih n hn
      exact ⟨p, List.getElem?_append_left (List.getElem?_eq_some_iff.mp hp).1 |>.trans hp⟩
  | @act log w pid e c o k _ hp _ ih =>
      have hlt : pid < w.procs.length := (List.getElem?_eq_some_iff.mp hp).1
      intro n hn
      by_cases hpid : pid = n.pid
      · subst hpid
        have hcall : n.call = c := by
          rcases List.mem_append.mp hn with hn | hn
          · obtain ⟨p, hp'⟩ := ih n hn
            exact (Prod.mk.inj (Option.some.inj (hp'.symm.trans hp))).1
          · exact congrArg Entry.call (List.mem_singleton.mp hn)
        rw [hcall]
        exact ⟨_, List.getElem?_set_self hlt⟩
      · rcases List.mem_append.mp hn with hn | hn
        · obtain ⟨p, hp'⟩ := ih n hn
          exact ⟨p, (List.getElem?_set_ne hpid).trans hp'⟩
        · exact absurd (congrArg Entry.pid (List.mem_singleton.mp hn)).symm hpid
  | ambient _ _ ih => exact ih

theorem Records.pid_lt {G : List S.Entry → S.Pool → S.Move → Prop} {w₀ : S.Pool}
    {log : List S.Entry} (h : Records G w₀ log w) : ∀ n ∈ log, n.pid < w.procs.length := by
  intro n hn
  obtain ⟨p, hp⟩ := h.exists_of_mem n hn
  exact (List.getElem?_eq_some_iff.mp hp).1

/-- **Good operations in a logged run.** Programs that perform good operations only go on to
do so, wherever the run gets. Time does not run backwards. -/
theorem Records.guarded {T : Type} [Preorder T] {G : List S.Entry → S.Pool → S.Move → Prop}
    {τ : σ → T} {φ : S.Call → T → I.Op → Prop}
    {ρ : T → (o : I.Op) → Except ε (I.Reply o) → Prop} {s₀ : σ} {log : List S.Entry} {w : S.Pool}
    (h : Records G (S.start s₀) log w)
    (hprogram : ∀ c t, τ s₀ ≤ t → (S.program c).Guarded (φ c) ρ t)
    (hreply : ∀ e o s, ρ (τ s) o (S.exec e o s).1)
    (htime : ∀ e o s, τ s ≤ τ (S.exec e o s).2) (htime_ext : ∀ x s, τ s ≤ τ (S.ambient x s)) :
    τ s₀ ≤ τ w.shared ∧ ∀ p ∈ w.procs, p.2.Guarded (φ p.1) ρ (τ w.shared) := by
  induction h with
  | refl => exact ⟨le_refl _, fun p hp => nomatch hp⟩
  | spawn hr _ ih =>
      refine ⟨ih.1, fun p hp => ?_⟩
      obtain hp | hp := List.mem_append.mp hp
      · exact ih.2 p hp
      · obtain rfl := List.mem_singleton.mp hp
        exact hprogram _ _ ih.1
  | ambient hr _ ih =>
      exact ⟨le_trans ih.1 (htime_ext _ _), fun p hp => (ih.2 p hp).later (htime_ext _ _)⟩
  | @act log w pid e c o k hr hp _ ih =>
      refine ⟨le_trans ih.1 (htime e o _), fun p hmem => ?_⟩
      obtain rfl | hmem := mem_set_cases hmem
      · exact ((ih.2 _ hp.mem _ (le_refl _)).2 _ (hreply e o _)).later (htime e o _)
      · exact (ih.2 p hmem).later (htime e o _)

/-- **Shared and local assertions over a logged run.** `A` speaks of the log and the shared
state, `L` of the log and of one call's standing. A step has to establish `A` and the
acting call's own `L`; an entry of one call must not disturb the `L` of any other. -/
theorem Records.local_invariant {G : List S.Entry → S.Pool → S.Move → Prop}
    {A : List S.Entry → σ → Prop} {L : List S.Entry → ℕ → S.Call → Q → Prop} {s₀ : σ}
    {log : List S.Entry} (h : Records G (S.start s₀) log w) (init : S.Call → Q)
    (hprogram : ∀ c, (S.program c).Follows (R c) (post c) (init c)) (h₀ : A [] s₀)
    (hinit : ∀ log pid c, (∀ n ∈ log, n.pid ≠ pid) → L log pid c (init c))
    (hact : ∀ log w pid e c o k q, A log w.shared → L log pid c q → Pending w pid c o k →
      G log w (.act pid e) → (Prog.call o k).Follows (R c) (post c) q →
      A (log ++ [⟨pid, c, e, o, w.shared⟩]) (S.exec e o w.shared).2 ∧
        L (log ++ [⟨pid, c, e, o, w.shared⟩]) pid c
          ((R c).next q o (S.exec e o w.shared).1))
    (hothers : ∀ log n pid c q, n.pid ≠ pid → L log pid c q → L (log ++ [n]) pid c q)
    (hext : ∀ log w x, A log w.shared → G log w (.ambient x) →
      A log (S.ambient x w.shared)) :
    A log w.shared ∧ ∃ qs, Standings R post w qs ∧
      ∀ pid c p q, w.procs[pid]? = some (c, p) → qs[pid]? = some q → L log pid c q := by
  induction h with
  | refl => exact ⟨h₀, [], .nil, fun pid c p q hp => nomatch hp⟩
  | @spawn log w c hr hg ih =>
      obtain ⟨hA, qs, hst, hL⟩ := ih
      have hlen : w.procs.length = qs.length := hst.length_eq
      refine ⟨hA, _, List.rel_append hst (.cons (hprogram c) .nil), ?_⟩
      intro pid d p q hp hq
      by_cases hlt : pid < w.procs.length
      · rw [List.getElem?_append_left hlt] at hp
        rw [List.getElem?_append_left (hlen ▸ hlt)] at hq
        exact hL pid d p q hp hq
      · -- the new call
        have hle := Nat.le_of_not_lt hlt
        rw [List.getElem?_append_right hle, List.getElem?_singleton] at hp
        rw [List.getElem?_append_right (hlen ▸ hle), List.getElem?_singleton] at hq
        split at hp
        · next hpid =>
            rw [← hlen, if_pos hpid] at hq
            obtain ⟨rfl, -⟩ := Prod.mk.inj (Option.some.inj hp)
            obtain rfl := Option.some.inj hq
            exact hinit log pid c fun n hn => Nat.ne_of_lt (Nat.lt_of_lt_of_le (hr.pid_lt n hn) hle)
        · cases hp
  | @act log w pid e c o k hr hp hg ih =>
      obtain ⟨hA, qs, hst, hL⟩ := ih
      obtain ⟨q, hq, hf⟩ := hst.get hp
      obtain ⟨hA', hown⟩ := hact log w pid e c o k q hA (hL pid c _ q hp hq) hp hg hf
      refine ⟨hA', _, hst.set (hf.2 _), fun pid' d p q' hp' hq' => ?_⟩
      by_cases hpid : pid = pid'
      · subst hpid
        rw [List.getElem?_set_self (List.getElem?_eq_some_iff.mp hp).1] at hp'
        rw [List.getElem?_set_self (List.getElem?_eq_some_iff.mp hq).1] at hq'
        obtain ⟨rfl, -⟩ := Prod.mk.inj (Option.some.inj hp')
        obtain rfl := Option.some.inj hq'
        exact hown
      · rw [List.getElem?_set_ne hpid] at hp' hq'
        exact hothers log _ pid' d q' hpid (hL pid' d p q' hp' hq')
  | ambient _ hg ih =>
      obtain ⟨hA, qs, hst, hL⟩ := ih
      exact ⟨hext _ _ _ hA hg, qs, hst, hL⟩

end Standings

end Service

end Concurrent
