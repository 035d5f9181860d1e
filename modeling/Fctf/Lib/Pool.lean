import Fctf.Lib.Prog
import Mathlib.Data.List.Basic

/-!
# Interleaved Programs

Several programs of one interface run at once on a shared state. A `Service` says which
calls can arrive, which program each of them runs, what one operation does to the shared
state, and what the surroundings may do on their own. The configuration (`Pool`) is the
shared state with the list of all calls taken up so far, each with the rest of its
program; a finished call stays in the list with its result.

A move takes up a call, lets one running call perform its next operation, or lets the
surroundings act. `Service.step` is a function of the configuration and the move, so a
concrete run can be evaluated; `Service.Reaches` collects the configurations that some
run reaches whose every move meets a condition `G`.

## Main results

* `Service.step_eq_some_iff`: everything a step can do, in one statement.
* `Service.Reaches.invariant`: the induction over a run, once and for all.
* `Service.Reaches.shared_invariant`: an invariant of the shared state alone needs only
  be kept by each operation, whatever program issues it.
* `Service.Reaches.local_invariant`: the proof rule for a shared invariant together
  with an assertion about the rest of each call's program, which the other calls' steps
  must not disturb.
* `Service.Reaches.guarded_invariant`: the same where the assertion is that the program
  goes on to perform good operations only (`Prog.Guarded`).
* `Service.Reaches.guarded`: what such a program performs next is good at any moment of a run.
* `Service.reaches_of_run`, `Service.reaches_of_runIf`: an evaluated run reaches its last
  configuration, under the condition if every move was checked against it.
* `Service.Reaches.withHistory`: adding history variables to a service takes away none of
  its runs.
-/

namespace Concurrent

/-- A **service**: calls, their programs, the operations' effects on the shared state
`σ`, and the moves of the surroundings. An operation's outcome may depend on a choice of
the surroundings of type `E` (a remote answer, a fault). -/
structure Service (I : Interface) (ε α σ : Type) where
  /-- The calls that can arrive. -/
  Call : Type
  /-- The choices of the surroundings during one operation. -/
  Env : Type
  /-- The moves of the surroundings between operations. -/
  Ext : Type
  /-- The program of a call. -/
  program : Call → Prog I ε α
  /-- What one operation answers and does. -/
  exec : Env → (o : I.Op) → σ → Except ε (I.Reply o) × σ
  /-- What a move of the surroundings does. -/
  ambient : Ext → σ → σ

namespace Service

variable {I : Interface} {ε α σ : Type}

/-- A configuration: the shared state and every call taken up, with the rest of its
program. -/
structure Pool (S : Service I ε α σ) where
  /-- The shared state. -/
  shared : σ
  /-- The calls taken up so far, oldest first. -/
  procs : List (S.Call × Prog I ε α)

/-- One move of a run. -/
inductive Move (S : Service I ε α σ) where
  | spawn (c : S.Call)
  | act (pid : ℕ) (e : S.Env)
  | ambient (x : S.Ext)

variable {S : Service I ε α σ}

/-- One step. A finished or missing call cannot act. -/
def step (w : S.Pool) : S.Move → Option S.Pool
  | .spawn c => some { w with procs := w.procs ++ [(c, S.program c)] }
  | .act pid e =>
      match w.procs[pid]? with
      | some (c, .call o k) =>
          some ⟨(S.exec e o w.shared).2, w.procs.set pid (c, k (S.exec e o w.shared).1)⟩
      | _ => none
  | .ambient x => some { w with shared := S.ambient x w.shared }

/-- A run: its moves in order. -/
def run (w : S.Pool) : List S.Move → Option S.Pool
  | [] => some w
  | m :: ms => (step w m).bind fun w' => run w' ms

/-- A call that arrives as the `pid`-th and performs its first `n` operations at once. -/
def callNow (pid : ℕ) (c : S.Call) (e : S.Env) (n : ℕ) : List S.Move :=
  .spawn c :: List.replicate n (.act pid e)

/-- The configurations reached from `w₀` by runs whose every move meets `G`. -/
inductive Reaches (G : S.Pool → S.Move → Prop) (w₀ : S.Pool) : S.Pool → Prop
  | refl : Reaches G w₀ w₀
  | tail {w w' : S.Pool} {m : S.Move} :
      Reaches G w₀ w → G w m → step w m = some w' → Reaches G w₀ w'

/-- No condition on the moves. -/
def anyMove (_ : S.Pool) (_ : S.Move) : Prop := True

/-- The call at `pid` performs `o` next and continues with `k`. -/
def Pending (w : S.Pool) (pid : ℕ) (c : S.Call) (o : I.Op)
    (k : Except ε (I.Reply o) → Prog I ε α) : Prop :=
  w.procs[pid]? = some (c, .call o k)

/-- The call at `pid` is `c` and has ended with `r`. -/
def Finished (w : S.Pool) (pid : ℕ) (c : S.Call) (r : Except ε α) : Prop :=
  w.procs[pid]? = some (c, .ret r)

/-- What the call at `pid` has ended with. -/
def answer (w : S.Pool) (pid : ℕ) : Option (S.Call × Except ε α) :=
  match w.procs[pid]? with
  | some (c, .ret r) => some (c, r)
  | _ => none

theorem finished_of_answer {w : S.Pool} {pid : ℕ} {c : S.Call} {r : Except ε α}
    (h : answer w pid = some (c, r)) : Finished w pid c r := by
  simp only [answer] at h
  split at h
  · next hp =>
      obtain ⟨rfl, rfl⟩ := Prod.mk.inj (Option.some.inj h)
      exact hp
  · cases h

/-- The configuration before any call. -/
def start (S : Service I ε α σ) (s : σ) : S.Pool := ⟨s, []⟩

/-- No call is in flight. -/
def Quiescent (w : S.Pool) : Prop :=
  ∀ p ∈ w.procs, ∃ r, p.2 = .ret r

/-- Is no call in flight? -/
def atRest (w : S.Pool) : Bool :=
  w.procs.all fun p =>
    match p.2 with
    | .ret _ => true
    | .call _ _ => false

theorem quiescent_of_atRest {w : S.Pool} (h : atRest w = true) : Quiescent w := by
  intro p hp
  have hp' := List.all_eq_true.mp h p hp
  obtain ⟨c, r | ⟨o, k⟩⟩ := p
  · exact ⟨r, rfl⟩
  · cases hp'

/-! ### Inversion -/

/-- **Everything a step can do.** -/
theorem step_eq_some_iff {w w' : S.Pool} {m : S.Move} :
    step w m = some w' ↔
      (∃ c, m = .spawn c ∧ w' = ⟨w.shared, w.procs ++ [(c, S.program c)]⟩) ∨
      (∃ pid e c o k, m = .act pid e ∧ Pending w pid c o k ∧
        w' = ⟨(S.exec e o w.shared).2, w.procs.set pid (c, k (S.exec e o w.shared).1)⟩) ∨
      (∃ x, m = .ambient x ∧ w' = ⟨S.ambient x w.shared, w.procs⟩) := by
  constructor
  · intro h
    cases m with
    | spawn c => exact .inl ⟨c, rfl, (Option.some.inj h).symm⟩
    | act pid e =>
        simp only [step] at h
        split at h
        · rename_i c o k hp
          exact .inr (.inl ⟨pid, e, c, o, k, rfl, hp, (Option.some.inj h).symm⟩)
        · cases h
    | ambient x => exact .inr (.inr ⟨x, rfl, (Option.some.inj h).symm⟩)
  · rintro (⟨c, rfl, rfl⟩ | ⟨pid, e, c, o, k, rfl, hp, rfl⟩ | ⟨x, rfl, rfl⟩)
    · rfl
    · unfold Pending at hp
      simp only [step, hp]
    · rfl

/-- The calls after a call took a step: its own entry moved on, the others stand. -/
theorem mem_set_cases {w : S.Pool} {pid : ℕ} {p q : S.Call × Prog I ε α}
    (h : q ∈ w.procs.set pid p) : q = p ∨ q ∈ w.procs := by
  rcases List.mem_or_eq_of_mem_set h with h | h
  · exact .inr h
  · exact .inl h

/-- A call that performs an operation next is one of the calls. -/
theorem Pending.mem {w : S.Pool} {pid : ℕ} {c : S.Call} {o : I.Op}
    {k : Except ε (I.Reply o) → Prog I ε α} (h : Pending w pid c o k) :
    (c, Prog.call o k) ∈ w.procs :=
  List.mem_of_getElem? h

/-! ### Runs -/

/-- A condition that implies another one admits fewer runs. -/
theorem Reaches.mono {G G' : S.Pool → S.Move → Prop} (hG : ∀ w m, G w m → G' w m)
    {w₀ w : S.Pool} (h : Reaches G w₀ w) : Reaches G' w₀ w := by
  induction h with
  | refl => exact .refl
  | tail _ hg hs ih => exact .tail ih (hG _ _ hg) hs

/-- Runs compose. -/
theorem Reaches.trans {G : S.Pool → S.Move → Prop} {w₀ w₁ w₂ : S.Pool}
    (h₁ : Reaches G w₀ w₁) (h₂ : Reaches G w₁ w₂) : Reaches G w₀ w₂ := by
  induction h₂ with
  | refl => exact h₁
  | tail _ hg hs ih => exact .tail ih hg hs

/-- An evaluated run reaches its last configuration. -/
theorem reaches_of_run {w w' : S.Pool} {ms : List S.Move} (h : run w ms = some w') :
    Reaches anyMove w w' := by
  induction ms generalizing w with
  | nil =>
      obtain rfl : w = w' := Option.some.inj h
      exact .refl
  | cons m ms ih =>
      simp only [run, Option.bind_eq_some_iff] at h
      obtain ⟨w₁, hs, hr⟩ := h
      exact (Reaches.tail .refl trivial hs).trans (ih hr)

/-- **Induction over a run.** What holds at the start and is kept by every step that
meets the condition holds wherever such a run gets. -/
theorem Reaches.invariant {G : S.Pool → S.Move → Prop} {P : S.Pool → Prop}
    {w₀ w : S.Pool} (h : Reaches G w₀ w) (h₀ : P w₀)
    (hstep : ∀ w m w', P w → G w m → step w m = some w' → P w') : P w := by
  induction h with
  | refl => exact h₀
  | tail _ hg hs ih => exact hstep _ _ _ ih hg hs

/-- **Invariants of the shared state.** Such an invariant needs only be kept by each
operation some call may perform, whatever program issues it, and by the surroundings. -/
theorem Reaches.shared_invariant {G : S.Pool → S.Move → Prop} {P : σ → Prop}
    {w₀ w : S.Pool} (h : Reaches G w₀ w) (h₀ : P w₀.shared)
    (hact : ∀ w pid e c o k, P w.shared → Pending w pid c o k → G w (.act pid e) →
      P (S.exec e o w.shared).2)
    (hext : ∀ w x, P w.shared → G w (.ambient x) → P (S.ambient x w.shared)) :
    P w.shared := by
  refine h.invariant (P := fun w => P w.shared) h₀ ?_
  intro w m w' hP hg hs
  obtain ⟨c, rfl, rfl⟩ | ⟨pid, e, c, o, k, rfl, hp, rfl⟩ | ⟨x, rfl, rfl⟩ :=
    step_eq_some_iff.mp hs
  · exact hP
  · exact hact w pid e c o k hP hp hg
  · exact hext w x hP hg

/-- **Shared and local assertions.** `P` speaks of the shared state, `L` of the rest of
one call's program in a shared state. A step has to establish `P` and the acting call's
own `L`, and must not disturb the `L` of any other call. -/
theorem Reaches.local_invariant {G : S.Pool → S.Move → Prop} {P : σ → Prop}
    {L : σ → S.Call → Prog I ε α → Prop} {w₀ w : S.Pool} (h : Reaches G w₀ w)
    (h₀ : P w₀.shared) (hL₀ : ∀ p ∈ w₀.procs, L w₀.shared p.1 p.2)
    (hspawn : ∀ w c, P w.shared → G w (.spawn c) → L w.shared c (S.program c))
    (hact : ∀ w pid e c o k, P w.shared → Pending w pid c o k → G w (.act pid e) →
      L w.shared c (.call o k) →
      P (S.exec e o w.shared).2 ∧ L (S.exec e o w.shared).2 c (k (S.exec e o w.shared).1))
    (hothers : ∀ w pid e c o k d q, P w.shared → Pending w pid c o k →
      G w (.act pid e) → L w.shared c (.call o k) → (d, q) ∈ w.procs → L w.shared d q →
      L (S.exec e o w.shared).2 d q)
    (hext : ∀ w x, P w.shared → G w (.ambient x) → P (S.ambient x w.shared) ∧
      ∀ d q, L w.shared d q → L (S.ambient x w.shared) d q) :
    P w.shared ∧ ∀ p ∈ w.procs, L w.shared p.1 p.2 := by
  refine h.invariant (P := fun w => P w.shared ∧ ∀ p ∈ w.procs, L w.shared p.1 p.2)
    ⟨h₀, hL₀⟩ ?_
  rintro w m w' ⟨hP, hL⟩ hg hs
  obtain ⟨c, rfl, rfl⟩ | ⟨pid, e, c, o, k, rfl, hp, rfl⟩ | ⟨x, rfl, rfl⟩ :=
    step_eq_some_iff.mp hs
  · refine ⟨hP, fun p hpm => ?_⟩
    rcases List.mem_append.mp hpm with hpm | hpm
    · exact hL p hpm
    · obtain rfl := List.mem_singleton.mp hpm
      exact hspawn w c hP hg
  · have hown := hL _ hp.mem
    refine ⟨(hact w pid e c o k hP hp hg hown).1, fun p hpm => ?_⟩
    rcases mem_set_cases hpm with rfl | hpm
    · exact (hact w pid e c o k hP hp hg hown).2
    · exact hothers w pid e c o k _ _ hP hp hg hown hpm (hL p hpm)
  · exact ⟨(hext w x hP hg).1, fun p hpm => (hext w x hP hg).2 _ _ (hL p hpm)⟩

/-- **Good operations.** Programs that perform good operations only (`φ`), as long as
the replies are such as the operations give (`ρ`), keep a shared invariant that every good
operation keeps. Time does not run backwards. -/
theorem Reaches.guarded_invariant {T : Type} [Preorder T] {G : S.Pool → S.Move → Prop}
    {P : σ → Prop} {τ : σ → T} {φ : S.Call → T → I.Op → Prop}
    {ρ : T → (o : I.Op) → Except ε (I.Reply o) → Prop} {s₀ : σ} {w : S.Pool}
    (h : Reaches G (S.start s₀) w) (h₀ : P s₀)
    (hprogram : ∀ c t, (S.program c).Guarded (φ c) ρ t)
    (hreply : ∀ e o s, ρ (τ s) o (S.exec e o s).1)
    (htime : ∀ e o s, τ s ≤ τ (S.exec e o s).2)
    (htime_ext : ∀ x s, τ s ≤ τ (S.ambient x s))
    (hact : ∀ w pid e c o k, P w.shared → Pending w pid c o k → G w (.act pid e) →
      φ c (τ w.shared) o → P (S.exec e o w.shared).2)
    (hext : ∀ w x, P w.shared → G w (.ambient x) → P (S.ambient x w.shared)) :
    P w.shared := by
  refine (h.local_invariant (L := fun s c p => p.Guarded (φ c) ρ (τ s)) h₀ ?_ ?_ ?_ ?_ ?_).1
  · intro p hp
    cases hp
  · exact fun w c _ _ => hprogram c _
  · intro w pid e c o k hP hp hg hL
    obtain ⟨ho, hk⟩ := hL _ (le_refl _)
    exact ⟨hact w pid e c o k hP hp hg ho, (hk _ (hreply e o _)).later (htime e o _)⟩
  · exact fun w pid e c o k d q _ _ _ _ _ hq => hq.later (htime e o _)
  · exact fun w x hP hg => ⟨hext w x hP hg, fun d q hq => hq.later (htime_ext x _)⟩

/-- **Operations that are called for.** Whatever a call performs next is good in view of the
replies it was given. -/
theorem Reaches.guarded {T : Type} [Preorder T] {G : S.Pool → S.Move → Prop} {τ : σ → T}
    {φ : S.Call → T → I.Op → Prop} {ρ : T → (o : I.Op) → Except ε (I.Reply o) → Prop} {s₀ : σ}
    {w : S.Pool} (h : Reaches G (S.start s₀) w)
    (hprogram : ∀ c t, (S.program c).Guarded (φ c) ρ t)
    (hreply : ∀ e o s, ρ (τ s) o (S.exec e o s).1)
    (htime : ∀ e o s, τ s ≤ τ (S.exec e o s).2)
    (htime_ext : ∀ x s, τ s ≤ τ (S.ambient x s)) {pid : ℕ} {c : S.Call} {o : I.Op}
    {k : Except ε (I.Reply o) → Prog I ε α} (hp : Pending w pid c o k) : φ c (τ w.shared) o := by
  have hall := h.local_invariant (P := fun _ => True)
    (L := fun s c p => p.Guarded (φ c) ρ (τ s)) trivial nofun (fun w c _ _ => hprogram c _)
    (fun w pid e c o k _ _ _ hL =>
      ⟨trivial, ((hL _ (le_refl _)).2 _ (hreply e o _)).later (htime e o _)⟩)
    (fun w pid e c o k d q _ _ _ _ _ hq => hq.later (htime e o _))
    fun w x _ _ => ⟨trivial, fun d q hq => hq.later (htime_ext x _)⟩
  exact (hall.2 _ hp.mem _ (le_refl _)).1

/-! ### History variables -/

/-- The service with a history variable: `note` records an operation, given the state
before it. The programs cannot read the history. -/
def withHistory {γ : Type} (S : Service I ε α σ)
    (note : S.Env → I.Op → σ → γ → γ) : Service I ε α (σ × γ) where
  Call := S.Call
  Env := S.Env
  Ext := S.Ext
  program := S.program
  exec e o s := ((S.exec e o s.1).1, (S.exec e o s.1).2, note e o s.1 s.2)
  ambient x s := (S.ambient x s.1, s.2)

section History

variable {γ : Type} {note : S.Env → I.Op → σ → γ → γ}

/-- The same move of the service with a history. -/
def Move.withHistory : S.Move → (S.withHistory note).Move
  | .spawn c => .spawn c
  | .act pid e => .act pid e
  | .ambient x => .ambient x

/-- Every configuration the service reaches is reached with some history. -/
theorem Reaches.withHistory {w₀ w : S.Pool} (h : Reaches anyMove w₀ w) (g₀ : γ) :
    ∃ g, Reaches (S := S.withHistory note) anyMove ⟨(w₀.shared, g₀), w₀.procs⟩
      ⟨(w.shared, g), w.procs⟩ := by
  induction h with
  | refl => exact ⟨g₀, .refl⟩
  | @tail w₁ w₂ m _ _ hs ih =>
      obtain ⟨g, hg⟩ := ih
      obtain ⟨c, rfl, rfl⟩ | ⟨pid, e, c, o, k, rfl, hp, rfl⟩ | ⟨x, rfl, rfl⟩ :=
        step_eq_some_iff.mp hs
      · exact ⟨g, hg.tail (m := .spawn c) trivial rfl⟩
      · refine ⟨note e o w₁.shared g, hg.tail (m := .act pid e) trivial ?_⟩
        exact step_eq_some_iff.mpr (.inr (.inl ⟨pid, e, c, o, k, rfl, hp, rfl⟩))
      · exact ⟨g, hg.tail (m := .ambient x) trivial rfl⟩

end History

/-! ### Conditions that can be evaluated -/

/-- A condition on moves: `φ` on the operation a call performs, `ψ` on a move of the
surroundings. Calls may always arrive. -/
def Admits (φ : S.Call → S.Env → I.Op → σ → Prop) (ψ : S.Ext → σ → Prop) (w : S.Pool) :
    S.Move → Prop
  | .spawn _ => True
  | .act pid e =>
      match w.procs[pid]? with
      | some (c, .call o _) => φ c e o w.shared
      | _ => True
  | .ambient x => ψ x w.shared

section Admits

variable {φ : S.Call → S.Env → I.Op → σ → Prop} {ψ : S.Ext → σ → Prop}

theorem Admits.of_pending {w : S.Pool} {pid : ℕ} {e : S.Env} {c : S.Call} {o : I.Op}
    {k : Except ε (I.Reply o) → Prog I ε α} (h : Admits φ ψ w (.act pid e))
    (hp : Pending w pid c o k) : φ c e o w.shared := by
  rw [Pending] at hp
  simpa only [Admits, hp] using h

theorem Admits.act {w : S.Pool} {pid : ℕ} {e : S.Env} {c : S.Call} {o : I.Op}
    {k : Except ε (I.Reply o) → Prog I ε α} (hp : Pending w pid c o k)
    (h : φ c e o w.shared) : Admits φ ψ w (.act pid e) := by
  rw [Pending] at hp
  simpa only [Admits, hp] using h

/-- Conditions that can be decided make a condition on moves that can be decided. -/
def Admits.decidable (hφ : ∀ c e o s, Decidable (φ c e o s)) (hψ : ∀ x s, Decidable (ψ x s))
    (w : S.Pool) (m : S.Move) : Decidable (Admits φ ψ w m) :=
  match m with
  | .spawn _ => inferInstanceAs (Decidable True)
  | .act pid e =>
      match h : w.procs[pid]? with
      | some (c, .call o k) =>
          @decidable_of_iff _ (φ c e o w.shared) (by simp only [Admits, h])
            (hφ c e o w.shared)
      | some (c, .ret r) => decidable_of_iff True (by simp only [Admits, h])
      | none => decidable_of_iff True (by simp only [Admits, h])
  | .ambient x => hψ x w.shared

end Admits

/-- A run that stops at a move which does not meet the condition. -/
def runIf (G : S.Pool → S.Move → Prop) [∀ w m, Decidable (G w m)] (w : S.Pool) :
    List S.Move → Option S.Pool
  | [] => some w
  | m :: ms => if G w m then (step w m).bind fun w' => runIf G w' ms else none

/-- Such a run reaches its last configuration. -/
theorem reaches_of_runIf {G : S.Pool → S.Move → Prop} [∀ w m, Decidable (G w m)]
    {w w' : S.Pool} {ms : List S.Move} (h : runIf G w ms = some w') : Reaches G w w' := by
  induction ms generalizing w with
  | nil =>
      obtain rfl : w = w' := Option.some.inj h
      exact .refl
  | cons m ms ih =>
      simp only [runIf] at h
      split at h
      · next hg =>
          obtain ⟨w₁, hs, hr⟩ := Option.bind_eq_some_iff.mp h
          exact (Reaches.tail .refl hg hs).trans (ih hr)
      · cases h

/-! ### Counting calls in flight -/

/-- How many calls have an entry satisfying `f`. -/
def count (f : S.Call × Prog I ε α → Bool) (w : S.Pool) : ℕ :=
  w.procs.countP f

/-- A step of one call changes a count by what it changes of its own entry. -/
theorem count_set {f : S.Call × Prog I ε α → Bool} {l : List (S.Call × Prog I ε α)}
    {pid : ℕ} {p q : S.Call × Prog I ε α} (h : l[pid]? = some p) :
    (l.set pid q).countP f + (f p).toNat = l.countP f + (f q).toNat := by
  induction l generalizing pid with
  | nil => simp at h
  | cons a l ih =>
      cases pid with
      | zero =>
          obtain rfl : a = p := by simpa using h
          simp only [List.set_cons_zero, List.countP_cons]
          cases f a <;> cases f q <;> simp
      | succ n =>
          have hn := @ih n (by simpa using h)
          simp only [List.set_cons_succ, List.countP_cons]
          omega

/-- A call that arrives adds to a count by what its entry counts. -/
theorem count_append {f : S.Call × Prog I ε α → Bool} (s : σ)
    (l : List (S.Call × Prog I ε α)) (p : S.Call × Prog I ε α) :
    count f (⟨s, l ++ [p]⟩ : S.Pool) = l.countP f + (f p).toNat := by
  rw [count, List.countP_append, List.countP_singleton]
  cases f p <;> rfl

end Service

end Concurrent
