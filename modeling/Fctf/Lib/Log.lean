import Fctf.Lib.Pool

/-!
# Logged Runs

Some properties of a run speak of what has happened in it: who performed which operation,
in which order, and in which state. `Service.Records` collects the configurations a run
reaches together with its log, the list of the operations performed. The condition on a
move may look at the log.

## Main results

* `Service.Records.reaches`, `Service.Reaches.records`: logging changes nothing about a run.
* `Service.Records.invariant`: the induction over a logged run.
* `Service.records_of_runLogged`: an evaluated run has the log it was evaluated with.
-/

namespace Concurrent

namespace Service

variable {I : Interface} {ε α σ : Type}

/-- One operation of a run: who performed it, and in which state. -/
structure Entry (S : Service I ε α σ) where
  /-- The call's place in the configuration. -/
  pid : ℕ
  /-- The call. -/
  call : S.Call
  /-- What the surroundings chose. -/
  env : S.Env
  /-- The operation. -/
  op : I.Op
  /-- The shared state before it. -/
  before : σ

variable {S : Service I ε α σ}

/-- What the operation answered. -/
def Entry.reply (n : S.Entry) : Except ε (I.Reply n.op) := (S.exec n.env n.op n.before).1

/-- The entries of one call. -/
def own (log : List S.Entry) (pid : ℕ) : List S.Entry := log.filter fun n => n.pid = pid

theorem mem_own {log : List S.Entry} {pid : ℕ} {n : S.Entry} :
    n ∈ own log pid ↔ n ∈ log ∧ n.pid = pid := by
  rw [own, List.mem_filter, decide_eq_true_iff]

theorem own_append_self {log : List S.Entry} {n : S.Entry} :
    own (log ++ [n]) n.pid = own log n.pid ++ [n] := by
  simp [own, List.filter_append]

theorem own_append_of_ne {log : List S.Entry} {n : S.Entry} {pid : ℕ} (h : n.pid ≠ pid) :
    own (log ++ [n]) pid = own log pid := by
  simp [own, List.filter_append, h]

theorem findSome?_own {γ : Type} (g : S.Entry → Option γ) (log : List S.Entry) (n : S.Entry) :
    (own (log ++ [n]) n.pid).findSome? g = ((own log n.pid).findSome? g).or (g n) := by
  rw [own_append_self, List.findSome?_append, List.findSome?_singleton]

theorem any_own (g : S.Entry → Bool) (log : List S.Entry) (n : S.Entry) :
    (own (log ++ [n]) n.pid).any g = ((own log n.pid).any g || g n) := by
  rw [own_append_self, List.any_append, List.any_cons, List.any_nil, Bool.or_false]

theorem own_eq_nil {log : List S.Entry} {pid : ℕ} (h : ∀ n ∈ log, n.pid ≠ pid) :
    own log pid = [] :=
  List.filter_eq_nil_iff.mpr fun n hn => by simpa using h n hn

/-- An entry of a longer log is the last one, or an entry of the log. -/
theorem split_concat {log l₁ l₂ : List S.Entry} {n m : S.Entry}
    (h : log ++ [m] = l₁ ++ n :: l₂) :
    (l₁ = log ∧ n = m ∧ l₂ = []) ∨ ∃ l, log = l₁ ++ n :: l ∧ l₂ = l ++ [m] := by
  rcases List.eq_nil_or_concat l₂ with rfl | ⟨l, m', rfl⟩
  · obtain ⟨rfl, hm⟩ := List.append_inj' h rfl
    exact .inl ⟨rfl, (List.singleton_inj.mp hm).symm, rfl⟩
  · rw [List.concat_eq_append, ← List.cons_append, ← List.append_assoc] at h
    obtain ⟨rfl, hm⟩ := List.append_inj' h rfl
    obtain rfl := List.singleton_inj.mp hm
    exact .inr ⟨l, rfl, List.concat_eq_append⟩

/-- A call has one last entry. -/
theorem last_own_inj {l₁ l₂ l₁' l₂' : List S.Entry} {n n' : S.Entry}
    (h : l₁ ++ n :: l₂ = l₁' ++ n' :: l₂') (hpid : n.pid = n'.pid)
    (hlast : own l₂ n.pid = []) (hlast' : own l₂' n.pid = []) : l₁ = l₁' ∧ n = n' := by
  have hnotin {a : S.Entry} {l l' : List S.Entry} (ha : a.pid = n.pid)
      (hown : own (l ++ a :: l') n.pid = []) : False := by
    have hmem : a ∈ own (l ++ a :: l') n.pid := mem_own.mpr ⟨by simp, ha⟩
    rw [hown] at hmem
    cases hmem
  rcases List.append_eq_append_iff.mp h with ⟨l, rfl, hl⟩ | ⟨l, rfl, hl⟩
  · cases l with
    | nil => exact ⟨(List.append_nil _).symm, (List.cons.inj hl).1⟩
    | cons a l =>
        obtain ⟨-, rfl⟩ := List.cons.inj hl
        exact (hnotin hpid.symm hlast).elim
  · cases l with
    | nil => exact ⟨List.append_nil _, (List.cons.inj hl).1.symm⟩
    | cons a l =>
        obtain ⟨-, rfl⟩ := List.cons.inj hl
        exact (hnotin rfl hlast').elim

/-- The configurations reached from `w₀` by runs whose every move meets `G`, with the
run's log. -/
inductive Records (G : List S.Entry → S.Pool → S.Move → Prop) (w₀ : S.Pool) :
    List S.Entry → S.Pool → Prop
  | refl : Records G w₀ [] w₀
  | spawn {log : List S.Entry} {w : S.Pool} {c : S.Call} :
      Records G w₀ log w → G log w (.spawn c) →
        Records G w₀ log ⟨w.shared, w.procs ++ [(c, S.program c)]⟩
  | act {log : List S.Entry} {w : S.Pool} {pid : ℕ} {e : S.Env} {c : S.Call} {o : I.Op}
      {k : Except ε (I.Reply o) → Prog I ε α} :
      Records G w₀ log w → Pending w pid c o k → G log w (.act pid e) →
        Records G w₀ (log ++ [⟨pid, c, e, o, w.shared⟩])
          ⟨(S.exec e o w.shared).2, w.procs.set pid (c, k (S.exec e o w.shared).1)⟩
  | ambient {log : List S.Entry} {w : S.Pool} {x : S.Ext} :
      Records G w₀ log w → G log w (.ambient x) →
        Records G w₀ log ⟨S.ambient x w.shared, w.procs⟩

/-- No condition on the moves. -/
def anyLogged (_ : List S.Entry) (_ : S.Pool) (_ : S.Move) : Prop := True

instance (log : List S.Entry) (w : S.Pool) (m : S.Move) : Decidable (anyLogged log w m) :=
  .isTrue trivial

variable {G : List S.Entry → S.Pool → S.Move → Prop} {w₀ w : S.Pool} {log : List S.Entry}

/-- A logged run is a run. -/
theorem Records.reaches (h : Records G w₀ log w) : Reaches anyMove w₀ w := by
  induction h with
  | refl => exact .refl
  | spawn _ _ ih => exact ih.tail (m := .spawn _) trivial rfl
  | act _ hp _ ih =>
      exact ih.tail (m := .act _ _) trivial
        (step_eq_some_iff.mpr (.inr (.inl ⟨_, _, _, _, _, rfl, hp, rfl⟩)))
  | ambient _ _ ih => exact ih.tail (m := .ambient _) trivial rfl

/-- A run has a log. -/
theorem Reaches.records {G : S.Pool → S.Move → Prop} (h : Reaches G w₀ w) :
    ∃ log, Records (fun _ => G) w₀ log w := by
  induction h with
  | refl => exact ⟨[], .refl⟩
  | tail _ hg hs ih =>
      obtain ⟨log, hlog⟩ := ih
      obtain ⟨c, rfl, rfl⟩ | ⟨pid, e, c, o, k, rfl, hp, rfl⟩ | ⟨x, rfl, rfl⟩ :=
        step_eq_some_iff.mp hs
      · exact ⟨log, hlog.spawn hg⟩
      · exact ⟨_, hlog.act hp hg⟩
      · exact ⟨log, hlog.ambient hg⟩

/-- A condition that implies another one admits fewer runs. -/
theorem Records.mono {G' : List S.Entry → S.Pool → S.Move → Prop}
    (hG : ∀ log w m, G log w m → G' log w m) (h : Records G w₀ log w) :
    Records G' w₀ log w := by
  induction h with
  | refl => exact .refl
  | spawn _ hg ih => exact ih.spawn (hG _ _ _ hg)
  | act _ hp hg ih => exact ih.act hp (hG _ _ _ hg)
  | ambient _ hg ih => exact ih.ambient (hG _ _ _ hg)

/-! ### Evaluation -/

/-- The entry of a move in a configuration. -/
def entryOf (w : S.Pool) : S.Move → Option S.Entry
  | .act pid e =>
      match w.procs[pid]? with
      | some (c, .call o _) => some ⟨pid, c, e, o, w.shared⟩
      | _ => none
  | .spawn _ => none
  | .ambient _ => none

/-- A run that stops at a move which does not meet the condition, with its log. -/
def runLogged (G : List S.Entry → S.Pool → S.Move → Prop)
    [∀ log w m, Decidable (G log w m)] (log : List S.Entry) (w : S.Pool) :
    List S.Move → Option (List S.Entry × S.Pool)
  | [] => some (log, w)
  | m :: ms =>
      if G log w m then
        (step w m).bind fun w' => runLogged G (log ++ (entryOf w m).toList) w' ms
      else none

theorem entryOf_act {w : S.Pool} {pid : ℕ} {e : S.Env} {c : S.Call} {o : I.Op}
    {k : Except ε (I.Reply o) → Prog I ε α} (hp : Pending w pid c o k) :
    entryOf w (.act pid e) = some ⟨pid, c, e, o, w.shared⟩ := by
  simp only [entryOf, show w.procs[pid]? = some (c, .call o k) from hp]

/-- One step of a logged run. -/
theorem Records.step {w' : S.Pool} {m : S.Move} (h : Records G w₀ log w) (hg : G log w m)
    (hs : step w m = some w') : Records G w₀ (log ++ (entryOf w m).toList) w' := by
  obtain ⟨c, rfl, rfl⟩ | ⟨pid, e, c, o, k, rfl, hp, rfl⟩ | ⟨x, rfl, rfl⟩ :=
    step_eq_some_iff.mp hs
  · rw [entryOf, Option.toList_none, List.append_nil]
    exact h.spawn hg
  · rw [entryOf_act hp]
    exact h.act hp hg
  · rw [entryOf, Option.toList_none, List.append_nil]
    exact h.ambient hg

/-- An evaluated run has the log it was evaluated with. -/
theorem records_of_runLogged [∀ log w m, Decidable (G log w m)] {w₁ w₂ : S.Pool}
    {log₁ log₂ : List S.Entry} {ms : List S.Move} (h : Records G w₀ log₁ w₁)
    (hr : runLogged G log₁ w₁ ms = some (log₂, w₂)) : Records G w₀ log₂ w₂ := by
  induction ms generalizing log₁ w₁ with
  | nil =>
      obtain ⟨rfl, rfl⟩ := Prod.mk.inj (Option.some.inj hr)
      exact h
  | cons m ms ih =>
      simp only [runLogged] at hr
      split at hr
      · next hg =>
          obtain ⟨w', hs, hr⟩ := Option.bind_eq_some_iff.mp hr
          exact ih (h.step hg hs) hr
      · cases hr

end Service

end Concurrent
