import Fctf.Lib.Protocol

/-!
# What a Call Has Done Before

Often all that matters about an operation is what its own call has done and learned before
it: a cache is filled with what was read, a row is removed that was found. The history of
a call is the list of its operations with their replies. `Prog.Justified` says that a
program performs each operation for reasons found in its history; it is the protocol whose
standings are the histories, so `Prog.Follows` and its rules apply.

## Main results

* `Service.Records.justified`: in a run of programs that are justified, every entry of the
  log is justified by the earlier entries of its call, and so is every answer.
* `Service.Records.of_append`: the configuration in which an entry of the log was made.
* `Service.Records.follows`: where a call stands can be read off its history.
-/

namespace Concurrent

variable {I : Interface} {ε α β : Type}

/-- An operation with its reply. -/
structure Event (I : Interface) (ε : Type) where
  /-- The operation. -/
  op : I.Op
  /-- What it answered. -/
  reply : Except ε (I.Reply op)

/-- The protocol whose standings are histories: an operation needs a reason. -/
def history (J : List (Event I ε) → I.Op → Prop) : Protocol I ε (List (Event I ε)) where
  allows := J
  next l o r := l ++ [⟨o, r⟩]

namespace Prog

/-- With the history `l`, the program performs each operation for a reason `J` and returns
for a reason `A`. -/
def Justified (J : List (Event I ε) → I.Op → Prop)
    (A : List (Event I ε) → Except ε α → Prop) (l : List (Event I ε)) (p : Prog I ε α) : Prop :=
  p.Follows (history J) A l

section Justified

variable {J : List (Event I ε) → I.Op → Prop} {A : List (Event I ε) → Except ε α → Prop}
  {l : List (Event I ε)}

@[simp] theorem justified_ret {r : Except ε α} :
    (ret r : Prog I ε α).Justified J A l ↔ A l r := Iff.rfl

@[simp] theorem justified_call {o : I.Op} {k : Except ε (I.Reply o) → Prog I ε α} :
    (call o k).Justified J A l ↔ J l o ∧ ∀ r, (k r).Justified J A (l ++ [⟨o, r⟩]) := Iff.rfl

/-- A weaker conclusion. -/
theorem Justified.mono {A' : List (Event I ε) → Except ε α → Prop} {p : Prog I ε α}
    (h : p.Justified J A l) (hA : ∀ l r, A l r → A' l r) : p.Justified J A' l :=
  Follows.mono h hA

/-- A history only grows. -/
theorem Justified.extends {p : Prog I ε α} (h : p.Justified J A l) :
    p.Justified J (fun l' r => l <+: l' ∧ A l' r) l := by
  induction p generalizing l with
  | ret r => exact ⟨List.prefix_refl l, h⟩
  | call o k ih =>
      refine ⟨h.1, fun r => (ih r (h.2 r)).mono fun l' r' hr => ⟨?_, hr.2⟩⟩
      exact (List.prefix_append l _).trans hr.1

/-- Sequencing: the second part continues the history of the first. -/
theorem Justified.bind {p : Prog I ε α} {f : α → Prog I ε β}
    {A : List (Event I ε) → Except ε β → Prop}
    (h : p.Justified J
      (fun l r => match r with
        | .ok a => (f a).Justified J A l
        | .error e => A l (.error e)) l) :
    (p >>= f).Justified J A l :=
  Follows.bind (h.mono fun _ r hr => by cases r <;> exact hr)

/-- Exception handling: the handler continues the history. -/
theorem Justified.handle {p : Prog I ε α} {g : ε → Prog I ε α}
    (h : p.Justified J
      (fun l r => match r with
        | .ok a => A l (.ok a)
        | .error e => (g e).Justified J A l) l) :
    (p.handle g).Justified J A l :=
  Follows.handle (h.mono fun _ r hr => by cases r <;> exact hr)

end Justified

end Prog

namespace Service

variable {σ : Type} {S : Service I ε α σ} {w₀ w : S.Pool} {log : List S.Entry}
  {G : List S.Entry → S.Pool → S.Move → Prop}

/-- The operation of an entry with its reply. -/
def Entry.event (n : S.Entry) : Event I ε := ⟨n.op, n.reply⟩

/-- The state after an entry's operation. -/
def Entry.after (n : S.Entry) : σ := (S.exec n.env n.op n.before).2

/-- The history of a call. -/
def past (log : List S.Entry) (pid : ℕ) : List (Event I ε) := (own log pid).map Entry.event

theorem past_append_self {log : List S.Entry} {n : S.Entry} :
    past (log ++ [n]) n.pid = past log n.pid ++ [n.event] := by
  rw [past, own_append_self, List.map_append]
  rfl

theorem past_append_of_ne {log : List S.Entry} {n : S.Entry} {pid : ℕ} (h : n.pid ≠ pid) :
    past (log ++ [n]) pid = past log pid := by
  rw [past, own_append_of_ne h, past]

/-- An event of a call's history is an entry of the log. -/
theorem mem_past {pid : ℕ} {x : Event I ε} (h : x ∈ past log pid) :
    ∃ n ∈ log, n.pid = pid ∧ n.event = x := by
  obtain ⟨n, hn, hx⟩ := List.mem_map.mp h
  obtain ⟨hlog, hpid⟩ := mem_own.mp hn
  exact ⟨n, hlog, hpid, hx⟩

/-- Where an event of a call's history stands in the log. -/
theorem exists_split_of_past {log : List S.Entry} {pid : ℕ} {l l' : List (Event I ε)}
    {x : Event I ε} (h : past log pid = l ++ x :: l') :
    ∃ pre n post, log = pre ++ n :: post ∧ n.pid = pid ∧ n.event = x ∧ past pre pid = l ∧
      past post pid = l' := by
  obtain ⟨m, m', hown, rfl, hm'⟩ := List.map_eq_append_iff.mp h
  obtain ⟨n, m'', rfl, rfl, rfl⟩ := List.map_eq_cons_iff.mp hm'
  obtain ⟨pre, rest, rfl, rfl, hrest⟩ := List.filter_eq_append_iff.mp hown
  obtain ⟨skipped, post, rfl, hskipped, hn, rfl⟩ := List.filter_eq_cons_iff.mp hrest
  refine ⟨pre ++ skipped, n, post, by simp, of_decide_eq_true hn, rfl, ?_, rfl⟩
  have hnil : own skipped pid = [] :=
    own_eq_nil fun k hk hpid => hskipped k hk (decide_eq_true hpid)
  rw [past, own, List.filter_append, ← own, ← own, hnil, List.append_nil]

/-- An entry of a log is its last one, or one of the log before. -/
theorem append_singleton_split {γ : Type} {log pre post : List γ} {m n : γ}
    (h : log ++ [m] = pre ++ n :: post) :
    (log = pre ∧ m = n ∧ post = []) ∨ ∃ post', log = pre ++ n :: post' ∧ post = post' ++ [m] := by
  rcases List.eq_nil_or_concat' post with rfl | ⟨post', x, rfl⟩
  · obtain ⟨rfl, hn⟩ := List.append_inj' h rfl
    exact .inl ⟨rfl, List.singleton_inj.mp hn, rfl⟩
  · rw [← List.cons_append, ← List.append_assoc] at h
    obtain ⟨rfl, hx⟩ := List.append_inj' h rfl
    exact .inr ⟨post', rfl, by rw [List.singleton_inj.mp hx]⟩

/-- A log around its `i`-th entry. -/
theorem take_append_singleton {γ : Type} {log : List γ} {i : ℕ} {n : γ}
    (h : log[i]? = some n) : log.take i ++ [n] = log.take (i + 1) := by
  rw [List.take_add_one, h, Option.toList_some]

theorem cons_drop {γ : Type} {log : List γ} {i : ℕ} {n : γ} (h : log[i]? = some n) :
    n :: log.drop (i + 1) = log.drop i := by
  rw [@List.drop_eq_getElem?_toList_append _ log i, h, Option.toList_some,
    List.singleton_append]

/-- **Where an entry was made.** A run up to an entry of its log. -/
theorem Records.of_append {l l' : List S.Entry} {n : S.Entry}
    (h : Records G w₀ (l ++ n :: l') w) :
    ∃ w₁ k, Records G w₀ l w₁ ∧ w₁.shared = n.before ∧ Pending w₁ n.pid n.call n.op k ∧
      G l w₁ (.act n.pid n.env) := by
  generalize hlog : l ++ n :: l' = log at h
  induction h generalizing l' with
  | refl => exact absurd hlog (by simp)
  | spawn _ _ ih => exact ih hlog
  | ambient _ _ ih => exact ih hlog
  | @act log w₁ pid e c o k hr hp hg ih =>
      obtain ⟨rfl, rfl, -⟩ | ⟨post, rfl, -⟩ := append_singleton_split hlog.symm
      · exact ⟨w₁, k, hr, rfl, hp, hg⟩
      · exact ih rfl

/-- Every entry is justified by the earlier entries of its call. -/
def Reasoned (J : S.Call → List (Event I ε) → I.Op → Prop) (log : List S.Entry) : Prop :=
  ∀ pre n post, log = pre ++ n :: post → J n.call (past pre n.pid) n.op

/-- **Reasons.** In a run of programs that are justified, every entry is justified by the
earlier entries of its call, and every answer by all of them. -/
theorem Records.justified {J : S.Call → List (Event I ε) → I.Op → Prop}
    {A : S.Call → List (Event I ε) → Except ε α → Prop} {s₀ : σ}
    (h : Records G (S.start s₀) log w)
    (hprogram : ∀ c, (S.program c).Justified (J c) (A c) []) :
    Reasoned J log ∧ ∀ pid c r, Finished w pid c r → A c (past log pid) r := by
  have hinv : Reasoned J log ∧
      ∃ qs, Standings (fun c => history (J c)) A w qs ∧
        ∀ pid c p q, w.procs[pid]? = some (c, p) → qs[pid]? = some q → q = past log pid := by
    refine h.local_invariant (R := fun c => history (J c)) (A := fun log _ => Reasoned J log)
      (L := fun log pid _ q => q = past log pid) (fun _ => []) hprogram
      (fun pre n post hnil => absurd hnil (by simp)) ?_ ?_ ?_ fun _ _ _ hA _ => hA
    · intro log pid c hlog
      rw [past, own_eq_nil hlog, List.map_nil]
    · rintro log w pid e c o k q hA rfl hp - hf
      refine ⟨fun pre n post hsplit => ?_,
        (past_append_self (n := ⟨pid, c, e, o, w.shared⟩)).symm⟩
      obtain ⟨rfl, rfl, -⟩ | ⟨post', hl, -⟩ := append_singleton_split hsplit
      · exact hf.1
      · exact hA pre n post' hl
    · rintro log n pid c q hne rfl
      exact (past_append_of_ne hne).symm
  obtain ⟨hJ, qs, hst, hqs⟩ := hinv
  refine ⟨hJ, fun pid c r hf => ?_⟩
  obtain ⟨q, hq, hpost⟩ := hst.get hf
  exact hqs pid c _ q hf hq ▸ hpost

/-! ### Standings by history -/

section Standing

variable {Q : Type} (R : S.Call → Protocol I ε Q) (init : S.Call → Q)

/-- Where a call stands after its history. -/
def standing (log : List S.Entry) (pid : ℕ) (c : S.Call) : Q :=
  (past log pid).foldl (fun q x => (R c).next q x.op x.reply) (init c)

variable {R init}

theorem standing_append_self {n : S.Entry} (c : S.Call) :
    standing R init (log ++ [n]) n.pid c =
      (R c).next (standing R init log n.pid c) n.op n.reply := by
  rw [standing, past_append_self, List.foldl_append]
  rfl

theorem standing_append_of_ne {n : S.Entry} {pid : ℕ} (h : n.pid ≠ pid) (c : S.Call) :
    standing R init (log ++ [n]) pid c = standing R init log pid c := by
  rw [standing, past_append_of_ne h, standing]

theorem standing_of_forall_ne {pid : ℕ} (h : ∀ n ∈ log, n.pid ≠ pid) (c : S.Call) :
    standing R init log pid c = init c := by
  rw [standing, past, own_eq_nil h]
  rfl

/-- **A call follows its protocol** from where its history has led it. -/
theorem Records.follows {post : S.Call → Q → Except ε α → Prop} {s₀ : σ}
    (h : Records G (S.start s₀) log w)
    (hprogram : ∀ c, (S.program c).Follows (R c) (post c) (init c)) {pid : ℕ} {c : S.Call}
    {p : Prog I ε α} (hp : w.procs[pid]? = some (c, p)) :
    p.Follows (R c) (post c) (standing R init log pid c) := by
  obtain ⟨-, qs, hst, hqs⟩ := h.local_invariant (A := fun _ _ => True)
    (L := fun log pid c q => q = standing R init log pid c) init hprogram trivial
    (fun log pid c hlog => (standing_of_forall_ne hlog c).symm)
    (fun log w pid e c o k q _ hq _ _ _ =>
      ⟨trivial, hq ▸ (standing_append_self (n := ⟨pid, c, e, o, w.shared⟩) c).symm⟩)
    (fun log n pid c q hne hq => hq.trans (standing_append_of_ne hne c).symm)
    fun _ _ _ _ _ => trivial
  obtain ⟨q, hq, hf⟩ := hst.get hp
  exact hqs pid c p q hp hq ▸ hf

end Standing

end Service

end Concurrent
