import Mathlib.Computability.Language
import Mathlib.Data.List.Infix

/-!
# Matching by Backtracking

A backtracking engine matches a pattern by making choices: the left alternative or the right one,
one more repetition or none. It prefers the left alternative to the right one, and one more
repetition to none if the repetition is greedy, none if it is lazy; after a repetition that
matches nothing it repeats no more, unless it still has to. `ways p s` lists the matches of `p`
at the beginning of `s`, each with its choices and with what is left of `s`, as the engine tries
them; `leftmost p s` is the text of the first match that begins where any does.

## Main results

* `Pattern.lists_ways`: the engine tries exactly the beginnings that are in the language of the
  pattern.
* `Pattern.sorted_ways`: it tries them in the order of their choices.
* `Pattern.leftmost_eq_self_iff`: when the first match is the whole input.
-/

namespace Backtrack

variable {α : Type}

/-- A pattern over characters `α`. -/
inductive Pattern (α : Type) where
  /-- The empty text. -/
  | nothing
  /-- One character of a class. -/
  | char (accepts : α → Bool)
  /-- One pattern after the other. -/
  | seq (p q : Pattern α)
  /-- The one or the other. -/
  | alt (p q : Pattern α)
  /-- At least `least` repetitions, and no more than `more` in addition. -/
  | rep (greedy : Bool) (p : Pattern α) (least : ℕ) (more : Option ℕ)

/-! ### Choices -/

/-- The choices of a match: `false` is what is tried first. -/
abbrev Choices := List Bool

/-- **The order of backtracking**: the first choice that differs decides. -/
def Before (c d : Choices) : Prop := ∃ u x y, c = u ++ false :: x ∧ d = u ++ true :: y

theorem Before.append_left {c d : Choices} (h : Before c d) (u : Choices) :
    Before (u ++ c) (u ++ d) := by
  obtain ⟨v, x, y, rfl, rfl⟩ := h
  exact ⟨u ++ v, x, y, (List.append_assoc _ _ _).symm, (List.append_assoc _ _ _).symm⟩

theorem Before.append_right {c d : Choices} (h : Before c d) (x y : Choices) :
    Before (c ++ x) (d ++ y) := by
  obtain ⟨u, x', y', rfl, rfl⟩ := h
  exact ⟨u, x' ++ x, y' ++ y, by simp, by simp⟩

theorem Before.cons {c d : Choices} (h : Before c d) (b : Bool) : Before (b :: c) (b :: d) :=
  h.append_left [b]

theorem before_false_true (c d : Choices) : Before (false :: c) (true :: d) := ⟨[], c, d, rfl, rfl⟩

/-- Nothing is tried before itself, and nothing both before and after another. -/
theorem Before.asymm {c d : Choices} (h : Before c d) : ¬Before d c := by
  rintro ⟨v, x', y', hd, hc⟩
  obtain ⟨u, x, y, rfl, rfl⟩ := h
  induction u generalizing v with
  | nil =>
      cases v with
      | nil => simp at hd
      | cons b v =>
          rw [List.nil_append, List.cons_append, List.cons.injEq] at hd hc
          rw [← hd.1] at hc
          cases hc.1
  | cons b u ih =>
      cases v with
      | nil =>
          rw [List.nil_append, List.cons_append, List.cons.injEq] at hd hc
          rw [hd.1] at hc
          cases hc.1
      | cons b' v =>
          rw [List.cons_append, List.cons_append, List.cons.injEq] at hd hc
          exact ih v hc.2 hd.2

/-! ### Engines -/

/-- The matches at the beginning of a text, each with its choices and what is left. -/
abbrev Engine (α : Type) := List α → List (Choices × List α)

namespace Engine

/-- The one engine, and then the other. -/
def andThen (f g : Engine α) : Engine α := fun s =>
  (f s).flatMap fun x => (g x.2).map fun y => (x.1 ++ y.1, y.2)

/-- A choice, and what follows. -/
def choice (b : Bool) (matched : List (Choices × List α)) : List (Choices × List α) :=
  matched.map fun x => (b :: x.1, x.2)

/-- A number of repetitions. -/
def exactly (f : Engine α) : ℕ → Engine α
  | 0 => fun s => [([], s)]
  | n + 1 => andThen f (exactly f n)

/-- Up to a number of repetitions. One that takes nothing is the last. -/
def upTo (greedy : Bool) (f : Engine α) : ℕ → Engine α
  | 0 => fun s => [([], s)]
  | n + 1 => fun s =>
      let again := andThen f
        (fun r => if r.length < s.length then upTo greedy f n r else [([], r)]) s
      if greedy then choice false again ++ [([true], s)] else ([false], s) :: choice true again

/-- The engine lists what is left of a text after the words of a language. -/
def Lists (f : Engine α) (l : Language α) : Prop :=
  ∀ s r, (∃ c, (c, r) ∈ f s) ↔ ∃ w ∈ l, w ++ r = s

/-- The engine tries its matches in the order of their choices. -/
def Sorted (f : Engine α) : Prop := ∀ s, (f s).Pairwise fun x y => Before x.1 y.1

variable {f g : Engine α} {l m : Language α}

theorem mem_andThen {s r : List α} {c : Choices} :
    (c, r) ∈ andThen f g s ↔ ∃ d t, (d, t) ∈ f s ∧ ∃ e, (e, r) ∈ g t ∧ d ++ e = c := by
  simp only [andThen, List.mem_flatMap, List.mem_map, Prod.exists, Prod.mk.injEq]
  constructor
  · rintro ⟨d, t, ht, e, r', hr, rfl, rfl⟩
    exact ⟨d, t, ht, e, hr, rfl⟩
  · rintro ⟨d, t, ht, e, hr, rfl⟩
    exact ⟨d, t, ht, e, r, hr, rfl, rfl⟩

theorem mem_choice {b : Bool} {matched : List (Choices × List α)} {c : Choices} {r : List α} :
    (c, r) ∈ choice b matched ↔ ∃ d, (d, r) ∈ matched ∧ b :: d = c := by
  simp only [choice, List.mem_map, Prod.exists, Prod.mk.injEq]
  constructor
  · rintro ⟨d, r', hr, rfl, rfl⟩
    exact ⟨d, hr, rfl⟩
  · rintro ⟨d, hr, rfl⟩
    exact ⟨d, r, hr, rfl, rfl⟩

/-- What is left after one engine and another. -/
theorem exists_mem_andThen {s r : List α} :
    (∃ c, (c, r) ∈ andThen f g s) ↔ ∃ t, (∃ c, (c, t) ∈ f s) ∧ ∃ c, (c, r) ∈ g t := by
  constructor
  · rintro ⟨c, hc⟩
    obtain ⟨d, t, ht, e, hr, -⟩ := mem_andThen.mp hc
    exact ⟨t, ⟨d, ht⟩, e, hr⟩
  · rintro ⟨t, ⟨d, ht⟩, e, hr⟩
    exact ⟨d ++ e, mem_andThen.mpr ⟨d, t, ht, e, hr, rfl⟩⟩

theorem exists_mem_choice {b : Bool} {matched : List (Choices × List α)} {r : List α} :
    (∃ c, (c, r) ∈ choice b matched) ↔ ∃ c, (c, r) ∈ matched := by
  constructor
  · rintro ⟨c, hc⟩
    obtain ⟨d, hd, -⟩ := mem_choice.mp hc
    exact ⟨d, hd⟩
  · rintro ⟨d, hd⟩
    exact ⟨b :: d, mem_choice.mpr ⟨d, hd, rfl⟩⟩

/-! ### What an engine lists -/

theorem Lists.andThen (hf : Lists f l) (hg : Lists g m) : Lists (andThen f g) (l * m) := by
  intro s r
  rw [exists_mem_andThen]
  constructor
  · rintro ⟨t, ht, hr⟩
    obtain ⟨w, hw, rfl⟩ := (hf s t).mp ht
    obtain ⟨v, hv, rfl⟩ := (hg t r).mp hr
    exact ⟨w ++ v, Language.append_mem_mul hw hv, List.append_assoc w v r⟩
  · rintro ⟨_, hwv, rfl⟩
    obtain ⟨w, hw, v, hv, rfl⟩ := Language.mem_mul.mp hwv
    rw [List.append_assoc]
    exact ⟨v ++ r, (hf _ _).mpr ⟨w, hw, rfl⟩, (hg _ _).mpr ⟨v, hv, rfl⟩⟩

theorem lists_one : Lists (fun s : List α => [([], s)]) 1 := by
  intro s r
  simp [eq_comm]

theorem Lists.exactly (h : Lists f l) (n : ℕ) : Lists (exactly f n) (l ^ n) := by
  induction n with
  | zero => exact lists_one
  | succ n ih =>
      rw [pow_succ']
      exact h.andThen ih

/-- What one more repetition leaves. -/
theorem exists_mem_upTo_succ {greedy : Bool} {n : ℕ} {s r : List α} :
    (∃ c, (c, r) ∈ upTo greedy f (n + 1) s) ↔ r = s ∨ ∃ t, (∃ c, (c, t) ∈ f s) ∧
      if t.length < s.length then ∃ c, (c, r) ∈ upTo greedy f n t else r = t := by
  have hagain : (∃ c, (c, r) ∈ Engine.andThen f
      (fun t => if t.length < s.length then upTo greedy f n t else [([], t)]) s) ↔
      ∃ t, (∃ c, (c, t) ∈ f s) ∧
        if t.length < s.length then ∃ c, (c, r) ∈ upTo greedy f n t else r = t := by
    rw [exists_mem_andThen]
    refine exists_congr fun t => and_congr_right fun _ => ?_
    split
    · rfl
    · simp
  rw [upTo]
  cases greedy
  · simp only [Bool.false_eq_true, if_false, List.mem_cons, Prod.mk.injEq, exists_or,
      exists_mem_choice, hagain]
    simp
  · simp only [if_true, List.mem_append, List.mem_singleton, Prod.mk.injEq, exists_or,
      exists_mem_choice, hagain]
    simp [or_comm]

/-- What is left is left by a number of words. -/
theorem exists_of_mem_upTo (h : Lists f l) (greedy : Bool) (n : ℕ) {s r : List α}
    (hr : ∃ c, (c, r) ∈ upTo greedy f n s) : ∃ m ≤ n, ∃ w ∈ l ^ m, w ++ r = s := by
  induction n generalizing s with
  | zero =>
      obtain ⟨c, hc⟩ := hr
      obtain ⟨-, rfl⟩ := Prod.mk.inj (List.mem_singleton.mp hc)
      exact ⟨0, le_refl 0, [], by simp, rfl⟩
  | succ n ih =>
      rcases exists_mem_upTo_succ.mp hr with rfl | ⟨t, ht, hrest⟩
      · exact ⟨0, Nat.zero_le _, [], by simp, rfl⟩
      obtain ⟨w, hw, rfl⟩ := (h s t).mp ht
      split at hrest
      · obtain ⟨m, hm, v, hv, rfl⟩ := ih hrest
        refine ⟨m + 1, Nat.succ_le_succ hm, w ++ v, ?_, List.append_assoc w v r⟩
        rw [pow_succ']
        exact Language.append_mem_mul hw hv
      · subst hrest
        exact ⟨1, Nat.succ_le_succ (Nat.zero_le n), w, by rwa [pow_one], rfl⟩

/-- Words that are no more than the bound, or whatever their number if the bound is the length
of the text. -/
theorem mem_upTo (h : Lists f l) (greedy : Bool) {m n : ℕ} {w s r : List α} (hw : w ∈ l ^ m)
    (hs : w ++ r = s) (hbound : m ≤ n ∨ s.length ≤ n) : ∃ c, (c, r) ∈ upTo greedy f n s := by
  induction m generalizing n w s with
  | zero =>
      rw [pow_zero, Language.mem_one] at hw
      subst hw
      subst hs
      cases n with
      | zero => exact ⟨[], List.mem_singleton_self _⟩
      | succ n => exact exists_mem_upTo_succ.mpr (.inl rfl)
  | succ m ih =>
      rw [pow_succ'] at hw
      obtain ⟨v, hv, x, hx, rfl⟩ := Language.mem_mul.mp hw
      rcases List.eq_nil_or_concat v with rfl | ⟨_, _, hne⟩
      · exact ih hx hs (hbound.imp_left (le_trans (Nat.le_succ m)))
      · have hlength : 0 < v.length := by rw [hne]; simp
        rw [List.append_assoc] at hs
        have hshorter : (x ++ r).length < s.length := by
          rw [← hs, @List.length_append _ v]
          omega
        cases n with
        | zero => omega
        | succ n =>
            refine exists_mem_upTo_succ.mpr (.inr ⟨x ++ r, (h _ _).mpr ⟨v, hv, hs⟩, ?_⟩)
            rw [if_pos hshorter]
            exact ih hx rfl (by omega)

/-! ### In which order -/

theorem Sorted.andThen {s : List α} (hf : Sorted f) (hg : ∀ t, (g t).Pairwise fun x y =>
    Before x.1 y.1) : (Engine.andThen f g s).Pairwise fun x y => Before x.1 y.1 := by
  rw [Engine.andThen, List.pairwise_flatMap]
  refine ⟨fun x _ => ?_, (hf s).imp fun hbefore => ?_⟩
  · rw [List.pairwise_map]
    exact (hg x.2).imp fun hbefore => hbefore.append_left x.1
  · simp only [List.mem_map]
    rintro _ ⟨y, -, rfl⟩ _ ⟨z, -, rfl⟩
    exact hbefore.append_right y.1 z.1

theorem pairwise_choice {b : Bool} {matched : List (Choices × List α)}
    (h : matched.Pairwise fun x y => Before x.1 y.1) :
    (choice b matched).Pairwise fun x y => Before x.1 y.1 := by
  rw [choice, List.pairwise_map]
  exact h.imp fun hbefore => hbefore.cons b

theorem Sorted.exactly (h : Sorted f) (n : ℕ) : Sorted (Engine.exactly f n) := by
  induction n with
  | zero => exact fun s => List.pairwise_singleton _ _
  | succ n ih => exact fun s => h.andThen ih

theorem Sorted.upTo (h : Sorted f) (greedy : Bool) (n : ℕ) :
    Sorted (Engine.upTo greedy f n) := by
  induction n with
  | zero => exact fun s => List.pairwise_singleton _ _
  | succ n ih =>
      intro s
      have hagain : (Engine.andThen f (fun t => if t.length < s.length then
          Engine.upTo greedy f n t else [([], t)]) s).Pairwise fun x y => Before x.1 y.1 := by
        refine h.andThen fun t => ?_
        split
        · exact ih t
        · exact List.pairwise_singleton _ _
      cases greedy
      · simp only [Engine.upTo, Bool.false_eq_true, if_false, List.pairwise_cons]
        refine ⟨fun x hx => ?_, pairwise_choice hagain⟩
        obtain ⟨y, -, rfl⟩ := List.mem_map.mp hx
        exact before_false_true _ _
      · simp only [Engine.upTo, if_true, List.pairwise_append]
        refine ⟨pairwise_choice hagain, List.pairwise_singleton _ _, fun x hx y hy => ?_⟩
        obtain ⟨z, -, rfl⟩ := List.mem_map.mp hx
        obtain rfl := List.mem_singleton.mp hy
        exact before_false_true _ _

end Engine

/-! ### Patterns -/

namespace Pattern

/-- A character. -/
def literal [DecidableEq α] (a : α) : Pattern α := char (· = a)

/-- A text. -/
def text [DecidableEq α] : List α → Pattern α
  | [] => nothing
  | a :: s => seq (literal a) (text s)

/-- The **language** of a pattern. -/
def language : Pattern α → Language α
  | nothing => 1
  | char accepts => {w | ∃ a, accepts a = true ∧ w = [a]}
  | seq p q => p.language * q.language
  | alt p q => p.language + q.language
  | rep _ p least more => {w | ∃ n, (∀ m ∈ more, n ≤ m) ∧ w ∈ p.language ^ (least + n)}

open Engine in
/-- The **matches** at the beginning of a text, as the engine tries them. As every repetition but
the last takes a character, a text has no more of them than characters. -/
def ways : Pattern α → Engine α
  | nothing => fun s => [([], s)]
  | char accepts => fun
    | [] => []
    | a :: s => if accepts a then [([], s)] else []
  | seq p q => andThen p.ways q.ways
  | alt p q => fun s => choice false (p.ways s) ++ choice true (q.ways s)
  | rep greedy p least more =>
      andThen (exactly p.ways least) fun r => upTo greedy p.ways (more.getD (r.length + 1)) r

/-- **The engine tries exactly the words of the language.** -/
theorem lists_ways (p : Pattern α) : p.ways.Lists p.language := by
  induction p with
  | nothing => exact Engine.lists_one
  | char accepts =>
      intro s r
      cases s with
      | nil =>
          refine iff_of_false (by simp [ways]) ?_
          rintro ⟨_, ⟨a, -, rfl⟩, happend⟩
          cases happend
      | cons a s =>
          simp only [ways]
          constructor
          · rintro ⟨c, hc⟩
            split at hc
            · next ha =>
                obtain ⟨-, rfl⟩ := Prod.mk.inj (List.mem_singleton.mp hc)
                exact ⟨[a], ⟨a, ha, rfl⟩, rfl⟩
            · cases hc
          · rintro ⟨_, ⟨b, hb, rfl⟩, happend⟩
            obtain ⟨rfl, rfl⟩ := List.cons.inj happend
            rw [if_pos hb]
            exact ⟨[], List.mem_singleton_self _⟩
  | seq p q ihp ihq => exact ihp.andThen ihq
  | alt p q ihp ihq =>
      intro s r
      simp only [ways, language, List.mem_append, exists_or, Engine.exists_mem_choice, ihp s r,
        ihq s r, Language.mem_add, or_and_right]
  | rep greedy p least more ih =>
      intro s r
      rw [ways, Engine.exists_mem_andThen, language]
      constructor
      · rintro ⟨t, ht, hr⟩
        obtain ⟨w, hw, rfl⟩ := (ih.exactly least s t).mp ht
        obtain ⟨n, hn, v, hv, rfl⟩ := Engine.exists_of_mem_upTo ih greedy _ hr
        refine ⟨w ++ v, ⟨n, ?_, ?_⟩, List.append_assoc w v r⟩
        · rintro m ⟨⟩
          exact hn
        · rw [pow_add]
          exact Language.append_mem_mul hw hv
      · rintro ⟨_, ⟨n, hn, hwv⟩, rfl⟩
        rw [pow_add] at hwv
        obtain ⟨w, hw, v, hv, rfl⟩ := Language.mem_mul.mp hwv
        rw [List.append_assoc]
        refine ⟨v ++ r, (ih.exactly least _ _).mpr ⟨w, hw, rfl⟩,
          Engine.mem_upTo ih greedy hv rfl ?_⟩
        cases more with
        | none => exact .inr (Nat.le_succ _)
        | some m => exact .inl (hn m rfl)

/-- **The engine tries its matches in the order of their choices.** -/
theorem sorted_ways (p : Pattern α) : p.ways.Sorted := by
  induction p with
  | nothing => exact fun s => List.pairwise_singleton _ _
  | char accepts =>
      intro s
      cases s with
      | nil => exact List.Pairwise.nil
      | cons a s =>
          simp only [ways]
          split
          · exact List.pairwise_singleton _ _
          · exact List.Pairwise.nil
  | seq p q ihp ihq => exact fun s => ihp.andThen ihq
  | alt p q ihp ihq =>
      intro s
      rw [ways, List.pairwise_append]
      refine ⟨Engine.pairwise_choice (ihp s), Engine.pairwise_choice (ihq s), fun x hx y hy => ?_⟩
      obtain ⟨x, -, rfl⟩ := List.mem_map.mp hx
      obtain ⟨y, -, rfl⟩ := List.mem_map.mp hy
      exact before_false_true _ _
  | rep greedy p least more ih =>
      exact fun s => (ih.exactly least).andThen fun t => ih.upTo greedy _ t

/-! ### The first match -/

/-- The text of the first match at the beginning of the input. -/
def first (p : Pattern α) (s : List α) : Option (List α) :=
  (p.ways s).head?.map fun x => s.take (s.length - x.2.length)

/-- The text of the first match, where any begins. -/
def leftmost (p : Pattern α) (s : List α) : Option (List α) := s.tails.findSome? p.first

/-- **All of the text is preferred**: every match of less comes after a match of all. -/
def PrefersAll (p : Pattern α) (s : List α) : Prop :=
  ∀ x ∈ p.ways s, x.2 ≠ [] → ∃ y ∈ p.ways s, y.2 = [] ∧ Before y.1 x.1

/-- A text is in the language of a pattern if the engine can match all of it. -/
theorem mem_language_iff (p : Pattern α) (s : List α) :
    s ∈ p.language ↔ ∃ x ∈ p.ways s, x.2 = [] := by
  have hlists := p.lists_ways s []
  simp only [List.append_nil, exists_eq_right] at hlists
  rw [← hlists]
  constructor
  · rintro ⟨c, hc⟩
    exact ⟨_, hc, rfl⟩
  · rintro ⟨⟨c, r⟩, hc, rfl⟩
    exact ⟨c, hc⟩

/-- The first match is the preferred one. -/
theorem head_eq_nil_iff (p : Pattern α) (s : List α) :
    (∃ x rest, p.ways s = x :: rest ∧ x.2 = []) ↔ s ∈ p.language ∧ p.PrefersAll s := by
  have hsorted := p.sorted_ways s
  rw [mem_language_iff, PrefersAll]
  constructor
  · rintro ⟨x, rest, hways, hx⟩
    rw [hways] at hsorted ⊢
    refine ⟨⟨x, List.mem_cons_self, hx⟩, fun y hy hne => ⟨x, List.mem_cons_self, hx, ?_⟩⟩
    rcases List.mem_cons.mp hy with rfl | hy
    · exact absurd hx hne
    · exact (List.pairwise_cons.mp hsorted).1 y hy
  · rintro ⟨⟨y, hy, -⟩, hprefers⟩
    cases hways : p.ways s with
    | nil =>
        rw [hways] at hy
        cases hy
    | cons x rest =>
        rw [hways] at hsorted hprefers
        refine ⟨x, rest, rfl, not_not.mp fun hne => ?_⟩
        obtain ⟨z, hz, hz', hbefore⟩ := hprefers x List.mem_cons_self hne
        rcases List.mem_cons.mp hz with rfl | hz
        · exact hne hz'
        · exact hbefore.asymm ((List.pairwise_cons.mp hsorted).1 z hz)

/-- A match at a beginning has the length of what was taken. -/
theorem first_eq_some {p : Pattern α} {s w : List α} (h : p.first s = some w) :
    ∃ x rest, p.ways s = x :: rest ∧ w = s.take (s.length - x.2.length) := by
  rw [first] at h
  cases hways : p.ways s with
  | nil => simp [hways] at h
  | cons x rest => exact ⟨x, rest, rfl, by simpa [hways, eq_comm] using h⟩

/-- **When the first match is the whole input.** -/
theorem leftmost_eq_self_iff (p : Pattern α) {s : List α} (hne : s ≠ []) :
    p.leftmost s = some s ↔ s ∈ p.language ∧ p.PrefersAll s := by
  obtain ⟨a, t, rfl⟩ := List.exists_cons_of_ne_nil hne
  rw [leftmost, ← head_eq_nil_iff, List.tails_cons, List.findSome?_cons]
  constructor
  · intro h
    cases hfirst : p.first (a :: t) with
    | some w =>
        rw [hfirst] at h
        obtain rfl := Option.some.inj h
        obtain ⟨x, rest, hways, htake⟩ := first_eq_some hfirst
        have hlength := congrArg List.length htake
        rw [List.length_take, List.length_cons] at hlength
        exact ⟨x, rest, hways, List.length_eq_zero_iff.mp (by omega)⟩
    | none =>
        rw [hfirst] at h
        obtain ⟨s, hs, hw⟩ := List.exists_of_findSome?_eq_some h
        obtain ⟨x, rest, -, htake⟩ := first_eq_some hw
        have hshorter := ((List.mem_tails _ _).mp hs).length_le
        have hlength := congrArg List.length htake
        rw [List.length_take, List.length_cons] at hlength
        omega
  · rintro ⟨x, rest, hways, hx⟩
    have hfirst : p.first (a :: t) = some (a :: t) := by simp [first, hways, hx]
    rw [hfirst]

/-- All of the text is preferred if no beginning of it is a match. -/
theorem prefersAll_of_no_prefix {p : Pattern α} {s : List α}
    (hno : ∀ w ∈ p.language, w <+: s → w = s) : p.PrefersAll s := by
  rintro ⟨c, r⟩ hc hne
  obtain ⟨w, hw, happend⟩ := (p.lists_ways s r).mp ⟨c, hc⟩
  obtain rfl := hno w hw ⟨r, happend⟩
  exact absurd (List.append_right_eq_self.mp happend) hne

end Pattern

end Backtrack
