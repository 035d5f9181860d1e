import Mathlib.Data.List.Nodup
import Mathlib.Data.List.Sort
import Mathlib.Order.Basic

/-!
# Rankings

A list without repetitions as a ranking of its elements, and what a stable sort makes of it.

## Main results

* `precedes_insertionSort`: who stands before whom after a stable sort.
* `forall_perm_insertionSort_iff`: what every sorted order of a list satisfies.
* `eq_of_precedes`, `insertionSort_eq_iff`: a ranking is determined by who stands before
  whom.
* `idxOf_filter`: a place as the number of those before.
* `idxOf_eq_iff`: when the elements of one ranking have the same places in a larger one.
-/

namespace Ranking

variable {α : Type*}

/-- One element stands before another. -/
def Precedes (l : List α) (a b : α) : Prop := [a, b].Sublist l

theorem precedes_cons {x : α} {l : List α} {a b : α} :
    Precedes (x :: l) a b ↔ x = a ∧ b ∈ l ∨ Precedes l a b := by
  rw [Precedes, List.sublist_cons_iff, or_comm]
  refine or_congr ?_ Iff.rfl
  constructor
  · rintro ⟨r, hr, hsub⟩
    obtain ⟨rfl, rfl⟩ := List.cons.inj hr
    exact ⟨rfl, List.singleton_sublist.mp hsub⟩
  · rintro ⟨rfl, hb⟩
    exact ⟨[b], rfl, List.singleton_sublist.mpr hb⟩

theorem Precedes.mem_left {l : List α} {a b : α} (h : Precedes l a b) : a ∈ l :=
  h.subset List.mem_cons_self

theorem Precedes.mem_right {l : List α} {a b : α} (h : Precedes l a b) : b ∈ l :=
  h.subset (List.mem_cons_of_mem _ List.mem_cons_self)

/-- Nobody stands before himself. -/
theorem Precedes.ne {l : List α} (hl : l.Nodup) {a b : α} (h : Precedes l a b) : a ≠ b := by
  rintro rfl
  exact absurd (hl.sublist h) (by simp)

/-- Nor can two stand before each other. -/
theorem Precedes.asymm {l : List α} (hl : l.Nodup) {a b : α} (h : Precedes l a b) :
    ¬Precedes l b a := by
  induction l with
  | nil => cases h
  | cons x l ih =>
      obtain ⟨hx, hl'⟩ := List.nodup_cons.mp hl
      intro h'
      obtain ⟨rfl, hb⟩ | h := precedes_cons.mp h
      · obtain ⟨rfl, -⟩ | h' := precedes_cons.mp h'
        · exact hx hb
        · exact hx h'.mem_right
      · obtain ⟨rfl, -⟩ | h' := precedes_cons.mp h'
        · exact hx h.mem_right
        · exact ih hl' h h'

/-- Of two different elements, one stands before the other. -/
theorem precedes_or {l : List α} {a b : α} (ha : a ∈ l) (hb : b ∈ l) (hne : a ≠ b) :
    Precedes l a b ∨ Precedes l b a := by
  induction l with
  | nil => cases ha
  | cons x l ih =>
      rcases List.mem_cons.mp ha with rfl | ha'
      · exact .inl (precedes_cons.mpr (.inl ⟨rfl, List.mem_of_ne_of_mem hne.symm hb⟩))
      · rcases List.mem_cons.mp hb with rfl | hb'
        · exact .inr (precedes_cons.mpr (.inl ⟨rfl, ha'⟩))
        · exact (ih ha' hb').imp (fun h => precedes_cons.mpr (.inr h))
            fun h => precedes_cons.mpr (.inr h)

theorem not_precedes_iff {l : List α} (hl : l.Nodup) {a b : α} (ha : a ∈ l) (hb : b ∈ l)
    (hne : a ≠ b) : ¬Precedes l a b ↔ Precedes l b a :=
  ⟨(precedes_or ha hb hne).resolve_left, fun h => h.asymm hl⟩

theorem precedes_filter {p : α → Bool} {l : List α} {a b : α} :
    Precedes (l.filter p) a b ↔ Precedes l a b ∧ p a = true ∧ p b = true := by
  constructor
  · intro h
    exact ⟨h.trans List.filter_sublist, (List.mem_filter.mp h.mem_left).2,
      (List.mem_filter.mp h.mem_right).2⟩
  · rintro ⟨h, ha, hb⟩
    have hpair : [a, b].filter p = [a, b] := by
      rw [List.filter_cons_of_pos ha, List.filter_cons_of_pos hb, List.filter_nil]
    rw [Precedes, ← hpair]
    exact h.filter p

/-- **A ranking is determined** by who stands before whom. -/
theorem eq_of_precedes {l l' : List α} (hl : l.Nodup) (hperm : l.Perm l')
    (h : ∀ a b, Precedes l a b → Precedes l' a b) : l = l' := by
  have hl' : l'.Nodup := hperm.nodup_iff.mp hl
  have hasymm : ∀ a b, a ∈ l → b ∈ l' → Precedes l' a b → Precedes l' b a → a = b :=
    fun a b _ _ hab hba => absurd hba (hab.asymm hl')
  exact hperm.eq_of_pairwise hasymm
    (List.pairwise_iff_forall_sublist.mpr fun hab => h _ _ hab)
    (List.pairwise_iff_forall_sublist.mpr fun hab => hab)

/-! ### Stable sorting -/

section Sorting

variable {r : α → α → Prop} [DecidableRel r]

/-- **A stable sort** leaves two elements as they stand unless it has to turn them round. -/
theorem precedes_insertionSort [Std.Total r] [IsTrans α r] {l : List α} (hl : l.Nodup) {a b : α}
    (ha : a ∈ l) (hb : b ∈ l) (hne : a ≠ b) :
    Precedes (l.insertionSort r) a b ↔ r a b ∧ (Precedes l a b ∨ ¬r b a) := by
  have hsorted : (l.insertionSort r).Nodup := (List.perm_insertionSort r l).nodup_iff.mpr hl
  have hpair : ∀ x y, Precedes (l.insertionSort r) x y → r x y := fun x y h =>
    List.pairwise_iff_forall_sublist.mp (List.pairwise_insertionSort r l) h
  have hmem : ∀ x ∈ l, x ∈ l.insertionSort r := fun x hx => (List.mem_insertionSort r).mpr hx
  constructor
  · intro h
    refine ⟨hpair a b h, ?_⟩
    by_contra hcon
    push Not at hcon
    have hback : Precedes l b a := (not_precedes_iff hl ha hb hne).mp hcon.1
    exact h.asymm hsorted (List.pair_sublist_insertionSort hcon.2 hback)
  · rintro ⟨hab, hl' | hba⟩
    · exact List.pair_sublist_insertionSort hab hl'
    · exact (precedes_or (hmem a ha) (hmem b hb) hne).resolve_right fun h => hba (hpair b a h)

/-- **What every sorted order of a list satisfies**: what the sorting relation implies. -/
theorem forall_perm_insertionSort_iff [Std.Total r] [IsTrans α r] {s : α → α → Prop}
    (hrefl : ∀ a, s a a) {l : List α} :
    (∀ l' : List α, l'.Perm l → (l'.insertionSort r).Pairwise s) ↔
      ∀ a ∈ l, ∀ b ∈ l, r a b → s a b := by
  classical
  constructor
  · intro h a ha b hb hab
    by_cases heq : a = b
    · exact heq ▸ hrefl a
    · have hmem : b ∈ l.erase a := (List.mem_erase_of_ne (Ne.symm heq)).mpr hb
      have hpair : [a, b].Sublist (a :: l.erase a) := (List.singleton_sublist.mpr hmem).cons_cons a
      exact List.pairwise_iff_forall_sublist.mp (h _ (List.perm_cons_erase ha).symm)
        (List.pair_sublist_insertionSort hab hpair)
  · intro h l' hl'
    refine (List.pairwise_insertionSort r l').imp_of_mem fun {a b} ha hb hab => ?_
    exact h a (hl'.mem_iff.mp ((List.mem_insertionSort r).mp ha)) b
      (hl'.mem_iff.mp ((List.mem_insertionSort r).mp hb)) hab

/-- **Two stable sorts** agree if and only if they agree on every two elements, in the order
in which these stand. -/
theorem insertionSort_eq_iff {s : α → α → Prop} [DecidableRel s] [Std.Total r] [IsTrans α r]
    [Std.Total s] [IsTrans α s] {l : List α} (hl : l.Nodup) :
    l.insertionSort r = l.insertionSort s ↔ ∀ a b, Precedes l a b → (r a b ↔ s a b) := by
  constructor
  · intro h a b hab
    have hne := hab.ne hl
    have hr := @precedes_insertionSort _ r _ _ _ l hl a b hab.mem_left hab.mem_right hne
    have hs := @precedes_insertionSort _ s _ _ _ l hl a b hab.mem_left hab.mem_right hne
    rw [h, hs] at hr
    simpa only [hab, true_or, and_true] using hr.symm
  · intro h
    have hperm : (l.insertionSort r).Perm (l.insertionSort s) :=
      (List.perm_insertionSort r l).trans (List.perm_insertionSort s l).symm
    refine eq_of_precedes ((List.perm_insertionSort r l).nodup_iff.mpr hl) hperm
      fun a b hab => ?_
    have hne := hab.ne ((List.perm_insertionSort r l).nodup_iff.mpr hl)
    have ha := (List.mem_insertionSort r).mp hab.mem_left
    have hb := (List.mem_insertionSort r).mp hab.mem_right
    obtain ⟨hrab, hcases⟩ := (precedes_insertionSort hl ha hb hne).mp hab
    refine (precedes_insertionSort hl ha hb hne).mpr ?_
    by_cases hl' : Precedes l a b
    · exact ⟨(h a b hl').mp hrab, .inl hl'⟩
    · have hback : Precedes l b a := (not_precedes_iff hl ha hb hne).mp hl'
      have hnot : ¬s b a := fun hs => hcases.resolve_left hl' ((h b a hback).mpr hs)
      exact ⟨(Std.Total.total a b).resolve_right hnot, .inr hnot⟩

end Sorting

/-! ### Places -/

section Places

variable [DecidableEq α]

/-- The place of an element is the number of those before it. -/
theorem idxOf_eq_length_filter [∀ (l : List α) a b, Decidable (Precedes l a b)] {l : List α}
    (hl : l.Nodup) {t : α} (ht : t ∈ l) :
    l.idxOf t = (l.filter fun u => Precedes l u t).length := by
  induction l with
  | nil => cases ht
  | cons x l ih =>
      obtain ⟨hx, hl'⟩ := List.nodup_cons.mp hl
      by_cases hxt : x = t
      · subst hxt
        rw [List.idxOf_cons_self, eq_comm, List.length_eq_zero_iff, List.filter_eq_nil_iff]
        intro u _ hu
        obtain ⟨rfl, h⟩ | h := precedes_cons.mp (of_decide_eq_true hu)
        · exact hx h
        · exact hx h.mem_right
      · have ht' : t ∈ l := List.mem_of_ne_of_mem (Ne.symm hxt) ht
        have hfirst : Precedes (x :: l) x t := precedes_cons.mpr (.inl ⟨rfl, ht'⟩)
        rw [List.idxOf_cons_ne l hxt, ih hl' ht', List.filter_cons_of_pos (by simpa using hfirst),
          List.length_cons]
        congr 2
        refine List.filter_congr fun u hu => decide_eq_decide.mpr ?_
        rw [precedes_cons]
        refine ⟨.inr, fun h => h.resolve_left ?_⟩
        rintro ⟨rfl, -⟩
        exact hx hu

/-- The place among those that satisfy a predicate is the number of those before it. -/
theorem idxOf_filter {p : α → Bool} {l : List α} {t : α} (ht : t ∈ l) (hp : p t = true) :
    (l.filter p).idxOf t = (l.takeWhile (· ≠ t)).countP p := by
  induction l with
  | nil => cases ht
  | cons x l ih =>
      by_cases hxt : x = t
      · subst hxt
        rw [List.filter_cons_of_pos hp, List.idxOf_cons_self, List.takeWhile_cons_of_neg (by simp),
          List.countP_nil]
      · have ht' : t ∈ l := List.mem_of_ne_of_mem (Ne.symm hxt) ht
        rw [List.takeWhile_cons_of_pos (by simpa using hxt)]
        cases hpx : p x with
        | true =>
            rw [List.filter_cons_of_pos hpx, List.idxOf_cons_ne _ hxt, List.countP_cons_of_pos hpx,
              ih ht']
        | false =>
            rw [List.filter_cons_of_neg (by simp [hpx]), List.countP_cons_of_neg (by simp [hpx]),
              ih ht']

theorem precedes_iff_idxOf_lt {l : List α} (hl : l.Nodup) {a b : α} (ha : a ∈ l) (hb : b ∈ l) :
    Precedes l a b ↔ l.idxOf a < l.idxOf b := by
  induction l with
  | nil => cases ha
  | cons x l ih =>
      obtain ⟨hx, hl'⟩ := List.nodup_cons.mp hl
      rw [precedes_cons]
      by_cases hxa : x = a
      · subst hxa
        by_cases hxb : x = b
        · subst hxb
          refine iff_of_false ?_ (lt_irrefl _)
          rintro (⟨-, h⟩ | h)
          · exact hx h
          · exact hx h.mem_left
        · rw [List.idxOf_cons_self, List.idxOf_cons_ne l hxb]
          exact iff_of_true (.inl ⟨rfl, List.mem_of_ne_of_mem (Ne.symm hxb) hb⟩)
            (Nat.succ_pos _)
      · have ha' : a ∈ l := List.mem_of_ne_of_mem (Ne.symm hxa) ha
        rw [List.idxOf_cons_ne l hxa, or_iff_right fun h => hxa h.1]
        by_cases hxb : x = b
        · subst hxb
          rw [List.idxOf_cons_self]
          exact iff_of_false (fun h => hx h.mem_right) (Nat.not_lt_zero _)
        · rw [List.idxOf_cons_ne l hxb, Nat.succ_lt_succ_iff]
          exact ih hl' ha' (List.mem_of_ne_of_mem (Ne.symm hxb) hb)

/-- **The elements of a ranking** have the same places in a larger one if and only if the
same stand before them. -/
theorem idxOf_eq_iff {l m : List α} (hl : l.Nodup) (hm : m.Nodup) (hsub : ∀ a ∈ m, a ∈ l) :
    (∀ t ∈ m, l.idxOf t = m.idxOf t) ↔
      ∀ t ∈ m, ∀ u ∈ l, Precedes l u t ↔ Precedes m u t := by
  classical
  constructor
  · intro h t ht u hu
    rw [precedes_iff_idxOf_lt hl hu (hsub t ht), h t ht]
    constructor
    · -- whoever has the place of `u` in the smaller ranking is `u`
      intro hlt
      have hlen : l.idxOf u < m.length := hlt.trans (List.idxOf_lt_length_of_mem ht)
      have hplace := h _ (List.getElem_mem hlen)
      rw [hm.idxOf_getElem] at hplace
      have hu' : m[l.idxOf u] = u :=
        (List.idxOf_inj (hsub _ (List.getElem_mem hlen))).mp hplace
      have humem : u ∈ m := hu' ▸ List.getElem_mem hlen
      rw [precedes_iff_idxOf_lt hm humem ht, ← h u humem]
      exact hlt
    · intro hprec
      have humem := hprec.mem_left
      rw [h u humem]
      exact (precedes_iff_idxOf_lt hm humem ht).mp hprec
  · intro h t ht
    rw [idxOf_eq_length_filter hl (hsub t ht), idxOf_eq_length_filter hm ht]
    refine List.Perm.length_eq ((List.perm_ext_iff_of_nodup (hl.filter _) (hm.filter _)).mpr
      fun u => ?_)
    simp only [List.mem_filter, decide_eq_true_eq]
    constructor
    · rintro ⟨hu, hprec⟩
      have hprec' := (h t ht u hu).mp hprec
      exact ⟨hprec'.mem_left, hprec'⟩
    · rintro ⟨hu, hprec⟩
      exact ⟨hsub u hu, (h t ht u (hsub u hu)).mpr hprec⟩

end Places

end Ranking
