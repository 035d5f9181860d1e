import Fctf.FlagCompare
import Mathlib.Data.List.Perm.Basic

/-!
# The Order of the Flags

`Attempt` goes through the flags of a challenge as the database returns them, in no particular
order. It ends at the first flag that the submission matches, and also at the first one whose
pattern the regular expressions of the runtime refuse or run too long on.

## Main results

* `findSome?_perm_iff`: when the first decision of a list does not depend on its order.
* `ChallengeHelper.orderFree_iff`: when the order of the flags does not matter.
-/

/-- **The first decision** does not depend on the order of a list exactly if all decisions are
the same. -/
theorem findSome?_perm_iff {α β : Type} (g : α → Option β) (l : List α) :
    (∀ l' : List α, l'.Perm l → l'.findSome? g = l.findSome? g) ↔
      ∀ a ∈ l, ∀ b ∈ l, ∀ x ∈ g a, ∀ y ∈ g b, x = y := by
  constructor
  · intro h a ha b hb x hx y hy
    have hfirst {c : α} {z : β} (hc : c ∈ l) (hz : g c = some z) : l.findSome? g = some z := by
      obtain ⟨s, t, rfl⟩ := List.append_of_mem hc
      rw [← h _ List.perm_middle.symm, List.findSome?_cons, hz]
    exact Option.some.inj ((hfirst ha hx).symm.trans (hfirst hb hy))
  · intro h l' hperm
    cases hl : l.findSome? g with
    | none =>
        rw [List.findSome?_eq_none_iff] at hl ⊢
        exact fun a ha => hl a (hperm.mem_iff.mp ha)
    | some x =>
        obtain ⟨a, ha, hx⟩ := List.exists_of_findSome?_eq_some hl
        cases hl' : l'.findSome? g with
        | none =>
            rw [List.findSome?_eq_none_iff] at hl'
            exact absurd (hl' a (hperm.mem_iff.mpr ha)) (by simp [hx])
        | some y =>
            obtain ⟨b, hb, hy⟩ := List.exists_of_findSome?_eq_some hl'
            rw [h a ha b (hperm.mem_iff.mp hb) x hx y hy]

namespace Fctf

namespace ChallengeHelper

/-- Does the submission match the flag? -/
def meets (rt : Runtime) (provided : Utf16) (flag : Flag) : Bool :=
  compare rt flag provided = .ok true

/-- Do the regular expressions of the runtime raise on the flag? -/
def breaks (rt : Runtime) (provided : Utf16) (flag : Flag) : Bool :=
  flag.type = .regex &&
    (rt.regexMatch flag.caseInsensitive provided (flag.content.getD [])).toOption.isNone

/-- What a flag decides. -/
def decision (rt : Runtime) (provided : Utf16) (flag : Flag) : Option (Except Exn AttemptDTO) :=
  match compare rt flag provided with
  | .ok true => some (.ok ⟨true, "Correct"⟩)
  | .ok false => none
  | .error .flag => some (.ok ⟨false, "Regex parse error occured"⟩)
  | .error e => some (.error e)

/-- The first flag that decides. -/
theorem attempt_eq_findSome? (rt : Runtime) (provided : Utf16) (flags : List Flag) :
    attempt rt provided flags =
      (flags.findSome? (decision rt provided)).getD (.ok ⟨false, "Incorrect"⟩) := by
  induction flags with
  | nil => rfl
  | cons flag flags ih =>
      rw [attempt, List.findSome?_cons, decision]
      cases compare rt flag provided with
      | ok met =>
          cases met with
          | true => rfl
          | false => exact ih
      | error e => cases e <;> rfl

section Decision

variable {rt : Runtime} {provided : Utf16} {flag : Flag}

/-- What a flag whose type is known decides. -/
theorem decision_eq (h : flag.type ≠ .unknown) : decision rt provided flag =
    if meets rt provided flag then some (.ok ⟨true, "Correct"⟩)
    else if breaks rt provided flag then some (.ok ⟨false, "Regex parse error occured"⟩)
    else none := by
  obtain ⟨type, content, caseInsensitive⟩ := flag
  cases type with
  | static =>
      rw [decision, meets, breaks, compare]
      cases compareStatic rt ⟨.static, content, caseInsensitive⟩ provided <;> rfl
  | regex =>
      rw [decision, meets, breaks, compare]
      dsimp only
      rw [compareRegex]
      cases rt.regexMatch caseInsensitive provided (content.getD []) with
      | error e => rfl
      | ok m => cases hm : m == some provided <;> simp [Except.toOption, hm]
  | unknown => exact absurd rfl h

/-- A flag that breaks is not met. -/
theorem meets_eq_false_of_breaks (h : breaks rt provided flag = true) :
    meets rt provided flag = false := by
  obtain ⟨type, content, caseInsensitive⟩ := flag
  rw [breaks, Bool.and_eq_true] at h
  obtain rfl := of_decide_eq_true h.1
  have hmatch := h.2
  rw [meets, compare]
  dsimp only at hmatch ⊢
  rw [compareRegex]
  cases hm : rt.regexMatch caseInsensitive provided (content.getD []) with
  | error e => rfl
  | ok m =>
      rw [hm] at hmatch
      cases hmatch

end Decision

/-- **The order of the flags does not matter** for a submission: it is correct exactly if it
meets one of them, and any other order gives the same result. -/
structure OrderFree (rt : Runtime) (provided : Utf16) (flags : List Flag) : Prop where
  /-- One flag that is met is enough. -/
  accepts : (∃ a, attempt rt provided flags = .ok a ∧ a.status = true) ↔
    ∃ flag ∈ flags, meets rt provided flag = true
  /-- Any order will do. -/
  anyOrder : ∀ flags' : List Flag, flags'.Perm flags →
    attempt rt provided flags' = attempt rt provided flags

section Law

variable {rt : Runtime} {provided : Utf16} {flags : List Flag}

/-- Whatever the flags are, the result tells how the first decision came out. -/
theorem decision_mem (hknown : ∀ flag ∈ flags, flag.type ≠ .unknown) {flag : Flag}
    (hflag : flag ∈ flags) {x : Except Exn AttemptDTO} (hx : x ∈ decision rt provided flag) :
    (x = .ok ⟨true, "Correct"⟩ ∧ meets rt provided flag = true) ∨
      (x = .ok ⟨false, "Regex parse error occured"⟩ ∧ breaks rt provided flag = true) := by
  rw [decision_eq (hknown flag hflag)] at hx
  split at hx
  · next hmeets => exact .inl ⟨(Option.some.inj hx).symm, hmeets⟩
  · split at hx
    · next hbreaks => exact .inr ⟨(Option.some.inj hx).symm, hbreaks⟩
    · cases hx

/-- A submission is correct if the first decision is that it is. -/
theorem correct_iff (hknown : ∀ flag ∈ flags, flag.type ≠ .unknown) :
    (∃ a, attempt rt provided flags = .ok a ∧ a.status = true) ↔
      flags.findSome? (decision rt provided) = some (.ok ⟨true, "Correct"⟩) := by
  rw [attempt_eq_findSome?]
  constructor
  · rintro ⟨a, ha, hstatus⟩
    cases hfirst : flags.findSome? (decision rt provided) with
    | none =>
        rw [hfirst] at ha
        obtain rfl := Except.ok.inj ha
        cases hstatus
    | some x =>
        obtain ⟨flag, hflag, hx⟩ := List.exists_of_findSome?_eq_some hfirst
        rw [hfirst, Option.getD_some] at ha
        rcases decision_mem hknown hflag hx with ⟨rfl, -⟩ | ⟨rfl, -⟩
        · rfl
        · obtain rfl := Except.ok.inj ha
          cases hstatus
  · intro hfirst
    exact ⟨_, by rw [hfirst, Option.getD_some], rfl⟩

/-- If all decisions are the same, the order does not matter. -/
theorem attempt_perm (hsame : ∀ a ∈ flags, ∀ b ∈ flags, ∀ x ∈ decision rt provided a,
    ∀ y ∈ decision rt provided b, x = y) {flags' : List Flag} (hperm : flags'.Perm flags) :
    attempt rt provided flags' = attempt rt provided flags := by
  rw [attempt_eq_findSome?, attempt_eq_findSome?, (findSome?_perm_iff _ flags).mpr hsame _ hperm]

/-- A flag that is met and one that breaks, in any order. -/
theorem attempt_cons {flag : Flag} (hflag : flag ∈ flags) {x : Except Exn AttemptDTO}
    (hx : decision rt provided flag = some x) :
    ∃ flags' : List Flag, flags'.Perm flags ∧ attempt rt provided flags' = x := by
  obtain ⟨s, t, rfl⟩ := List.append_of_mem hflag
  refine ⟨flag :: (s ++ t), List.perm_middle.symm, ?_⟩
  rw [attempt_eq_findSome?, List.findSome?_cons, hx, Option.getD_some]

/-- **When the order of the flags does not matter**: unless the submission meets one flag and
the pattern of another one breaks on it. -/
theorem orderFree_iff (hknown : ∀ flag ∈ flags, flag.type ≠ .unknown) :
    OrderFree rt provided flags ↔
      (∀ flag ∈ flags, breaks rt provided flag = false) ∨
        ∀ flag ∈ flags, meets rt provided flag = false := by
  constructor
  · intro h
    by_contra hboth
    simp only [not_or, not_forall, Bool.not_eq_false] at hboth
    obtain ⟨⟨broken, hbroken, hbreaks⟩, met, hmet, hmeets⟩ := hboth
    have hmetDecides := @decision_eq rt provided _ (hknown met hmet)
    have hbrokenDecides := @decision_eq rt provided _ (hknown broken hbroken)
    rw [if_pos hmeets] at hmetDecides
    rw [meets_eq_false_of_breaks hbreaks, if_neg Bool.false_ne_true, if_pos hbreaks]
      at hbrokenDecides
    obtain ⟨l, hl, hcorrect⟩ := attempt_cons hmet hmetDecides
    obtain ⟨l', hl', hwrong⟩ := attempt_cons hbroken hbrokenDecides
    rw [h.anyOrder l hl, ← h.anyOrder l' hl', hwrong] at hcorrect
    simp at hcorrect
  · rintro (hsound | hnone)
    · have hdecision {flag : Flag} (hflag : flag ∈ flags) {x : Except Exn AttemptDTO}
          (hx : x ∈ decision rt provided flag) :
          x = .ok ⟨true, "Correct"⟩ ∧ meets rt provided flag = true := by
        refine (decision_mem hknown hflag hx).resolve_right fun hbroken => ?_
        rw [hsound flag hflag] at hbroken
        cases hbroken.2
      refine ⟨(correct_iff hknown).trans ⟨fun hfirst => ?_, ?_⟩, fun flags' => attempt_perm ?_⟩
      · obtain ⟨flag, hflag, hx⟩ := List.exists_of_findSome?_eq_some hfirst
        exact ⟨flag, hflag, (hdecision hflag hx).2⟩
      · rintro ⟨flag, hflag, hmeets⟩
        have hdecides := @decision_eq rt provided _ (hknown flag hflag)
        rw [if_pos hmeets] at hdecides
        cases hfirst : flags.findSome? (decision rt provided) with
        | none =>
            rw [List.findSome?_eq_none_iff] at hfirst
            rw [hfirst flag hflag] at hdecides
            cases hdecides
        | some x =>
            obtain ⟨first, hfirstMem, hx⟩ := List.exists_of_findSome?_eq_some hfirst
            rw [(hdecision hfirstMem hx).1]
      · intro a ha b hb x hx y hy
        rw [(hdecision ha hx).1, (hdecision hb hy).1]
    · have hdecision {flag : Flag} (hflag : flag ∈ flags) {x : Except Exn AttemptDTO}
          (hx : x ∈ decision rt provided flag) :
          x = .ok ⟨false, "Regex parse error occured"⟩ := by
        refine ((decision_mem hknown hflag hx).resolve_left fun hmet => ?_).1
        rw [hnone flag hflag] at hmet
        cases hmet.2
      refine ⟨iff_of_false (fun hcorrect => ?_) ?_, fun flags' => attempt_perm ?_⟩
      · obtain ⟨flag, hflag, hx⟩ :=
          List.exists_of_findSome?_eq_some ((correct_iff hknown).mp hcorrect)
        exact absurd (hdecision hflag hx) (by simp)
      · rintro ⟨flag, hflag, hmeets⟩
        rw [hnone flag hflag] at hmeets
        cases hmeets
      · intro a ha b hb x hx y hy
        rw [hdecision ha hx, hdecision hb hy]

end Law

/-- A runtime that knows the letters of ASCII, and no pattern but a text. -/
def literalRuntime : Runtime where
  toLowerInvariant c := if 0x0041#16 ≤ c ∧ c ≤ 0x005A#16 then c + 0x0020#16 else c
  regexMatch _ input pattern :=
    if pattern.contains 0x0028#16 then .error () else
      .ok (if input = pattern then some input else none)

/-- The flag `flag`, and a pattern that is not closed. -/
def flagAndOpenGroup : List Flag :=
  [⟨.static, some [0x0066#16, 0x006C#16, 0x0061#16, 0x0067#16], true⟩,
    ⟨.regex, some [0x0028#16], false⟩]

/-- Another text does not meet the flag, in any order. -/
theorem orderFree_example : OrderFree literalRuntime [0x0066#16] flagAndOpenGroup :=
  (orderFree_iff (by decide)).mpr (.inr (by decide))

/-- **What goes wrong.** A submission that meets a flag is wrong if a pattern that is not closed
comes first. -/
theorem not_orderFree :
    ¬OrderFree literalRuntime [0x0046#16, 0x006C#16, 0x0061#16, 0x0067#16] flagAndOpenGroup ∧
      attempt literalRuntime [0x0046#16, 0x006C#16, 0x0061#16, 0x0067#16] flagAndOpenGroup =
        .ok ⟨true, "Correct"⟩ ∧
      attempt literalRuntime [0x0046#16, 0x006C#16, 0x0061#16, 0x0067#16]
        flagAndOpenGroup.reverse = .ok ⟨false, "Regex parse error occured"⟩ := by
  have hfirst : attempt literalRuntime [0x0046#16, 0x006C#16, 0x0061#16, 0x0067#16]
      flagAndOpenGroup = .ok ⟨true, "Correct"⟩ := by
    decide
  have hlast : attempt literalRuntime [0x0046#16, 0x006C#16, 0x0061#16, 0x0067#16]
      flagAndOpenGroup.reverse = .ok ⟨false, "Regex parse error occured"⟩ := by
    decide
  refine ⟨fun h => ?_, hfirst, hlast⟩
  have hsame := h.anyOrder _ (List.reverse_perm flagAndOpenGroup)
  rw [hfirst, hlast] at hsame
  simp at hsame

end ChallengeHelper

end Fctf
