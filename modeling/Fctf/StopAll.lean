import Fctf.Keys
import Fctf.Lib.Glob

/-!
# Stopping All Challenges

`DeployService.StopAll` deletes the namespaces of all challenges and then removes the keys
of the deployments by two patterns. The keys begin with the contest, `contest:{id}:…`; the
patterns begin with the kind of the key, and a pattern has to match from the beginning. So
no key of a deployment is ever removed.

## Main results

* `removeCacheByPattern_eq`: what a removal by pattern leaves.
* `stopAll_iff`: when nothing is left behind.
* `not_leavesNothing`: a deployment outlives the clean-up.
-/

open Glob

namespace Fctf

/-! ### The keys -/

/-- `GetKeysByPattern`. -/
def getKeysByPattern (pattern : String) (keys : List String) : List String :=
  keys.filter fun key => Matches (pieces pattern.toList) key.toList

/-- `Chunk`: a list in batches of `n + 1`. -/
def chunk {α : Type} (n : ℕ) : List α → List (List α)
  | [] => []
  | x :: l => (x :: l.take n) :: chunk n (l.drop n)
termination_by l => l.length

/-- Remove the keys of a batch. -/
def keyDelete (keys batch : List String) : List String :=
  batch.foldl (fun keys key => keys.filter (· ≠ key)) keys

/-- `RemoveCacheByPattern`: the keys are removed in batches of a hundred. -/
def removeCacheByPattern (pattern : String) (keys : List String) : List String :=
  (chunk 99 (getKeysByPattern pattern keys)).foldl keyDelete keys

/-! ### The service -/

/-- `BaseResponseDTO`. -/
structure BaseResponseDTO where
  /-- The status. -/
  httpStatusCode : ℕ
  /-- Did it succeed? -/
  success : Bool
  /-- The text. -/
  message : String
  deriving DecidableEq, Repr

/-- What `DeleteAllChallengeNamespaces` has answered. -/
structure DeletedNamespaces where
  /-- How many namespaces are deleted. -/
  successCount : ℕ
  /-- How many are not. -/
  failCount : ℕ
  /-- Why. -/
  errors : List String
  deriving DecidableEq, Repr

/-- `StopAll`, with the answer of the cluster or the text of the exception it has raised. -/
def stopAll (deleted : Except String DeletedNamespaces) (keys : List String) :
    BaseResponseDTO × List String :=
  match deleted with
  | .error e => (⟨500, false, "Error during stopping all challenges: " ++ e⟩, keys)
  | .ok d =>
      let keys := removeCacheByPattern "deploy_challenge_*" keys
      let keys := removeCacheByPattern "active_deploys_team_*" keys
      let message :=
        "Stopped " ++ toString d.successCount ++ " challenge namespace(s) successfully." ++
          if 0 < d.failCount then
            " " ++ toString d.failCount ++ " failed. Errors: " ++ "; ".intercalate d.errors
          else ""
      (⟨if d.failCount = 0 then 200 else 206, decide (d.failCount = 0), message⟩, keys)

/-! ### What it leaves -/

/-- A key that the services keep a deployment under, or the deployments of a team. -/
def IsDeploymentKey (key : String) : Prop :=
  (∃ contestId contestChallengeId teamId,
      key = getCacheKey contestId contestChallengeId teamId) ∨
    ∃ contestId teamId, key = getZSetKKey contestId teamId

/-- **Nothing is left behind** by a clean-up that succeeds, and nothing else is removed. -/
def LeavesNothing (deleted : Except String DeletedNamespaces) (keys : List String) : Prop :=
  (stopAll deleted keys).1.success = true →
    (∀ key ∈ (stopAll deleted keys).2, ¬IsDeploymentKey key) ∧
      ∀ key ∈ keys, ¬IsDeploymentKey key → key ∈ (stopAll deleted keys).2

/-- The clean-up's patterns match keys that begin so. -/
def BeginsAsPattern (key : String) : Prop :=
  "deploy_challenge_".toList <+: key.toList ∨ "active_deploys_team_".toList <+: key.toList

instance (key : String) : Decidable (BeginsAsPattern key) :=
  inferInstanceAs (Decidable (_ ∨ _))

/-! ### Removal by pattern -/

theorem flatten_chunk {α : Type} (n : ℕ) (l : List α) : (chunk n l).flatten = l := by
  fun_induction chunk n l with
  | case1 => rfl
  | case2 x l ih => rw [List.flatten_cons, ih, List.cons_append, List.take_append_drop]

theorem keyDelete_eq (keys batch : List String) :
    keyDelete keys batch = keys.filter fun key => key ∉ batch := by
  induction batch generalizing keys with
  | nil => simp [keyDelete]
  | cons r batch ih =>
      rw [keyDelete, List.foldl_cons, ← keyDelete, ih, List.filter_filter]
      refine List.filter_congr fun key _ => ?_
      rw [Bool.eq_iff_iff]
      simp [and_comm]

theorem foldl_keyDelete (batches : List (List String)) (keys : List String) :
    batches.foldl keyDelete keys = keys.filter fun key => key ∉ batches.flatten := by
  induction batches generalizing keys with
  | nil => simp
  | cons batch batches ih =>
      rw [List.foldl_cons, ih, keyDelete_eq, List.filter_filter]
      refine List.filter_congr fun key _ => ?_
      rw [Bool.eq_iff_iff]
      simp [and_comm]

/-- **What a removal by pattern leaves**: the keys that do not match. -/
theorem removeCacheByPattern_eq (pattern : String) (keys : List String) :
    removeCacheByPattern pattern keys =
      keys.filter fun key => !Matches (pieces pattern.toList) key.toList := by
  rw [removeCacheByPattern, foldl_keyDelete, flatten_chunk]
  refine List.filter_congr fun key hkey => ?_
  rw [Bool.eq_iff_iff]
  simp [getKeysByPattern, hkey]

theorem mem_stopAll_iff {d : DeletedNamespaces} {keys : List String} {key : String} :
    key ∈ (stopAll (.ok d) keys).2 ↔ key ∈ keys ∧ ¬BeginsAsPattern key := by
  have hdeploy : pieces "deploy_challenge_*".toList =
      literal "deploy_challenge_".toList ++ [.star] := by decide
  have hactive : pieces "active_deploys_team_*".toList =
      literal "active_deploys_team_".toList ++ [.star] := by decide
  simp only [stopAll, removeCacheByPattern_eq, List.mem_filter, hdeploy, hactive,
    Bool.not_eq_true', ← Bool.not_eq_true, matches_literal_star, BeginsAsPattern, not_or,
    and_assoc]

/-- A key of a deployment begins with its contest. -/
theorem IsDeploymentKey.not_beginsAsPattern {key : String} (h : IsDeploymentKey key) :
    ¬BeginsAsPattern key := by
  have hcontest : ∃ c name, key = contestKey c name := by
    rcases h with ⟨c, cc, t, rfl⟩ | ⟨c, t, rfl⟩ <;> exact ⟨c, _, rfl⟩
  obtain ⟨c, name, hkey⟩ := hcontest
  have hhead : ∀ {x : Char} {l : List Char}, x ≠ 'c' → ¬x :: l <+: key.toList := by
    rintro x l hx ⟨t, ht⟩
    have hne : key.toList.head? ≠ some 'c' := by
      rw [← ht]
      simpa using hx
    exact contestKey_ne_of_head hne hkey.symm
  rintro (hbefore | hbefore)
  · exact hhead (x := 'd') (by decide) hbefore
  · exact hhead (x := 'a') (by decide) hbefore

/-- **When nothing is left behind**: if the clean-up fails, or if nothing was deployed and no
other key begins as the patterns do. -/
theorem stopAll_iff (deleted : Except String DeletedNamespaces) (keys : List String) :
    LeavesNothing deleted keys ↔
      (∀ d, deleted = .ok d → d.failCount ≠ 0) ∨
        (∀ key ∈ keys, ¬IsDeploymentKey key) ∧ ∀ key ∈ keys, ¬BeginsAsPattern key := by
  cases deleted with
  | error e => simp [LeavesNothing, stopAll]
  | ok d =>
      have hsuccess : (stopAll (.ok d) keys).1.success = true ↔ d.failCount = 0 :=
        decide_eq_true_iff
      simp only [LeavesNothing, hsuccess, mem_stopAll_iff, Except.ok.injEq, forall_eq']
      constructor
      · intro h
        by_cases hfail : d.failCount = 0
        · obtain ⟨hnone, hothers⟩ := h hfail
          have hgone : ∀ key ∈ keys, ¬IsDeploymentKey key := fun key hkey hdep =>
            hnone key ⟨hkey, hdep.not_beginsAsPattern⟩ hdep
          exact .inr ⟨hgone, fun key hkey => (hothers key hkey (hgone key hkey)).2⟩
        · exact .inl hfail
      · rintro (hfail | ⟨hnone, hothers⟩) hzero
        · exact absurd hzero hfail
        · exact ⟨fun key hkey => hnone key hkey.1, fun key hkey _ => ⟨hkey, hothers key hkey⟩⟩

/-- One namespace is deleted, and the deployment's keys are still there. -/
theorem not_leavesNothing :
    ¬LeavesNothing (.ok ⟨1, 0, []⟩) [getCacheKey 1 5 7, getZSetKKey 1 7] := by
  intro h
  have hdep : IsDeploymentKey (getCacheKey 1 5 7) := .inl ⟨1, 5, 7, rfl⟩
  refine (h rfl).1 (getCacheKey 1 5 7) (mem_stopAll_iff.mpr ⟨?_, ?_⟩) hdep
  · exact List.mem_cons_self
  · exact hdep.not_beginsAsPattern

end Fctf
