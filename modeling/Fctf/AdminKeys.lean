import Fctf.K8sService
import Fctf.Lib.Glob

/-!
# The Entries an Administrator Names

The management platform looks up, lists and deletes the entries of running deployments by
keys it builds itself. The hosting services put the contest in front of those keys, the
platform does not. So nothing the platform does reaches a deployment: a stop finds no
entry, the list is empty, and a clean-up deletes nothing.

## Main results

* `instancesPattern_iff`: the hosting services' own list is exact.
* `stopByAdmin_of_hosted`, `getAllInstances_of_hosted`, `deleteCachedFiles_of_hosted`: what
  the platform does while Redis holds entries of the hosting services only.
* `not_sameEntry`: the platform names no entry of the hosting services.
-/

open Glob

namespace Fctf

namespace ManagementPlatform

/-! ### The platform -/

/-- `generate_cache_key`. -/
def generateCacheKey (challengeId teamId : ℤ) : String :=
  pairName "deploy_challenge_" challengeId teamId

/-- What an administrator's stop comes to. -/
inductive Stop where
  /-- `Challenge not found`. -/
  | challengeNotFound
  /-- `Challenge not started or already stopped, no active cache found.` -/
  | noActiveCache
  /-- The deployment centre is asked to stop the challenge of the team. -/
  | forceStop (challengeId teamId : ℤ)
  deriving DecidableEq, Repr

/-- `stop_challenge_by_admin`, after the checks of the request and the user. -/
def stopByAdmin (keys : List String) (challengeExists : Bool) (challengeId teamId : ℤ) :
    Stop :=
  if !challengeExists then .challengeNotFound
  else if generateCacheKey challengeId teamId ∉ keys then .noActiveCache
  else .forceStop challengeId teamId

/-- The keys that match a pattern (`scan`). -/
def scan (pattern : String) (keys : List String) : List String :=
  keys.filter fun key => Matches (pieces pattern.toList) key.toList

/-- `-?\d+`, with nothing said about what follows. -/
def signedDigits : List Char → Option ℤ
  | '-' :: rest =>
      let digits := rest.takeWhile Char.isDigit
      if digits = [] then none else some (-digitsValue digits)
  | rest =>
      let digits := rest.takeWhile Char.isDigit
      if digits = [] then none else some (digitsValue digits)

/-- The challenge and team of a key: `deploy_challenge_(\d+)_(-?\d+)`. -/
def instanceOfKey (key : String) : Option (ℤ × ℤ) :=
  let kind := "deploy_challenge_".toList
  if !kind.isPrefixOf key.toList then none
  else
    let rest := key.toList.drop kind.length
    let digits := rest.takeWhile Char.isDigit
    match digits, rest.drop digits.length with
    | _ :: _, '_' :: rest =>
        (signedDigits rest).map fun teamId => (digitsValue digits, teamId)
    | _, _ => none

/-- `get_all_instances`: the challenges and teams listed, with keys that hold an entry. -/
def getAllInstances (keys : List String) : List (ℤ × ℤ) :=
  (scan "deploy_challenge_*_*" keys).filterMap instanceOfKey

/-- `delete_cached_files`: the keys that are left. -/
def deleteCachedFiles (challengeId : ℤ) (keys : List String) : List String :=
  (scan ("deploy_challenge_" ++ toString challengeId ++ "_*") keys).foldl List.erase keys

end ManagementPlatform

open ManagementPlatform

/-- The pattern by which the hosting services list a team's deployments
(`ChallengeService.GetAllInstances`). -/
def instancesPattern (contestId teamId : ℤ) : String :=
  contestKey contestId ("deploy_challenge_*_" ++ toString teamId)

/-! ### One entry -/

/-- **Both sides name the same entry** of a challenge's deployment for a team, whatever keys
Redis holds: the platform's key is the hosting services' key, a stop goes through and the
deployment is listed exactly if the entry is there, and a clean-up of the challenge deletes
this entry and none of another contest or challenge. -/
structure SameEntry (contestId contestChallengeId teamId : ℤ) : Prop where
  /-- The key looked up is the key of the entry. -/
  key : generateCacheKey contestChallengeId teamId =
    getCacheKey contestId contestChallengeId teamId
  /-- A stop goes through if there is a deployment. -/
  stop : ∀ keys, stopByAdmin keys true contestChallengeId teamId =
      .forceStop contestChallengeId teamId ↔
    getCacheKey contestId contestChallengeId teamId ∈ keys
  /-- A deployment is listed if there is one. -/
  list : ∀ keys, (contestChallengeId, teamId) ∈ getAllInstances keys ↔
    getCacheKey contestId contestChallengeId teamId ∈ keys
  /-- A clean-up deletes the entries of the challenge. -/
  delete : ∀ keys contestId' contestChallengeId' teamId',
    getCacheKey contestId' contestChallengeId' teamId' ∈
        deleteCachedFiles contestChallengeId keys ↔
      getCacheKey contestId' contestChallengeId' teamId' ∈ keys ∧
        (contestId', contestChallengeId') ≠ (contestId, contestChallengeId)

/-! ### The hosting services' list -/

theorem star_notMem_repr (n : ℤ) : '*' ∉ n.repr.toList := by
  intro h
  rcases mem_repr h with h | h <;> revert h <;> decide

theorem pieces_instancesPattern (c t : ℤ) :
    pieces (instancesPattern c t).toList =
      literal (contestKey c "deploy_challenge_").toList ++
        .star :: literal ("_" ++ toString t).toList := by
  have hcontest : '*' ∉ (contestKey c "deploy_challenge_").toList := by
    simp only [contestKey, Int.toString_eq_repr, String.toList_append, List.mem_append, not_or]
    exact ⟨⟨⟨by decide, star_notMem_repr c⟩, by decide⟩, by decide⟩
  have hteam : '*' ∉ ("_" ++ toString t).toList := by
    simp only [Int.toString_eq_repr, String.toList_append, List.mem_append, not_or]
    exact ⟨by decide, star_notMem_repr t⟩
  have hsplit : (instancesPattern c t).toList =
      (contestKey c "deploy_challenge_").toList ++ ("*".toList ++ ("_" ++ toString t).toList) := by
    have hkind : ("deploy_challenge_*_" : String) = "deploy_challenge_" ++ "*" ++ "_" := by
      decide
    simp only [instancesPattern, contestKey, hkind, String.toList_append, List.append_assoc]
  rw [hsplit, pieces_append, pieces_append, pieces_of_notMem hcontest, pieces_of_notMem hteam]
  rfl

/-- A text ends in at most one numeral behind a `_`. -/
theorem numeral_suffix_iff (l : List Char) (t t' : ℤ) :
    '_' :: t.repr.toList <:+ l ++ '_' :: t'.repr.toList ↔ t = t' := by
  have hself := List.suffix_append l ('_' :: t'.repr.toList)
  have hof {m n : ℤ} (h : '_' :: m.repr.toList <:+ '_' :: n.repr.toList) : m = n := by
    rcases List.suffix_cons_iff.mp h with h | h
    · exact toList_repr_inj (List.cons.inj h).2
    · exact absurd (h.subset List.mem_cons_self) (underscore_notMem_repr n)
  constructor
  · intro h
    rcases List.suffix_or_suffix_of_suffix h hself with h | h
    · exact hof h
    · exact (hof h).symm
  · rintro rfl
    exact hself

/-- **The hosting services' own list is exact**: it has the deployments of the team in the
contest, whatever the challenge. -/
theorem instancesPattern_iff (c t c' cc' t' : ℤ) :
    Matches (pieces (instancesPattern c t).toList) (getCacheKey c' cc' t').toList = true ↔
      c' = c ∧ t' = t := by
  have hkey (c : ℤ) : (getCacheKey c cc' t').toList =
      (contestKey c "deploy_challenge_").toList ++ (cc'.repr.toList ++ '_' :: t'.repr.toList) := by
    simp only [getCacheKey, contestKey, pairName, Int.toString_eq_repr, String.toList_append,
      List.append_assoc]
    rfl
  have hteam : ("_" ++ toString t).toList = '_' :: t.repr.toList := by
    rw [String.toList_append, Int.toString_eq_repr]
    rfl
  rw [pieces_instancesPattern, matches_literal_append, hteam]
  constructor
  · rintro ⟨rest, hrest, hmatch⟩
    -- The beginning of the key gives the contest, its end the team.
    have hc : c' = c := by
      have hcolon : ':' ∉ (pairName "deploy_challenge_" cc' t').toList :=
        colon_notMem_pairName (by decide) cc' t'
      rw [← String.toList_ofList (l := rest), contestKey, ← String.toList_append] at hrest
      have heq := String.toList_injective hrest
      rw [getCacheKey, String.append_assoc] at heq
      exact (contestKey_inj hcolon heq).1
    subst hc
    rw [hkey, List.append_cancel_left_eq] at hrest
    rw [← hrest, matches_star_literal, numeral_suffix_iff] at hmatch
    exact ⟨rfl, hmatch.symm⟩
  · rintro ⟨rfl, rfl⟩
    refine ⟨_, hkey c', matches_star_literal.mpr ?_⟩
    rw [numeral_suffix_iff]

/-! ### The platform's keys -/

/-- A key of the hosting services begins with its contest, so it is none of the platform's. -/
theorem getCacheKey_ne_generateCacheKey (c cc t cc' t' : ℤ) :
    getCacheKey c cc t ≠ generateCacheKey cc' t' := by
  refine contestKey_ne_of_head ?_
  rw [generateCacheKey, head_pairName (c := 'd') (by decide)]
  decide

/-- No pattern that begins with `deploy_challenge_` matches such a key. -/
theorem not_matches_of_head (p : List Piece) (c cc t : ℤ) :
    Matches (literal "deploy_challenge_".toList ++ p) (getCacheKey c cc t).toList = false := by
  rw [← Bool.not_eq_true, matches_literal_append]
  rintro ⟨rest, hrest, -⟩
  have hne : ("deploy_challenge_".toList ++ rest).head? ≠ some 'c' := by
    have hd : "deploy_challenge_".toList.head? = some 'd' := by decide
    rw [List.head?_append, hd, Option.some_or]
    decide
  rw [← String.toList_ofList (l := "deploy_challenge_".toList ++ rest)] at hne hrest
  exact contestKey_ne_of_head hne (String.toList_injective hrest)

/-- Redis holds entries of the hosting services only. -/
def Hosted (keys : List String) : Prop :=
  ∀ key ∈ keys, ∃ c cc t, key = getCacheKey c cc t

theorem hosted_singleton (c cc t : ℤ) : Hosted [getCacheKey c cc t] := by
  intro key hkey
  exact ⟨c, cc, t, List.mem_singleton.mp hkey⟩

variable {keys : List String}

/-- A scan of the platform finds no entry of the hosting services. -/
theorem scan_of_hosted {pattern : String} {p : List Piece}
    (hpattern : pieces pattern.toList = literal "deploy_challenge_".toList ++ p)
    (h : Hosted keys) : scan pattern keys = [] := by
  rw [scan, List.filter_eq_nil_iff]
  intro key hkey
  obtain ⟨c, cc, t, rfl⟩ := h key hkey
  rw [hpattern, not_matches_of_head]
  decide

/-- An administrator's stop finds no entry. -/
theorem stopByAdmin_of_hosted (h : Hosted keys) (cc t : ℤ) :
    stopByAdmin keys true cc t = .noActiveCache := by
  have hnone : generateCacheKey cc t ∉ keys := by
    intro hmem
    obtain ⟨c, cc', t', hkey⟩ := h _ hmem
    exact getCacheKey_ne_generateCacheKey c cc' t' cc t hkey.symm
  simp [stopByAdmin, hnone]

/-- An administrator's list of the deployments is empty. -/
theorem getAllInstances_of_hosted (h : Hosted keys) : getAllInstances keys = [] := by
  rw [getAllInstances, scan_of_hosted (p := [.star, .literal '_', .star]) (by decide) h]
  rfl

/-- The clean-up of a challenge deletes nothing. -/
theorem deleteCachedFiles_of_hosted (h : Hosted keys) (cc : ℤ) :
    deleteCachedFiles cc keys = keys := by
  have hpattern : pieces ("deploy_challenge_" ++ toString cc ++ "_*").toList =
      literal "deploy_challenge_".toList ++ pieces (toString cc ++ "_*").toList := by
    rw [String.append_assoc, String.toList_append, pieces_append, pieces_of_notMem (by decide)]
  rw [deleteCachedFiles, scan_of_hosted hpattern h, List.foldl_nil]

/-- **The platform names no entry of the hosting services**: not even that of a deployment
that is the only one there is. -/
theorem not_sameEntry (contestId contestChallengeId teamId : ℤ) :
    ¬SameEntry contestId contestChallengeId teamId := by
  intro h
  exact getCacheKey_ne_generateCacheKey _ _ _ _ _ h.key.symm

/-- Team 7 has challenge 5 of contest 1 deployed, and an administrator cannot stop it. -/
theorem not_sameEntry_deployed : ¬SameEntry 1 5 7 := by
  intro h
  have hstop := (h.stop [getCacheKey 1 5 7]).mpr List.mem_cons_self
  rw [stopByAdmin_of_hosted (hosted_singleton 1 5 7)] at hstop
  cases hstop

end Fctf
