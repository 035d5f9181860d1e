import Fctf.ChallengeToken
import Fctf.Lib.Grouping

/-!
# Topics and their Challenges

`GetTopic` counts the challenges of a contest by category, and those that a team has solved;
`GetChallengeByCategories` lists the challenges of one category. Both look for a category of the
challenge's own first, and for that of its bank challenge then. The database compares texts by a
collation, the backend by their characters, and what is listed is reported with the category of
its bank challenge.

## Main results

* `effective_eq`: the two queries mean the same category.
* `solvedCount_eq`: what is looked up for a topic.
* `agrees_iff`: when topics and lists agree.
* `not_agrees`: a topic of a category that a bank challenge does not have.
-/

open Grouping

namespace Fctf.Topics

/-! ### Tables -/

/-- `ChallengeRequirementsDTO`. -/
structure Requirements where
  prerequisites : Option (List ℤ)
  anonymize : Option Bool
  deriving DecidableEq, Repr

/-- A challenge of the bank. -/
structure Challenge where
  id : ℤ
  name : Option String
  category : Option String
  type : Option String
  requirements : Option String
  difficulty : Option ℤ
  connectionProtocol : Option String
  deriving DecidableEq, Repr

/-- A challenge of a contest. -/
structure ContestsChallenge where
  id : ℤ
  contestId : ℤ
  bankId : Option ℤ
  name : Option String
  category : Option String
  type : Option String
  requirements : Option String
  difficulty : Option ℤ
  connectionProtocol : Option String
  nextId : Option ℤ
  maxAttempts : Option ℤ
  value : Option ℤ
  timeLimit : Option ℤ
  requireDeploy : Bool
  state : String
  deriving DecidableEq, Repr

/-- A solve. -/
structure Solf where
  contestChallengeId : ℤ
  teamId : Option ℤ
  deriving DecidableEq, Repr

/-- The tables. Ids are keys, and those of teams count from 1. -/
structure Db where
  challenges : List Challenge
  contestsChallenges : List ContestsChallenge
  solves : List Solf
  nodup : (contestsChallenges.map (·.id)).Nodup
  teamIds : ∀ s ∈ solves, ∀ t ∈ s.teamId, 0 < t

/-- What the service looks at. -/
structure World where
  sql : Collation
  db : Db
  /-- What `JsonConvert` makes of a text. -/
  parse : String → Option Requirements
  /-- The status of a deployment in the cache, by contest, challenge and team. -/
  podStatus : ℤ → ℤ → ℤ → Option String
  /-- Is `challenge_difficulty_visibility` enabled? -/
  difficultyVisible : Bool

variable (w : World)

/-- `BankChallenge`. -/
def bankChallenge (db : Db) (c : ContestsChallenge) : Option Challenge :=
  c.bankId.bind fun id => db.challenges.find? (·.id = id)

/-- `ContestChallenge` of a solve. -/
def contestChallenge (db : Db) (s : Solf) : Option ContestsChallenge :=
  db.contestsChallenges.find? (·.id = s.contestChallengeId)

/-- `State != "hidden"`. -/
def notHidden (sql : Collation) (c : ContestsChallenge) : Bool := !sql.eq c.state "hidden"

/-- The challenges of a contest that are not hidden. -/
def visible (contestId : ℤ) : List ContestsChallenge :=
  w.db.contestsChallenges.filter fun c => decide (c.contestId = contestId) && notHidden w.sql c

/-! ### A list of challenges -/

/-- `ChallengeByCategoryDTO`. -/
structure ChallengeByCategoryDTO where
  id : ℤ
  name : String
  nextId : Option ℤ
  maxAttempts : Option ℤ
  value : Option ℤ
  category : Option String
  timeLimit : Option ℤ
  connectionProtocol : String
  type : Option String
  requirements : Option Requirements
  solveByMyteam : Bool
  podStatus : Option String
  difficulty : Option ℤ
  deriving DecidableEq, Repr

/-- `TryParseRequirements`. -/
def tryParseRequirements (requirementsJson : Option String) : Option Requirements :=
  requirementsJson.bind fun text => if isNullOrWhiteSpace text then none else w.parse text

/-- `IsUnlockedByPrerequisites`. -/
def isUnlockedByPrerequisites (requirements : Option Requirements) (solvedIds allIds : List ℤ) :
    Bool :=
  ((requirements.bind (·.prerequisites)).getD []).all fun prereqId =>
    !allIds.contains prereqId || solvedIds.contains prereqId

/-- Is a challenge in a category: by its own, or by that of its bank challenge? -/
def inCategory (categoryName : String) (c : ContestsChallenge) : Bool :=
  c.category.any (w.sql.eq · categoryName) ||
    c.category.isNone &&
      (bankChallenge w.db c).any fun bank => bank.category.any (w.sql.eq · categoryName)

/-- The challenges that are asked for. -/
def contestChallenges (categoryName : String) (contestId : ℤ) : List ContestsChallenge :=
  (visible w contestId).filter (inCategory w categoryName)

/-- The solves of a team among some challenges. -/
def solvesAmong (ids : List ℤ) (teamId : ℤ) : List Solf :=
  w.db.solves.filter fun s => ids.contains s.contestChallengeId && decide (s.teamId = some teamId)

/-- The bank challenges that a team has solved by them. -/
def solvedBankIds (ids : List ℤ) (teamId : ℤ) : List ℤ :=
  if 0 < teamId then
    (solvesAmong w ids teamId).filterMap fun s => (contestChallenge w.db s).bind (·.bankId)
  else []

/-- The challenges that it has solved. -/
def solvedCcIds (ids : List ℤ) (teamId : ℤ) : List ℤ :=
  if 0 < teamId then (solvesAmong w ids teamId).map (·.contestChallengeId) else []

/-- The bank challenges of a contest. -/
def allBankIds (contestId : ℤ) : List ℤ :=
  (w.db.contestsChallenges.filter fun c => decide (c.contestId = contestId)).filterMap (·.bankId)

/-- The requirements of a challenge: those of its bank challenge, if it has one. -/
def bankRequirements (c : ContestsChallenge) : Option Requirements :=
  tryParseRequirements w
    (match bankChallenge w.db c with
    | some bank => bank.requirements
    | none => c.requirements)

/-- Is a challenge kept back? -/
def isLocked (solvedIds allIds : List ℤ) (c : ContestsChallenge) : Bool :=
  !isUnlockedByPrerequisites (bankRequirements w c) solvedIds allIds &&
    decide ((bankRequirements w c).bind (·.anonymize) ≠ some true)

/-- The category that a challenge is reported with. -/
def reportedCategory (c : ContestsChallenge) : Option String :=
  match bankChallenge w.db c with
  | some bank => bank.category
  | none => c.category

/-- A challenge, as it is listed. -/
def listed (teamId contestId : ℤ) (solvedIds : List ℤ) (c : ContestsChallenge) :
    ChallengeByCategoryDTO where
  id := c.id
  name := c.name.getD (((bankChallenge w.db c).bind (·.name)).getD "")
  nextId := c.nextId
  maxAttempts := c.maxAttempts
  value := c.value
  category := reportedCategory w c
  timeLimit := c.timeLimit
  connectionProtocol :=
    if c.connectionProtocol.all isNullOrWhiteSpace then
      (match bankChallenge w.db c with
      | some bank => bank.connectionProtocol
      | none => c.connectionProtocol).getD "http"
    else c.connectionProtocol.getD ""
  type :=
    match bankChallenge w.db c with
    | some bank => bank.type
    | none => c.type
  requirements := bankRequirements w c
  solveByMyteam := solvedIds.contains c.id
  podStatus :=
    if c.requireDeploy && decide (0 < teamId) then w.podStatus contestId c.id teamId else none
  difficulty :=
    if w.difficultyVisible then
      match bankChallenge w.db c with
      | some bank => bank.difficulty
      | none => c.difficulty
    else none

/-- `GetChallengeByCategories`. -/
def getChallengeByCategories (categoryName : String) (teamId contestId : ℤ) :
    List ChallengeByCategoryDTO :=
  let challenges := contestChallenges w categoryName contestId
  let ids := challenges.map (·.id)
  (challenges.filter fun c =>
    !isLocked w (solvedBankIds w ids teamId) (allBankIds w contestId) c).map
      (listed w teamId contestId (solvedCcIds w ids teamId))

/-! ### The topics -/

/-- `TopicDTO`. -/
structure TopicDTO where
  topicName : String
  challengeCount : ℕ
  cleared : Bool
  deriving DecidableEq, Repr

/-- `EffectiveCategory`. -/
def effectiveCategory (c : ContestsChallenge) : Option String :=
  match c.category with
  | some category => some category
  | none => (bankChallenge w.db c).bind (·.category)

/-- The categories of the challenges, one for each. -/
def categories (contestId : ℤ) : List String :=
  (visible w contestId).filterMap (effectiveCategory w)

/-- `challengeStats`: the categories as they are shown, with the numbers of their challenges. -/
def challengeStats (contestId : ℤ) : List (String × ℕ) :=
  (groupBy w.sql.sortKey (categories w contestId)).map fun g => (w.sql.pick g.2, g.2.length)

/-- What a team has solved, with the categories. -/
def solvedRows (teamId contestId : ℤ) : List (ℤ × String) :=
  (solvesAmong w ((visible w contestId).map (·.id)) teamId).filterMap fun s =>
    ((contestChallenge w.db s).filter (notHidden w.sql)).bind fun c =>
      (effectiveCategory w c).map fun category => (s.contestChallengeId, category)

/-- `solvedStats`: the same for the challenges that a team has solved. -/
def solvedStats (teamId contestId : ℤ) : List (String × ℕ) :=
  (groupBy (fun x : ℤ × String => w.sql.sortKey x.2) (solvedRows w teamId contestId)).map fun g =>
    (w.sql.pick (g.2.map (·.2)), (g.2.map (·.1)).dedup.length)

/-- `solvedDict.TryGetValue`, or 0. -/
def solvedCount (teamId contestId : ℤ) (category : String) : ℕ :=
  (((solvedStats w teamId contestId).find? (·.1 = category)).map (·.2)).getD 0

/-- `GetTopic`. -/
def getTopic (teamId contestId : ℤ) : List TopicDTO :=
  (challengeStats w contestId).map fun stat =>
    ⟨stat.1, stat.2, decide (stat.2 ≤ solvedCount w teamId contestId stat.1)⟩

/-! ### What is promised -/

/-- The challenges of a contest that are not hidden and whose category is `t`. -/
def ofCategory (contestId : ℤ) (t : String) : List ContestsChallenge :=
  (visible w contestId).filter fun c => decide (effectiveCategory w c = some t)

/-- Has a team solved a challenge? -/
def solvedBy (teamId : ℤ) (c : ContestsChallenge) : Bool :=
  w.db.solves.any fun s => decide (s.contestChallengeId = c.id ∧ s.teamId = some teamId)

/-- No prerequisite locks a challenge of a category. -/
def NothingLocked (teamId contestId : ℤ) (t : String) : Prop :=
  ∀ c ∈ contestChallenges w t contestId,
    isLocked w (solvedBankIds w ((contestChallenges w t contestId).map (·.id)) teamId)
      (allBankIds w contestId) c = false

/-- **A topic agrees** with its challenges and with their list. -/
structure Agrees (teamId contestId : ℤ) (topic : TopicDTO) : Prop where
  /-- The number is that of its challenges. -/
  count : topic.challengeCount = (ofCategory w contestId topic.topicName).length
  /-- It is cleared if the team has solved all of them. -/
  cleared : topic.cleared = true ↔
    ∀ c ∈ ofCategory w contestId topic.topicName, solvedBy w teamId c = true
  /-- They are listed, with the topic and with whether the team has solved them. -/
  listing : NothingLocked w teamId contestId topic.topicName →
    (getChallengeByCategories w topic.topicName teamId contestId).map
        (fun e => (e.id, e.category, e.solveByMyteam)) =
      (ofCategory w contestId topic.topicName).map fun c =>
        (c.id, some topic.topicName, solvedBy w teamId c)

/-- What the database takes for one category is one. -/
def Unambiguous (contestId : ℤ) : Prop :=
  ∀ a ∈ categories w contestId, ∀ b ∈ categories w contestId, w.sql.eq a b = true → a = b

/-! ### The queries -/

section Queries

variable {w} {teamId contestId : ℤ} {t : String} {c : ContestsChallenge}

/-- **The two queries mean the same category.** -/
theorem effective_eq (t : String) (c : ContestsChallenge) :
    inCategory w t c = (effectiveCategory w c).any (w.sql.eq · t) := by
  rw [inCategory, effectiveCategory]
  cases c.category with
  | some category => simp
  | none => cases bankChallenge w.db c <;> simp

theorem nodup_visible (w : World) (contestId : ℤ) :
    ((visible w contestId).map (·.id)).Nodup :=
  w.db.nodup.sublist (List.filter_sublist.map _)

/-- A solve of a visible challenge is joined with it. -/
theorem contestChallenge_eq (hc : c ∈ visible w contestId) {s : Solf}
    (hs : s.contestChallengeId = c.id) : contestChallenge w.db s = some c := by
  rw [contestChallenge, hs]
  exact find?_key w.db.nodup (List.mem_filter.mp hc).1

theorem solvedBy_iff :
    solvedBy w teamId c = true ↔
      ∃ s ∈ w.db.solves, s.contestChallengeId = c.id ∧ s.teamId = some teamId := by
  simp [solvedBy]

theorem mem_solvesAmong {ids : List ℤ} {s : Solf} :
    s ∈ solvesAmong w ids teamId ↔
      s ∈ w.db.solves ∧ s.contestChallengeId ∈ ids ∧ s.teamId = some teamId := by
  simp [solvesAmong]

/-- **What a team has solved**, with the categories. -/
theorem mem_solvedRows {x : ℤ × String} :
    x ∈ solvedRows w teamId contestId ↔
      ∃ c ∈ visible w contestId, c.id = x.1 ∧ effectiveCategory w c = some x.2 ∧
        solvedBy w teamId c = true := by
  obtain ⟨id, category⟩ := x
  simp only [solvedRows, List.mem_filterMap, mem_solvesAmong, List.mem_map]
  constructor
  · rintro ⟨s, ⟨hs, ⟨c, hc, hid⟩, hteam⟩, hrow⟩
    have hhidden := (Bool.and_eq_true_iff.mp (List.mem_filter.mp hc).2).2
    rw [contestChallenge_eq hc hid.symm, Option.filter_some, if_pos hhidden, Option.bind_some,
      Option.map_eq_some_iff] at hrow
    obtain ⟨category', hcategory, heq⟩ := hrow
    obtain ⟨rfl, rfl⟩ := Prod.mk.inj heq
    exact ⟨c, hc, hid, hcategory, solvedBy_iff.mpr ⟨s, hs, hid.symm, hteam⟩⟩
  · rintro ⟨c, hc, rfl, hcategory, hsolved⟩
    obtain ⟨s, hs, hid, hteam⟩ := solvedBy_iff.mp hsolved
    have hhidden := (Bool.and_eq_true_iff.mp (List.mem_filter.mp hc).2).2
    refine ⟨s, ⟨hs, ⟨c, hc, hid.symm⟩, hteam⟩, ?_⟩
    rw [contestChallenge_eq hc hid, Option.filter_some, if_pos hhidden, Option.bind_some,
      hcategory, hid]
    rfl

/-- A topic is a group of categories. -/
theorem mem_getTopic {topic : TopicDTO} :
    topic ∈ getTopic w teamId contestId ↔
      ∃ g ∈ groupBy w.sql.sortKey (categories w contestId),
        topic = ⟨w.sql.pick g.2, g.2.length,
          decide (g.2.length ≤ solvedCount w teamId contestId (w.sql.pick g.2))⟩ := by
  rw [getTopic, challengeStats, List.map_map, List.mem_map]
  exact exists_congr fun g => and_congr_right fun _ => eq_comm

/-- A group is shown as one of its categories. -/
theorem pick_mem_group {g : String × List String}
    (hg : g ∈ groupBy w.sql.sortKey (categories w contestId)) :
    w.sql.pick g.2 ∈ categories w contestId ∧ w.sql.sortKey (w.sql.pick g.2) = g.1 := by
  have hpick := w.sql.pick_mem _ (ne_nil_of_mem_groupBy hg)
  rw [(mem_groupBy.mp hg).2] at hpick
  rw [(mem_groupBy.mp hg).2]
  exact mem_ofKey.mp hpick

/-- A category of a contest has a topic, which bears its name if categories are unambiguous. -/
theorem pick_eq (h : Unambiguous w contestId) (ht : t ∈ categories w contestId) :
    w.sql.pick (ofKey w.sql.sortKey (categories w contestId) (w.sql.sortKey t)) = t := by
  obtain ⟨hmem, hkey⟩ := pick_mem_group (ofKey_mem_groupBy ht)
  exact h _ hmem _ ht (Collation.eq_iff.mpr hkey)

/-- The category of a visible challenge is a category of the contest. -/
theorem mem_categories (hc : c ∈ visible w contestId)
    (heffective : effectiveCategory w c = some t) : t ∈ categories w contestId :=
  List.mem_filterMap.mpr ⟨c, hc, heffective⟩

theorem mem_ofCategory :
    c ∈ ofCategory w contestId t ↔ c ∈ visible w contestId ∧ effectiveCategory w c = some t := by
  rw [ofCategory, List.mem_filter, decide_eq_true_eq]

theorem length_ofCategory (t : String) :
    (ofCategory w contestId t).length =
      ((categories w contestId).filter fun a => decide (a = t)).length := by
  rw [categories, length_filter_filterMap, ofCategory]
  refine congrArg List.length (List.filter_congr fun c _ => ?_)
  cases effectiveCategory w c <;> simp

/-- What is taken for a category of the contest is it. -/
theorem any_eq_iff (h : Unambiguous w contestId) (ht : t ∈ categories w contestId)
    (hc : c ∈ visible w contestId) :
    (effectiveCategory w c).any (w.sql.eq · t) = decide (effectiveCategory w c = some t) := by
  cases heffective : effectiveCategory w c with
  | none => rfl
  | some a =>
      rw [Option.any_some, Bool.eq_iff_iff, decide_eq_true_eq, Option.some.injEq]
      refine ⟨h a (mem_categories hc heffective) t ht, ?_⟩
      rintro rfl
      exact Collation.eq_iff.mpr rfl

/-- The challenges of a topic, as many as its group has categories. -/
theorem length_group (h : Unambiguous w contestId) (ht : t ∈ categories w contestId) :
    (ofKey w.sql.sortKey (categories w contestId) (w.sql.sortKey t)).length =
      (ofCategory w contestId t).length := by
  rw [ofKey, categories, length_filter_filterMap, ofCategory]
  exact congrArg List.length (List.filter_congr fun c hc => any_eq_iff h ht hc)

/-- The challenges that are asked for are those of the category. -/
theorem contestChallenges_eq (h : Unambiguous w contestId) (ht : t ∈ categories w contestId) :
    contestChallenges w t contestId = ofCategory w contestId t := by
  rw [contestChallenges, ofCategory]
  exact List.filter_congr fun c hc => (effective_eq t c).trans (any_eq_iff h ht hc)

/-- The ids of the solved challenges of a category. -/
def solvedIdsOf (w : World) (teamId contestId : ℤ) (t : String) : List ℤ :=
  (ofKey (fun x : ℤ × String => w.sql.sortKey x.2) (solvedRows w teamId contestId)
    (w.sql.sortKey t)).map (·.1)

/-- **What is looked up for a topic** is the number of its challenges that are solved. -/
theorem solvedCount_eq (h : Unambiguous w contestId) (ht : t ∈ categories w contestId) :
    solvedCount w teamId contestId t = (solvedIdsOf w teamId contestId t).dedup.length := by
  -- a group of solved challenges that is shown as `t` is that of the key of `t`
  have hshown : ∀ g ∈ groupBy (fun x : ℤ × String => w.sql.sortKey x.2)
      (solvedRows w teamId contestId), w.sql.pick (g.2.map (·.2)) = t ↔ g.1 = w.sql.sortKey t := by
    intro g hg
    have hpick := w.sql.pick_mem (g.2.map (·.2)) (by simpa using ne_nil_of_mem_groupBy hg)
    rw [(mem_groupBy.mp hg).2] at hpick ⊢
    obtain ⟨x, hx, hcategory⟩ := List.mem_map.mp hpick
    obtain ⟨hrow, hkey⟩ := mem_ofKey.mp hx
    obtain ⟨c, hc, -, heffective, -⟩ := mem_solvedRows.mp hrow
    rw [← hcategory, ← hkey]
    exact ⟨congrArg _,
      fun heq => h _ (mem_categories hc heffective) _ ht (Collation.eq_iff.mpr heq)⟩
  rw [solvedCount]
  cases hfind : (solvedStats w teamId contestId).find? (·.1 = t) with
  | none =>
      have hnil : ofKey (fun x : ℤ × String => w.sql.sortKey x.2) (solvedRows w teamId contestId)
          (w.sql.sortKey t) = [] := by
        by_contra hne
        obtain ⟨x, hx⟩ := List.exists_mem_of_ne_nil _ hne
        obtain ⟨hrow, hkey⟩ := mem_ofKey.mp hx
        have hg := @ofKey_mem_groupBy _ _ _ (fun x : ℤ × String => w.sql.sortKey x.2) _ _ hrow
        refine List.find?_eq_none.mp hfind _ (List.mem_map_of_mem hg) ?_
        exact decide_eq_true ((hshown _ hg).mpr hkey)
      rw [solvedIdsOf, hnil]
      rfl
  | some stat =>
      obtain ⟨g, hg, rfl⟩ := List.mem_map.mp (List.mem_of_find?_eq_some hfind)
      have hname := List.find?_some (p := fun x : String × ℕ => decide (x.1 = t)) hfind
      have hkey := (hshown g hg).mp (of_decide_eq_true hname)
      rw [solvedIdsOf, ← hkey, ← (mem_groupBy.mp hg).2]
      rfl

/-- The ids of the solved challenges of a category, one by one. -/
theorem mem_solvedIdsOf (h : Unambiguous w contestId) (ht : t ∈ categories w contestId) {id : ℤ} :
    id ∈ solvedIdsOf w teamId contestId t ↔
      ∃ c ∈ ofCategory w contestId t, c.id = id ∧ solvedBy w teamId c = true := by
  simp only [solvedIdsOf, List.mem_map, mem_ofKey, mem_solvedRows, mem_ofCategory]
  constructor
  · rintro ⟨x, ⟨⟨c, hc, hid, heffective, hsolved⟩, hkey⟩, rfl⟩
    have hcategory := h _ (mem_categories hc heffective) _ ht (Collation.eq_iff.mpr hkey)
    exact ⟨c, ⟨hc, hcategory ▸ heffective⟩, hid, hsolved⟩
  · rintro ⟨c, ⟨hc, heffective⟩, rfl, hsolved⟩
    exact ⟨(c.id, t), ⟨⟨c, hc, rfl, heffective, hsolved⟩, rfl⟩, rfl⟩

/-- **When a topic is cleared.** -/
theorem cleared_iff (h : Unambiguous w contestId) (ht : t ∈ categories w contestId) :
    (ofCategory w contestId t).length ≤ solvedCount w teamId contestId t ↔
      ∀ c ∈ ofCategory w contestId t, solvedBy w teamId c = true := by
  have hnodup : ((ofCategory w contestId t).map (·.id)).Nodup :=
    (nodup_visible w contestId).sublist (List.filter_sublist.map _)
  have hsub : solvedIdsOf w teamId contestId t ⊆ (ofCategory w contestId t).map (·.id) := by
    intro id hid
    obtain ⟨c, hc, rfl, -⟩ := (mem_solvedIdsOf h ht).mp hid
    exact List.mem_map_of_mem hc
  rw [solvedCount_eq h ht, ← List.length_map (·.id), length_le_dedup_iff hnodup hsub]
  constructor
  · intro hall c hc
    obtain ⟨c', hc', hid, hsolved⟩ := (mem_solvedIdsOf h ht).mp (hall (List.mem_map_of_mem hc))
    rwa [List.inj_on_of_nodup_map hnodup hc' hc hid] at hsolved
  · intro hall id hid
    obtain ⟨c, hc, rfl⟩ := List.mem_map.mp hid
    exact (mem_solvedIdsOf h ht).mpr ⟨c, hc, rfl, hall c hc⟩

/-- A listed challenge is marked if the team has solved it. -/
theorem contains_solvedCcIds {ids : List ℤ} (hid : c.id ∈ ids) :
    (solvedCcIds w ids teamId).contains c.id = solvedBy w teamId c := by
  rw [Bool.eq_iff_iff, solvedBy_iff, List.contains_iff_mem, solvedCcIds]
  split
  next =>
    simp only [List.mem_map, mem_solvesAmong]
    constructor
    · rintro ⟨s, ⟨hs, -, hteam⟩, hcc⟩
      exact ⟨s, hs, hcc, hteam⟩
    · rintro ⟨s, hs, hcc, hteam⟩
      exact ⟨s, ⟨hs, hcc ▸ hid, hteam⟩, hcc⟩
  next hteamId =>
    refine iff_of_false List.not_mem_nil ?_
    rintro ⟨s, hs, -, hteam⟩
    exact hteamId (w.db.teamIds s hs teamId hteam)

/-- **When the list of a topic is right.** -/
theorem listing_iff (h : Unambiguous w contestId) (ht : t ∈ categories w contestId)
    (hlocked : NothingLocked w teamId contestId t) :
    (getChallengeByCategories w t teamId contestId).map
        (fun e => (e.id, e.category, e.solveByMyteam)) =
      (ofCategory w contestId t).map (fun c => (c.id, some t, solvedBy w teamId c)) ↔
      ∀ c ∈ ofCategory w contestId t, reportedCategory w c = some t := by
  have hfilter : (contestChallenges w t contestId).filter (fun c =>
      !isLocked w (solvedBankIds w ((contestChallenges w t contestId).map (·.id)) teamId)
        (allBankIds w contestId) c) = contestChallenges w t contestId :=
    List.filter_eq_self.mpr fun c hc => by rw [hlocked c hc]; rfl
  rw [getChallengeByCategories, hfilter, contestChallenges_eq h ht, List.map_map,
    List.map_inj_left]
  refine forall₂_congr fun c hc => ?_
  have hsolved := @contains_solvedCcIds w teamId c _ (List.mem_map_of_mem hc)
  simp only [Function.comp, listed, hsolved, Prod.mk.injEq, true_and, and_true]

end Queries

/-! ### When they agree -/

section Agreement

variable {w : World} {teamId contestId : ℤ}

/-- Where every number of a topic is right, categories are unambiguous. -/
theorem unambiguous_of_agrees
    (h : ∀ topic ∈ getTopic w teamId contestId, Agrees w teamId contestId topic) :
    Unambiguous w contestId := by
  -- all categories of a group are the one that it is shown as
  have hgroup : ∀ g ∈ groupBy w.sql.sortKey (categories w contestId),
      ∀ a ∈ g.2, a = w.sql.pick g.2 := by
    intro g hg
    obtain ⟨-, hkey⟩ := pick_mem_group hg
    have hcount : g.2.length = (ofCategory w contestId (w.sql.pick g.2)).length :=
      (h _ (mem_getTopic.mpr ⟨g, hg, rfl⟩)).count
    have hfilter : (g.2.filter fun a => decide (a = w.sql.pick g.2)).length = g.2.length := by
      rw [hcount, length_ofCategory]
      generalize w.sql.pick g.2 = t at hkey
      rw [(mem_groupBy.mp hg).2, ofKey, List.filter_filter]
      refine congrArg List.length (List.filter_congr fun a _ => ?_)
      by_cases hat : a = t
      · simp [hat, hkey]
      · simp [hat]
    exact fun a ha => of_decide_eq_true (List.length_filter_eq_length_iff.mp hfilter a ha)
  intro a ha b hb heq
  have hg := @ofKey_mem_groupBy _ _ _ w.sql.sortKey _ _ ha
  have hkey := Collation.eq_iff.mp heq
  rw [hgroup _ hg a (mem_ofKey.mpr ⟨ha, rfl⟩), ← hgroup _ hg b (mem_ofKey.mpr ⟨hb, hkey.symm⟩)]

/-- **When topics and lists agree**: if the database takes no two different categories of the
contest for one, and every challenge of a list without locks is reported with its category. -/
theorem agrees_iff :
    (∀ topic ∈ getTopic w teamId contestId, Agrees w teamId contestId topic) ↔
      Unambiguous w contestId ∧
        ∀ t ∈ categories w contestId, NothingLocked w teamId contestId t →
          ∀ c ∈ ofCategory w contestId t, reportedCategory w c = some t := by
  constructor
  · intro h
    have hunambiguous := unambiguous_of_agrees h
    refine ⟨hunambiguous, fun t ht hlocked => ?_⟩
    have htopic := h _ (mem_getTopic.mpr ⟨_, ofKey_mem_groupBy ht, rfl⟩)
    have hlisting := htopic.listing
    simp only [pick_eq hunambiguous ht] at hlisting
    exact (listing_iff hunambiguous ht hlocked).mp (hlisting hlocked)
  · rintro ⟨hunambiguous, hreported⟩ topic htopic
    obtain ⟨g, hg, rfl⟩ := mem_getTopic.mp htopic
    obtain ⟨ht, hkey⟩ := pick_mem_group hg
    have hlength : g.2.length = (ofCategory w contestId (w.sql.pick g.2)).length := by
      rw [← length_group hunambiguous ht, hkey, ← (mem_groupBy.mp hg).2]
    refine ⟨hlength, ?_, fun hlocked => ?_⟩
    · rw [decide_eq_true_eq, hlength]
      exact cleared_iff hunambiguous ht
    · exact (listing_iff hunambiguous ht hlocked).mpr (hreported _ ht hlocked)

/-- A challenge `Web` in the bank, and one of a contest that makes a topic `Crypto` of it. -/
def overridden : World where
  sql := Collation.binary
  db :=
    { challenges := [⟨7, some "a", some "Web", none, none, none, none⟩]
      contestsChallenges := [⟨1, 1, some 7, none, some "Crypto", none, none, none, none, none, none,
        some 100, none, false, "visible"⟩]
      solves := []
      nodup := by decide
      teamIds := List.forall_mem_nil _ }
  parse := fun _ => none
  podStatus := fun _ _ _ => none
  difficultyVisible := false

theorem not_agrees :
    getTopic overridden 1 1 = [⟨"Crypto", 1, false⟩] ∧
      ¬∀ topic ∈ getTopic overridden 1 1, Agrees overridden 1 1 topic := by
  have htopics : getTopic overridden 1 1 = [⟨"Crypto", 1, false⟩] := by decide +kernel
  refine ⟨htopics, fun h => ?_⟩
  rw [htopics] at h
  have hlocked : NothingLocked overridden 1 1 "Crypto" := by
    unfold NothingLocked
    decide +kernel
  exact absurd ((h _ List.mem_cons_self).listing hlocked) (by decide +kernel)

end Agreement

end Fctf.Topics
