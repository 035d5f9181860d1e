import Fctf.Hints

/-!
# Why an Unlock Is Stored

An unlock is stored because of what its request has read before: the hint and its challenge, which
is visible and not solved by the team; what the challenge and the hint require; that there is no
such unlock yet; and a score that reaches the cost. The last two are read under the lock.

The program is walked through once, here.

## Main results

* `program_reasoned`: every call acts for these reasons.
* `purchase_entitled`: what stood in the tables when an unlock was stored.
-/

open Concurrent RedisDb

namespace Fctf

namespace Hints

/-! ### What a call was told -/

/-- A call's history. -/
abbrev HintHistory := List (Event hintI HintError)

/-- The operation has answered `x`. -/
def Told (l : HintHistory) (o : HintOp) (x : o.Reply) : Prop :=
  (⟨o, .ok x⟩ : Event hintI HintError) ∈ l

theorem Told.append {l : HintHistory} {o : HintOp} {x : o.Reply} (h : Told l o x)
    (l' : HintHistory) : Told (l ++ l') o x :=
  List.mem_append_left l' h

theorem Told.later {l l' : HintHistory} {o : HintOp} {x : o.Reply} (h : Told l o x)
    (hpre : l <+: l') : Told l' o x :=
  hpre.subset h

theorem told_last (l : HintHistory) (o : HintOp) (x : o.Reply) :
    Told (l ++ [⟨o, .ok x⟩]) o x :=
  List.mem_append_right l (List.mem_singleton.mpr rfl)

/-! ### Reasons -/

section Reasons

variable (cfg : HintConfig) (call : HintCall) (p : Purchase) (token : String) (l : HintHistory)

/-- What is read before the lock is asked for. -/
structure Asked : Prop where
  /-- The hint and its challenge. -/
  hint : Told l (.findHint p.req.target) (some (p.hint, some p.challenge))
  /-- The request, and what was found for its user and its team. -/
  call : ∃ userId teamId cc user, call = .postUnlock p.req userId teamId p.contestId ∧
    Told l (.findContestsChallenge p.contestId (some p.challenge.id)) (some cc) ∧
    Told l (.findSolve cc.id teamId) none ∧ Told l (.findUser userId) (some user) ∧
    user.id = p.userId
  /-- The challenge is visible. -/
  visible : ∃ bankId cc, Told l (.findContestsChallenge p.contestId bankId) (some cc) ∧
    (bankId = some p.challenge.id ∨ bankId = p.hint.challengeId) ∧ cc.state = .visible
  /-- The team. -/
  team : ∃ team, Told l (.findUserTeam p.userId p.contestId) team ∧ p.teamId = team.map (·.id)

/-- Does an operation give the lock back, or store an unlock? -/
def final : HintOp → Bool
  | .lock (.compareAndDelete _ _) => true
  | .saveUnlock _ _ => true
  | _ => false

/-- The call has the lock, and nothing stored yet. -/
structure Under : Prop where
  asked : Asked call p l
  drawn : Told l .newGuid token
  acquired : Told l (.lock (.setIfNotExists (p.lockKey cfg) token (some 30000))) true
  pending : ∀ x ∈ l, final x.op = false

/-- What a challenge requires, if it can be read. -/
def BankChallenge.prerequisites (challenge : BankChallenge) : Option (List ℤ) :=
  match challenge.requirements with
  | none => some []
  | some requirements =>
      if isNullOrWhiteSpace requirements then some []
      else (cfg.deserialize requirements).map (·.getD [])

/-- The account whose solves were looked for. -/
def SolvedBy (account : Account) : Prop :=
  if cfg.teamsMode then
    ∃ team, Told l (.findUserTeam p.userId p.contestId) (some team) ∧
      account = .team (some team.id)
  else account = .user p.userId

/-- **What a challenge requires**, as far as the check goes: nothing that can be read or that there
is, or what was solved; or a query has failed. -/
inductive ChallengeOpen : Prop where
  | free (h : p.challenge.prerequisites cfg = some [])
  | unreadable (h : p.challenge.prerequisites cfg = none)
  | unknown (pre all : List ℤ) (hpre : p.challenge.prerequisites cfg = some pre)
      (hall : Told l .challengeIds all) (h : ∀ id ∈ pre, id ∉ all)
  | solved (pre all required solved : List ℤ) (account : Account)
      (hpre : p.challenge.prerequisites cfg = some pre) (hall : Told l .challengeIds all)
      (hrequired : Told l (.contestChallengeIds p.contestId (pre.filter all.contains)) required)
      (haccount : SolvedBy cfg p l account) (hsolved : Told l (.solvedIds account) solved)
      (h : ∀ id ∈ required, id ∈ solved)
  | failed (o : HintOp) (e : HintError) (he : e.isInvalidOperation = false)
      (h : (⟨o, .error e⟩ : Event hintI HintError) ∈ l)

/-- **What a hint requires**: other hints, as far as there are any, that are unlocked or free. -/
def HintOpen : Prop :=
  getPrerequisites cfg.parse p.hint.requirements = [] ∨
    ∃ unlocked free all : List ℤ,
      Told l (.unlockedIds (account cfg p.teamId p.userId)) unlocked ∧
      Told l .freeHintIds free ∧ Told l .hintIds all ∧
      ∀ id ∈ getPrerequisites cfg.parse p.hint.requirements, id ∈ all →
        id ∈ unlocked ∨ id ∈ free

/-- The score of a team, as it was read. -/
inductive Scored (team : ScoreAccount) : ℤ → Prop where
  | nobody (h : Told l (.memberIds team.id) []) : Scored team 0
  | summed (ids : List ℤ) (solves awards : ℤ) (hids : Told l (.memberIds team.id) ids)
      (hsolves : Told l (.solvesScore ids) solves) (hawards : Told l (.awardsScore ids) awards) :
      Scored team (solves + awards)

/-- **Why an unlock is stored.** -/
structure Bought : Prop where
  challenge : ChallengeOpen cfg p l
  hint : HintOpen cfg p l
  /-- There is no such unlock. -/
  new : Told l (.findUnlock p.req.target p.req.type (account cfg p.teamId p.userId)) none
  /-- The score reaches the cost. -/
  paid : ∃ team score, Told l (.findUserTeam p.userId p.contestId) (some team) ∧
    Scored l team score ∧ ∀ cost, p.hint.cost = some cost → cost ≤ score

/-- The members of the team whose score is read. -/
def Weighed (ids : List ℤ) : Prop :=
  ∃ team, Told l (.findUserTeam p.userId p.contestId) (some team) ∧ Told l (.memberIds team.id) ids

end Reasons

/-- Why a call performs an operation. -/
def Reason (cfg : HintConfig) (call : HintCall) (l : HintHistory) : HintOp → Prop
  | .lock (.setIfNotExists key token expiry) =>
      ∃ p, Asked call p l ∧ Told l .newGuid token ∧ key = p.lockKey cfg ∧ expiry = some 30000
  | .lock (.compareAndDelete key token) =>
      Told l .newGuid token ∧ Told l (.lock (.setIfNotExists key token (some 30000))) true
  | .lock (.delay _) => False
  | .findUnlock target type acc =>
      ∃ p token, Under cfg call p token l ∧ target = p.req.target ∧ type = p.req.type ∧
        acc = account cfg p.teamId p.userId
  | .solvesScore ids => ∃ p token, Under cfg call p token l ∧ Weighed p l ids
  | .awardsScore ids => ∃ p token, Under cfg call p token l ∧ Weighed p l ids
  | .saveUnlock unlock award =>
      ∃ p token date awardDate, Under cfg call p token l ∧ Bought cfg p l ∧
        unlock = p.unlock date ∧ award = p.award awardDate
  | _ => True

/-! ### The walk -/

section Walk

variable {cfg : HintConfig} {call : HintCall} {p : Purchase} {token : String} {l l' : HintHistory}

theorem Asked.append (h : Asked call p l) (l' : HintHistory) : Asked call p (l ++ l') where
  hint := h.hint.append l'
  call := by
    obtain ⟨userId, teamId, cc, user, hcall, hcc, hsolve, huser, hid⟩ := h.call
    exact ⟨userId, teamId, cc, user, hcall, hcc.append l', hsolve.append l', huser.append l', hid⟩
  visible := by
    obtain ⟨bankId, cc, hcc, hbank, hstate⟩ := h.visible
    exact ⟨bankId, cc, hcc.append l', hbank, hstate⟩
  team := by
    obtain ⟨team, hteam, hid⟩ := h.team
    exact ⟨team, hteam.append l', hid⟩

/-- An operation that is not final leaves the call where it is. -/
theorem Under.concat (h : Under cfg call p token l) (x : Event hintI HintError)
    (hx : final x.op = false) : Under cfg call p token (l ++ [x]) where
  asked := h.asked.append [x]
  drawn := h.drawn.append [x]
  acquired := h.acquired.append [x]
  pending y hy := by
    rcases List.mem_append.mp hy with hy | hy
    · exact h.pending y hy
    · rw [List.mem_singleton.mp hy]
      exact hx

theorem SolvedBy.append {acc : Account} (h : SolvedBy cfg p l acc) (l' : HintHistory) :
    SolvedBy cfg p (l ++ l') acc := by
  rw [SolvedBy] at h ⊢
  split at h
  · next hmode =>
      rw [if_pos hmode]
      obtain ⟨team, hteam, rfl⟩ := h
      exact ⟨team, hteam.append l', rfl⟩
  · next hmode => rwa [if_neg hmode]

theorem ChallengeOpen.later (h : ChallengeOpen cfg p l) (hpre : l <+: l') :
    ChallengeOpen cfg p l' := by
  obtain ⟨rest, rfl⟩ := hpre
  cases h with
  | free h => exact .free h
  | unreadable h => exact .unreadable h
  | unknown pre all hpre hall h => exact .unknown pre all hpre (hall.append rest) h
  | solved pre all required solved account hpre hall hrequired haccount hsolved h =>
      exact .solved pre all required solved account hpre (hall.append rest)
        (hrequired.append rest) (haccount.append rest) (hsolved.append rest) h
  | failed o e he h => exact .failed o e he (List.mem_append_left rest h)

theorem HintOpen.later (h : HintOpen cfg p l) (hpre : l <+: l') : HintOpen cfg p l' := by
  rcases h with h | ⟨unlocked, free, all, hunlocked, hfree, hall, h⟩
  · exact .inl h
  · exact .inr ⟨unlocked, free, all, hunlocked.later hpre, hfree.later hpre,
      hall.later hpre, h⟩

/-- One operation, and what follows. -/
theorem justified_request {α : Type} {o : HintOp} {f : o.Reply → Prog hintI HintError α}
    {A : HintHistory → Except HintError α → Prop} (ho : Reason cfg call l o)
    (hok : ∀ x, (f x).Justified (Reason cfg call) A (l ++ [⟨o, .ok x⟩]))
    (herr : ∀ e, A (l ++ [⟨o, .error e⟩]) (.error e)) :
    (request o >>= f).Justified (Reason cfg call) A l := by
  refine ⟨ho, fun r => ?_⟩
  cases r with
  | ok x => exact hok x
  | error e => exact herr e

/-- A program whose operations need no reason has none. -/
theorem justified_free {α : Type} {q : Prog hintI HintError α}
    (h : q.Throughout fun o => ∀ l, Reason cfg call l o) (l : HintHistory) :
    q.Justified (Reason cfg call) (fun _ _ => True) l := by
  induction q generalizing l with
  | ret r => exact trivial
  | call o k ih => exact ⟨h.1 l, fun r => ih r (h.2 r) _⟩

/-- Where a check under the lock ends: the call has the lock, and what was checked is so. -/
def CheckEnd (cfg : HintConfig) (call : HintCall) (p : Purchase) (token : String)
    (checked : HintHistory → Prop) (l : HintHistory) (r : Except HintError Unit) : Prop :=
  Under cfg call p token l ∧ (r = .ok () → checked l)

theorem CheckEnd.error {checked : HintHistory → Prop} {e : HintError}
    (h : Under cfg call p token l) : CheckEnd cfg call p token checked l (.error e) :=
  ⟨h, fun hr => by cases hr⟩

theorem CheckEnd.ok {checked : HintHistory → Prop} (h : Under cfg call p token l)
    (hchecked : checked l) : CheckEnd cfg call p token checked l (.ok ()) :=
  ⟨h, fun _ => hchecked⟩

/-! #### The challenge -/

/-- A check of the challenge may fail, as long as the failure is in the history. -/
def CheckedOrFailed (cfg : HintConfig) (call : HintCall) (p : Purchase) (token : String)
    (l : HintHistory) (r : Except HintError Unit) : Prop :=
  Under cfg call p token l ∧ (r = .ok () → ChallengeOpen cfg p l) ∧
    ∀ e, r = .error e → e.isInvalidOperation = false → ChallengeOpen cfg p l

theorem CheckedOrFailed.ok (h : Under cfg call p token l) (hopen : ChallengeOpen cfg p l) :
    CheckedOrFailed cfg call p token l (.ok ()) :=
  ⟨h, fun _ => hopen, fun _ _ _ => hopen⟩

theorem CheckedOrFailed.business (h : Under cfg call p token l) (message : String) :
    CheckedOrFailed cfg call p token l (.error (.business message)) := by
  refine ⟨h, fun hr => (by cases hr), fun e he hkind => ?_⟩
  obtain rfl := Except.error.inj he
  cases hkind

/-- A query of the check fails. -/
theorem CheckedOrFailed.error {o : HintOp} {e : HintError}
    (h : Under cfg call p token (l ++ [⟨o, .error e⟩])) :
    CheckedOrFailed cfg call p token (l ++ [⟨o, .error e⟩]) (.error e) := by
  refine ⟨h, fun hr => (by cases hr), fun e' he hkind => ?_⟩
  obtain rfl := Except.error.inj he
  exact .failed o e hkind (List.mem_append_right l (List.mem_singleton.mpr rfl))

theorem solvingAccount_justified (h : Under cfg call p token l) :
    (solvingAccount cfg p.userId p.contestId).Justified (Reason cfg call)
      (fun l' r => l <+: l' ∧ match r with
        | .ok acc => Under cfg call p token l' ∧ SolvedBy cfg p l' acc
        | .error e => CheckedOrFailed cfg call p token l' (.error e)) l := by
  rw [solvingAccount]
  split
  · next hmode =>
      refine justified_request trivial (fun team => ?_)
        fun e => ⟨List.prefix_append _ _, .error (h.concat _ rfl)⟩
      cases team with
      | none => exact ⟨List.prefix_append _ _, .business (h.concat _ rfl) _⟩
      | some team =>
          refine ⟨List.prefix_append _ _, h.concat _ rfl, ?_⟩
          rw [SolvedBy, if_pos hmode]
          exact ⟨team, told_last _ _ _, rfl⟩
  · next hmode =>
      refine ⟨List.prefix_refl l, h, ?_⟩
      rw [SolvedBy, if_neg hmode]

theorem checkSolved_justified {pre all : List ℤ} (h : Under cfg call p token l)
    (hpre : p.challenge.prerequisites cfg = some pre) (hall : Told l .challengeIds all) :
    (checkSolved cfg p.userId p.contestId (pre.filter all.contains)).Justified (Reason cfg call)
      (CheckedOrFailed cfg call p token) l := by
  refine justified_request trivial (fun required => ?_) fun e => .error (h.concat _ rfl)
  refine Prog.Justified.bind ((solvingAccount_justified (h.concat _ rfl)).mono ?_)
  rintro l₁ (e | acc) ⟨hext, hend⟩
  · exact hend
  · obtain ⟨hunder, haccount⟩ := hend
    refine justified_request trivial (fun solved => ?_) fun e => .error (hunder.concat _ rfl)
    split
    · next hsolved =>
        have hrequired := (told_last l (.contestChallengeIds p.contestId (pre.filter all.contains))
          required).later hext
        refine .ok (hunder.concat _ rfl) (.solved pre all required solved acc hpre
          (((hall.append _).later hext).append _) (hrequired.append _) (haccount.append _)
          (told_last _ _ _) fun id hid => ?_)
        have hcontains := List.all_eq_true.mp hsolved id hid
        exact List.contains_iff_mem.mp hcontains
    · exact .business (hunder.concat _ rfl) _

theorem checkPrerequisites_justified {pre : List ℤ} (h : Under cfg call p token l)
    (hpre : p.challenge.prerequisites cfg = some pre) :
    (checkPrerequisites cfg p.userId p.contestId pre).Justified (Reason cfg call)
      (CheckedOrFailed cfg call p token) l := by
  rw [checkPrerequisites]
  split
  · next hempty => exact .ok h (.free (List.isEmpty_iff.mp hempty ▸ hpre))
  · refine justified_request trivial (fun all => ?_) fun e => .error (h.concat _ rfl)
    have htold := told_last l .challengeIds all
    dsimp only
    split
    · next hnone =>
        refine .ok (h.concat _ rfl) (.unknown pre all hpre htold fun id hid hmem => ?_)
        have hfilter : id ∈ pre.filter all.contains :=
          List.mem_filter.mpr ⟨hid, List.contains_iff_mem.mpr hmem⟩
        rw [List.isEmpty_iff.mp hnone] at hfilter
        cases hfilter
    · exact checkSolved_justified (h.concat _ rfl) hpre htold

theorem ensureBody_justified {requirements : String} (h : Under cfg call p token l)
    (hpre : p.challenge.prerequisites cfg = (cfg.deserialize requirements).map (·.getD [])) :
    (ensureBody cfg p.userId p.contestId requirements).Justified (Reason cfg call)
      (CheckedOrFailed cfg call p token) l := by
  rw [ensureBody]
  split
  · next hnone =>
      rw [hnone] at hpre
      exact ⟨h, fun hr => (by cases hr), fun _ _ _ => .unreadable hpre⟩
  · next prerequisites hsome =>
      rw [hsome] at hpre
      exact checkPrerequisites_justified h hpre

/-- **The check of the challenge.** -/
theorem ensureChallengePrerequisitesUnlocked_justified (h : Under cfg call p token l) :
    (ensureChallengePrerequisitesUnlocked cfg p.challenge p.userId p.contestId).Justified
      (Reason cfg call) (CheckEnd cfg call p token (ChallengeOpen cfg p)) l := by
  rw [ensureChallengePrerequisitesUnlocked]
  split
  · next hnone =>
      refine CheckEnd.ok h (.free ?_)
      rw [BankChallenge.prerequisites, hnone]
  · next requirements hsome =>
      split
      · next hblank =>
          refine CheckEnd.ok h (.free ?_)
          rw [BankChallenge.prerequisites, hsome]
          exact if_pos hblank
      · next hblank =>
          have hpre : p.challenge.prerequisites cfg =
              (cfg.deserialize requirements).map (·.getD []) := by
            rw [BankChallenge.prerequisites, hsome]
            exact if_neg hblank
          refine Prog.Justified.handle ((ensureBody_justified h hpre).mono ?_)
          rintro l₁ (e | u) ⟨hunder, hok, hfailed⟩
          · dsimp only
            split
            · exact .error hunder
            · next hkind =>
                -- it is logged, and ignored
                have hopen := hfailed e rfl (Bool.eq_false_of_not_eq_true hkind)
                refine justified_request trivial (fun team => ?_)
                  fun e' => .error (hunder.concat _ rfl)
                exact CheckEnd.ok (hunder.concat _ rfl) (hopen.later (List.prefix_append _ _))
          · exact CheckEnd.ok hunder (hok rfl)

/-! #### The hint -/

theorem unlockingAccount_eq {teamId : Option ℤ} {userId : ℤ} :
    unlockingAccount cfg teamId userId = pure (account cfg teamId userId) ∨
      unlockingAccount cfg teamId userId = throw (.business "User team not found") := by
  unfold unlockingAccount account
  split
  · cases teamId with
    | none => exact .inr rfl
    | some teamId => exact .inl rfl
  · exact .inl rfl

/-- **The check of the hint.** -/
theorem ensureHintPrerequisites_justified (h : Under cfg call p token l) :
    (ensureHintPrerequisites cfg (getPrerequisites cfg.parse p.hint.requirements) p.teamId
      p.userId).Justified (Reason cfg call) (CheckEnd cfg call p token (HintOpen cfg p)) l := by
  rw [ensureHintPrerequisites]
  split
  · next hempty => exact CheckEnd.ok h (.inl (List.isEmpty_iff.mp hempty))
  · rcases @unlockingAccount_eq cfg p.teamId p.userId with haccount | haccount
    · rw [haccount]
      refine justified_request (o := .unlockedIds (account cfg p.teamId p.userId)) trivial
        (fun unlocked => ?_) fun e => .error (h.concat _ rfl)
      refine justified_request trivial (fun free => ?_)
        fun e => .error ((h.concat _ rfl).concat _ rfl)
      refine justified_request trivial (fun all => ?_)
        fun e => .error (((h.concat _ rfl).concat _ rfl).concat _ rfl)
      have hunder := ((h.concat ⟨.unlockedIds (account cfg p.teamId p.userId), .ok unlocked⟩
        rfl).concat ⟨.freeHintIds, .ok free⟩ rfl).concat ⟨.hintIds, .ok all⟩ rfl
      split
      · next hall =>
          refine CheckEnd.ok hunder (.inr ⟨unlocked, free, all,
            ((told_last l _ unlocked).append _).append _, (told_last _ _ free).append _,
            told_last _ _ _, fun id hid hmem => ?_⟩)
          have hcontains := List.all_eq_true.mp hall id
            (List.mem_filter.mpr ⟨hid, List.contains_iff_mem.mpr hmem⟩)
          exact List.mem_append.mp (List.contains_iff_mem.mp hcontains)
      · exact .error hunder
    · rw [haccount]
      exact .error h

/-! #### The purchase -/

/-- What has been checked before the score. -/
structure Checked (cfg : HintConfig) (p : Purchase) (l : HintHistory) : Prop where
  challenge : ChallengeOpen cfg p l
  hint : HintOpen cfg p l
  new : Told l (.findUnlock p.req.target p.req.type (account cfg p.teamId p.userId)) none

theorem Checked.later (h : Checked cfg p l) (hpre : l <+: l') : Checked cfg p l' :=
  ⟨h.challenge.later hpre, h.hint.later hpre, h.new.later hpre⟩

theorem Scored.later {team : ScoreAccount} {score : ℤ} (h : Scored l team score)
    (hpre : l <+: l') : Scored l' team score := by
  cases h with
  | nobody h => exact .nobody (h.later hpre)
  | summed ids solves awards hids hsolves hawards =>
      exact .summed ids solves awards (hids.later hpre) (hsolves.later hpre)
        (hawards.later hpre)

theorem getTeamScore_justified {team : ScoreAccount} (h : Under cfg call p token l)
    (hteam : Told l (.findUserTeam p.userId p.contestId) (some team)) :
    (getTeamScore team).Justified (Reason cfg call)
      (fun l' r => l <+: l' ∧ Under cfg call p token l' ∧
        ∀ score, r = .ok score → Scored l' team score) l := by
  refine justified_request trivial (fun ids => ?_)
    fun e => ⟨List.prefix_append _ _, h.concat _ rfl, fun _ hr => by cases hr⟩
  have hunder := h.concat ⟨.memberIds team.id, .ok ids⟩ rfl
  have hids := told_last l (.memberIds team.id) ids
  split
  · next hempty =>
      refine ⟨List.prefix_append _ _, hunder, fun score hr => ?_⟩
      obtain rfl := Except.ok.inj hr
      exact .nobody (List.isEmpty_iff.mp hempty ▸ hids)
  · have hweighed : Weighed p (l ++ [⟨.memberIds team.id, .ok ids⟩]) ids :=
      ⟨team, hteam.append _, hids⟩
    refine justified_request (o := .solvesScore ids) ⟨p, token, hunder, hweighed⟩
      (fun solves => ?_) fun e => ?_
    · have hunder' := hunder.concat ⟨.solvesScore ids, .ok solves⟩ rfl
      have hweighed' : Weighed p (l ++ [⟨.memberIds team.id, .ok ids⟩] ++
          [⟨.solvesScore ids, .ok solves⟩]) ids := ⟨team, (hteam.append _).append _, hids.append _⟩
      refine justified_request (o := .awardsScore ids) ⟨p, token, hunder', hweighed'⟩
        (fun awards => ?_) fun e => ?_
      · refine ⟨?_, hunder'.concat _ rfl, fun score hr => ?_⟩
        · rw [List.append_assoc, List.append_assoc]
          exact List.prefix_append _ _
        · obtain rfl := Except.ok.inj hr
          exact .summed ids solves awards ((hids.append _).append _)
            ((told_last _ _ solves).append _)
            (told_last _ _ _)
      · refine ⟨?_, hunder'.concat _ rfl, fun _ hr => by cases hr⟩
        rw [List.append_assoc, List.append_assoc]
        exact List.prefix_append _ _
    · refine ⟨?_, hunder.concat _ rfl, fun _ hr => by cases hr⟩
      rw [List.append_assoc]
      exact List.prefix_append _ _

theorem store_justified (h : Under cfg call p token l) (hbought : Bought cfg p l) :
    (store p).Justified (Reason cfg call) (fun _ _ => True) l := by
  refine justified_request trivial (fun date => ?_) fun _ => trivial
  refine justified_request trivial (fun awardDate => ?_) fun _ => trivial
  have hunder := (h.concat ⟨.utcNow, .ok date⟩ rfl).concat ⟨.utcNow, .ok awardDate⟩ rfl
  have hpre : l <+: l ++ [⟨HintOp.utcNow, .ok date⟩] ++ [⟨HintOp.utcNow, .ok awardDate⟩] := by
    rw [List.append_assoc]
    exact List.prefix_append _ _
  obtain ⟨team, score, hteam, hscore, hcost⟩ := hbought.paid
  have hbought' : Bought cfg p _ :=
    ⟨hbought.challenge.later hpre, hbought.hint.later hpre, hbought.new.later hpre,
      team, score, hteam.later hpre, hscore.later hpre, hcost⟩
  exact justified_request (o := .saveUnlock (p.unlock date) (p.award awardDate))
    ⟨p, token, date, awardDate, hunder, hbought', rfl, rfl⟩ (fun _ => trivial) fun _ => trivial

theorem pay_justified (h : Under cfg call p token l) (hchecked : Checked cfg p l) :
    (pay p).Justified (Reason cfg call) (fun _ _ => True) l := by
  refine justified_request trivial (fun team => ?_) fun _ => trivial
  cases team with
  | none => exact trivial
  | some team =>
      have hteam := told_last l (.findUserTeam p.userId p.contestId) (some team)
      refine Prog.Justified.bind ((getTeamScore_justified (h.concat _ rfl) hteam).mono ?_)
      rintro l₁ (e | score) ⟨hext, hunder, hscored⟩
      · exact trivial
      · dsimp only
        split
        · exact trivial
        · next hcost =>
            have hchecked' := (hchecked.later (List.prefix_append l _)).later hext
            refine store_justified hunder ⟨hchecked'.challenge, hchecked'.hint, hchecked'.new, team,
              score, hteam.later hext, hscored score rfl, fun cost hsome => ?_⟩
            by_contra hlt
            refine hcost ?_
            rw [hsome]
            exact decide_eq_true (Int.not_le.mp hlt)

/-- **Under the lock.** -/
theorem unlockUnderLock_justified (h : Under cfg call p token l) :
    (unlockUnderLock cfg p).Justified (Reason cfg call) (fun _ _ => True) l := by
  refine Prog.Justified.bind
    ((ensureChallengePrerequisitesUnlocked_justified h).mono ?_)
  rintro l₁ (e | u) ⟨hunder, hopen⟩
  · exact trivial
  refine Prog.Justified.bind ((ensureHintPrerequisites_justified hunder).extends.mono ?_)
  rintro l₂ (e | u) ⟨hext, hunder', hhint⟩
  · exact trivial
  refine justified_request
    (o := .findUnlock p.req.target p.req.type (account cfg p.teamId p.userId))
    ⟨p, token, hunder', rfl, rfl, rfl⟩ (fun existing => ?_) fun _ => trivial
  cases existing with
  | some unlock => exact trivial
  | none =>
      exact pay_justified (hunder'.concat _ rfl)
        ⟨((hopen rfl).later hext).later (List.prefix_append _ _),
          (hhint rfl).later (List.prefix_append _ _), told_last _ _ _⟩

/-- A body and its `finally`. -/
theorem finallyDo_justified {α : Type} {body : Prog hintI HintError α}
    {cleanup : Prog hintI HintError Unit}
    (hbody : body.Justified (Reason cfg call) (fun _ _ => True) l)
    (hcleanup : ∀ l', l <+: l' → cleanup.Justified (Reason cfg call) (fun _ _ => True) l') :
    (finallyDo body cleanup).Justified (Reason cfg call) (fun _ _ => True) l := by
  refine Prog.Justified.bind (Prog.Justified.handle (hbody.extends.mono ?_))
  rintro l₁ (e | a) ⟨hext, -⟩
  · refine Prog.Justified.bind ((hcleanup l₁ hext).mono ?_)
    rintro l₂ (e' | u) -
    · exact trivial
    · exact trivial
  · refine Prog.Justified.bind ((hcleanup l₁ hext).mono ?_)
    rintro l₂ (e' | u) -
    · exact trivial
    · exact trivial

/-- No operation of a call is final before it has the lock. -/
theorem underLock_justified (h : Asked call p l) (hpending : ∀ x ∈ l, final x.op = false) :
    (underLock cfg p).Justified (Reason cfg call) (fun _ _ => True) l := by
  refine justified_request trivial (fun token => ?_) fun _ => trivial
  have hdrawn := told_last l .newGuid token
  refine justified_request (o := .lock (.setIfNotExists (p.lockKey cfg) token (some 30000)))
    ⟨p, h.append _, hdrawn, rfl, rfl⟩ (fun acquired => ?_) fun _ => trivial
  cases acquired with
  | false => exact trivial
  | true =>
      have hacquired := told_last (l ++ [⟨.newGuid, .ok token⟩])
        (.lock (.setIfNotExists (p.lockKey cfg) token (some 30000))) true
      have hunder : Under cfg call p token (l ++ [⟨.newGuid, .ok token⟩] ++
          [⟨.lock (.setIfNotExists (p.lockKey cfg) token (some 30000)), .ok true⟩]) := by
        refine ⟨(h.append _).append _, hdrawn.append _, hacquired, fun x hx => ?_⟩
        simp only [List.append_assoc, List.mem_append, List.mem_singleton] at hx
        rcases hx with hx | rfl | rfl
        · exact hpending x hx
        · rfl
        · rfl
      refine finallyDo_justified (unlockUnderLock_justified hunder) fun l' hext => ?_
      exact justified_request (o := .lock (.compareAndDelete (p.lockKey cfg) token))
        ⟨(hdrawn.append _).later hext, hacquired.later hext⟩
        (fun _ => trivial) fun _ => trivial

/-! #### The calls -/

/-- What the service reads before it asks for the lock. -/
theorem asked_of_read {req : UnlockRequestDto} {userId teamId contestId : ℤ} {hint : Hint}
    {challenge : BankChallenge} {cc again : ContestsChallenge} {user : ScoreAccount}
    {team : Option ScoreAccount} (hcall : call = .postUnlock req userId teamId contestId)
    (hhint : Told l (.findHint req.target) (some (hint, some challenge)))
    (hcc : Told l (.findContestsChallenge contestId (some challenge.id)) (some cc))
    (hsolve : Told l (.findSolve cc.id teamId) none)
    (hagain : Told l (.findContestsChallenge contestId hint.challengeId) (some again))
    (hvisible : (identify (·.id) cc again).state = .visible)
    (huser : Told l (.findUser userId) (some user))
    (hteam : Told l (.findUserTeam user.id contestId) team) :
    Asked call ⟨req, user.id, team.map (·.id), contestId, hint, challenge⟩ l where
  hint := hhint
  call := ⟨userId, teamId, cc, user, hcall, hcc, hsolve, huser, rfl⟩
  visible := by
    rw [identify] at hvisible
    split at hvisible
    · exact ⟨_, cc, hcc, .inl rfl, hvisible⟩
    · exact ⟨_, again, hagain, .inr rfl, hvisible⟩
  team := ⟨team, hteam, rfl⟩

/-- **The unlock**, from what the controller has read. -/
theorem unlockHint_justified {req : UnlockRequestDto} {userId teamId contestId : ℤ} {hint : Hint}
    {challenge : BankChallenge} {cc : ContestsChallenge}
    (hcall : call = .postUnlock req userId teamId contestId)
    (hhint : Told l (.findHint req.target) (some (hint, some challenge)))
    (hcc : Told l (.findContestsChallenge contestId (some challenge.id)) (some cc))
    (hsolve : Told l (.findSolve cc.id teamId) none) (hpending : ∀ x ∈ l, final x.op = false) :
    (unlockHint cfg req userId contestId hint challenge cc).Justified (Reason cfg call)
      (fun _ _ => True) l := by
  refine justified_request trivial (fun target => ?_) fun _ => trivial
  cases target with
  | none => exact trivial
  | some target =>
      refine justified_request trivial (fun found => ?_) fun _ => trivial
      rcases found with _ | again
      · exact trivial
      have hagain := told_last (l ++ [⟨.findHint req.target, .ok (some target)⟩])
        (.findContestsChallenge contestId hint.challengeId) (some again)
      split
      · exact trivial
      · next hstate =>
          have hvisible : (identify (·.id) cc again).state = .visible := by
            by_contra hne
            exact hstate (decide_eq_true hne)
          refine justified_request trivial (fun user => ?_) fun _ => trivial
          cases user with
          | none => exact trivial
          | some user =>
              refine justified_request trivial (fun team => ?_) fun _ => trivial
              have hpre := List.prefix_append l
                ([⟨HintOp.findHint req.target, .ok (some target)⟩] ++
                  ([⟨HintOp.findContestsChallenge contestId hint.challengeId, .ok (some again)⟩] ++
                    ([⟨HintOp.findUser userId, .ok (some user)⟩] ++
                      [⟨HintOp.findUserTeam user.id contestId, .ok team⟩])))
              simp only [← List.append_assoc] at hpre
              refine Prog.Justified.bind ((underLock_justified
                (asked_of_read hcall (hhint.later hpre) (hcc.later hpre)
                  (hsolve.later hpre) ((hagain.append _).append _) hvisible
                  ((told_last _ _ _).append _) (told_last _ _ _)) fun x hx => ?_).mono ?_)
              · simp only [List.append_assoc, List.mem_append, List.mem_singleton] at hx
                rcases hx with hx | rfl | rfl | rfl | rfl
                · exact hpending x hx
                · rfl
                · rfl
                · rfl
                · rfl
              · rintro l₁ (e | data) -
                · exact trivial
                · exact trivial

/-- **The controller.** -/
theorem postUnlock_justified {req : UnlockRequestDto} {userId teamId contestId : ℤ} :
    (postUnlock cfg req userId teamId contestId).Justified
      (Reason cfg (.postUnlock req userId teamId contestId)) (fun _ _ => True) [] := by
  rw [postUnlock]
  split
  · exact trivial
  refine justified_request trivial (fun target => ?_) fun _ => trivial
  have hhint := told_last [] (.findHint req.target) target
  rcases target with _ | ⟨hint, _ | challenge⟩
  · exact trivial
  · exact trivial
  refine justified_request trivial (fun cc => ?_) fun _ => trivial
  rcases cc with _ | cc
  · exact trivial
  dsimp only
  split
  · exact trivial
  refine justified_request trivial (fun solve => ?_) fun _ => trivial
  cases solve with
  | some solve => exact trivial
  | none =>
      refine Prog.Justified.bind ((unlockHint_justified rfl ((hhint.append _).append _)
        ((told_last _ _ _).append _) (told_last _ _ _) fun x hx => ?_).mono ?_)
      · simp only [List.nil_append, List.append_assoc, List.mem_append, List.mem_singleton] at hx
        rcases hx with rfl | rfl | rfl
        · rfl
        · rfl
        · rfl
      · rintro l₁ (e | _ | data) -
        · exact trivial
        · exact trivial
        · refine ⟨trivial, fun r => ?_⟩
          cases r with
          | error e => exact trivial
          | ok u => exact trivial

/-- What needs no reason. -/
def Free (cfg : HintConfig) (call : HintCall) (o : HintOp) : Prop := ∀ l, Reason cfg call l o

theorem viewingAccount_free (userId contestId : ℤ) :
    (viewingAccount cfg userId contestId).Throughout (Free cfg call) := by
  rw [viewingAccount]
  split
  · refine Prog.Throughout.bind ⟨fun _ => trivial, fun _ => trivial⟩ fun team => trivial
  · exact trivial

/-- A view needs no reason. -/
theorem getHintById_free (id userId contestId : ℤ) :
    (getHintById cfg id userId contestId).Throughout (Free cfg call) := by
  refine Prog.Throughout.handle (Prog.Throughout.bind ⟨fun _ => trivial, fun _ => trivial⟩ ?_)
    fun _ => trivial
  rintro (_ | ⟨hint, challenge⟩)
  · exact trivial
  refine Prog.Throughout.bind ⟨fun _ => trivial, fun _ => trivial⟩ fun cc => ?_
  split
  · exact trivial
  refine Prog.Throughout.bind ⟨fun _ => trivial, fun _ => trivial⟩ ?_
  rintro (_ | user)
  · dsimp only
    split <;> exact trivial
  · dsimp only
    split
    · refine Prog.Throughout.bind (Prog.Throughout.bind (viewingAccount_free _ _) ?_)
        fun _ => trivial
      rintro (_ | acc)
      · exact trivial
      · exact ⟨fun _ => trivial, fun r => by cases r <;> exact trivial⟩
    · exact trivial

theorem getHintsByChallengeId_free (challengeId userId contestId : ℤ) :
    (getHintsByChallengeId cfg challengeId userId contestId).Throughout (Free cfg call) := by
  refine Prog.Throughout.handle (Prog.Throughout.bind ⟨fun _ => trivial, fun _ => trivial⟩ ?_)
    fun _ => trivial
  rintro (_ | challenge)
  · exact trivial
  refine Prog.Throughout.bind ⟨fun _ => trivial, fun _ => trivial⟩ fun cc => ?_
  split
  · exact trivial
  refine Prog.Throughout.bind ⟨fun _ => trivial, fun _ => trivial⟩ fun hints => ?_
  refine Prog.Throughout.bind ?_ fun unlocked => trivial
  rw [unlockedHintIds]
  split
  · exact trivial
  refine Prog.Throughout.bind ⟨fun _ => trivial, fun _ => trivial⟩ ?_
  rintro (_ | user)
  · exact trivial
  refine Prog.Throughout.bind (viewingAccount_free _ _) ?_
  rintro (_ | acc)
  · exact trivial
  · exact ⟨fun _ => trivial, fun _ => trivial⟩

/-- **Reasons.** Every call performs its operations for a reason. -/
theorem program_reasoned (cfg : HintConfig) (call : HintCall) :
    (call.program cfg).Justified (Reason cfg call) (fun _ _ => True) [] := by
  cases call with
  | postUnlock req userId teamId contestId => exact postUnlock_justified
  | getHintById id userId contestId =>
      refine justified_free (Prog.Throughout.bind (getHintById_free _ _ _) ?_) []
      rintro (_ | hint)
      · exact trivial
      · exact trivial
  | getHintByChallengeId id userId contestId =>
      refine justified_free (Prog.Throughout.bind (f := fun hints => pure (HintAnswer.hints hints))
        (getHintsByChallengeId_free _ _ _) fun _ => ?_) []
      exact trivial

end Walk

/-! ### What stood in the tables -/

section Entitled

variable {cfg : HintConfig}

/-- A call has seen the tables like that, at one of its operations. -/
def Saw (pid : ℕ) (log : List (hintService cfg).Entry) (φ : HintWorld → Prop) : Prop :=
  ∃ y ∈ log, y.pid = pid ∧ φ y.before

/-- What a challenge requires, by the tables. -/
inductive ChallengeMet (p : Purchase) (pid : ℕ) (log : List (hintService cfg).Entry) : Prop where
  | free (h : p.challenge.prerequisites cfg = some [])
  | unreadable (h : p.challenge.prerequisites cfg = none)
  | unknown (pre : List ℤ) (hpre : p.challenge.prerequisites cfg = some pre)
      (h : Saw pid log fun w => ∀ b ∈ w.challenges, b.id ∉ pre)
  | solved (pre all required solved : List ℤ) (account : Account)
      (hpre : p.challenge.prerequisites cfg = some pre)
      (hall : Saw pid log fun w => w.challenges.map (·.id) = all)
      (hrequired : Saw pid log fun w =>
        w.contestChallengeIds p.contestId (pre.filter all.contains) = required)
      (haccount : account = .user p.userId ∨ Saw pid log fun w =>
        ∃ team, w.userTeam p.userId p.contestId = some team ∧ account = .team (some team.id))
      (hsolved : Saw pid log fun w => w.solvedIds account = solved)
      (h : ∀ id ∈ required, id ∈ solved)
  | failed (h : ∃ y ∈ log, y.pid = pid ∧ ∃ e, y.reply = .error e ∧ e.isInvalidOperation = false)

/-- What a hint requires, by the tables. -/
def HintMet (p : Purchase) (pid : ℕ) (log : List (hintService cfg).Entry) : Prop :=
  getPrerequisites cfg.parse p.hint.requirements = [] ∨
    ∃ unlocked free all : List ℤ,
      (Saw pid log fun w => w.unlockedIds cfg.sql (account cfg p.teamId p.userId) = unlocked) ∧
      (Saw pid log fun w => w.freeHintIds = free) ∧
      (Saw pid log fun w => w.hints.map (·.id) = all) ∧
      ∀ id ∈ getPrerequisites cfg.parse p.hint.requirements, id ∈ all → id ∈ unlocked ∨ id ∈ free

/-- The score of a team, by the tables. -/
inductive ScoreSeen (team : ScoreAccount) (pid : ℕ) (log : List (hintService cfg).Entry) :
    ℤ → Prop where
  | nobody (h : Saw pid log fun w => ScoreHelper.memberIds w.score team.id = []) :
      ScoreSeen team pid log 0
  | summed (ids : List ℤ) (solves awards : ℤ)
      (hids : Saw pid log fun w => ScoreHelper.memberIds w.score team.id = ids)
      (hsolves : Saw pid log fun w => w.solvesScore ids = solves)
      (hawards : Saw pid log fun w => w.awardsScore ids = awards) :
      ScoreSeen team pid log (solves + awards)

/-- **What an unlock rests on**, for a request with the team `teamId` in its token. -/
structure Entitled (p : Purchase) (teamId : ℤ) (pid : ℕ) (log : List (hintService cfg).Entry) :
    Prop where
  /-- The hint. -/
  hint : Saw pid log fun w => w.hint p.req.target = some (p.hint, some p.challenge)
  /-- The team of the token has not solved its challenge. -/
  unsolved : ∃ cc, (Saw pid log fun w =>
      w.contestsChallenge p.contestId (some p.challenge.id) = some cc) ∧
    Saw pid log fun w => ∀ s ∈ w.score.solves, s.contestChallengeId = cc.id →
      s.teamId ≠ some teamId
  /-- Its challenge is visible in the contest. -/
  visible : Saw pid log fun w => ∃ cc, w.contestsChallenge p.contestId (some p.challenge.id) =
    some cc ∧ cc.state = .visible
  /-- The team of the user. -/
  team : Saw pid log fun w => p.teamId = (w.userTeam p.userId p.contestId).map (·.id)
  challenge : ChallengeMet p pid log
  requirements : HintMet p pid log
  /-- There is no such unlock. -/
  new : Saw pid log fun w => ∀ u ∈ w.unlocks, u.target = some p.req.target →
    sameType cfg.sql u.type p.req.type = true →
      (account cfg p.teamId p.userId).owns u.userId u.teamId = false
  /-- The score of the team reaches the cost. -/
  paid : ∃ team score, (Saw pid log fun w => w.userTeam p.userId p.contestId = some team) ∧
    ScoreSeen team pid log score ∧ ∀ cost, p.hint.cost = some cost → cost ≤ score

variable {log pre post : List (hintService cfg).Entry} {pid : ℕ}

/-- A query that answers has the answer from the tables. -/
theorem HintEnv.eq_of_read {α : Type} {e : HintEnv} {answer : HintWorld → α} {w : HintWorld} {x : α}
    (h : (e.read answer w).1 = .ok x) : answer w = x := by
  simp only [HintEnv.read] at h
  split at h
  · exact Except.ok.inj h
  · cases h

/-- What a call was told, at an entry of the log. -/
theorem exists_entry_of_told {o : HintOp} {x : o.Reply} (h : Told (Service.past log pid) o x) :
    ∃ y ∈ log, y.pid = pid ∧ (HintOp.exec cfg y.env o y.before).1 = .ok x := by
  obtain ⟨⟨pid', c, e, o', s⟩, hy, hpid, hevent⟩ := Service.mem_past h
  obtain ⟨rfl, hreply⟩ := Event.mk.inj hevent
  exact ⟨_, hy, hpid, eq_of_heq hreply⟩

/-- A query was answered by the tables as they stood. -/
theorem Told.saw {o : HintOp} {x : o.Reply} {answer : HintWorld → o.Reply}
    (h : Told (Service.past log pid) o x)
    (ho : ∀ e w, HintOp.exec cfg e o w = HintEnv.read e answer w) :
    Saw pid log fun w => answer w = x := by
  obtain ⟨y, hy, hpid, hreply⟩ := exists_entry_of_told h
  exact ⟨y, hy, hpid, HintEnv.eq_of_read (ho y.env y.before ▸ hreply)⟩

theorem Saw.mono {φ ψ : HintWorld → Prop} (h : Saw pid log φ) (himp : ∀ w, φ w → ψ w) :
    Saw pid log ψ := by
  obtain ⟨y, hy, hpid, hφ⟩ := h
  exact ⟨y, hy, hpid, himp _ hφ⟩

theorem ChallengeOpen.met {p : Purchase} (h : ChallengeOpen cfg p (Service.past log pid)) :
    ChallengeMet p pid log := by
  cases h with
  | free h => exact .free h
  | unreadable h => exact .unreadable h
  | unknown pre all hpre hall h =>
      refine .unknown pre hpre ((hall.saw fun _ _ => rfl).mono fun w hw b hb hmem => ?_)
      exact h b.id hmem (hw ▸ List.mem_map_of_mem hb)
  | solved pre all required solved account hpre hall hrequired haccount hsolved h =>
      refine .solved pre all required solved account hpre (hall.saw fun _ _ => rfl)
        (hrequired.saw fun _ _ => rfl) ?_ (hsolved.saw fun _ _ => rfl) h
      rw [SolvedBy] at haccount
      split at haccount
      · obtain ⟨team, hteam, rfl⟩ := haccount
        exact .inr ((hteam.saw fun _ _ => rfl).mono fun w hw => ⟨team, hw, rfl⟩)
      · exact .inl haccount
  | failed o e he h =>
      obtain ⟨⟨pid', c, e', o', s⟩, hy, hpid, hevent⟩ := Service.mem_past h
      obtain ⟨rfl, hreply⟩ := Event.mk.inj hevent
      exact .failed ⟨_, hy, hpid, e, eq_of_heq hreply, he⟩

theorem HintOpen.met {p : Purchase} (h : HintOpen cfg p (Service.past log pid)) :
    HintMet p pid log := by
  rcases h with h | ⟨unlocked, free, all, hunlocked, hfree, hall, h⟩
  · exact .inl h
  · exact .inr ⟨unlocked, free, all, hunlocked.saw fun _ _ => rfl, hfree.saw fun _ _ => rfl,
      hall.saw fun _ _ => rfl, h⟩

theorem Scored.seen {team : ScoreAccount} {score : ℤ}
    (h : Scored (Service.past log pid) team score) :
    ScoreSeen team pid log score := by
  cases h with
  | nobody h => exact .nobody (h.saw fun _ _ => rfl)
  | summed ids solves awards hids hsolves hawards =>
      exact .summed ids solves awards (hids.saw fun _ _ => rfl) (hsolves.saw fun _ _ => rfl)
        (hawards.saw fun _ _ => rfl)

/-- The challenge of a hint. -/
theorem challengeId_of_hint {w : HintWorld} {id : ℤ} {hint : Hint} {challenge : BankChallenge}
    (h : w.hint id = some (hint, some challenge)) : hint.challengeId = some challenge.id := by
  obtain ⟨found, -, heq⟩ := Option.map_eq_some_iff.mp h
  obtain ⟨rfl, hchallenge⟩ := Prod.mk.inj heq
  obtain ⟨challengeId, hid, hfound⟩ := Option.bind_eq_some_iff.mp hchallenge
  have hsame : challenge.id = challengeId := by
    rw [HintWorld.challenge] at hfound
    simpa using List.find?_some hfound
  rw [hid, hsame]

theorem Under.visible {call : HintCall} {p : Purchase} {token : String}
    (h : Under cfg call p token (Service.past log pid)) :
    Saw pid log fun w => ∃ cc, w.contestsChallenge p.contestId (some p.challenge.id) = some cc ∧
      cc.state = .visible := by
  obtain ⟨bankId, cc, hcc, hbank, hstate⟩ := h.asked.visible
  have hhint : Saw pid log fun w => w.hint p.req.target = some (p.hint, some p.challenge) :=
    h.asked.hint.saw fun _ _ => rfl
  have hcc : Saw pid log fun w => w.contestsChallenge p.contestId bankId = some cc :=
    hcc.saw fun _ _ => rfl
  obtain ⟨y, -, -, hhint⟩ := hhint
  obtain rfl : bankId = some p.challenge.id := by
    rcases hbank with rfl | rfl
    · rfl
    · exact challengeId_of_hint hhint
  exact hcc.mono fun w hw => ⟨cc, hw, hstate⟩

/-- **What a purchase under the lock rests on.** -/
theorem Under.entitled {call : HintCall} {p : Purchase} {token : String}
    (h : Under cfg call p token (Service.past log pid))
    (hbought : Bought cfg p (Service.past log pid)) :
    ∃ teamId, call = .postUnlock p.req p.userId teamId p.contestId ∧ Entitled p teamId pid log := by
  obtain ⟨userId, teamId, cc, user, hcall, hcc, hsolve, huser, hid⟩ := h.asked.call
  obtain ⟨team, hteam, hteamId⟩ := h.asked.team
  have huser : Saw pid log fun w => w.score.users.find? (·.id = userId) = some user :=
    huser.saw fun _ _ => rfl
  have hsolve : Saw pid log fun w => w.score.solves.find? (fun s =>
      decide (s.contestChallengeId = cc.id) && decide (s.teamId = some teamId)) = none :=
    hsolve.saw fun _ _ => rfl
  obtain ⟨y, -, -, hfound⟩ := huser
  have hsame : user.id = userId := by simpa using List.find?_some hfound
  refine ⟨teamId, by rw [hcall, ← hid, hsame], h.asked.hint.saw fun _ _ => rfl,
    ⟨cc, hcc.saw fun _ _ => rfl, hsolve.mono fun w hw s hs hcc hteam => ?_⟩, h.visible,
    (hteam.saw fun _ _ => rfl).mono fun w hw => hteamId.trans (congrArg _ hw.symm),
    hbought.challenge.met, hbought.hint.met,
    (hbought.new.saw fun _ _ => rfl).mono fun w hw u hu htarget htype => ?_, ?_⟩
  · have hnot := List.find?_eq_none.mp hw s hs
    rw [hcc, hteam, decide_eq_true rfl, decide_eq_true rfl] at hnot
    exact hnot rfl
  · have hnot := List.find?_eq_none.mp hw u hu
    rw [htarget, htype, decide_eq_true rfl, Bool.true_and, Bool.true_and] at hnot
    exact Bool.eq_false_of_not_eq_true hnot
  · obtain ⟨team, score, hteam, hscore, hcost⟩ := hbought.paid
    exact ⟨team, score, hteam.saw fun _ _ => rfl, hscore.seen, hcost⟩

section Runs

variable {G : List (hintService cfg).Entry → (hintService cfg).Pool → (hintService cfg).Move → Prop}
  {s₀ : HintWorld} {w : (hintService cfg).Pool} {n : (hintService cfg).Entry}

/-- **Reasons in a run.** -/
theorem reason_of_records
    (h : Service.Records G ((hintService cfg).start s₀) (pre ++ n :: post) w) :
    Reason cfg n.call (Service.past pre n.pid) n.op :=
  (h.justified (program_reasoned cfg)).1 pre n post rfl

end Runs

/-- **Purchases.** An unlock is stored, with an award of the negative cost, for what its request
has seen in the tables. -/
theorem purchase_entitled (cfg : HintConfig)
    (G : List (hintService cfg).Entry → (hintService cfg).Pool → (hintService cfg).Move → Prop)
    (s₀ : HintWorld) (pre post : List (hintService cfg).Entry) (n : (hintService cfg).Entry)
    (w : (hintService cfg).Pool) (unlock : Unlock) (award : Award)
    (h : Service.Records G ((hintService cfg).start s₀) (pre ++ n :: post) w)
    (hop : n.op = .saveUnlock unlock award) :
    ∃ p teamId date awardDate, n.call = .postUnlock p.req p.userId teamId p.contestId ∧
      unlock = p.unlock date ∧ award = p.award awardDate ∧ Entitled p teamId n.pid pre := by
  have hreason := reason_of_records h
  rw [hop] at hreason
  obtain ⟨p, token, date, awardDate, hunder, hbought, rfl, rfl⟩ := hreason
  obtain ⟨teamId, hcall, hentitled⟩ := hunder.entitled hbought
  exact ⟨p, teamId, date, awardDate, hcall, rfl, rfl, hentitled⟩

end Entitled

/-! ### A purchase -/

/-- A deployment with teams, a binary collation, and no requirements that can be read. -/
def plainHints : HintConfig := ⟨true, .binary, fun _ => none, fun _ => none⟩

/-- No request fails. -/
def calmHints (guid : String) : HintEnv := ⟨.none, false, guid⟩

/-- One team of one member with 100 points, and a hint for 60. -/
def oneHint : HintWorld where
  challenges := [⟨5, "c", none⟩]
  hints := [⟨1, some "standard", some 5, some "look closer", some 60, none⟩]
  unlocks := []
  score :=
    { teams := [⟨3, none, some "t", none, none, none, some 1⟩]
      users := [⟨7, none, some "u", none, none, none, none⟩]
      userTeams := [(7, 3)]
      contestsChallenges :=
        [⟨9, 1, some ⟨5, "c", false, none, false⟩, none, some 50, .visible, false, none, none, none,
          none, false⟩]
      submissions := []
      solves := []
      awards := [⟨1, none, some 7, some 3, some 0, some 100⟩]
      brackets := []
      participants := [] }
  lock := ⟨fun _ => none, 0⟩

/-- A request for it. -/
def unlockIt (type : Option String) : HintCall := .postUnlock ⟨type, 1⟩ 7 3 1

/-- The hint is bought. -/
def buyIt : List (hintService plainHints).Move :=
  Service.callNow 0 (unlockIt (some "hints")) (calmHints "a") 19

/-- Is an unlock stored, and which? -/
def saved : HintOp → Option (Unlock × Award)
  | .saveUnlock unlock award => some (unlock, award)
  | _ => none

theorem eq_of_saved {o : HintOp} {unlock : Unlock} {award : Award}
    (h : saved o = some (unlock, award)) : o = .saveUnlock unlock award := by
  cases o with
  | saveUnlock unlock' award' =>
      obtain ⟨rfl, rfl⟩ := Prod.mk.inj (Option.some.inj h)
      rfl
  | _ => cases h

theorem purchase_entitled_example :
    ∃ log w n, Service.Records Service.anyLogged ((hintService plainHints).start oneHint) log w ∧
      log = log.take 16 ++ n :: log.drop 17 ∧
      ∃ p teamId date awardDate, n.call = .postUnlock p.req p.userId teamId p.contestId ∧
        (⟨0, some 7, some 3, some 1, some "hints", some 0⟩ : Unlock) = p.unlock date ∧
        (⟨0, none, some 7, some 3, some 0, some (-60)⟩ : Award) = p.award awardDate ∧
        Entitled p teamId n.pid (log.take 16) := by
  have hrun : (Service.runLogged Service.anyLogged [] ((hintService plainHints).start oneHint)
      buyIt).any (fun r => (r.1[16]?).any fun n => decide (saved n.op =
        some (⟨0, some 7, some 3, some 1, some "hints", some 0⟩,
          ⟨0, none, some 7, some 3, some 0, some (-60)⟩))) = true := by
    decide +kernel
  obtain ⟨⟨log, w⟩, hw, hlast⟩ := (Option.any_eq_true _ _).mp hrun
  obtain ⟨n, hn, hsaved⟩ := (Option.any_eq_true _ _).mp hlast
  have hsplit : log = log.take 16 ++ n :: log.drop 17 := by
    rw [Service.cons_drop hn, List.take_append_drop]
  have hrecords := Service.records_of_runLogged .refl hw
  refine ⟨log, w, n, hrecords, hsplit, ?_⟩
  exact purchase_entitled plainHints Service.anyLogged oneHint (log.take 16) (log.drop 17) n w _ _
    (hsplit ▸ hrecords) (eq_of_saved (of_decide_eq_true hsaved))

end Hints

end Fctf
