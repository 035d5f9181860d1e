import Fctf.HintUnlocks

/-!
# No Debt

A hint is paid with an award of its negative cost, which counts for every team of the user. The
score that has to reach the cost is read under the lock of one team. So a team whose members are in
no other team does not spend more than it has, as long as no request outlives its lock.

## Main results

* `noDebt`: in every such run in which others lower no score, no team's score gets negative.
-/

open Concurrent RedisDb

namespace Fctf

namespace Hints

section Debt

variable {cfg : HintConfig} {log : List (hintService cfg).Entry} {s s₀ : HintWorld} {pid : ℕ}
  {call : HintCall} {p p' : Purchase} {token : String}

/-! ### Scores -/

/-- The ids of the members of a team. -/
def HintWorld.members (s : HintWorld) (teamId : ℤ) : List ℤ := ScoreHelper.memberIds s.score teamId

/-- What a team has. -/
def HintWorld.teamScore (s : HintWorld) (teamId : ℤ) : ℤ :=
  s.solvesScore (s.members teamId) + s.awardsScore (s.members teamId)

theorem mem_members {u t : ℤ} : u ∈ s.members t ↔ (u, t) ∈ s.score.userTeams := by
  simp [HintWorld.members, ScoreHelper.memberIds]

/-- Nobody has nothing. -/
theorem points_of_nobody (rows : List ScoreRow) :
    points (rows.filter (ScoreHelper.ofUsers [] none)) = 0 := by
  have hnone : rows.filter (ScoreHelper.ofUsers [] none) = [] := by
    refine List.filter_eq_nil_iff.mpr fun x _ => ?_
    rw [ScoreHelper.ofUsers]
    cases x.accountId <;> simp
  rw [hnone, points_nil]

/-- It is what `GetTeamScore` computes for an admin. -/
theorem getTeamScore_eq_teamScore (scores : ScoreConfig) (team : ScoreAccount) :
    ScoreHelper.getTeamScore scores s.score team true = s.teamScore team.id := by
  rw [ScoreHelper.getTeamScore, HintWorld.teamScore, HintWorld.members]
  split
  · next hempty =>
      rw [List.isEmpty_iff.mp hempty, HintWorld.solvesScore, HintWorld.awardsScore,
        points_of_nobody, points_of_nobody]
      rfl
  · rfl

/-- What an award adds for some users. -/
def Award.worth (award : Award) (userIds : List ℤ) : ℤ :=
  if award.userId.any (· ∈ userIds) then award.value.getD 0 else 0

/-- **A save** adds the award to the scores it counts for. -/
theorem awardsScore_saveUnlock (unlock : Unlock) (award : Award) (ids : List ℤ) :
    (s.saveUnlock unlock award).2.awardsScore ids = s.awardsScore ids + Award.worth award ids := by
  have hrow (id : ℤ) : points ([Award.row (·.userId) { award with id := id }].filter
      (ScoreHelper.ofUsers ids none)) = Award.worth award ids := by
    rw [Award.worth, List.filter_singleton]
    have hcounts : ScoreHelper.ofUsers ids none (Award.row (·.userId) { award with id := id }) =
        award.userId.any (· ∈ ids) := Bool.and_true _
    rw [hcounts]
    cases award.userId.any (· ∈ ids) with
    | false => rfl
    | true =>
        rw [cond_true, points_cons, points_nil, add_zero]
        rfl
  rw [HintWorld.awardsScore, HintWorld.saveUnlock, awardRows, List.map_append, List.filter_append,
    points_append]
  exact congrArg _ (hrow _)

/-- No operation touches the solves. -/
theorem solvesScore_after (cfg : HintConfig) (e : HintEnv) (o : HintOp) (s : HintWorld)
    (ids : List ℤ) : (HintOp.exec cfg e o s).2.solvesScore ids = s.solvesScore ids := by
  rcases tables_after cfg e o s with ⟨unlock, award, -, hafter⟩ | ⟨-, hscore⟩
  · rw [hafter]
    rfl
  · rw [HintWorld.solvesScore, hscore, ← HintWorld.solvesScore]

/-! ### What others may do -/

/-- Others lower no score, and leave the teams as they are. -/
structure LowersNoScore (s x : HintWorld) : Prop where
  leaves : LeavesLocks s x
  teams : x.score.teams = s.score.teams
  userTeams : x.score.userTeams = s.score.userTeams
  solves : ∀ ids, s.solvesScore ids ≤ x.solvesScore ids
  awards : ∀ ids, s.awardsScore ids ≤ x.awardsScore ids

/-- Everyone is in one team at most, and teams have ids of their own. -/
structure OneTeamEach (s : HintWorld) : Prop where
  unique : ∀ u t t', (u, t) ∈ s.score.userTeams → (u, t') ∈ s.score.userTeams → t = t'
  keys : (s.score.teams.map (·.id)).Nodup

/-- The teams and their members are those of the beginning. -/
structure SameTeams (s₀ s : HintWorld) : Prop where
  teams : s.score.teams = s₀.score.teams
  userTeams : s.score.userTeams = s₀.score.userTeams

theorem SameTeams.userTeam (h : SameTeams s₀ s) (u c : ℤ) : s.userTeam u c = s₀.userTeam u c := by
  rw [HintWorld.userTeam, h.teams, h.userTeams, ← HintWorld.userTeam]

theorem SameTeams.members (h : SameTeams s₀ s) (t : ℤ) : s.members t = s₀.members t := by
  rw [HintWorld.members, ScoreHelper.memberIds, h.userTeams, ← ScoreHelper.memberIds,
    HintWorld.members]

/-! ### What is kept -/

/-- **What is kept**, as long as no call outlives its lock. -/
structure Solvent (s₀ : HintWorld) (log : List (hintService cfg).Entry) (s : HintWorld) : Prop where
  locked : Locked log s
  same : SameTeams s₀ s
  before : ∀ n ∈ log, SameTeams s₀ n.before
  /-- What was read is still there. -/
  solves : ∀ n ∈ log, ∀ ids, ∀ v : ℤ, n.event = ⟨HintOp.solvesScore ids, .ok v⟩ →
    v ≤ s.solvesScore ids
  awards : ∀ n ∈ log, ∀ ids, ∀ v : ℤ, n.event = ⟨HintOp.awardsScore ids, .ok v⟩ →
    Open log n.pid → InTime log s.lock.clock n.pid → v ≤ s.awardsScore ids
  solvent : ∀ t, 0 ≤ s.teamScore t

/-- The team that a call was told. -/
theorem userTeam_of_told (hbefore : ∀ n ∈ log, SameTeams s₀ n.before) {u c : ℤ}
    {team : Option ScoreAccount} (h : Told (Service.past log pid) (.findUserTeam u c) team) :
    s₀.userTeam u c = team := by
  obtain ⟨y, hy, -, hreply⟩ := exists_entry_of_told h
  rw [← (hbefore y hy).userTeam]
  exact HintEnv.eq_of_read hreply

theorem members_of_told (hbefore : ∀ n ∈ log, SameTeams s₀ n.before) {t : ℤ} {ids : List ℤ}
    (h : Told (Service.past log pid) (.memberIds t) ids) : s₀.members t = ids := by
  obtain ⟨y, hy, -, hreply⟩ := exists_entry_of_told h
  rw [← (hbefore y hy).members]
  exact HintEnv.eq_of_read hreply

/-- The key of a purchase for a team. -/
theorem exists_key (h : Under cfg call p token (Service.past log pid))
    (hbefore : ∀ n ∈ log, SameTeams s₀ n.before) (hteams : cfg.teamsMode = true)
    {team : ScoreAccount} (hteam : s₀.userTeam p.userId p.contestId = some team) :
    ∃ m ∈ log, m.pid = pid ∧
      m.event = acquired (teamKey p.contestId team.id) token := by
  obtain ⟨team', htold, hid⟩ := h.asked.team
  rw [← userTeam_of_told hbefore htold, hteam] at hid
  obtain ⟨m, hm, hpid, hevent⟩ := Service.mem_past h.acquired
  refine ⟨m, hm, hpid, hevent.trans ?_⟩
  have hkey : p.lockKey cfg = teamKey p.contestId team.id := by
    rw [Purchase.lockKey, if_pos hteams, hid]
    rfl
  rw [hkey]
  rfl

/-- Two purchases for one team are for one contest. -/
theorem OneTeamEach.contestId_eq (h : OneTeamEach s₀) {u u' c c' : ℤ} {team team' : ScoreAccount}
    (hteam : s₀.userTeam u c = some team) (hteam' : s₀.userTeam u' c' = some team')
    (hid : team.id = team'.id) : c = c' := by
  obtain ⟨hmem, hcontest, -⟩ := contestId_of_userTeam hteam
  obtain ⟨hmem', hcontest', -⟩ := contestId_of_userTeam hteam'
  obtain rfl := List.inj_on_of_nodup_map h.keys hmem hmem' hid
  exact Option.some.inj (hcontest.symm.trans hcontest')

/-- The team of a purchase, as its call was told. -/
theorem Bought.exists_team (hbought : Bought cfg p (Service.past log pid))
    (hbefore : ∀ n ∈ log, SameTeams s₀ n.before) :
    ∃ team, s₀.userTeam p.userId p.contestId = some team ∧
      ∃ score, Scored (Service.past log pid) team score ∧
        ∀ cost, p.hint.cost = some cost → cost ≤ score := by
  obtain ⟨team, score, hteam, hscore, hcost⟩ := hbought.paid
  exact ⟨team, userTeam_of_told hbefore hteam, score, hscore, hcost⟩

/-- **One purchase at a time** reads what the members of a team have. -/
theorem Solvent.alone {m : (hintService cfg).Entry} (h : Solvent s₀ log s) (hone : OneTeamEach s₀)
    (hreasoned : Service.Reasoned (Reason cfg) log) (hteams : cfg.teamsMode = true) {ids : List ℤ}
    {v : ℤ} (hm : m ∈ log) (hevent : m.event = ⟨HintOp.awardsScore ids, .ok v⟩)
    (hopen : Open log m.pid) (htime : InTime log s.lock.clock m.pid)
    (hunder : Under cfg call p token (Service.past log pid))
    (hbought : Bought cfg p (Service.past log pid)) (hintime : InTime log s.lock.clock pid)
    (hmem : p.userId ∈ ids) : m.pid = pid := by
  obtain ⟨team, hteam, -⟩ := hbought.exists_team h.before
  obtain ⟨a, ha, hpid, hacquired⟩ := exists_key hunder h.before hteams hteam
  obtain ⟨pre, post, rfl⟩ := List.append_of_mem hm
  have hreason := hreasoned pre m post rfl
  obtain ⟨mpid, c, e, o, w⟩ := m
  obtain ⟨rfl, -⟩ := Event.mk.inj hevent
  obtain ⟨q, qtoken, hqunder, qteam, hqteam, hids⟩ := hreason
  have hbefore : ∀ n ∈ pre, SameTeams s₀ n.before := fun n hn =>
    h.before n (List.mem_append_left _ hn)
  have hqteam := userTeam_of_told hbefore hqteam
  obtain ⟨b, hb, hbpid, hbacquired⟩ := exists_key hqunder hbefore hteams hqteam
  -- the user is in the team whose score is read
  have hsame : team.id = qteam.id := by
    rw [← members_of_told hbefore hids, mem_members] at hmem
    exact hone.unique p.userId team.id qteam.id (contestId_of_userTeam hteam).2.2 hmem
  rw [hone.contestId_eq hteam hqteam hsame, hsame] at hacquired
  subst hpid hbpid
  exact h.locked.alone (m := b) (List.mem_append_left _ hb) ha hbacquired hacquired hopen
    hunder.isOpen htime hintime

/-- The award of a purchase. -/
theorem worth_award (date : ℤ) (ids : List ℤ) :
    Award.worth (p.award date) ids = if p.userId ∈ ids then -p.hint.cost.getD 0 else 0 := by
  simp [Award.worth, Purchase.award]

/-- **A purchase is paid**: the team of the user has what the hint costs. -/
theorem Solvent.paid (h : Solvent s₀ log s) (hunder : Under cfg call p token (Service.past log pid))
    (hbought : Bought cfg p (Service.past log pid)) (hintime : InTime log s.lock.clock pid)
    {team : ScoreAccount} (hteam : s₀.userTeam p.userId p.contestId = some team) :
    p.hint.cost.getD 0 ≤ s.teamScore team.id := by
  cases hcost : p.hint.cost with
  | none => exact h.solvent team.id
  | some cost =>
      obtain ⟨team', hteam', score, hscore, hle⟩ := hbought.exists_team h.before
      obtain rfl := Option.some.inj (hteam.symm.trans hteam')
      refine (hle cost hcost).trans ?_
      have hmembers := h.same.members team.id
      cases hscore with
      | nobody hnone =>
          -- the user is a member
          have hmem := mem_members.mpr (contestId_of_userTeam hteam).2.2
          rw [members_of_told h.before hnone] at hmem
          cases hmem
      | summed ids solves awards hids hsolves hawards =>
          obtain ⟨x, hx, -, hxevent⟩ := Service.mem_past hsolves
          obtain ⟨y, hy, hypid, hyevent⟩ := Service.mem_past hawards
          have hsolves := h.solves x hx ids solves hxevent
          have hawards := h.awards y hy ids awards hyevent (hypid ▸ hunder.isOpen)
            (hypid ▸ hintime)
          rw [HintWorld.teamScore, hmembers, members_of_told h.before hids]
          exact add_le_add hsolves hawards

theorem Solvent.nil (hsolvent : ∀ t, 0 ≤ s₀.teamScore t) :
    Solvent s₀ ([] : List (hintService cfg).Entry) s₀ where
  locked := .nil s₀
  same := ⟨rfl, rfl⟩
  before n hn := by cases hn
  solves n hn := by cases hn
  awards n hn := by cases hn
  solvent := hsolvent

/-- Others do something. -/
theorem Solvent.ambient (h : Solvent s₀ log s) {x : HintWorld} (hx : LowersNoScore s x) :
    Solvent s₀ log x where
  locked := h.locked.ambient hx.leaves
  same := ⟨hx.teams.trans h.same.teams, hx.userTeams.trans h.same.userTeams⟩
  before := h.before
  solves n hn ids v hevent := (h.solves n hn ids v hevent).trans (hx.solves ids)
  awards n hn ids v hevent hopen htime :=
    (h.awards n hn ids v hevent hopen (htime.earlier hx.leaves.clock)).trans (hx.awards ids)
  solvent t := by
    have hmembers : x.members t = s.members t := by
      rw [HintWorld.members, ScoreHelper.memberIds, hx.userTeams, ← ScoreHelper.memberIds,
        HintWorld.members]
    rw [HintWorld.teamScore, hmembers]
    exact (h.solvent t).trans (add_le_add (hx.solves _) (hx.awards _))

/-- **An unlock is stored**, and paid. -/
theorem Solvent.store (h : Solvent s₀ log s) (hone : OneTeamEach s₀)
    (hunder : Under cfg call p token (Service.past log pid))
    (hbought : Bought cfg p (Service.past log pid)) (hintime : InTime log s.lock.clock pid)
    (unlock : Unlock) (date : ℤ) (t : ℤ) :
    0 ≤ (s.saveUnlock unlock (p.award date)).2.teamScore t := by
  have hscore : (s.saveUnlock unlock (p.award date)).2.teamScore t =
      s.solvesScore (s.members t) +
        (s.awardsScore (s.members t) + Award.worth (p.award date) (s.members t)) :=
    congrArg _ (awardsScore_saveUnlock unlock (p.award date) (s.members t))
  have hnow := h.solvent t
  rw [hscore, worth_award]
  rw [HintWorld.teamScore] at hnow
  split
  · next hmem =>
      obtain ⟨team, hteam, -⟩ := hbought.exists_team h.before
      have hpaid := h.paid hunder hbought hintime hteam
      obtain rfl : t = team.id := by
        rw [h.same.members, mem_members] at hmem
        exact hone.unique p.userId t team.id hmem (contestId_of_userTeam hteam).2.2
      rw [HintWorld.teamScore] at hpaid
      omega
  · omega

/-- **One operation** keeps it. -/
theorem Solvent.act {n : (hintService cfg).Entry} (h : Solvent s₀ log n.before)
    (hone : OneTeamEach s₀) (hteams : cfg.teamsMode = true)
    (hreasoned : Service.Reasoned (Reason cfg) log)
    (hreason : Reason cfg n.call (Service.past log n.pid) n.op)
    (hadmitted : Admitted log n.before n.pid n.env n.op) : Solvent s₀ (log ++ [n]) n.after where
  locked := h.locked.act hreason hadmitted
  same := by
    rcases tables_after cfg n.env n.op n.before with ⟨unlock, award, -, hafter⟩ | ⟨-, hscore⟩
    · change n.after = _ at hafter
      rw [hafter]
      exact ⟨h.same.teams, h.same.userTeams⟩
    · change n.after.score = _ at hscore
      exact ⟨hscore ▸ h.same.teams, hscore ▸ h.same.userTeams⟩
  before m hm := by
    rcases List.mem_append.mp hm with hm | hm
    · exact h.before m hm
    · exact List.mem_singleton.mp hm ▸ h.same
  solves m hm ids v hevent := by
    have hafter := solvesScore_after cfg n.env n.op n.before ids
    change n.after.solvesScore ids = _ at hafter
    rw [hafter]
    rcases List.mem_append.mp hm with hm | hm
    · exact h.solves m hm ids v hevent
    · obtain rfl := List.mem_singleton.mp hm
      obtain ⟨pid, c, e, o, w⟩ := m
      obtain ⟨rfl, hreply⟩ := Event.mk.inj hevent
      have hv : w.solvesScore ids = v := HintEnv.eq_of_read (eq_of_heq hreply)
      exact hv.ge
  awards m hm ids v hevent hopen htime := by
    have hclock : n.after.lock.clock = n.before.lock.clock := exec_clock cfg n.env n.op n.before
    rw [hclock] at htime
    rcases List.mem_append.mp hm with hm | hm
    · have hread := h.awards m hm ids v hevent hopen.of_append htime.of_append
      rcases tables_after cfg n.env n.op n.before with ⟨unlock, award, hop, hafter⟩ | ⟨-, hscore⟩
      · change n.after = _ at hafter
        rw [hop] at hreason hadmitted
        obtain ⟨p, token, date, awardDate, hunder, hbought, rfl, rfl⟩ := hreason
        rw [hafter, awardsScore_saveUnlock, worth_award]
        split
        · next hmem =>
            -- the purchase would be the reader's own
            have hpid := h.alone hone hreasoned hteams hm hevent hopen.of_append htime.of_append
              hunder hbought hadmitted hmem
            have hfinal := hopen n (List.mem_append_right _ (List.mem_singleton_self n)) hpid.symm
            rw [hop] at hfinal
            cases hfinal
        · omega
      · change n.after.score = _ at hscore
        rwa [HintWorld.awardsScore, hscore, ← HintWorld.awardsScore]
    · obtain rfl := List.mem_singleton.mp hm
      obtain ⟨pid, c, e, o, w⟩ := m
      obtain ⟨rfl, hreply⟩ := Event.mk.inj hevent
      have hv : w.awardsScore ids = v := HintEnv.eq_of_read (eq_of_heq hreply)
      exact hv.ge
  solvent t := by
    rcases tables_after cfg n.env n.op n.before with ⟨unlock, award, hop, hafter⟩ | ⟨-, hscore⟩
    · change n.after = _ at hafter
      rw [hop] at hreason hadmitted
      obtain ⟨p, token, date, awardDate, hunder, hbought, rfl, rfl⟩ := hreason
      rw [hafter]
      exact h.store hone hunder hbought hadmitted _ _ t
    · change n.after.score = _ at hscore
      rw [HintWorld.teamScore, HintWorld.members, HintWorld.solvesScore, HintWorld.awardsScore,
        hscore]
      exact h.solvent t

/-- It holds all along. -/
theorem solvent_of_records {w : (hintService cfg).Pool} (hteams : cfg.teamsMode = true)
    (hone : OneTeamEach s₀) (hsolvent : ∀ t, 0 ≤ s₀.teamScore t)
    (h : Service.Records (Orderly LowersNoScore) ((hintService cfg).start s₀) log w) :
    Solvent s₀ log w.shared := by
  induction h with
  | refl => exact .nil hsolvent
  | spawn _ _ ih => exact ih
  | ambient _ hg ih => exact ih.ambient hg
  | @act log w pid e c o k hr hp hg ih =>
      exact Solvent.act (n := ⟨pid, c, e, o, w.shared⟩) ih hone hteams
        (hr.justified (program_reasoned cfg)).1 (reason_of_records (hr.act hp hg))
        (Orderly.of_pending hg hp)

/-- **No debt.** With teams, and everyone in one of them at most, no score gets negative in any run
in which guids are drawn once and no unlock is stored by a call whose lock has run out; others may
do anything but lower a score, change the teams, or touch the locks. -/
theorem noDebt (cfg : HintConfig) (scores : ScoreConfig) (s₀ : HintWorld)
    (log : List (hintService cfg).Entry) (w : (hintService cfg).Pool) (team : ScoreAccount)
    (hteams : cfg.teamsMode = true) (hone : OneTeamEach s₀)
    (hsolvent : ∀ t, 0 ≤ ScoreHelper.getTeamScore scores s₀.score t true)
    (h : Service.Records (Orderly LowersNoScore) ((hintService cfg).start s₀) log w) :
    0 ≤ ScoreHelper.getTeamScore scores w.shared.score team true := by
  have hstart (t : ℤ) : 0 ≤ s₀.teamScore t := by
    have := hsolvent ⟨t, none, none, none, none, none, none⟩
    rwa [getTeamScore_eq_teamScore] at this
  rw [getTeamScore_eq_teamScore]
  exact (solvent_of_records hteams hone hstart h).solvent team.id

end Debt

/-- Two requests at the same time. -/
theorem noDebt_example :
    ∃ log w, Service.Records (Orderly LowersNoScore) ((hintService plainHints).start oneHint)
        log w ∧ w.shared.unlocks.length = 1 ∧
      0 ≤ ScoreHelper.getTeamScore ⟨none, none⟩ w.shared.score
        ⟨3, none, some "t", none, none, none, some 1⟩ true := by
  have hrun : (Service.runLogged (Orderly nothing) [] ((hintService plainHints).start oneHint)
      twoRequests).any (fun r => decide (r.2.shared.unlocks.length = 1)) = true := by
    decide +kernel
  obtain ⟨⟨log, w⟩, hw, hlength⟩ := (Option.any_eq_true _ _).mp hrun
  have hrecords : Service.Records (Orderly LowersNoScore) _ log w :=
    (Service.records_of_runLogged .refl hw).mono fun _ _ _ h => h.of_nothing _
  refine ⟨log, w, hrecords, of_decide_eq_true hlength, noDebt plainHints ⟨none, none⟩ oneHint log w
    _ rfl ⟨fun u t t' ht ht' => ?_, List.nodup_singleton _⟩ (fun t => ?_) hrecords⟩
  · obtain ⟨-, rfl⟩ := Prod.mk.inj (List.mem_singleton.mp ht)
    obtain ⟨-, rfl⟩ := Prod.mk.inj (List.mem_singleton.mp ht')
    rfl
  · by_cases hid : t.id = 3
    · have hscore : ScoreHelper.getTeamScore ⟨none, none⟩ oneHint.score t true = 100 := by
        rw [ScoreHelper.getTeamScore, hid]
        decide
      rw [hscore]
      decide
    · have hnone : ScoreHelper.memberIds oneHint.score t.id = [] := by
        rw [ScoreHelper.memberIds]
        simp [oneHint, Ne.symm hid]
      rw [ScoreHelper.getTeamScore, hnone]
      exact le_refl 0

end Hints

end Fctf
