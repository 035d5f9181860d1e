import Fctf.HintUnlocks

/-!
# Who Sees a Hint

The content of a hint that costs something is shown to those for whom there is an unlock. One
request shows a hint, another one lists the hints of a challenge with a mark for those that are
open; the two look for unlocks by different queries.

## Main results

* `shown_paid`: a content that is shown costs nothing, or was bought before.
* `marked_iff_shown`: the list marks the hints that are shown.
* `shown_of_unlocked`: a hint that was unlocked is shown to the whole team from then on.
-/

open Concurrent RedisDb

namespace Fctf

namespace Hints

/-! ### Why a content is shown -/

section Founded

variable {cfg : HintConfig} {id userId contestId : ℤ} {l : HintHistory}

/-- No reason is asked for. -/
def anyway (_ : HintHistory) (_ : HintOp) : Prop := True

/-- Any program. -/
theorem justified_anyway {α : Type} (q : Prog hintI HintError α) (l : HintHistory) :
    q.Justified anyway (fun _ _ => True) l := by
  induction q generalizing l with
  | ret r => exact trivial
  | call o k ih => exact ⟨trivial, fun r => ih r _⟩

/-- One operation, and what follows. -/
theorem justified_read {α : Type} {o : HintOp} {f : o.Reply → Prog hintI HintError α}
    {A : HintHistory → Except HintError α → Prop}
    (hok : ∀ x, (f x).Justified anyway A (l ++ [⟨o, .ok x⟩]))
    (herr : ∀ e, A (l ++ [⟨o, .error e⟩]) (.error e)) :
    (request o >>= f).Justified anyway A l := by
  refine ⟨trivial, fun r => ?_⟩
  cases r with
  | ok x => exact hok x
  | error e => exact herr e

/-- The account that a user looks with. -/
def Looks (cfg : HintConfig) (userId contestId : ℤ) (l : HintHistory) (account : Account) : Prop :=
  if cfg.teamsMode then
    ∃ team, Told l (.findUserTeam userId contestId) (some team) ∧ account = .team (some team.id)
  else account = .user userId

/-- **Why a hint is shown**: it costs nothing, or there is an unlock. -/
def Paid (cfg : HintConfig) (hint : Hint) (userId contestId : ℤ) (l : HintHistory) : Prop :=
  hint.hasCost = false ∨ ∃ user account unlock, Told l (.findUser userId) (some user) ∧
    Looks cfg user.id contestId l account ∧ Told l (.findHintUnlock hint.id account) (some unlock)

/-- What a view of a hint rests on. -/
structure Viewed (cfg : HintConfig) (id userId contestId : ℤ) (dto : HintResponseDTO)
    (l : HintHistory) : Prop where
  hint : ∃ hint challenge cc, Told l (.findHint id) (some (hint, challenge)) ∧
    Told l (.findContestsChallenge contestId hint.challengeId) (some cc) ∧ cc.state = .visible ∧
    (dto.content = none ∧ dto.html = none ∨
      dto = hint.shown "unlocked" ∧ Paid cfg hint userId contestId l)

/-- A look for an unlock. -/
theorem isUnlocked_justified (hintId userId contestId : ℤ) (l : HintHistory) :
    (isUnlocked cfg hintId userId contestId).Justified anyway
      (fun l' r => l <+: l' ∧ (r = .ok true → ∃ account unlock,
        Looks cfg userId contestId l' account ∧
          Told l' (.findHintUnlock hintId account) (some unlock))) l := by
  have hlook : (viewingAccount cfg userId contestId).Justified anyway
      (fun l' r => l <+: l' ∧ ∀ account, r = .ok (some account) →
        Looks cfg userId contestId l' account) l := by
    rw [viewingAccount]
    split
    · next hmode =>
        refine justified_read (fun team => ⟨List.prefix_append _ _, fun acc hr => ?_⟩)
          fun e => ⟨List.prefix_append _ _, fun _ hr => by cases hr⟩
        obtain ⟨team, rfl, rfl⟩ := Option.map_eq_some_iff.mp (Except.ok.inj hr)
        rw [Looks, if_pos hmode]
        exact ⟨team, told_last _ _ _, rfl⟩
    · next hmode =>
        refine ⟨List.prefix_refl l, fun acc hr => ?_⟩
        rw [Looks, if_neg hmode]
        exact (Option.some.inj (Except.ok.inj hr)).symm
  refine Prog.Justified.bind (hlook.mono ?_)
  rintro l₁ (e | _ | acc) ⟨hext, hacc⟩
  · exact ⟨hext, fun hr => by cases hr⟩
  · exact ⟨hext, fun hr => by cases hr⟩
  · refine justified_read (fun unlock => ⟨hext.trans (List.prefix_append _ _), fun hr => ?_⟩)
      fun e => ⟨hext.trans (List.prefix_append _ _), fun hr => by cases hr⟩
    obtain ⟨unlock, rfl⟩ := Option.isSome_iff_exists.mp (Except.ok.inj hr)
    refine ⟨acc, unlock, ?_, told_last _ _ _⟩
    have hlooks := hacc acc rfl
    rw [Looks] at hlooks ⊢
    split
    · next hmode =>
        rw [if_pos hmode] at hlooks
        obtain ⟨team, hteam, rfl⟩ := hlooks
        exact ⟨team, hteam.append _, rfl⟩
    · next hmode => rwa [if_neg hmode] at hlooks

/-- **A view.** -/
theorem getHintById_justified (id userId contestId : ℤ) :
    (getHintById cfg id userId contestId).Justified anyway
      (fun l r => ∀ dto, r = .ok (some dto) → Viewed cfg id userId contestId dto l) [] := by
  refine Prog.Justified.handle ?_
  refine justified_read (fun found => ?_) fun e dto hr => by cases hr
  rcases found with _ | ⟨hint, challenge⟩
  · exact fun dto hr => by cases hr
  have hhint := told_last [] (.findHint id) (some (hint, challenge))
  refine justified_read (fun found => ?_) fun e dto hr => by cases hr
  rcases found with _ | cc
  · exact fun dto hr => by cases hr
  have hcc := told_last ([] ++ [⟨.findHint id, .ok (some (hint, challenge))⟩])
    (.findContestsChallenge contestId hint.challengeId) (some cc)
  split
  · exact fun dto hr => by cases hr
  · next hstate =>
      have hvisible : cc.state = .visible := by
        by_contra hne
        exact hstate (decide_eq_true hne)
      refine justified_read (fun user => ?_) fun e dto hr => by cases hr
      have huser := told_last ([] ++ [⟨.findHint id, .ok (some (hint, challenge))⟩] ++
        [⟨.findContestsChallenge contestId hint.challengeId, .ok (some cc)⟩]) (.findUser userId)
        user
      have hviewed (l' : HintHistory) (hext : _ <+: l') (dto : HintResponseDTO)
          (h : dto.content = none ∧ dto.html = none ∨
            dto = hint.shown "unlocked" ∧ Paid cfg hint userId contestId l') :
          Viewed cfg id userId contestId dto l' :=
        ⟨hint, challenge, cc, ((hhint.append _).append _).later hext,
          (hcc.append [⟨.findUser userId, .ok user⟩]).later hext, hvisible, h⟩
      rcases user with _ | user
      · dsimp only
        split
        · rintro dto hr
          obtain rfl := Option.some.inj (Except.ok.inj hr)
          exact hviewed _ (List.prefix_refl _) _ (.inl ⟨rfl, rfl⟩)
        · next hcost =>
            rintro dto hr
            obtain rfl := Option.some.inj (Except.ok.inj hr)
            exact hviewed _ (List.prefix_refl _) _
              (.inr ⟨rfl, .inl (Bool.eq_false_of_not_eq_true hcost)⟩)
      · dsimp only
        split
        · refine Prog.Justified.bind ((isUnlocked_justified hint.id user.id contestId _).mono ?_)
          rintro l₁ (e | unlocked) ⟨hext, hunlocked⟩
          · exact fun dto hr => by cases hr
          · rintro dto hr
            obtain rfl := Option.some.inj (Except.ok.inj hr)
            cases unlocked with
            | false => exact hviewed _ hext _ (.inl ⟨rfl, rfl⟩)
            | true =>
                obtain ⟨acc, unlock, hlooks, htold⟩ := hunlocked rfl
                exact hviewed _ hext _
                  (.inr ⟨rfl, .inr ⟨user, acc, unlock, huser.later hext, hlooks, htold⟩⟩)
        · next hcost =>
            rintro dto hr
            obtain rfl := Option.some.inj (Except.ok.inj hr)
            exact hviewed _ (List.prefix_refl _) _
              (.inr ⟨rfl, .inl (Bool.eq_false_of_not_eq_true hcost)⟩)

/-- The account that a user looks with, by the tables. -/
def LooksBy (cfg : HintConfig) (userId contestId : ℤ) (pid : ℕ) (log : List (hintService cfg).Entry)
    (account : Account) : Prop :=
  if cfg.teamsMode then
    ∃ team, (Saw pid log fun w => w.userTeam userId contestId = some team) ∧
      account = .team (some team.id)
  else account = .user userId

/-- What a content that is shown rests on. -/
structure Founded (cfg : HintConfig) (id userId contestId : ℤ) (hint : Hint) (pid : ℕ)
    (log : List (hintService cfg).Entry) : Prop where
  found : Saw pid log fun w => ∃ challenge, w.hint id = some (hint, challenge)
  visible : Saw pid log fun w => ∃ cc, w.contestsChallenge contestId hint.challengeId = some cc ∧
    cc.state = .visible
  paid : hint.hasCost = false ∨ ∃ account, LooksBy cfg userId contestId pid log account ∧
    Saw pid log fun w => ∃ u ∈ w.unlocks, account.owns u.userId u.teamId = true ∧
      u.target = some hint.id ∧ u.opens cfg.sql = true

theorem mem_of_findHintUnlock {w : HintWorld} {sql : Grouping.Collation} {target : ℤ}
    {account : Account} {u : Unlock} (h : w.findHintUnlock sql target account = some u) :
    u ∈ w.unlocks ∧ account.owns u.userId u.teamId = true ∧ u.target = some target ∧
      u.opens sql = true := by
  have hall := List.find?_some h
  rw [Bool.and_eq_true, Bool.and_eq_true, decide_eq_true_iff] at hall
  exact ⟨List.mem_of_find?_eq_some h, hall.1.1, hall.1.2, hall.2⟩

theorem Viewed.founded {pid : ℕ} {log : List (hintService cfg).Entry} {dto : HintResponseDTO}
    (h : Viewed cfg id userId contestId dto (Service.past log pid))
    (hshown : dto.content ≠ none ∨ dto.html ≠ none) :
    ∃ hint, dto = hint.shown "unlocked" ∧ Founded cfg id userId contestId hint pid log := by
  obtain ⟨hint, challenge, cc, hhint, hcc, hvisible, hview⟩ := h.hint
  rcases hview with ⟨hcontent, hhtml⟩ | ⟨rfl, hpaid⟩
  · rcases hshown with hshown | hshown
    · exact (hshown hcontent).elim
    · exact (hshown hhtml).elim
  refine ⟨hint, rfl, (hhint.saw fun _ _ => rfl).mono fun w hw => ⟨challenge, hw⟩,
    (hcc.saw fun _ _ => rfl).mono fun w hw => ⟨cc, hw, hvisible⟩, ?_⟩
  rcases hpaid with hfree | ⟨user, account, unlock, huser, hlooks, hunlock⟩
  · exact .inl hfree
  · have huser : Saw pid log fun w => w.score.users.find? (·.id = userId) = some user :=
      huser.saw fun _ _ => rfl
    obtain ⟨y, -, -, hfound⟩ := huser
    obtain rfl : user.id = userId := by simpa using List.find?_some hfound
    refine .inr ⟨account, ?_, (hunlock.saw fun _ _ => rfl).mono fun w hw => ?_⟩
    · rw [Looks] at hlooks
      rw [LooksBy]
      split
      · next hmode =>
          rw [if_pos hmode] at hlooks
          obtain ⟨team, hteam, rfl⟩ := hlooks
          exact ⟨team, hteam.saw fun _ _ => rfl, rfl⟩
      · next hmode => rwa [if_neg hmode] at hlooks
    · obtain ⟨hmem, howns, htarget, hopens⟩ := mem_of_findHintUnlock hw
      exact ⟨unlock, hmem, howns, htarget, hopens⟩

/-- What an answer of a call rests on. -/
def Vouched (cfg : HintConfig) : HintCall → HintHistory → Except HintError HintAnswer → Prop
  | .getHintById id userId contestId, l, r =>
      ∀ dto, r = .ok (.hint dto) → Viewed cfg id userId contestId dto l
  | _, _, _ => True

theorem program_vouched (cfg : HintConfig) (call : HintCall) :
    (call.program cfg).Justified anyway (Vouched cfg call) [] := by
  cases call with
  | getHintById id userId contestId =>
      refine Prog.Justified.bind ((getHintById_justified id userId contestId).mono ?_)
      rintro l (e | _ | dto) hviewed
      · exact fun dto hr => by cases hr
      · exact fun dto hr => by cases hr
      · rintro dto' hr
        obtain rfl := HintAnswer.hint.inj (Except.ok.inj hr)
        exact hviewed dto rfl
  | postUnlock req userId teamId contestId => exact justified_anyway _ []
  | getHintByChallengeId id userId contestId => exact justified_anyway _ []

/-- **Contents** are shown for what stood in the tables. -/
theorem founded_of_shown
    {G : List (hintService cfg).Entry → (hintService cfg).Pool → (hintService cfg).Move → Prop}
    {s₀ : HintWorld} {log : List (hintService cfg).Entry} {w : (hintService cfg).Pool} {pid : ℕ}
    {dto : HintResponseDTO} (h : Service.Records G ((hintService cfg).start s₀) log w)
    (hfinished : Service.Finished w pid (.getHintById id userId contestId) (.ok (.hint dto)))
    (hshown : dto.content ≠ none ∨ dto.html ≠ none) :
    ∃ hint, dto = hint.shown "unlocked" ∧ Founded cfg id userId contestId hint pid log :=
  ((h.justified (program_vouched cfg)).2 pid _ _ hfinished dto rfl).founded hshown

end Founded

/-! ### Who has paid -/

section Paid

variable {cfg : HintConfig} {s₀ : HintWorld} {log : List (hintService cfg).Entry}
  {w : (hintService cfg).Pool}

/-- Runs in which others add no unlocks. -/
def OursAlone (_ : List (hintService cfg).Entry) (w : (hintService cfg).Pool) :
    (hintService cfg).Move → Prop
  | .ambient x => x.unlocks ⊆ w.shared.unlocks
  | _ => True

instance (log : List (hintService cfg).Entry) (w : (hintService cfg).Pool)
    (m : (hintService cfg).Move) : Decidable (OursAlone log w m) :=
  match m with
  | .spawn _ => .isTrue trivial
  | .act _ _ => .isTrue trivial
  | .ambient x => inferInstanceAs (Decidable (HintWorld.unlocks x ⊆ w.shared.unlocks))

/-- An unlock was stored in the run. -/
def StoredIn (log : List (hintService cfg).Entry) (u : Unlock) : Prop :=
  ∃ n ∈ log, ∃ unlock award, n.op = .saveUnlock unlock award ∧ u = { unlock with id := u.id }

theorem StoredIn.of_append {u : Unlock} (h : StoredIn log u) (log' : List (hintService cfg).Entry) :
    StoredIn (log ++ log') u := by
  obtain ⟨n, hn, hstored⟩ := h
  exact ⟨n, List.mem_append_left _ hn, hstored⟩

/-- Every unlock was stored by a request. -/
theorem storedIn_of_records (hnone : s₀.unlocks = [])
    (h : Service.Records OursAlone ((hintService cfg).start s₀) log w) :
    ∀ u ∈ w.shared.unlocks, StoredIn log u := by
  induction h with
  | refl =>
      intro u hu
      change u ∈ s₀.unlocks at hu
      rw [hnone] at hu
      cases hu
  | spawn _ _ ih => exact ih
  | ambient _ hg ih => exact fun u hu => ih u (hg hu)
  | @act log w pid e c o k hr hp hg ih =>
      intro u hu
      change u ∈ (HintOp.exec cfg e o w.shared).2.unlocks at hu
      rcases tables_after cfg e o w.shared with ⟨unlock, award, rfl, hafter⟩ | ⟨hsame, -⟩
      · rw [hafter] at hu
        rcases List.mem_append.mp hu with hu | hu
        · exact (ih u hu).of_append _
        · obtain rfl := List.mem_singleton.mp hu
          exact ⟨_, List.mem_append_right _ (List.mem_singleton_self _), unlock, award, rfl, rfl⟩
      · rw [hsame] at hu
        exact (ih u hu).of_append _

/-- **Bought**: a request has stored an unlock of the hint for the account, with an award of the
negative cost, when it was entitled to. -/
def BoughtIn (cfg : HintConfig) (hintId : ℤ) (account : Account)
    (log : List (hintService cfg).Entry) : Prop :=
  ∃ pre n post, log = pre ++ n :: post ∧ ∃ p teamId date awardDate,
    n.call = .postUnlock p.req p.userId teamId p.contestId ∧
    n.op = .saveUnlock (p.unlock date) (p.award awardDate) ∧ p.req.target = hintId ∧
    account.owns (some p.userId) p.teamId = true ∧ Entitled p teamId n.pid pre

theorem StoredIn.bought {u : Unlock} {account : Account} {hintId : ℤ}
    {G : List (hintService cfg).Entry → (hintService cfg).Pool → (hintService cfg).Move → Prop}
    (hstored : StoredIn log u) (h : Service.Records G ((hintService cfg).start s₀) log w)
    (howns : account.owns u.userId u.teamId = true) (htarget : u.target = some hintId) :
    BoughtIn cfg hintId account log := by
  obtain ⟨n, hn, unlock, award, hop, hu⟩ := hstored
  obtain ⟨pre, post, rfl⟩ := List.append_of_mem hn
  have hreason := reason_of_records h
  rw [hop] at hreason
  obtain ⟨p, token, date, awardDate, hunder, hbought, rfl, rfl⟩ := hreason
  obtain ⟨teamId, hcall, hentitled⟩ := hunder.entitled hbought
  rw [hu] at howns htarget
  exact ⟨pre, n, post, rfl, p, teamId, date, awardDate, hcall, hop, Option.some.inj htarget, howns,
    hentitled⟩

/-- Every unlock that a request has seen was bought before. -/
theorem bought_of_seen {l l' : List (hintService cfg).Entry} {n : (hintService cfg).Entry}
    {u : Unlock} {account : Account} {hintId : ℤ} (hnone : s₀.unlocks = [])
    (h : Service.Records OursAlone ((hintService cfg).start s₀) (l ++ n :: l') w)
    (hu : u ∈ n.before.unlocks) (howns : account.owns u.userId u.teamId = true)
    (htarget : u.target = some hintId) : BoughtIn cfg hintId account l := by
  obtain ⟨w₁, k, hr, hshared, -, -⟩ := h.of_append
  rw [← hshared] at hu
  exact (storedIn_of_records hnone hr u hu).bought hr howns htarget

/-- **Contents are paid for.** In every run that starts without unlocks and in which others add
none, a content that is shown belongs to a visible hint, and the hint costs nothing or somebody has
bought it before for the account that the user looks with. -/
theorem shown_paid (cfg : HintConfig) (s₀ : HintWorld) (log : List (hintService cfg).Entry)
    (w : (hintService cfg).Pool) (pid : ℕ) (id userId contestId : ℤ) (dto : HintResponseDTO)
    (hnone : s₀.unlocks = [])
    (h : Service.Records OursAlone ((hintService cfg).start s₀) log w)
    (hfinished : Service.Finished w pid (.getHintById id userId contestId) (.ok (.hint dto)))
    (hshown : dto.content ≠ none ∨ dto.html ≠ none) :
    ∃ hint, dto = hint.shown "unlocked" ∧
      (Saw pid log fun w => ∃ challenge, w.hint id = some (hint, challenge)) ∧
      (Saw pid log fun w => ∃ cc, w.contestsChallenge contestId hint.challengeId = some cc ∧
        cc.state = .visible) ∧
      (hint.cost.getD 0 ≤ 0 ∨ ∃ account, LooksBy cfg userId contestId pid log account ∧
        ∃ l n l', log = l ++ n :: l' ∧ n.pid = pid ∧ BoughtIn cfg hint.id account l) := by
  obtain ⟨hint, hdto, hfounded⟩ := founded_of_shown h hfinished hshown
  refine ⟨hint, hdto, hfounded.found, hfounded.visible, ?_⟩
  rcases hfounded.paid with hfree | ⟨account, hlooks, n, hn, hpid, u, hu, howns, htarget, -⟩
  · exact .inl (not_lt.mp (of_decide_eq_false hfree))
  · obtain ⟨l, l', rfl⟩ := List.append_of_mem hn
    exact .inr ⟨account, hlooks, l, n, l', rfl, hpid, bought_of_seen hnone h hu howns htarget⟩

end Paid

instance (cfg : HintConfig) : DecidableEq (hintService cfg).Call :=
  inferInstanceAs (DecidableEq HintCall)

/-- A look at the hint. -/
def lookAtIt : HintCall := .getHintById 1 7 1

/-- The hint is bought, and looked at. -/
def buyAndLook : List (hintService plainHints).Move :=
  buyIt ++ Service.callNow 1 lookAtIt (calmHints "b") 5

theorem shown_paid_example :
    ∃ log w dto, Service.Records OursAlone ((hintService plainHints).start oneHint) log w ∧
      Service.Finished w 1 lookAtIt (.ok (.hint dto)) ∧ dto.content ≠ none ∧
      ∃ hint, dto = hint.shown "unlocked" ∧
        (Saw 1 log fun w => ∃ challenge, w.hint 1 = some (hint, challenge)) ∧
        (Saw 1 log fun w => ∃ cc, w.contestsChallenge 1 hint.challengeId = some cc ∧
          cc.state = .visible) ∧
        (hint.cost.getD 0 ≤ 0 ∨ ∃ account, LooksBy plainHints 7 1 1 log account ∧
          ∃ l n l', log = l ++ n :: l' ∧ n.pid = 1 ∧ BoughtIn plainHints hint.id account l) := by
  have hrun : (Service.runLogged OursAlone [] ((hintService plainHints).start oneHint)
      buyAndLook).any (fun r => decide (Service.answer r.2 1 = some ⟨lookAtIt,
        .ok (.hint ⟨1, some "standard", some 5, some 60, some "look closer",
          some "<p>look closer</p>\n", none, "unlocked"⟩)⟩)) = true := by
    decide +kernel
  obtain ⟨⟨log, w⟩, hw, hanswer⟩ := (Option.any_eq_true _ _).mp hrun
  have hfinished := Service.finished_of_answer (of_decide_eq_true hanswer)
  have hrecords := Service.records_of_runLogged .refl hw
  refine ⟨log, w, _, hrecords, hfinished, by decide, ?_⟩
  exact shown_paid plainHints oneHint log w 1 1 7 1 _ rfl hrecords hfinished (.inl (by decide))

/-! ### A look by itself -/

section Alone

variable {cfg : HintConfig} {e : HintEnv} {w : HintWorld} {α : Type}

/-- Whose unlocks open hints for a user, by the tables. -/
def HintWorld.viewer (cfg : HintConfig) (w : HintWorld) (userId contestId : ℤ) : Option Account :=
  if cfg.teamsMode then (w.userTeam userId contestId).map fun t => .team (some t.id)
  else some (.user userId)

/-- Is there an unlock of a hint for a user? -/
def HintWorld.openFor (cfg : HintConfig) (w : HintWorld) (hintId userId contestId : ℤ) : Bool :=
  (w.viewer cfg userId contestId).any fun account =>
    (w.findHintUnlock cfg.sql hintId account).isSome

/-- Is a bank challenge visible in a contest? -/
def HintWorld.showsChallenge (w : HintWorld) (contestId : ℤ) (bankId : Option ℤ) : Bool :=
  (w.contestsChallenge contestId bankId).any (·.state = .visible)

/-- A query that does not fail. -/
theorem eval_query {o : HintOp} {f : o.Reply → Prog hintI HintError α}
    (answer : HintWorld → o.Reply) (hcalm : e.fault = .none)
    (ho : HintOp.exec cfg e o w = e.read answer w) :
    (request o >>= f).eval (hintExec cfg e) w = (f (answer w)).eval (hintExec cfg e) w := by
  change ((Prog.ret (HintOp.exec cfg e o w).1 : Prog hintI HintError o.Reply) >>= f).eval
    (hintExec cfg e) (HintOp.exec cfg e o w).2 = _
  rw [ho, HintEnv.read, if_pos hcalm]
  rfl

/-- The user. -/
def HintWorld.user (w : HintWorld) (userId : ℤ) : Option ScoreAccount :=
  w.score.users.find? (·.id = userId)

theorem eval_viewingAccount (hcalm : e.fault = .none) (userId contestId : ℤ) :
    (viewingAccount cfg userId contestId).eval (hintExec cfg e) w =
      (.ok (w.viewer cfg userId contestId), w) := by
  rw [viewingAccount, HintWorld.viewer]
  split
  · exact eval_query (o := .findUserTeam userId contestId) (·.userTeam userId contestId) hcalm rfl
  · rfl

theorem eval_isUnlocked (hcalm : e.fault = .none) (hintId userId contestId : ℤ) :
    (isUnlocked cfg hintId userId contestId).eval (hintExec cfg e) w =
      (.ok (w.openFor cfg hintId userId contestId), w) := by
  rw [isUnlocked, Prog.eval_bind, eval_viewingAccount hcalm, HintWorld.openFor]
  dsimp only
  cases w.viewer cfg userId contestId with
  | none => rfl
  | some account =>
      exact eval_query (o := .findHintUnlock hintId account)
        (·.findHintUnlock cfg.sql hintId account) hcalm rfl

/-- What `GetHintById` shows of a hint. -/
def viewOf (cfg : HintConfig) (w : HintWorld) (hint : Hint) (userId contestId : ℤ) :
    HintResponseDTO :=
  if hint.hasCost then
    if (w.user userId).isSome then
      hint.shown (if w.openFor cfg hint.id userId contestId then "unlocked" else "locked")
    else hint.lockedForAll
  else hint.shown "unlocked"

theorem id_of_user {userId : ℤ} {user : ScoreAccount}
    (h : w.user userId = some user) : user.id = userId := by
  simpa using List.find?_some h

theorem showsChallenge_eq (w : HintWorld) (contestId : ℤ) (bankId : Option ℤ) :
    (w.contestsChallenge contestId bankId).all (·.state ≠ .visible) =
      !w.showsChallenge contestId bankId := by
  rw [HintWorld.showsChallenge]
  cases w.contestsChallenge contestId bankId with
  | none => rfl
  | some cc => exact decide_not

theorem eval_getHintByIdBody (hcalm : e.fault = .none) (id userId contestId : ℤ) :
    (getHintByIdBody cfg id userId contestId).eval (hintExec cfg e) w =
      (.ok ((w.hint id).bind fun found =>
        if w.showsChallenge contestId found.1.challengeId then
          some (viewOf cfg w found.1 userId contestId)
        else none), w) := by
  refine (eval_query (o := .findHint id) (·.hint id) hcalm rfl).trans ?_
  rcases w.hint id with _ | ⟨hint, challenge⟩
  · rfl
  refine (eval_query (o := .findContestsChallenge contestId hint.challengeId)
    (·.contestsChallenge contestId hint.challengeId) hcalm rfl).trans ?_
  rw [Option.bind_some, showsChallenge_eq]
  dsimp only
  cases w.showsChallenge contestId hint.challengeId with
  | false => rfl
  | true =>
      rw [if_neg (by decide), if_pos rfl]
      refine (eval_query (o := .findUser userId) (·.user userId) hcalm rfl).trans ?_
      rw [viewOf]
      generalize hfound : w.user userId = user
      rcases user with _ | user
      · dsimp only
        split <;> rfl
      · dsimp only
        split
        · rw [Prog.eval_bind, eval_isUnlocked hcalm, id_of_user hfound]
          rfl
        · rfl

/-- **A look at a hint.** -/
theorem eval_getHintById (hcalm : e.fault = .none) (id userId contestId : ℤ) :
    (getHintById cfg id userId contestId).eval (hintExec cfg e) w =
      (.ok ((w.hint id).bind fun found =>
        if w.showsChallenge contestId found.1.challengeId then
          some (viewOf cfg w found.1 userId contestId)
        else none), w) := by
  rw [getHintById, Prog.eval_handle, eval_getHintByIdBody hcalm]

/-- The ids that are marked in the list of a challenge. -/
def unlockedOf (cfg : HintConfig) (w : HintWorld) (ids : List ℤ) (userId contestId : ℤ) : List ℤ :=
  if (w.user userId).isSome then
    ((w.viewer cfg userId contestId).map (w.unlockedAmong cfg.sql ids)).getD []
  else []

theorem unlockedAmong_nil (w : HintWorld) (sql : Grouping.Collation) (account : Account) :
    w.unlockedAmong sql [] account = [] := by
  rw [HintWorld.unlockedAmong]
  have hnone : (w.unlocks.filter fun u => u.target.any ([] : List ℤ).contains && u.opens sql &&
      account.owns u.userId u.teamId) = [] := by
    refine List.filter_eq_nil_iff.mpr fun u _ => ?_
    cases u.target <;> simp
  rw [hnone, List.filterMap_nil]

theorem unlockedOf_nil (userId contestId : ℤ) : unlockedOf cfg w [] userId contestId = [] := by
  rw [unlockedOf]
  split
  · cases w.viewer cfg userId contestId with
    | none => rfl
    | some account => exact unlockedAmong_nil w cfg.sql account
  · rfl

theorem eval_unlockedHintIds (hcalm : e.fault = .none) (ids : List ℤ) (userId contestId : ℤ) :
    (unlockedHintIds cfg ids userId contestId).eval (hintExec cfg e) w =
      (.ok (unlockedOf cfg w ids userId contestId), w) := by
  rw [unlockedHintIds]
  split
  · next hids => rw [List.isEmpty_iff.mp hids, unlockedOf_nil, Prog.pure_eq, Prog.eval_ret]
  refine (eval_query (o := .findUser userId) (·.user userId) hcalm rfl).trans ?_
  rw [unlockedOf]
  generalize hfound : w.user userId = user
  rcases user with _ | user
  · rfl
  · dsimp only
    rw [Prog.eval_bind, eval_viewingAccount hcalm, id_of_user hfound]
    dsimp only
    cases w.viewer cfg userId contestId with
    | none => rfl
    | some account =>
        change HintEnv.read e (·.unlockedAmong cfg.sql ids account) w = _
        rw [HintEnv.read, if_pos hcalm]
        rfl

/-- The hints of a challenge. -/
def HintWorld.hintsOf (w : HintWorld) (challengeId : ℤ) : List Hint :=
  w.hints.filter (·.challengeId = some challengeId)

/-- **The list of a challenge's hints.** -/
theorem eval_getHintsByChallengeId (hcalm : e.fault = .none) (challengeId userId contestId : ℤ) :
    (getHintsByChallengeId cfg challengeId userId contestId).eval (hintExec cfg e) w =
      (.ok (if (w.challenge challengeId).isSome &&
          w.showsChallenge contestId (some challengeId) then
          some (hintList (w.hintsOf challengeId)
            (unlockedOf cfg w ((w.hintsOf challengeId).map (·.id)) userId contestId))
        else none), w) := by
  have hbody : (getHintsBody cfg challengeId userId contestId).eval (hintExec cfg e) w =
      (.ok (if (w.challenge challengeId).isSome &&
          w.showsChallenge contestId (some challengeId) then
          some (hintList (w.hintsOf challengeId)
            (unlockedOf cfg w ((w.hintsOf challengeId).map (·.id)) userId contestId))
        else none), w) := by
    refine (eval_query (o := .findChallenge challengeId) (·.challenge challengeId) hcalm
      rfl).trans ?_
    rcases w.challenge challengeId with _ | challenge
    · rfl
    refine (eval_query (o := .findContestsChallenge contestId (some challengeId))
      (·.contestsChallenge contestId (some challengeId)) hcalm rfl).trans ?_
    rw [showsChallenge_eq, Option.isSome_some, Bool.true_and]
    cases w.showsChallenge contestId (some challengeId) with
    | false => rfl
    | true =>
        rw [if_neg (by decide), if_pos rfl]
        refine (eval_query (o := .hintsOf challengeId) (·.hintsOf challengeId) hcalm rfl).trans ?_
        rw [Prog.eval_bind, eval_unlockedHintIds hcalm]
        rfl
  rw [getHintsByChallengeId, Prog.eval_handle, hbody]

theorem mem_unlockedAmong {sql : Grouping.Collation} {ids : List ℤ} {account : Account} {id : ℤ}
    (hid : id ∈ ids) :
    id ∈ w.unlockedAmong sql ids account ↔ (w.findHintUnlock sql id account).isSome = true := by
  rw [HintWorld.unlockedAmong, HintWorld.findHintUnlock, List.mem_filterMap, List.find?_isSome]
  constructor
  · rintro ⟨u, hu, htarget⟩
    obtain ⟨hmem, hall⟩ := List.mem_filter.mp hu
    rw [Bool.and_eq_true, Bool.and_eq_true] at hall
    refine ⟨u, hmem, ?_⟩
    rw [hall.2, hall.1.2, htarget, decide_eq_true rfl]
    rfl
  · rintro ⟨u, hmem, hall⟩
    rw [Bool.and_eq_true, Bool.and_eq_true, decide_eq_true_iff] at hall
    refine ⟨u, List.mem_filter.mpr ⟨hmem, ?_⟩, hall.1.2⟩
    rw [hall.1.2, hall.2, hall.1.1, Option.any_some, List.contains_iff_mem.mpr hid]
    rfl

/-- A mark is there for the hints that have an unlock. -/
theorem contains_unlockedOf {ids : List ℤ} {id : ℤ} (hid : id ∈ ids) (userId contestId : ℤ) :
    (unlockedOf cfg w ids userId contestId).contains id =
      ((w.user userId).isSome && w.openFor cfg id userId contestId) := by
  rw [unlockedOf, HintWorld.openFor]
  cases w.user userId with
  | none => rfl
  | some user =>
      rw [Option.isSome_some, if_pos rfl, Bool.true_and]
      cases w.viewer cfg userId contestId with
      | none => rfl
      | some account =>
          rw [Option.map_some, Option.getD_some, Option.any_some, Bool.eq_iff_iff,
            List.contains_iff_mem]
          exact mem_unlockedAmong hid

/-- A hint is shown or not. -/
theorem view_viewOf (hint : Hint) (userId contestId : ℤ) :
    (viewOf cfg w hint userId contestId).view = "unlocked" ↔
      (!hint.hasCost ||
        (w.user userId).isSome && w.openFor cfg hint.id userId contestId) = true := by
  rw [viewOf]
  cases hint.hasCost with
  | false => simp [Hint.shown]
  | true =>
      cases (w.user userId).isSome with
      | false => simp [Hint.lockedForAll]
      | true =>
          cases w.openFor cfg hint.id userId contestId with
          | false => simp [Hint.shown]
          | true => simp [Hint.shown]

theorem cost_viewOf (hint : Hint) (userId contestId : ℤ) :
    (viewOf cfg w hint userId contestId).id = hint.id ∧
      (viewOf cfg w hint userId contestId).cost = hint.cost := by
  rw [viewOf]
  split
  · split
    · exact ⟨rfl, rfl⟩
    · exact ⟨rfl, rfl⟩
  · exact ⟨rfl, rfl⟩

/-- A hint is found by its id. -/
theorem hint_of_mem (hids : (w.hints.map (·.id)).Nodup) {hint : Hint} (hmem : hint ∈ w.hints) :
    w.hint hint.id = some (hint, hint.challengeId.bind w.challenge) := by
  have hfind : w.hints.find? (·.id = hint.id) = some hint := by
    have hsome : (w.hints.find? (·.id = hint.id)).isSome = true :=
      List.find?_isSome.mpr ⟨hint, hmem, decide_eq_true rfl⟩
    obtain ⟨found, hfound⟩ := Option.isSome_iff_exists.mp hsome
    have hsame : found.id = hint.id := by simpa using List.find?_some hfound
    rw [hfound, List.inj_on_of_nodup_map hids (List.mem_of_find?_eq_some hfound) hmem hsame]
  rw [HintWorld.hint, hfind, Option.map_some]

/-- **The list and the hints agree.** On the same tables, the list of a challenge's hints marks
exactly those as unlocked that `GetHintById` shows to the same user, with the same costs. -/
theorem marked_iff_shown (cfg : HintConfig) (e : HintEnv) (w : HintWorld)
    (challengeId userId contestId : ℤ) (list : HintListDTO) (hcalm : e.fault = .none)
    (hids : (w.hints.map (·.id)).Nodup)
    (h : ((getHintsByChallengeId cfg challengeId userId contestId).eval (hintExec cfg e) w).1 =
      .ok (some list)) :
    list.size = list.hints.length ∧
      list.hints.map (·.id) = (w.hintsOf challengeId).map (·.id) ∧
      ∀ item ∈ list.hints, ∃ dto,
        ((getHintById cfg item.id userId contestId).eval (hintExec cfg e) w).1 = .ok (some dto) ∧
        dto.id = item.id ∧ dto.cost = item.cost ∧
          (item.isUnlocked = true ↔ dto.view = "unlocked") := by
  rw [eval_getHintsByChallengeId hcalm] at h
  have hlist := Except.ok.inj h
  split at hlist
  · next hshows =>
      obtain rfl := Option.some.inj hlist
      refine ⟨(List.length_map _).symm, by rw [hintList, List.map_map]; rfl, fun item hitem => ?_⟩
      obtain ⟨hint, hhint, rfl⟩ := List.mem_map.mp hitem
      obtain ⟨hmem, hchallenge⟩ := List.mem_filter.mp hhint
      rw [decide_eq_true_iff] at hchallenge
      refine ⟨viewOf cfg w hint userId contestId, ?_, (cost_viewOf hint userId contestId).1,
        (cost_viewOf hint userId contestId).2, ?_⟩
      · rw [eval_getHintById hcalm, hint_of_mem hids hmem, Option.bind_some, hchallenge,
          if_pos ((Bool.and_eq_true _ _).mp hshows).2]
      · rw [view_viewOf, contains_unlockedOf (List.mem_map_of_mem hhint)]
  · cases hlist

end Alone

/-- The tables after the purchase. -/
def boughtHint : HintWorld :=
  { oneHint with unlocks := [⟨1, some 7, some 3, some 1, some "hints", some 0⟩] }

theorem marked_iff_shown_example :
    (⟨1, [⟨1, some 60, true⟩]⟩ : HintListDTO).size = 1 ∧
      [(1 : ℤ)] = (boughtHint.hintsOf 5).map (·.id) ∧
      ∀ item ∈ [(⟨1, some 60, true⟩ : HintSummaryDTO)], ∃ dto,
        ((getHintById plainHints item.id 7 1).eval (hintExec plainHints (calmHints "a"))
          boughtHint).1 = .ok (some dto) ∧
        dto.id = item.id ∧ dto.cost = item.cost ∧
          (item.isUnlocked = true ↔ dto.view = "unlocked") :=
  marked_iff_shown plainHints (calmHints "a") boughtHint 5 7 1 ⟨1, [⟨1, some 60, true⟩]⟩ rfl
    (List.nodup_singleton _) (by decide +kernel)

/-! ### What has been unlocked -/

section Unlocked

variable {cfg : HintConfig} {req : UnlockRequestDto} {l : HintHistory}

/-- The unlock that is reported was stored, for the request. -/
def Reported (req : UnlockRequestDto) (data : UnlockResponseDTO) (l : HintHistory) : Prop :=
  ∃ (p : Purchase) (date : ℤ) (award : Award), p.req = req ∧
    Told l (.saveUnlock (p.unlock date) award) data.id ∧ data.userId = some p.userId ∧
    data.teamId = p.teamId

theorem Reported.later {data : UnlockResponseDTO} {l' : HintHistory} (h : Reported req data l)
    (hpre : l <+: l') : Reported req data l' := by
  obtain ⟨p, date, award, hreq, htold, hsame⟩ := h
  exact ⟨p, date, award, hreq, htold.later hpre, hsame⟩

/-- A program that returns what was stored. -/
def Reports (req : UnlockRequestDto) (l : HintHistory) (r : Except HintError UnlockResponseDTO) :
    Prop :=
  ∀ data, r = .ok data → Reported req data l

theorem Reports.error (l : HintHistory) (e : HintError) : Reports req l (.error e) :=
  fun data hr => by cases hr

/-- A first part that does not matter. -/
theorem justified_after {α β : Type} {q : Prog hintI HintError α}
    {f : α → Prog hintI HintError β} {A : HintHistory → Except HintError β → Prop}
    (hok : ∀ x l', l <+: l' → (f x).Justified anyway A l') (herr : ∀ e l', A l' (.error e)) :
    (q >>= f).Justified anyway A l := by
  refine Prog.Justified.bind ((justified_anyway q l).extends.mono ?_)
  rintro l' (e | x) ⟨hext, -⟩
  · exact herr e l'
  · exact hok x l' hext

theorem store_reports (p : Purchase) (l : HintHistory) :
    (store p).Justified anyway (Reports p.req) l := by
  refine justified_read (fun date => ?_) fun e => .error _ e
  refine justified_read (fun awardDate => ?_) fun e => .error _ e
  refine justified_read (fun id => ?_) fun e => .error _ e
  rintro data hr
  obtain rfl := Except.ok.inj hr
  exact ⟨p, date, p.award awardDate, rfl, told_last _ _ _, rfl, rfl⟩

theorem pay_reports (p : Purchase) (l : HintHistory) :
    (pay p).Justified anyway (Reports p.req) l := by
  refine justified_read (fun team => ?_) fun e => .error _ e
  rcases team with _ | team
  · exact .error _ _
  · refine justified_after (fun score l' _ => ?_) fun e l' => .error _ e
    split
    · exact .error _ _
    · exact store_reports p l'

theorem unlockUnderLock_reports (p : Purchase) (l : HintHistory) :
    (unlockUnderLock cfg p).Justified anyway (Reports p.req) l := by
  refine justified_after (fun _ l' _ => ?_) fun e l' => .error _ e
  refine justified_after (fun _ l' _ => ?_) fun e l' => .error _ e
  refine justified_read (fun existing => ?_) fun e => .error _ e
  split
  · exact .error _ _
  · exact pay_reports p _

/-- What a body has reported its cleanup does not change. -/
theorem finallyDo_reports {body : Prog hintI HintError UnlockResponseDTO}
    {cleanup : Prog hintI HintError Unit} (h : body.Justified anyway (Reports req) l) :
    (finallyDo body cleanup).Justified anyway (Reports req) l := by
  refine Prog.Justified.bind (Prog.Justified.handle (h.mono ?_))
  rintro l' (e | data) hreports
  · refine justified_after (fun _ l'' _ => ?_) fun e l'' => .error _ e
    exact .error _ _
  · refine Prog.Justified.bind ((justified_anyway cleanup l').extends.mono ?_)
    rintro l'' (e | u) ⟨hext, -⟩
    · exact .error _ e
    · rintro data' hr
      obtain rfl := Except.ok.inj hr
      exact (hreports data rfl).later hext

theorem underLock_reports (p : Purchase) (l : HintHistory) :
    (underLock cfg p).Justified anyway (Reports p.req) l := by
  refine justified_read (fun token => ?_) fun e => .error _ e
  refine justified_read (fun acquired => ?_) fun e => .error _ e
  cases acquired with
  | false => exact .error _ _
  | true => exact finallyDo_reports (unlockUnderLock_reports p _)

/-- An answer that reports an unlock. -/
def Answers (req : UnlockRequestDto) (l : HintHistory) (r : Except HintError HintAnswer) : Prop :=
  ∀ data, r = .ok (.unlocked data) → Reported req data l

theorem Answers.error (l : HintHistory) (e : HintError) : Answers req l (.error e) :=
  fun data hr => by cases hr

theorem Answers.badRequest (l : HintHistory) (text : String) :
    Answers req l (.ok (.badRequest text)) :=
  fun data hr => by cases hr

theorem unlockHint_reports (req : UnlockRequestDto) (userId contestId : ℤ) (hint : Hint)
    (challenge : BankChallenge) (cc : ContestsChallenge) (l : HintHistory) :
    (unlockHint cfg req userId contestId hint challenge cc).Justified anyway
      (fun l' r => ∀ data, r = .ok (some data) → Reported req data l') l := by
  have hfails (l' : HintHistory) (e : HintError) (data : UnlockResponseDTO)
      (hr : Except.error e = .ok (some data)) : Reported req data l' := by
    cases hr
  refine justified_read (fun target => ?_) fun e => hfails _ e
  rcases target with _ | target
  · exact fun data hr => by cases hr
  refine justified_read (fun found => ?_) fun e => hfails _ e
  split
  · exact fun data hr => by cases hr
  refine justified_read (fun user => ?_) fun e => hfails _ e
  rcases user with _ | user
  · exact hfails _ _
  refine justified_read (fun team => ?_) fun e => hfails _ e
  refine Prog.Justified.bind ((underLock_reports _ _).mono ?_)
  rintro l' (e | data) hreports
  · exact hfails _ e
  · rintro data' hr
    obtain rfl := Option.some.inj (Except.ok.inj hr)
    exact hreports data rfl

/-- **The controller** reports what was stored. -/
theorem postUnlock_answers (req : UnlockRequestDto) (userId teamId contestId : ℤ) :
    (postUnlock cfg req userId teamId contestId).Justified anyway (Answers req) [] := by
  rw [postUnlock]
  split
  · exact fun data hr => by cases hr
  refine justified_read (fun target => ?_) fun e => .error _ e
  rcases target with _ | ⟨hint, _ | challenge⟩
  · exact .badRequest _ _
  · exact .badRequest _ _
  refine justified_read (fun cc => ?_) fun e => .error _ e
  rcases cc with _ | cc
  · exact .badRequest _ _
  dsimp only
  split
  · exact .badRequest _ _
  refine justified_read (fun solve => ?_) fun e => .error _ e
  split
  · exact .badRequest _ _
  refine Prog.Justified.bind ((unlockHint_reports req userId contestId hint challenge cc _).mono ?_)
  rintro l (e | _ | data) hreports
  · exact .error _ e
  · exact .badRequest _ _
  · refine Prog.Justified.bind ((justified_anyway _ l).extends.mono ?_)
    rintro l' (e | u) ⟨hext, -⟩
    · exact .error _ e
    · rintro data' hr
      obtain rfl := HintAnswer.unlocked.inj (Except.ok.inj hr)
      exact (hreports data rfl).later hext

/-- What an unlocking call reports it has stored. -/
theorem program_answers (cfg : HintConfig) (call : HintCall) :
    (call.program cfg).Justified anyway (fun l r => ∀ req userId teamId contestId,
      call = .postUnlock req userId teamId contestId → Answers req l r) [] := by
  cases call with
  | postUnlock req userId teamId contestId =>
      refine (postUnlock_answers req userId teamId contestId).mono fun l r hr req' _ _ _ hcall => ?_
      obtain ⟨rfl, -⟩ := HintCall.postUnlock.inj hcall
      exact hr
  | getHintById id userId contestId =>
      exact (justified_anyway _ []).mono fun l r _ req _ _ _ hcall => by cases hcall
  | getHintByChallengeId id userId contestId =>
      exact (justified_anyway _ []).mono fun l r _ req _ _ _ hcall => by cases hcall

variable {s₀ : HintWorld} {log : List (hintService cfg).Entry} {w : (hintService cfg).Pool}

/-- Runs in which others remove no unlocks. -/
def KeepsUnlocks (_ : List (hintService cfg).Entry) (w : (hintService cfg).Pool) :
    (hintService cfg).Move → Prop
  | .ambient x => w.shared.unlocks ⊆ x.unlocks
  | _ => True

/-- An unlock is stored. -/
def savedAs (unlock : Unlock) (award : Award) (id : ℤ) : Event hintI HintError :=
  ⟨HintOp.saveUnlock unlock award, .ok id⟩

/-- What is answered with an id is there. -/
theorem mem_of_savedAs {n : (hintService cfg).Entry} {unlock : Unlock} {award : Award} {id : ℤ}
    (h : n.event = savedAs unlock award id) : { unlock with id := id } ∈ n.after.unlocks := by
  obtain ⟨pid, c, ⟨fault, transient, guid⟩, o, w⟩ := n
  obtain ⟨rfl, hreply⟩ := Event.mk.inj h
  have hreply := eq_of_heq hreply
  cases fault with
  | none =>
      obtain rfl := Except.ok.inj hreply
      exact List.mem_append_right _ (List.mem_singleton_self _)
  | before => cases hreply
  | after => cases hreply

/-- An unlock that was stored stays. -/
theorem unlocks_of_records
    (h : Service.Records KeepsUnlocks ((hintService cfg).start s₀) log w) {unlock : Unlock}
    {award : Award} {id : ℤ} (hstored : ∃ n ∈ log, n.event = savedAs unlock award id) :
    { unlock with id := id } ∈ w.shared.unlocks := by
  induction h with
  | refl =>
      obtain ⟨n, hn, -⟩ := hstored
      cases hn
  | spawn _ _ ih => exact ih hstored
  | ambient _ hg ih => exact hg (ih hstored)
  | @act log w pid e c o k hr hp hg ih =>
      obtain ⟨n, hn, hevent⟩ := hstored
      rcases List.mem_append.mp hn with hn | hn
      · have hmem := ih ⟨n, hn, hevent⟩
        rcases tables_after cfg e o w.shared with ⟨unlock', award', rfl, hafter⟩ | ⟨hsame, -⟩
        · change _ ∈ (HintOp.exec cfg e (.saveUnlock unlock' award') w.shared).2.unlocks
          rw [hafter]
          exact List.mem_append_left _ hmem
        · change _ ∈ (HintOp.exec cfg e o w.shared).2.unlocks
          rwa [hsame]
      · obtain rfl := List.mem_singleton.mp hn
        exact mem_of_savedAs hevent

/-- **What is unlocked is shown.** After an unlock was reported, in every run in which others remove
no unlocks, the content is shown to everybody whose account has got it, as long as the challenge is
visible. -/
theorem shown_of_unlocked (cfg : HintConfig) (s₀ : HintWorld) (log : List (hintService cfg).Entry)
    (w : (hintService cfg).Pool) (pid : ℕ) (req : UnlockRequestDto) (userId teamId contestId : ℤ)
    (data : UnlockResponseDTO) (viewerId viewedIn : ℤ) (account : Account) (hint : Hint)
    (challenge : Option BankChallenge) (e : HintEnv)
    (h : Service.Records KeepsUnlocks ((hintService cfg).start s₀) log w)
    (hfinished : Service.Finished w pid (.postUnlock req userId teamId contestId)
      (.ok (.unlocked data)))
    (htype : req.type.all (cfg.sql.eq · hintUnlockType) = true)
    (huser : (w.shared.user viewerId).isSome = true)
    (hviewer : w.shared.viewer cfg viewerId viewedIn = some account)
    (howns : account.owns data.userId data.teamId = true)
    (hhint : w.shared.hint req.target = some (hint, challenge))
    (hshows : w.shared.showsChallenge viewedIn hint.challengeId = true) (hcalm : e.fault = .none) :
    ((getHintById cfg req.target viewerId viewedIn).eval (hintExec cfg e) w.shared).1 =
      .ok (some (hint.shown "unlocked")) := by
  obtain ⟨p, date, award, hreq, htold, hpuser, hpteam⟩ :=
    (h.justified (program_answers cfg)).2 pid _ _ hfinished req userId teamId contestId rfl data rfl
  obtain ⟨n, hn, -, hevent⟩ := Service.mem_past htold
  have hmem := unlocks_of_records h ⟨n, hn, hevent⟩
  have hid : hint.id = req.target := by
    obtain ⟨found, hfound, heq⟩ := Option.map_eq_some_iff.mp hhint
    obtain ⟨rfl, -⟩ := Prod.mk.inj heq
    simpa using List.find?_some hfound
  have hopen : w.shared.openFor cfg hint.id viewerId viewedIn = true := by
    rw [HintWorld.openFor, hviewer, Option.any_some, HintWorld.findHintUnlock, List.find?_isSome]
    refine ⟨_, hmem, ?_⟩
    rw [hpuser, hpteam] at howns
    rw [Bool.and_eq_true, Bool.and_eq_true, decide_eq_true_iff]
    refine ⟨⟨howns, ?_⟩, ?_⟩
    · rw [hid, ← hreq]
      rfl
    · rw [← hreq] at htype
      exact htype
  rw [eval_getHintById hcalm, hhint, Option.bind_some, if_pos hshows, viewOf, huser, hopen]
  split
  · rfl
  · rfl

end Unlocked

instance {cfg : HintConfig} (log : List (hintService cfg).Entry) (w : (hintService cfg).Pool)
    (m : (hintService cfg).Move) : Decidable (KeepsUnlocks log w m) :=
  match m with
  | .spawn _ => .isTrue trivial
  | .act _ _ => .isTrue trivial
  | .ambient x => inferInstanceAs (Decidable (w.shared.unlocks ⊆ HintWorld.unlocks x))

theorem shown_of_unlocked_example :
    ∃ log w, Service.Records KeepsUnlocks ((hintService plainHints).start oneHint) log w ∧
      ∃ hint, ((getHintById plainHints 1 7 1).eval (hintExec plainHints (calmHints "b"))
        w.shared).1 = .ok (some (Hint.shown hint "unlocked")) := by
  have hrun : (Service.runLogged KeepsUnlocks [] ((hintService plainHints).start oneHint)
      buyIt).any (fun r => decide (Service.answer r.2 0 = some ⟨unlockIt (some "hints"),
        .ok (.unlocked ⟨1, some "hints", some 1, some 3, some 7, some 0⟩)⟩) &&
      ((r.2.shared.user 7).isSome &&
        (decide (r.2.shared.viewer plainHints 7 1 = some (.team (some 3))) &&
          (r.2.shared.hint 1).any fun found =>
            r.2.shared.showsChallenge 1 found.1.challengeId))) = true := by
    decide +kernel
  obtain ⟨⟨log, w⟩, hw, hall⟩ := (Option.any_eq_true _ _).mp hrun
  obtain ⟨hanswer, hall⟩ := (Bool.and_eq_true _ _).mp hall
  obtain ⟨huser, hall⟩ := (Bool.and_eq_true _ _).mp hall
  obtain ⟨hviewer, hhint⟩ := (Bool.and_eq_true _ _).mp hall
  obtain ⟨⟨hint, challenge⟩, hhint, hshows⟩ := (Option.any_eq_true _ _).mp hhint
  have hrecords := Service.records_of_runLogged .refl hw
  refine ⟨log, w, hrecords, hint, ?_⟩
  exact shown_of_unlocked plainHints oneHint log w 0 ⟨some "hints", 1⟩ 7 3 1 _ 7 1
    (.team (some 3)) hint challenge (calmHints "b") hrecords
    (Service.finished_of_answer (of_decide_eq_true hanswer)) (by decide) huser
    (of_decide_eq_true hviewer) rfl hhint hshows rfl

end Hints

end Fctf
