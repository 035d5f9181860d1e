import Fctf.CacheFills
import Fctf.Revocation

/-!
# Tokens of a Contest

Two endpoints select a contest and answer with a token for it. `AuthService.SelectContest`
stores the uuid of its token, removes the cached entry of the contest, and takes the team
from the row of `contest_participants`. `ContestController.SelectContest` draws a uuid and
stores it nowhere, and takes the team from `users_teams`.

So the first token is accepted, unless a request that has read the older token caches it
after the removal, and the second one never is: the middleware compares its uuid with the
stored one.

## Main results

* `rows_after`, `cached_after`: what is stored and cached once a token was issued.
* `contestTokens_of_usable`: in which runs the tokens are accepted, and when both endpoints
  name the same team.
* `not_contestTokens`: a token of `ContestController.SelectContest` is refused.
-/

open Concurrent RedisDb

namespace Fctf

namespace Auth

/-! ### A user's first token row -/

section FirstRow

variable {tables : AuthTables} {u : ℤ} {t : Token}

theorem AuthTables.userToken_setValue (h : tables.userToken u = some t) (id : ℤ)
    (value : String) : (tables.setValue id value).userToken u =
      some (if t.id = id then { t with value := some value } else t) := by
  rw [userToken_eq_head?] at h ⊢
  rw [userTokens_setValue, List.head?_map, h, Option.map_some]

theorem AuthTables.userToken_addToken (h : tables.userToken u = some t) (id u' : ℤ)
    (value : String) : (tables.addToken id u' value).userToken u = some t := by
  rw [userToken_eq_head?] at h ⊢
  rw [userTokens_addToken, List.head?_append, h, Option.some_or]

/-- The value of the row that was found, once it has been replaced. -/
theorem AuthTables.tokenValue_setValue (h : tables.userToken u = some t) (value : String) :
    (tables.setValue t.id value).tokenValue u = some value := by
  rw [tokenValue, userToken_setValue h, if_pos rfl]
  rfl

/-- The value of the only row. -/
theorem AuthTables.tokenValue_addToken (h : tables.userTokens u = []) (id : ℤ)
    (value : String) : (tables.addToken id u value).tokenValue u = some value := by
  rw [tokenValue, userToken_eq_head?, userTokens_addToken, h, if_pos rfl]
  rfl

/-- A user's first row stays the first, unless rows are removed. -/
theorem AuthOp.userToken_exec (e : AuthEnv) {o : AuthOp} {s : AuthWorld}
    (ho : ∀ rows, o ≠ .removeTokens rows) (h : s.tables.userToken u = some t) :
    ∃ t', (o.exec e s).2.tables.userToken u = some t' ∧ t'.id = t.id := by
  obtain hs | ⟨r, -, hs⟩ | ⟨id, value, -, hs⟩ | ⟨u', value, -, hs⟩ | ⟨rows, hrows, -⟩ :=
    o.exec_cases e s
  · exact ⟨t, by rw [hs, h], rfl⟩
  · exact ⟨t, by rw [hs]; exact h, rfl⟩
  · refine ⟨_, by rw [hs]; exact AuthTables.userToken_setValue h id value, ?_⟩
    split <;> rfl
  · exact ⟨t, by rw [hs]; exact AuthTables.userToken_addToken h _ _ _, rfl⟩
  · exact absurd hrows (ho rows)

/-- The operations change no table but `tokens`. -/
theorem AuthOp.tables_exec (e : AuthEnv) (o : AuthOp) (s : AuthWorld) :
    ∃ tokens, (o.exec e s).2.tables = { s.tables with tokens := tokens } := by
  obtain hs | ⟨r, -, hs⟩ | ⟨id, value, -, hs⟩ | ⟨u', value, -, hs⟩ | ⟨rows, -, hs⟩ :=
    o.exec_cases e s <;> exact ⟨_, (congrArg AuthWorld.tables hs :)⟩

/-- A token row that was replaced. -/
theorem AuthOp.tables_of_updateToken {e : AuthEnv} {s : AuthWorld} {id : ℤ} {value : String}
    {x : Unit} (h : ((AuthOp.updateToken id value).exec e s).1 = .ok x) :
    ((AuthOp.updateToken id value).exec e s).2.tables = s.tables.setValue id value := by
  cases hf : e.fault <;>
    simp only [AuthOp.exec, hf, Fault.apply, AuthWorld.updateToken] at h ⊢
  · split at h
    · cases h
    · next hthere =>
        split at h
        · cases h
        · next hfree => rw [if_neg hthere, if_neg hfree]
  · cases h
  · cases h

/-- A token row that was added. -/
theorem AuthOp.tables_of_insertToken {e : AuthEnv} {s : AuthWorld} {value : String} {x : Unit}
    (h : ((AuthOp.insertToken u value).exec e s).1 = .ok x) :
    ((AuthOp.insertToken u value).exec e s).2.tables =
      s.tables.addToken s.nextTokenId u value := by
  cases hf : e.fault <;>
    simp only [AuthOp.exec, hf, Fault.apply, AuthWorld.insertToken] at h ⊢
  · split at h
    · cases h
    · next huser =>
        split at h
        · cases h
        · next hfree => rw [if_neg huser, if_neg hfree]
  · cases h
  · cases h

end FirstRow

/-! ### The two endpoints -/

/-- The endpoints that select a contest. -/
inductive SelectEndpoint where
  /-- `AuthService.SelectContest`. -/
  | authService
  /-- `ContestController.SelectContest`. -/
  | contestController
  deriving DecidableEq

/-- A call of the endpoint. -/
def SelectEndpoint.call : SelectEndpoint → Claims → ℤ → AuthCall
  | authService => .selectContest
  | contestController => .select

/-- Is it the operation that makes the token: that stores its uuid, or draws one that is
never stored? -/
def SelectEndpoint.issues : SelectEndpoint → AuthOp → Bool
  | authService, .updateToken _ _ => true
  | authService, .insertToken _ _ => true
  | contestController, .newGuid => true
  | _, _ => false

section Claim

variable {verifyPassword : VerifyPassword}

/-- The endpoint has answered a user with a token for the contest. -/
def Issued (w : (auths verifyPassword).Pool) (endpoint : SelectEndpoint) (pid : ℕ) (c u : ℤ)
    (dto : SelectContestResponseDTO) : Prop :=
  ∃ claims, Service.Finished w pid (endpoint.call claims c) (.ok (.selected dto)) ∧
    claims.nameIdentifier = some u

/-- A verified, unbanned, visible participant of the contest with no banned team. -/
structure Eligible (tables : AuthTables) (c u : ℤ) : Prop where
  /-- The account is in order. -/
  account : ∃ row, tables.user u = some row ∧ row.verified = some true ∧
    row.banned ≠ some true ∧ row.hidden ≠ some true
  /-- The user takes part. -/
  participant : tables.isParticipant c u = true
  /-- No team of the user is banned. -/
  team : tables.teamBanned u = false

/-- The operation leaves the token rows of the user. -/
def KeepsTokens (u : ℤ) (n : (auths verifyPassword).Entry) : Prop :=
  n.after.tables.userTokens u = n.before.tables.userTokens u

instance (u : ℤ) (n : (auths verifyPassword).Entry) : Decidable (KeepsTokens u n) :=
  inferInstanceAs (Decidable (_ = _))

/-- No later token of the user was stored. -/
def NoLater (endpoint : SelectEndpoint) (log : List (auths verifyPassword).Entry) (pid : ℕ)
    (u : ℤ) : Prop :=
  ∀ pre n post, log = pre ++ n :: post → n.pid = pid → endpoint.issues n.op = true →
    ∀ m ∈ post, KeepsTokens u m

/-- The call at `pid'` begins after the one at `pid` has ended. -/
def Follows (log : List (auths verifyPassword).Entry) (pid pid' : ℕ) : Prop :=
  ∀ pre n post, log = pre ++ n :: post → n.pid = pid → ∀ m ∈ pre, m.pid ≠ pid'

/-- The middleware accepts the tokens of an endpoint. -/
def AcceptsTokens (endpoint : SelectEndpoint) (log : List (auths verifyPassword).Entry)
    (w : (auths verifyPassword).Pool) : Prop :=
  ∀ pid c u dto, Issued w endpoint pid c u dto → Eligible w.shared.tables c u →
    NoLater endpoint log pid u → ∀ pid' call r, Service.Finished w pid' call r →
      call.claims = some dto.token → Follows log pid pid' →
        ∃ n ∈ log, n.pid = pid' ∧ n.op = .next

/-- **Tokens of a contest are accepted, and name its team.** -/
structure ContestTokens (log : List (auths verifyPassword).Entry)
    (w : (auths verifyPassword).Pool) : Prop where
  /-- The tokens of both endpoints are accepted. -/
  accepted : ∀ endpoint, AcceptsTokens endpoint log w
  /-- Both name the same team. -/
  sameTeam : ∀ pid₁ pid₂ c u dto₁ dto₂, Issued w .authService pid₁ c u dto₁ →
    Issued w .contestController pid₂ c u dto₂ → dto₁.token.teamId = dto₂.token.teamId

/-- The team that the participation names is the one the user is a member of. -/
def TeamsAgree (tables : AuthTables) (c u : ℤ) : Prop :=
  ((tables.participant c u).bind (·.teamId)).getD 0 =
    ((tables.memberTeam c u).map (·.id)).getD 0

/-! ### Runs of logins, selections and requests -/

/-- What an operation must not do for the tokens to be accepted. -/
structure UsableStep (log : List (auths verifyPassword).Entry)
    (n : (auths verifyPassword).Entry) : Prop where
  /-- The database answers. -/
  answered : (∀ r, n.op ≠ .redis r) → n.env.fault = .none
  /-- No removal is lost while an older token is cached. -/
  removed : ∀ c u, n.op = .redis (.del (authKey c u)) → n.env.fault = .before →
    ∀ cache, n.before.redis.get (authKey c u) = some cache →
      cache.tokenValueFromDb = n.before.tables.tokenValue u
  /-- No older token is cached by a request that has read it before the entry was removed. -/
  filled : ∀ c u cache ttl, n.op = .redis (.set (authKey c u) cache ttl) →
    n.env.fault ≠ .before → cache.tokenValueFromDb = n.before.tables.tokenValue u ∨
      ∀ pre y post, log = pre ++ y :: post → y.pid = n.pid → y.op = .findToken u →
        ∀ m ∈ post, m.op ≠ .redis (.del (authKey c u))
  /-- A selection adds a row only for a user without one. -/
  inserted : ∀ claims c u value, n.call = .selectContest claims c →
    n.op = .insertToken u value → n.before.tables.userTokens u = []

/-- A run of such operations, of all calls but logouts. -/
def UsableRun (log : List (auths verifyPassword).Entry) (w : (auths verifyPassword).Pool) :
    (auths verifyPassword).Move → Prop
  | .spawn call => ∀ claims, call ≠ .logout claims
  | .act pid e => ∀ n, Service.entryOf w (.act pid e) = some n → UsableStep log n
  | .ambient x => ∃ seconds, x = .pass seconds

/-- What such a run keeps. -/
structure SelectingInv (s₀ : AuthWorld) (log : List (auths verifyPassword).Entry)
    (w : (auths verifyPassword).Pool) : Prop where
  /-- Nobody logs out. -/
  calls : ∀ p ∈ w.procs, ∀ claims, p.1 ≠ .logout claims
  /-- No table changes but `tokens`. -/
  tables : ∃ tokens, w.shared.tables = { s₀.tables with tokens := tokens }
  /-- A user's first token row stays the first. -/
  first : ∀ n ∈ log, ∀ u t, n.before.tables.userToken u = some t →
    ∃ t', w.shared.tables.userToken u = some t' ∧ t'.id = t.id

section Runs

variable {s₀ : AuthWorld} {log pre post : List (auths verifyPassword).Entry}
  {w : (auths verifyPassword).Pool} {s n : (auths verifyPassword).Entry} {c u : ℤ}

/-- An entry's step was usable. -/
theorem usableStep_of_split
    (h : Service.Records UsableRun ((auths verifyPassword).start s₀) log w)
    (hlog : log = pre ++ n :: post) : UsableStep pre n := by
  obtain ⟨w₁, k, hrun, hshared, hp, hg⟩ := (hlog ▸ h).of_append
  have hentry : Service.entryOf w₁ (.act n.pid n.env) = some n := by
    rw [Service.entryOf_act hp, hshared]
  exact hg n hentry

theorem usableStep_last
    (h : Service.Records UsableRun ((auths verifyPassword).start s₀) (log ++ [n]) w) :
    UsableStep log n :=
  usableStep_of_split h (show log ++ [n] = log ++ n :: [] from rfl)

/-- **What a run of logins, selections and requests keeps.** -/
theorem selectingInv (h : Service.Records UsableRun ((auths verifyPassword).start s₀) log w) :
    SelectingInv s₀ log w := by
  induction h with
  | refl =>
      exact ⟨fun p hp => absurd hp List.not_mem_nil, ⟨s₀.tables.tokens, rfl⟩,
        fun n hn => absurd hn List.not_mem_nil⟩
  | spawn _ hg ih =>
      refine ⟨fun p hp => ?_, ih.tables, ih.first⟩
      rcases List.mem_append.mp hp with hp | hp
      · exact ih.calls p hp
      · obtain rfl := List.mem_singleton.mp hp
        exact hg
  | @act log w pid e call o k hrun hp hg ih =>
      have hcall : ∀ claims, call ≠ .logout claims := ih.calls _ hp.mem
      have hreason := reasoned_last (hrun.act hp hg)
      have hremoves : ∀ rows, o ≠ .removeTokens rows := by
        rintro rows rfl
        obtain ⟨claims, -, hlogout, -⟩ := hreason
        exact hcall claims hlogout
      obtain ⟨tokens, htokens⟩ := ih.tables
      obtain ⟨tokens', htokens'⟩ := o.tables_exec e w.shared
      refine ⟨fun p hpm => ?_, ⟨tokens', ?_⟩, fun n hn u t ht => ?_⟩
      · rcases Service.mem_set_cases hpm with rfl | hpm
        · exact hcall
        · exact ih.calls p hpm
      · refine htokens'.trans ?_
        rw [htokens]
      · rcases List.mem_append.mp hn with hn | hn
        · obtain ⟨t', ht', hid⟩ := ih.first n hn u t ht
          obtain ⟨t'', ht'', hid'⟩ := AuthOp.userToken_exec e hremoves ht'
          exact ⟨t'', ht'', hid'.trans hid⟩
        · obtain rfl := List.mem_singleton.mp hn
          exact AuthOp.userToken_exec e hremoves ht
  | ambient _ hg ih =>
      obtain ⟨seconds, rfl⟩ := hg
      exact ⟨ih.calls, ih.tables, ih.first⟩

/-- The rows of a user, as long as nothing is stored for them. -/
theorem rows_after (h : Service.Records UsableRun ((auths verifyPassword).start s₀) log w)
    (hlog : log = pre ++ s :: post) (hkeeps : ∀ m ∈ post, KeepsTokens u m) :
    w.shared.tables.userTokens u = s.after.tables.userTokens u := by
  induction h generalizing post with
  | refl => exact absurd hlog (by simp)
  | spawn _ _ ih => exact ih hlog hkeeps
  | @act log w pid e call o k hrun hp hg ih =>
      obtain ⟨rfl, rfl, rfl⟩ | ⟨post', rfl, rfl⟩ := Service.append_singleton_split hlog
      · rfl
      · have hlast : KeepsTokens u ⟨pid, call, e, o, w.shared⟩ :=
          hkeeps _ (List.mem_append_right post' (List.mem_singleton.mpr rfl))
        exact hlast.trans (ih rfl fun m hm => hkeeps m (List.mem_append_left _ hm))
  | ambient _ hg ih =>
      obtain ⟨seconds, rfl⟩ := hg
      exact ih hlog hkeeps

/-- What was stored is what is stored later, as long as nothing else is. -/
theorem tokenValue_later
    (h : Service.Records UsableRun ((auths verifyPassword).start s₀) log w) {value : String}
    (hvalue : s.after.tables.tokenValue u = some value)
    {mid : List (auths verifyPassword).Entry} (hlog : log = pre ++ s :: (mid ++ n :: post))
    (hkeeps : ∀ m ∈ mid, KeepsTokens u m) : n.before.tables.tokenValue u = some value := by
  have hsplit : log = (pre ++ s :: mid) ++ n :: post := by rw [hlog]; simp
  obtain ⟨w₁, k, hrun, hshared, -, -⟩ := (hsplit ▸ h).of_append
  have hrows := rows_after hrun rfl hkeeps
  rw [hshared] at hrows
  rw [AuthTables.tokenValue_congr hrows, hvalue]

/-- What a call has read of the tables stands there now. -/
theorem tables_of_split
    (h : Service.Records UsableRun ((auths verifyPassword).start s₀) log w)
    (hlog : log = pre ++ n :: post) :
    ∃ tokens, n.before.tables = { w.shared.tables with tokens := tokens } := by
  obtain ⟨w₁, k, hrun, hshared, -, -⟩ := (hlog ▸ h).of_append
  obtain ⟨tokens, htokens⟩ := (selectingInv h).tables
  obtain ⟨tokens', htokens'⟩ := (selectingInv hrun).tables
  refine ⟨tokens', ?_⟩
  rw [← hshared, htokens', htokens]

/-- What is cached after the entry was removed carries the token that was stored before, as
long as nothing else is stored. -/
theorem cached_after (h : Service.Records UsableRun ((auths verifyPassword).start s₀) log w)
    {mid : List (auths verifyPassword).Entry} {d : (auths verifyPassword).Entry}
    {value : String} (hlog : log = (pre ++ s :: mid) ++ d :: post)
    (hd : d.op = .redis (.del (authKey c u))) (hvalue : s.after.tables.tokenValue u = some value)
    (hkeeps : ∀ m ∈ mid ++ d :: post, KeepsTokens u m) {cache : AuthInfoCacheDTO}
    (hcache : w.shared.redis.get (authKey c u) = some cache) :
    cache.tokenValueFromDb = some value := by
  induction h generalizing post cache with
  | refl => exact absurd hlog (by simp)
  | spawn _ _ ih => exact ih hlog hkeeps hcache
  | @act log w pid e call o k hrun hp hg ih =>
      have hafter := hrun.act hp hg
      have hreason := reasoned_last hafter
      have hstep : UsableStep log ⟨pid, call, e, o, w.shared⟩ :=
        usableStep_last hafter
      -- what is stored before this operation
      have hstored : ∀ k, log = pre ++ s :: k → (∀ m ∈ k, KeepsTokens u m) →
          w.shared.tables.tokenValue u = some value := fun k hk hkeeps => by
        rw [AuthTables.tokenValue_congr (rows_after hrun hk hkeeps), hvalue]
      obtain ⟨hl, hn, -⟩ | ⟨post', hl, rfl⟩ := Service.append_singleton_split hlog
      · -- the removal itself
        have ho : o = .redis (.del (authKey c u)) := (congrArg Service.Entry.op hn).trans hd
        subst ho
        have hnow := hstored mid hl fun m hm => hkeeps m (List.mem_append_left _ hm)
        by_cases hf : e.fault = .before
        · have hcache' : w.shared.redis.get (authKey c u) = some cache := by
            simpa only [AuthOp.exec, auths, hf, RedisOp.execFaulty_before] using hcache
          exact (hstep.removed c u rfl hf cache hcache').trans hnow
        · have hnone : ((auths verifyPassword).exec e (.redis (.del (authKey c u)))
              w.shared).2.redis.get (authKey c u) = none := by
            simp only [AuthOp.exec, auths, RedisOp.execFaulty_of_ne hf, RedisOp.exec, Db.get,
              Db.lookup_del_same, Option.map_none]
          exact absurd (hnone.symm.trans hcache) (Option.some_ne_none cache).symm
      · have hkeeps' : ∀ m ∈ mid ++ d :: post', KeepsTokens u m := fun m hm =>
          hkeeps m (by simpa using Or.imp_right (Or.imp_right Or.inl) (by simpa using hm))
        have hsplit : log = pre ++ s :: (mid ++ d :: post') := by rw [hl]; simp
        have hnow := hstored _ hsplit hkeeps'
        rcases AuthOp.get_of_exec hreason hcache with hcache | ⟨hf, ttl, rfl⟩
        · exact ih hl hkeeps' hcache
        rcases hstep.filled c u cache ttl rfl hf with hfresh | hread
        · exact hfresh.trans hnow
        · -- the token was read after the removal
          obtain ⟨claims, c', u', token, info, -, hcleared, hkey, rfl, -⟩ := hreason
          obtain ⟨rfl, rfl⟩ := authKey_inj hkey
          obtain ⟨⟨y, hy, hpid, hop, htoken⟩, -⟩ := hcleared.found
          have hlater : y ∈ post' := by
            rw [hl] at hy
            rcases List.mem_append.mp hy with hy | hy
            · obtain ⟨a, b, hab⟩ := List.append_of_mem hy
              refine absurd hd (hread a y (b ++ d :: post') ?_ hpid hop d (by simp))
              rw [hl, hab]
              simp
            · rcases List.mem_cons.mp hy with rfl | hy
              · rw [hd] at hop
                cases hop
              · exact hy
          obtain ⟨a, b, rfl⟩ := List.append_of_mem hlater
          have hread' : log = pre ++ s :: ((mid ++ d :: a) ++ y :: b) := by
            rw [hsplit]
            simp
          have hbefore : ∀ m ∈ mid ++ d :: a, KeepsTokens u m := fun m hm =>
            hkeeps' m (by simp at hm ⊢; tauto)
          have hvalue' := tokenValue_later hrun hvalue hread' hbefore
          rw [AuthTables.tokenValue, htoken] at hvalue'
          exact hvalue'
  | ambient _ hg ih =>
      obtain ⟨seconds, rfl⟩ := hg
      exact ih hlog hkeeps (Db.get_of_tick _ hcache)

/-! ### What the two endpoints have done -/

theorem id_of_user {tables : AuthTables} {user : User} (h : tables.user u = some user) :
    user.id = u :=
  of_decide_eq_true (List.find?_some (p := fun x : User => decide (x.id = u)) h)

/-- What a selection has stored is what is stored right after. -/
theorem tokenValue_of_storesFound
    (h : Service.Records UsableRun ((auths verifyPassword).start s₀) log w)
    (hlog : log = pre ++ n :: post) {value : String} (hcall : ∃ claims c, n.call = .selectContest claims c)
    (hstores : StoresFound u value (Service.past pre n.pid) n.op)
    (hreply : ∃ x, n.reply = .ok x) : n.after.tables.tokenValue u = some value := by
  obtain ⟨pid, call, e, o, s⟩ := n
  obtain ⟨x, hx⟩ := hreply
  obtain ⟨w₁, k, hrun, hshared, -, -⟩ := (hlog ▸ h).of_append
  have hstep := usableStep_of_split h hlog
  obtain ⟨row, htold, ho⟩ | ⟨-, ho⟩ := hstores
  · dsimp only at ho
    subst ho
    obtain ⟨y, hy, -, -, hfound⟩ := exists_entry_of_told htold
    obtain ⟨t, ht, hid⟩ := (selectingInv hrun).first y hy u row (AuthEnv.eq_of_read hfound).symm
    have htables : (AuthOp.exec e (.updateToken row.id value) s).2.tables =
        s.tables.setValue row.id value := AuthOp.tables_of_updateToken (x := x) hx
    have ht' : s.tables.userToken u = some t :=
      (congrArg (fun s => AuthTables.userToken s.tables u) hshared).symm.trans ht
    rw [Service.Entry.after]
    refine (congrArg (fun t => AuthTables.tokenValue t u) htables).trans ?_
    rw [← hid]
    exact AuthTables.tokenValue_setValue ht' value
  · dsimp only at ho
    subst ho
    obtain ⟨claims, c, rfl⟩ := hcall
    have hnone : s.tables.userTokens u = [] := hstep.inserted claims c u value rfl rfl
    have htables : (AuthOp.exec e (.insertToken u value) s).2.tables =
        s.tables.addToken s.nextTokenId u value := AuthOp.tables_of_insertToken (x := x) hx
    rw [Service.Entry.after]
    refine (congrArg (fun t => AuthTables.tokenValue t u) htables).trans ?_
    exact AuthTables.tokenValue_addToken hnone s.nextTokenId value

/-- The call of an entry is that of its place. -/
theorem call_eq_of_finished
    (h : Service.Records UsableRun ((auths verifyPassword).start s₀) log w) (hn : n ∈ log)
    {call : AuthCall} {r : Except Exn Response} (hf : Service.Finished w n.pid call r) :
    n.call = call := by
  obtain ⟨p, hp⟩ := h.exists_of_mem n hn
  exact (Prod.mk.inj (Option.some.inj (hp.symm.trans hf))).1

/-- **What `AuthService.SelectContest` has done**: it has stored the uuid, and then removed
the entry. -/
theorem selection (h : Service.Records UsableRun ((auths verifyPassword).start s₀) log w)
    {pid : ℕ} {dto : SelectContestResponseDTO} (hi : Issued w .authService pid c u dto) :
    ∃ pre s mid d post tokenUuid participant, log = (pre ++ s :: mid) ++ d :: post ∧
      s.pid = pid ∧ d.pid = pid ∧ SelectEndpoint.authService.issues s.op = true ∧
      d.op = .redis (.del (authKey c u)) ∧
      s.after.tables.tokenValue u = some (Guid.text tokenUuid) ∧ 0 < c ∧
      w.shared.tables.participant c u = some participant ∧
      dto.token = createToken u (participant.teamId.getD 0) c tokenUuid.text := by
  obtain ⟨claims, hf, hu⟩ := hi
  have hdone : Selected claims c dto (Service.past log pid) := (answered_of_finished h hf).2
  obtain ⟨u', user, participant, team, tokenUuid, l₁, o, x, r, hu', hpos, huser, hpart, htoken,
    hstores, hpast⟩ := hdone
  obtain rfl := Option.some.inj (hu.symm.trans hu')
  obtain ⟨pre, s, rest, rfl, hspid, hsevent, hspast, hrest⟩ := Service.exists_split_of_past hpast
  obtain ⟨mid, d, post, rfl, hdpid, hdevent, -, -⟩ :=
    Service.exists_split_of_past (l := []) hrest
  -- who it was, and where they take part
  obtain ⟨y, hy, -, -, hyuser⟩ := exists_entry_of_told huser
  obtain ⟨z, hz, -, -, hzpart⟩ := exists_entry_of_told hpart
  have hid : user.id = u := id_of_user (AuthEnv.eq_of_read hyuser).symm
  rw [hid] at htoken hstores
  have hparticipant : w.shared.tables.participant c u = some participant := by
    obtain ⟨a, b, hab⟩ := List.append_of_mem hz
    obtain ⟨tokens, htokens⟩ := tables_of_split h hab
    have hread : some (participant, team) = (z.before.tables.participant c u).map
        fun p => (p, p.teamId.bind z.before.tables.team) := AuthEnv.eq_of_read hzpart
    obtain ⟨p, hp, hpair⟩ := Option.map_eq_some_iff.mp hread.symm
    obtain rfl := (Prod.mk.inj hpair).1
    rw [htokens] at hp
    exact hp
  -- what was stored
  have hop : s.op = o := congrArg Event.op hsevent
  have hreply : ∃ x, s.reply = .ok x := by
    obtain ⟨pid, call, e, op, before⟩ := s
    simp only [Service.Entry.event, Event.mk.injEq] at hsevent
    obtain ⟨rfl, hx⟩ := hsevent
    exact ⟨x, eq_of_heq hx⟩
  have hcall : ∃ claims c, s.call = .selectContest claims c :=
    ⟨claims, c, call_eq_of_finished h (List.mem_append_right pre List.mem_cons_self)
      (hspid ▸ hf)⟩
  have hissues : SelectEndpoint.authService.issues s.op = true := by
    obtain ⟨row, -, ho⟩ | ⟨-, ho⟩ := hstores <;> rw [hop, ho] <;> rfl
  have hstored : s.after.tables.tokenValue u = some tokenUuid.text :=
    tokenValue_of_storesFound h rfl hcall (by rw [hspid, hspast, hop]; exact hstores) hreply
  exact ⟨pre, s, mid, d, post, tokenUuid, participant, by simp, hspid, hdpid, hissues,
    congrArg Event.op hdevent, hstored, hpos, hparticipant, htoken⟩

/-- What `ContestController.SelectContest` has answered. -/
theorem controllerSelection
    (h : Service.Records UsableRun ((auths verifyPassword).start s₀) log w) {pid : ℕ}
    {dto : SelectContestResponseDTO} (hi : Issued w .contestController pid c u dto) :
    ∃ tokenUuid : Guid, dto.token =
      createToken u (((w.shared.tables.memberTeam c u).map (·.id)).getD 0) c tokenUuid.text := by
  obtain ⟨claims, hf, hu⟩ := hi
  have hdone : ContestController.Selected claims c dto (Service.past log pid) :=
    (answered_of_finished h hf).2
  obtain ⟨u', user, team, tokenUuid, l₁, hu', huser, hteam, htoken, -⟩ := hdone
  obtain rfl := Option.some.inj (hu.symm.trans hu')
  obtain ⟨y, hy, -, -, hyuser⟩ := exists_entry_of_told huser
  obtain ⟨z, hz, -, -, hzteam⟩ := exists_entry_of_told hteam
  obtain ⟨a, b, hab⟩ := List.append_of_mem hz
  obtain ⟨tokens, htokens⟩ := tables_of_split h hab
  have hmember : team = w.shared.tables.memberTeam c u := by
    rw [AuthEnv.eq_of_read hzteam, htokens]
    rfl
  rw [id_of_user (AuthEnv.eq_of_read hyuser).symm, hmember] at htoken
  exact ⟨tokenUuid, htoken⟩

/-! ### Acceptance -/

theorem tokenVerdict_self {value : String} (h : value ≠ "") :
    tokenVerdict (some value) (some value) = none := by
  simp [tokenVerdict, h]

theorem Guid.text_ne_empty (g : Guid) : g.text ≠ "" := by
  intro h
  have := g.length_text
  rw [h] at this
  cases this

/-- Who is eligible passes the checks of the account and of the team. -/
theorem Eligible.verdicts {tables : AuthTables} (h : Eligible tables c u) {info : UserInfo}
    (hinfo : tables.userInfo u = some info) :
    accountVerdict info.verified info.banned info.hidden = none ∧
      teamVerdict (some info.teamBanned) = none := by
  obtain ⟨row, hrow, hverified, hbanned, hhidden⟩ := h.account
  rw [AuthTables.userInfo, hrow] at hinfo
  obtain rfl := Option.some.inj hinfo
  refine ⟨?_, ?_⟩
  · rw [accountVerdict, if_neg (not_not.mpr hverified), if_neg hbanned, if_neg hhidden]
  · simp [teamVerdict, h.team]

/-- The entry that a request of the run has cached passes, if its token does. -/
theorem cachedVerdict_of_fills
    (h : Service.Records UsableRun ((auths verifyPassword).start s₀) log w)
    (hlog : log = pre ++ n :: post) {slot : Slot AuthInfoCacheDTO} (hn : Fills c u slot n)
    {claims : Claims} (htoken : tokenVerdict slot.value.tokenValueFromDb claims.tokenUuid = none) :
    cachedVerdict claims c slot.value = none := by
  obtain ⟨filler, token, info, -, hcleared, hvalue⟩ := cleared_of_fills h hlog hn
  rw [hvalue] at htoken ⊢
  have htoken' : tokenVerdict (token.bind (·.value)) claims.tokenUuid = none := htoken
  have haccount := hcleared.account_ok
  have hteam := hcleared.team_ok
  simp only [cachedVerdict, cacheEntry, htoken', haccount, hteam, ne_eq, not_true_eq_false,
    if_false]

/-- **The tokens of `AuthService.SelectContest` are accepted.** -/
theorem acceptsTokens_of_usable
    (h : Service.Records UsableRun ((auths verifyPassword).start s₀) log w) (h₀ : Uncached s₀) :
    AcceptsTokens .authService log w := by
  intro pid c u dto hi heligible hnolater pid' call r hf hclaims hfollows
  obtain ⟨pre, s, mid, d, post, tokenUuid, participant, hlog, hs, hd, hissues, hdop, hvalue,
    hpos, -, htoken⟩ := selection h hi
  have hsplit : log = pre ++ s :: (mid ++ d :: post) := by rw [hlog]; simp
  have hkeeps := hnolater pre s _ hsplit hs hissues
  have hne : pid ≠ pid' := by
    rw [← hs]
    exact hfollows _ d post hlog hd s (by simp)
  -- all that the request has done comes after the removal
  have hlater : ∀ y ∈ log, y.pid = pid' → ∃ a b, post = a ++ y :: b := by
    intro y hy hpid
    rw [hlog] at hy
    rcases List.mem_append.mp hy with hy | hy
    · exact absurd hpid (hfollows _ d post hlog hd y hy)
    · rcases List.mem_cons.mp hy with rfl | hy
      · exact absurd (hd.symm.trans hpid) hne
      · exact List.append_of_mem hy
  have hread : ∀ y ∈ log, y.pid = pid' →
      y.before.tables.tokenValue u = some tokenUuid.text ∧
        ∃ tokens, y.before.tables = { w.shared.tables with tokens := tokens } := by
    intro y hy hpid
    obtain ⟨a, b, rfl⟩ := hlater y hy hpid
    have hysplit : log = pre ++ s :: ((mid ++ d :: a) ++ y :: b) := by rw [hsplit]; simp
    have hbefore : ∀ m ∈ mid ++ d :: a, KeepsTokens u m := fun m hm =>
      hkeeps m (by simp at hm ⊢; tauto)
    have hysplit' : log = (pre ++ s :: (mid ++ d :: a)) ++ y :: b := by rw [hsplit]; simp
    exact ⟨tokenValue_later h hvalue hysplit hbefore, tables_of_split h hysplit'⟩
  have hclaimed : tokenVerdict (some tokenUuid.text) dto.token.tokenUuid = none := by
    rw [htoken]
    exact tokenVerdict_self tokenUuid.text_ne_empty
  rcases (answered_of_finished h hf).1 dto.token hclaims with ⟨x, hx, hop⟩ | haway
  · obtain ⟨n, hn, hpid, rfl⟩ := Service.mem_past hx
    exact ⟨n, hn, hpid, hop⟩
  exfalso
  have huser : ∀ {u'}, dto.token.nameIdentifier = some u' → u' = u := fun hu' => by
    rw [htoken] at hu'
    exact (Option.some.inj hu').symm
  have hcontest : ∀ {c'}, dto.token.contestId = some c' → c' = c := fun hc' => by
    rw [htoken] at hc'
    exact (Option.some.inj hc').symm
  cases haway with
  | malformed hmissing =>
      rw [htoken] at hmissing
      simp [createToken] at hmissing
  | contest c' hc' _ hle => exact not_le.mpr hpos (hcontest hc' ▸ hle)
  | basic hzero => exact hpos.ne (hcontest hzero)
  | cached c' u' cache hu' hc' htold hfails =>
      obtain rfl := huser hu'
      obtain rfl := hcontest hc'
      obtain ⟨y, hy, hpid, -, hreply⟩ := exists_entry_of_told htold
      obtain ⟨a, b, rfl⟩ := hlater y hy hpid
      have hysplit : log = ((pre ++ s :: mid) ++ d :: a) ++ y :: b := by rw [hlog]; simp
      obtain ⟨w₁, k, hrun, hshared, -, -⟩ := (hysplit ▸ h).of_append
      have hget : w₁.shared.redis.get (authKey c' u') = some cache :=
        hshared ▸ AuthOp.get_of_told hreply
      have hcached := cached_after hrun rfl hdop hvalue
        (fun m hm => hkeeps m (by simp at hm ⊢; tauto)) hget
      obtain ⟨slot, hslot, rfl⟩ := (Db.get_eq_some_iff _).mp hget
      obtain ⟨pre', n, post', hlog', hn⟩ := filled_of_lookup hrun h₀ hslot
      exact hfails (cachedVerdict_of_fills hrun hlog' hn (by rw [hcached]; exact hclaimed))
  | user u' hu' htold =>
      obtain rfl := huser hu'
      obtain ⟨y, hy, hpid, -, hreply⟩ := exists_entry_of_told htold
      obtain ⟨-, tokens, htables⟩ := hread y hy hpid
      obtain ⟨row, hrow, -⟩ := heligible.account
      have hnone : none = y.before.tables.userInfo u' := AuthEnv.eq_of_read hreply
      have hsome : y.before.tables.user u' = some row := by
        rw [htables]
        exact hrow
      rw [AuthTables.userInfo, hsome] at hnone
      cases hnone
  | token u' token hu' htold hfails =>
      obtain rfl := huser hu'
      obtain ⟨y, hy, hpid, -, hreply⟩ := exists_entry_of_told htold
      have hstored := (hread y hy hpid).1
      rw [AuthTables.tokenValue, ← AuthEnv.eq_of_read hreply] at hstored
      exact hfails (hstored ▸ hclaimed)
  | participant c' u' hu' hc' htold =>
      obtain rfl := huser hu'
      obtain rfl := hcontest hc'
      obtain ⟨y, hy, hpid, -, hreply⟩ := exists_entry_of_told htold
      obtain ⟨-, tokens, htables⟩ := hread y hy hpid
      have hfalse : false = y.before.tables.isParticipant c' u' := AuthEnv.eq_of_read hreply
      rw [htables] at hfalse
      exact Bool.false_ne_true (hfalse.trans heligible.participant)
  | account u' info hu' htold hfails =>
      obtain rfl := huser hu'
      obtain ⟨y, hy, hpid, -, hreply⟩ := exists_entry_of_told htold
      obtain ⟨-, tokens, htables⟩ := hread y hy hpid
      have hinfo : some info = y.before.tables.userInfo u' := AuthEnv.eq_of_read hreply
      rw [htables] at hinfo
      obtain ⟨haccount, hteam⟩ := heligible.verdicts hinfo.symm
      exact hfails.elim (absurd haccount) (absurd hteam)
  | failed u' c' o e hmem ho =>
      obtain ⟨n, hn, -, hevent⟩ := Service.mem_past hmem
      obtain ⟨a, b, hab⟩ := List.append_of_mem hn
      have hstep := usableStep_of_split h hab
      obtain ⟨pid'', call', env, op, before⟩ := n
      simp only [Service.Entry.event, Event.mk.injEq] at hevent
      obtain ⟨rfl, hreply⟩ := hevent
      have hfault : env.fault = .none := hstep.answered fun r hr => by
        obtain hop | hop | hop := ho <;> exact AuthOp.noConfusion (hop.symm.trans hr)
      have herror := eq_of_heq hreply
      obtain rfl | rfl | rfl := ho <;>
        simp only [Service.Entry.reply, auths, AuthOp.exec, AuthEnv.read, hfault,
          Fault.apply] at herror <;> cases herror

/-- **In which runs the tokens of a contest are accepted, and when they agree.** The tokens
of `AuthService.SelectContest` are; both endpoints name the same team if and only if both
tables do; a token of `ContestController.SelectContest` is refused if its uuid is stored
nowhere. -/
theorem contestTokens_of_usable
    (h : Service.Records UsableRun ((auths verifyPassword).start s₀) log w) (h₀ : Uncached s₀) :
    AcceptsTokens .authService log w ∧
      (∀ pid₁ pid₂ c u dto₁ dto₂, Issued w .authService pid₁ c u dto₁ →
        Issued w .contestController pid₂ c u dto₂ →
          (dto₁.token.teamId = dto₂.token.teamId ↔ TeamsAgree s₀.tables c u)) ∧
      ∀ pid c u dto, Issued w .contestController pid c u dto →
        (∀ n ∈ log, n.before.tables.tokenValue u ≠ dto.token.tokenUuid) →
          ∀ n ∈ log, n.call.claims = some dto.token → n.op ≠ .next := by
  refine ⟨acceptsTokens_of_usable h h₀, ?_, ?_⟩
  · intro pid₁ pid₂ c u dto₁ dto₂ hi₁ hi₂
    obtain ⟨pre, s, mid, d, post, stored, participant, -, -, -, -, -, -, -, hpart, htoken₁⟩ :=
      selection h hi₁
    obtain ⟨tokenUuid, htoken₂⟩ := controllerSelection h hi₂
    obtain ⟨tokens, htables⟩ := (selectingInv h).tables
    have hpart' : s₀.tables.participant c u = some participant := by
      rw [htables] at hpart
      exact hpart
    have hmember : w.shared.tables.memberTeam c u = s₀.tables.memberTeam c u := by
      rw [htables]
      rfl
    rw [htoken₁, htoken₂, TeamsAgree, hpart', hmember]
    exact Option.some_inj
  · intro pid c u dto hi hnowhere n hn hclaims hop
    obtain ⟨tokenUuid, htoken⟩ := controllerSelection h hi
    obtain ⟨pre, post, hlog⟩ := List.append_of_mem hn
    obtain ⟨u', hu', y, hy, hstored⟩ := stored_of_next h h₀ hlog hop hclaims
    have huser : u' = u := by
      rw [htoken] at hu'
      exact (Option.some.inj hu').symm
    subst huser
    exact hnowhere y (hlog ▸ List.mem_append_left _ hy) hstored

end Runs

/-! ### Two selections, and a request with each token -/

/-- Nothing goes wrong with the operation, and nothing comes in between. -/
def CalmStep (n : (auths verifyPassword).Entry) : Prop :=
  n.env.fault = .none ∧
    match n.op with
    | .redis (.set _ cache _) =>
        ∀ claims ∈ n.call.claims, ∀ u ∈ claims.nameIdentifier,
          cache.tokenValueFromDb = n.before.tables.tokenValue u
    | .insertToken u _ => n.before.tables.userTokens u = []
    | _ => True

instance (n : (auths verifyPassword).Entry) : Decidable (CalmStep n) := by
  unfold CalmStep
  refine @instDecidableAnd _ _ inferInstance ?_
  split <;> infer_instance

/-- Is it any call but a logout? -/
def AuthCall.selecting : AuthCall → Bool
  | logout _ => false
  | _ => true

/-- A run of such operations. -/
def CalmRun (_ : List (auths verifyPassword).Entry) (w : (auths verifyPassword).Pool) :
    (auths verifyPassword).Move → Prop
  | .spawn call => AuthCall.selecting call = true
  | .act pid e => ∀ n ∈ Service.entryOf w (.act pid e), CalmStep n
  | .ambient _ => False

instance (log : List (auths verifyPassword).Entry) (w : (auths verifyPassword).Pool)
    (m : (auths verifyPassword).Move) : Decidable (CalmRun log w m) := by
  unfold CalmRun
  split <;> infer_instance

theorem usable_of_calm {s₀ : AuthWorld} {log : List (auths verifyPassword).Entry}
    {w : (auths verifyPassword).Pool}
    (h : Service.Records CalmRun ((auths verifyPassword).start s₀) log w) :
    Service.Records UsableRun ((auths verifyPassword).start s₀) log w := by
  induction h with
  | refl => exact .refl
  | spawn _ hg ih =>
      refine ih.spawn fun claims hlogout => ?_
      rw [CalmRun, hlogout] at hg
      cases hg
  | @act log w pid e call o k hrun hp hg ih =>
      refine ih.act hp fun n hn => ?_
      obtain rfl := Option.some.inj ((Service.entryOf_act hp).symm.trans hn)
      have hreason := reasoned_last (hrun.act hp hg)
      obtain ⟨hfault, hcalm⟩ := hg _ (Service.entryOf_act hp)
      refine ⟨fun _ => hfault, fun c u _ hlost => ?_, ?_, ?_⟩
      · rw [hlost] at hfault
        cases hfault
      · rintro c u cache ttl rfl -
        obtain ⟨claims, c', u', token, info, hclaims, hcleared, hkey, -⟩ := hreason
        obtain ⟨-, rfl⟩ := authKey_inj hkey
        exact .inl (hcalm claims hclaims u hcleared.user)
      · rintro claims c u value - rfl
        exact hcalm
  | ambient _ hg ih => exact hg.elim

/-- The calls of one place all come before those of another. -/
theorem follows_of_split {log l l' : List (auths verifyPassword).Entry} {pid pid' : ℕ}
    (hlog : log = l ++ l') (hl : ∀ n ∈ l, n.pid ≠ pid') (hl' : ∀ n ∈ l', n.pid ≠ pid) :
    Follows log pid pid' := by
  intro pre n post hsplit hn m hm
  rw [hlog] at hsplit
  obtain ⟨rest, rfl, rfl⟩ | ⟨rest, rfl, -⟩ := List.append_eq_append_iff.mp hsplit
  · exact absurd hn (hl' n (by simp))
  · exact hl m (List.mem_append_left rest hm)

end Claim

/-- A request with the token of a contest. -/
def requestWith (claims : Claims) : AuthCall := .request claims "/api/challenge"

/-- The selection of the contest 1 by the token of the login. -/
def selectOne : AuthCall := .selectContest (loginToken (uuid 'a')) 1

/-- A selection of it at the other endpoint. -/
def selectOneAgain (claims : Claims) : AuthCall := .select claims 1

/-- The answer of either endpoint. -/
def dtoOne (value : Guid) : SelectContestResponseDTO :=
  ⟨contestToken value, 1, "one", some 5, some "five"⟩

/-- A selection, a request with its token, and a selection at the other endpoint. -/
def selectTwice : List (auths anyPassword).Move :=
  Service.callNow 0 selectOne (calmAuth (uuid 'b')) 10 ++
    Service.callNow 1 (requestWith (contestToken (uuid 'b'))) (calmAuth (uuid 'c')) 6 ++
    Service.callNow 2 (selectOneAgain (contestToken (uuid 'b'))) (calmAuth (uuid 'c')) 7

theorem uncached_annWorld (value : Guid) : Uncached (annWorld value) := fun _ _ => rfl

/-- The first token is accepted, and the second one names the same team. -/
theorem contestTokens_example :
    ∃ log w, Service.Records UsableRun ((auths anyPassword).start (annWorld (uuid 'a'))) log w ∧
      Issued w .authService 0 1 7 (dtoOne (uuid 'b')) ∧
      Issued w .contestController 2 1 7 (dtoOne (uuid 'c')) ∧
      Service.Finished w 1 (requestWith (contestToken (uuid 'b'))) (.ok .handled) ∧
      AcceptsTokens .authService log w ∧ TeamsAgree (annWorld (uuid 'a')).tables 1 7 := by
  have hrun : (Service.runLogged CalmRun []
      ((auths anyPassword).start (annWorld (uuid 'a'))) selectTwice).any
      (fun p => decide (Service.answer p.2 0 =
          some ⟨selectOne, .ok (.selected (dtoOne (uuid 'b')))⟩) &&
        decide (Service.answer p.2 1 =
          some ⟨requestWith (contestToken (uuid 'b')), .ok .handled⟩) &&
        decide (Service.answer p.2 2 =
          some ⟨selectOneAgain (contestToken (uuid 'b')), .ok (.selected (dtoOne (uuid 'c')))⟩)) = true := by
    decide +kernel
  obtain ⟨⟨log, w⟩, hw, hall⟩ := (Option.any_eq_true _ _).mp hrun
  simp only [Bool.and_eq_true, decide_eq_true_iff] at hall
  obtain ⟨⟨hfirst, hrequest⟩, hsecond⟩ := hall
  have husable := usable_of_calm (Service.records_of_runLogged .refl hw)
  have hi₁ : Issued w .authService 0 1 7 (dtoOne (uuid 'b')) :=
    ⟨loginToken (uuid 'a'), Service.finished_of_answer hfirst, rfl⟩
  have hi₂ : Issued w .contestController 2 1 7 (dtoOne (uuid 'c')) :=
    ⟨contestToken (uuid 'b'), Service.finished_of_answer hsecond, rfl⟩
  obtain ⟨haccepts, hteams, -⟩ := contestTokens_of_usable husable (uncached_annWorld _)
  exact ⟨log, w, husable, hi₁, hi₂, Service.finished_of_answer hrequest, haccepts,
    (hteams 0 2 1 7 _ _ hi₁ hi₂).mp rfl⟩

/-- A selection at the endpoint that stores nothing, and a request with its token. -/
def selectAndAsk : List (auths anyPassword).Move :=
  Service.callNow 0 (selectOneAgain (loginToken (uuid 'a'))) (calmAuth (uuid 'b')) 8 ++
    Service.callNow 1 (requestWith (contestToken (uuid 'b'))) (calmAuth (uuid 'c')) 3

/-- **A token that nobody has stored.** `ContestController.SelectContest` answers with a token
for the contest, and the middleware refuses it. -/
theorem not_contestTokens :
    ∃ log w, Service.Records Service.anyLogged
        ((auths anyPassword).start (annWorld (uuid 'a'))) log w ∧
      Issued w .contestController 0 1 7 (dtoOne (uuid 'b')) ∧
      Service.Finished w 1 (requestWith (contestToken (uuid 'b')))
        (.ok (.text 401 "Invalid user token")) ∧
      ¬ContestTokens log w := by
  have hrun : (Service.runLogged Service.anyLogged []
      ((auths anyPassword).start (annWorld (uuid 'a'))) selectAndAsk).any
      (fun p => decide (Service.answer p.2 0 =
          some ⟨selectOneAgain (loginToken (uuid 'a')), .ok (.selected (dtoOne (uuid 'b')))⟩) &&
        decide (Service.answer p.2 1 = some ⟨requestWith (contestToken (uuid 'b')),
          .ok (.text 401 "Invalid user token")⟩) &&
        decide (p.2.shared.tables = annTables (uuid 'a')) &&
        p.1.all (fun n => decide (KeepsTokens 7 n)) &&
        (p.1.take 8).all (fun n => decide (n.pid ≠ 1)) &&
        (p.1.drop 8).all (fun n => decide (n.pid ≠ 0) && !AuthOp.isNext n.op)) = true := by
    decide +kernel
  obtain ⟨⟨log, w⟩, hw, hall⟩ := (Option.any_eq_true _ _).mp hrun
  simp only [Bool.and_eq_true, decide_eq_true_iff, List.all_eq_true, Bool.not_eq_true']
    at hall
  obtain ⟨⟨⟨⟨⟨hselected, hrefused⟩, htables⟩, hkeeps⟩, hbefore⟩, hafter⟩ := hall
  have hi : Issued w .contestController 0 1 7 (dtoOne (uuid 'b')) :=
    ⟨loginToken (uuid 'a'), Service.finished_of_answer hselected, rfl⟩
  have hf := Service.finished_of_answer hrefused
  refine ⟨log, w, Service.records_of_runLogged .refl hw, hi, hf, fun h => ?_⟩
  have heligible : Eligible w.shared.tables 1 7 := by
    rw [htables]
    exact ⟨⟨ann, rfl, rfl, by decide, by decide⟩, by decide, by decide⟩
  have hnolater : NoLater .contestController log 0 7 := fun pre n post hlog _ _ m hm =>
    hkeeps m (by rw [hlog]; simp [hm])
  have hfollows : Follows log 0 1 :=
    follows_of_split (List.take_append_drop 8 log).symm hbefore fun n hn => (hafter n hn).1
  obtain ⟨n, hn, hpid, hop⟩ := h.accepted .contestController 0 1 7 _ hi heligible hnolater 1 _ _
    hf rfl hfollows
  rw [← List.take_append_drop 8 log] at hn
  rcases List.mem_append.mp hn with hn | hn
  · exact hbefore n hn hpid
  · have hnext := (hafter n hn).2
    rw [hop] at hnext
    cases hnext

end Auth

end Fctf
