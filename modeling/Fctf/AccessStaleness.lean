import Fctf.Revocation

/-!
# How Old an Authorisation May Be

A request for a contest is let through on what was read from the tables: by the request itself, or
by the one whose entry it has found in the cache. Such an entry is less than a minute old when it is
found. A request that is turned away was refused on what it has read itself, but for the stored
token, which it may know from the cache.

Both hold in every run that begins with nothing cached, whatever others do to the tables and
whatever gets lost.

## Main results

* `access_vouched`: what stood in the tables when a request was let through.
* `refusal_founded`: what stood in the tables when a request was turned away.
-/

open Concurrent RedisDb

namespace Fctf

namespace Auth

section Staleness

variable {verifyPassword : VerifyPassword}
  {G : List (auths verifyPassword).Entry → (auths verifyPassword).Pool →
    (auths verifyPassword).Move → Prop}
  {s₀ : AuthWorld} {log pre post : List (auths verifyPassword).Entry}
  {w : (auths verifyPassword).Pool} {n : (auths verifyPassword).Entry} {c u : ℤ}

/-- What a call has read from the tables by the time of a log: the user takes part in the contest
with an account in order, on no banned team, and `value` is the stored token. -/
structure InOrder (c u : ℤ) (value : Option String) (pid : ℕ)
    (log : List (auths verifyPassword).Entry) : Prop where
  token : ∃ y ∈ log, y.pid = pid ∧ y.before.tables.tokenValue u = value ∧ value.getD "" ≠ ""
  account : ∃ y ∈ log, y.pid = pid ∧ ∃ info, y.before.tables.userInfo u = some info ∧
    info.verified = some true ∧ info.banned ≠ some true ∧ info.hidden ≠ some true ∧
      info.teamBanned = false
  participant : ∃ y ∈ log, y.pid = pid ∧ y.before.tables.isParticipant c u = true

/-- A call has found, at `y`, an entry that another call had filled less than a minute ago, at
`m`. -/
def FoundFilled (pid : ℕ) (log before : List (auths verifyPassword).Entry)
    (m : (auths verifyPassword).Entry) : Prop :=
  ∃ mid y after, log = before ++ m :: (mid ++ y :: after) ∧ y.pid = pid ∧
    y.before.redis.clock < m.before.redis.clock + 60

/-- **What vouches for a request**: the request has read it itself, or it comes from the call that
has filled the entry. -/
def Vouched (c u : ℤ) (value : Option String) (pid : ℕ)
    (log : List (auths verifyPassword).Entry) : Prop :=
  InOrder c u value pid log ∨
    ∃ before m, FoundFilled pid log before m ∧ InOrder c u value m.pid before

/-! ### Verdicts -/

theorem accountVerdict_eq_none {verified banned hidden : Option Bool} :
    accountVerdict verified banned hidden = none ↔
      verified = some true ∧ banned ≠ some true ∧ hidden ≠ some true := by
  unfold accountVerdict
  split
  · next h => exact iff_of_false (Option.some_ne_none _) fun hall => h hall.1
  · next hverified =>
      split
      · next h => exact iff_of_false (Option.some_ne_none _) fun hall => hall.2.1 h
      · next hbanned =>
          split
          · next h => exact iff_of_false (Option.some_ne_none _) fun hall => hall.2.2 h
          · next hhidden => exact iff_of_true rfl ⟨not_not.mp hverified, hbanned, hhidden⟩

theorem teamVerdict_eq_none {banned : Bool} :
    teamVerdict (some banned) = none ↔ banned = false := by
  cases banned <;> simp [teamVerdict]

theorem tokenVerdict_eq_none_iff {stored claimed : Option String} :
    tokenVerdict stored claimed = none ↔ stored.getD "" ≠ "" ∧ stored = claimed := by
  unfold tokenVerdict
  split
  · next h =>
      refine iff_of_false (Option.some_ne_none _) fun hall => ?_
      exact h.elim hall.1 fun hne => hne hall.2
  · next h => exact iff_of_true rfl ⟨fun he => h (.inl he), not_not.mp fun hne => h (.inr hne)⟩

/-- A call that has passed the checks against the tables has found everything in order. -/
theorem Cleared.inOrder {claims : Claims} {token : Option Token} {info : UserInfo} {pid : ℕ}
    (h : Cleared claims c u token info (Service.past log pid)) :
    InOrder c u claims.tokenUuid pid log := by
  obtain ⟨⟨y, hy, hpid, -, htoken⟩, ⟨z, hz, hzpid, hinfo⟩, hparticipant⟩ := h.found
  obtain ⟨hne, hvalue⟩ := tokenVerdict_eq_none_iff.mp h.token_ok
  refine ⟨⟨y, hy, hpid, ?_, hvalue ▸ hne⟩, ⟨z, hz, hzpid, info, hinfo, ?_⟩, hparticipant⟩
  · rw [AuthTables.tokenValue, htoken]
    exact hvalue
  · obtain ⟨hverified, hbanned, hhidden⟩ := accountVerdict_eq_none.mp h.account_ok
    exact ⟨hverified, hbanned, hhidden, teamVerdict_eq_none.mp h.team_ok⟩

/-- **Access.** Whoever is let through for a contest takes part in it, with an account in order, on
no banned team, and with the stored token: so it stood in the tables when the request has read them,
or when the call did that has filled the entry, less than a minute before it was found. -/
theorem access_vouched (verifyPassword : VerifyPassword) (s₀ : AuthWorld)
    (pre post : List (auths verifyPassword).Entry) (n : (auths verifyPassword).Entry)
    (w : (auths verifyPassword).Pool) (claims : Claims) (c : ℤ) (h₀ : Uncached s₀)
    (h : Service.Records Service.anyLogged ((auths verifyPassword).start s₀) (pre ++ n :: post) w)
    (hop : n.op = .next) (hclaims : n.call.claims = some claims)
    (hc : claims.contestId = some c) (hne : c ≠ 0) :
    ∃ u, claims.nameIdentifier = some u ∧ Vouched c u claims.tokenUuid n.pid pre := by
  have hreason := reasoned h rfl
  rw [hop] at hreason
  obtain ⟨claims', hclaims', hthrough⟩ := hreason
  obtain rfl := Option.some.inj (hclaims.symm.trans hclaims')
  cases hthrough with
  | basic u user token hu hzero =>
      exact absurd (Option.some.inj (hc.symm.trans hzero)) hne
  | database c' u token info hcleared =>
      obtain rfl := Option.some.inj (hc.symm.trans hcleared.contest)
      exact ⟨u, hcleared.user, .inl hcleared.inOrder⟩
  | cached c' u cache hu hc' _ hcache hok =>
      obtain rfl := Option.some.inj (hc.symm.trans hc')
      obtain ⟨a, y, b, slot, before, m, mid, rfl, hpid, rfl, hclock, rfl, hm⟩ :=
        exists_fill_of_told h h₀ rfl hcache
      have hsplit : before ++ m :: mid ++ y :: b ++ n :: post =
          before ++ m :: (mid ++ y :: (b ++ n :: post)) := by simp
      obtain ⟨claims', token, info, -, hcleared, hvalue⟩ := cleared_of_fills h hsplit hm
      -- the two tokens are the stored one
      have hsame : claims'.tokenUuid = claims.tokenUuid := by
        rw [← tokenVerdict_eq_none (tokenVerdict_of_cachedVerdict hok), hvalue, cacheEntry,
          tokenVerdict_eq_none hcleared.token_ok]
      refine ⟨u, hu, .inr ⟨before, m, ⟨mid, y, b, by simp, hpid, hclock⟩, ?_⟩⟩
      exact hsame ▸ hcleared.inOrder

/-- A request, and half a minute later another one with the same token. -/
def askTwice : List (auths anyPassword).Move :=
  Service.callNow 0 contestRequest (calmAuth (uuid 'b')) 6 ++
    .ambient (AuthMove.pass 30) :: Service.callNow 1 contestRequest (calmAuth (uuid 'b')) 2

/-- The second request finds the entry of the first one. -/
theorem access_vouched_example :
    ∃ log w n, Service.Records Service.anyLogged
        ((auths anyPassword).start (annWorld (uuid 'a'))) log w ∧
      log = log.take 7 ++ n :: log.drop 8 ∧ n.pid = 1 ∧ n.op = .next ∧
      ∃ u, (contestToken (uuid 'a')).nameIdentifier = some u ∧
        Vouched 1 u (some (uuid 'a').text) n.pid (log.take 7) := by
  have hrun : (Service.runLogged Service.anyLogged []
      ((auths anyPassword).start (annWorld (uuid 'a'))) askTwice).any
      (fun p => (p.1[7]?).any fun n => decide (n.pid = 1) && AuthOp.isNext n.op &&
        decide (n.call = contestRequest)) = true := by
    decide +kernel
  obtain ⟨⟨log, w⟩, hw, hlast⟩ := (Option.any_eq_true _ _).mp hrun
  obtain ⟨n, hn, hall⟩ := (Option.any_eq_true _ _).mp hlast
  simp only [Bool.and_eq_true, decide_eq_true_iff] at hall
  obtain ⟨⟨hpid, hnext⟩, hcall⟩ := hall
  have hop := AuthOp.eq_next_of_isNext hnext
  have hsplit : log = log.take 7 ++ n :: log.drop 8 := by
    rw [Service.cons_drop hn, List.take_append_drop]
  have hrecords := Service.records_of_runLogged .refl hw
  refine ⟨log, w, n, hrecords, hsplit, hpid, hop, ?_⟩
  exact access_vouched anyPassword (annWorld (uuid 'a')) (log.take 7) (log.drop 8) n w
    (contestToken (uuid 'a')) 1 (fun _ _ => rfl) (hsplit ▸ hrecords) hop (by rw [hcall]; rfl) rfl
    (by decide)

/-! ### Refusals -/

/-- A call that was told an entry has found it. -/
theorem foundFilled_of_told
    (h : Service.Records G ((auths verifyPassword).start s₀) log w) (h₀ : Uncached s₀) {pid : ℕ}
    {cache : AuthInfoCacheDTO}
    (htold : Told (Service.past log pid) (.redis (.get (authKey c u))) (some cache)) :
    ∃ before m rest slot, FoundFilled pid log before m ∧ log = before ++ m :: rest ∧
      slot.value = cache ∧ Fills c u slot m := by
  obtain ⟨y, hy, hpid, -, hreply⟩ := exists_entry_of_told htold
  obtain ⟨a, b, rfl⟩ := List.append_of_mem hy
  obtain ⟨w₁, k, hrun, hshared, -, -⟩ := h.of_append
  obtain ⟨slot, hslot, rfl⟩ := y.before.redis.get_eq_some_iff.mp (AuthOp.get_of_told hreply)
  obtain ⟨before, m, mid, rfl, hm⟩ := filled_of_lookup hrun h₀ (hshared ▸ hslot)
  have hclock := Db.clock_lt_of_lookup _ hslot hm.expireAt
  exact ⟨before, m, mid ++ y :: b, slot, ⟨mid, y, b, by simp, hpid, hclock⟩, by simp, rfl, hm⟩

/-- The stored token was another one when a call has read it. -/
def OtherToken (u : ℤ) (claimed : Option String) (pid : ℕ)
    (log : List (auths verifyPassword).Entry) : Prop :=
  ∃ y ∈ log, y.pid = pid ∧ tokenVerdict (y.before.tables.tokenValue u) claimed ≠ none

/-- **Why a request is turned away**, by what stood in the tables at its own operations; another
token may also have been read by the call that has filled the entry. -/
inductive Founded (claims : Claims) (c u : ℤ) (pid : ℕ)
    (log : List (auths verifyPassword).Entry) : Prop where
  | noUser (h : ∃ y ∈ log, y.pid = pid ∧ y.before.tables.userInfo u = none)
  | otherToken (h : OtherToken u claims.tokenUuid pid log)
  | otherTokenCached (before : List (auths verifyPassword).Entry)
      (m : (auths verifyPassword).Entry) (hm : FoundFilled pid log before m)
      (h : OtherToken u claims.tokenUuid m.pid before)
  | noParticipant (h : ∃ y ∈ log, y.pid = pid ∧ y.before.tables.isParticipant c u = false)
  | account (h : ∃ y ∈ log, y.pid = pid ∧ ∃ info, y.before.tables.userInfo u = some info ∧
      ¬(info.verified = some true ∧ info.banned ≠ some true ∧ info.hidden ≠ some true ∧
        info.teamBanned = false))
  | failed (h : ∃ y ∈ log, y.pid = pid ∧ ∃ e, y.reply = .error e)

/-- An entry that a request does not pass has another token. -/
theorem otherToken_of_cachedVerdict {claims claims' : Claims} {token : Option Token}
    {info : UserInfo} (hcleared : Cleared claims' c u token info (Service.past log n.pid))
    (hfails : cachedVerdict claims c (cacheEntry c (token.bind (·.value)) info) ≠ none) :
    OtherToken u claims.tokenUuid n.pid log := by
  obtain ⟨y, hy, hpid, -, htoken⟩ := hcleared.found.1
  refine ⟨y, hy, hpid, fun hok => hfails ?_⟩
  rw [AuthTables.tokenValue, htoken] at hok
  simp only [cachedVerdict, cacheEntry, hok, ne_eq, not_true_eq_false, if_false,
    hcleared.account_ok, hcleared.team_ok]

/-- **Refusals.** A request for a contest that is turned away is turned away for what it has read
itself, or for a token that another call has read less than a minute before. -/
theorem refusal_founded (verifyPassword : VerifyPassword) (s₀ : AuthWorld)
    (log : List (auths verifyPassword).Entry) (w : (auths verifyPassword).Pool)
    (pid : ℕ) (call : AuthCall) (r : Except Exn Response) (claims : Claims) (u t c : ℤ)
    (h₀ : Uncached s₀)
    (h : Service.Records Service.anyLogged ((auths verifyPassword).start s₀) log w)
    (hf : Service.Finished w pid call r) (hclaims : call.claims = some claims)
    (hu : claims.nameIdentifier = some u) (ht : claims.teamId = some t)
    (hc : claims.contestId = some c) (hpos : 0 < c)
    (hnot : ∀ n ∈ log, n.pid = pid → n.op ≠ .next) : Founded claims c u pid log := by
  rcases (answered_of_finished h hf).1 claims hclaims with ⟨x, hx, hnext⟩ | haway
  · obtain ⟨n, hn, hpid, rfl⟩ := Service.mem_past hx
    exact absurd hnext (hnot n hn hpid)
  · cases haway with
    | malformed hnone =>
        rw [hu, ht, hc] at hnone
        rcases hnone with hnone | hnone | hnone <;> cases hnone
    | contest c' hc' _ hle =>
        obtain rfl := Option.some.inj (hc.symm.trans hc')
        exact absurd hpos (Int.not_lt.mpr hle)
    | basic hzero =>
        obtain rfl := Option.some.inj (hc.symm.trans hzero)
        exact absurd hpos (lt_irrefl 0)
    | cached c' u' cache hu' hc' hcache hfails =>
        obtain rfl := Option.some.inj (hc.symm.trans hc')
        obtain rfl := Option.some.inj (hu.symm.trans hu')
        obtain ⟨before, m, rest, slot, hfound, hsplit, rfl, hm⟩ := foundFilled_of_told h h₀ hcache
        obtain ⟨claims', token, info, -, hcleared, hvalue⟩ := cleared_of_fills h hsplit hm
        rw [hvalue] at hfails
        exact .otherTokenCached before m hfound (otherToken_of_cachedVerdict hcleared hfails)
    | user u' hu' htold =>
        obtain rfl := Option.some.inj (hu.symm.trans hu')
        obtain ⟨y, hy, hpid, -, hreply⟩ := exists_entry_of_told htold
        exact .noUser ⟨y, hy, hpid, (AuthEnv.eq_of_read hreply).symm⟩
    | token u' token hu' htold hfails =>
        obtain rfl := Option.some.inj (hu.symm.trans hu')
        obtain ⟨y, hy, hpid, -, hreply⟩ := exists_entry_of_told htold
        refine .otherToken ⟨y, hy, hpid, ?_⟩
        rwa [AuthTables.tokenValue, ← AuthEnv.eq_of_read hreply]
    | participant c' u' hu' hc' htold =>
        obtain rfl := Option.some.inj (hc.symm.trans hc')
        obtain rfl := Option.some.inj (hu.symm.trans hu')
        obtain ⟨y, hy, hpid, -, hreply⟩ := exists_entry_of_told htold
        exact .noParticipant ⟨y, hy, hpid, (AuthEnv.eq_of_read hreply).symm⟩
    | account u' info hu' htold hfails =>
        obtain rfl := Option.some.inj (hu.symm.trans hu')
        obtain ⟨y, hy, hpid, -, hreply⟩ := exists_entry_of_told htold
        refine .account ⟨y, hy, hpid, info, (AuthEnv.eq_of_read hreply).symm, ?_⟩
        rintro ⟨hverified, hbanned, hhidden, hteam⟩
        rcases hfails with hfails | hfails
        · exact hfails (accountVerdict_eq_none.mpr ⟨hverified, hbanned, hhidden⟩)
        · exact hfails (teamVerdict_eq_none.mpr hteam)
    | failed u' c' o e htold _ =>
        obtain ⟨⟨pid', call', env, op, s⟩, hy, hpid, hevent⟩ := Service.mem_past htold
        simp only [Service.Entry.event, Event.mk.injEq] at hevent
        obtain ⟨rfl, hreply⟩ := hevent
        exact .failed ⟨_, hy, hpid, e, eq_of_heq hreply⟩

/-- A request, and one that claims a token which is not stored. -/
def askWithOther : List (auths anyPassword).Move :=
  Service.callNow 0 contestRequest (calmAuth (uuid 'b')) 6 ++
    Service.callNow 1 (AuthCall.request (contestToken (uuid 'b')) "/api/challenge")
      (calmAuth (uuid 'b')) 1

/-- The second request is refused by the entry of the first one. -/
theorem refusal_founded_example :
    ∃ log w, Service.Records Service.anyLogged
        ((auths anyPassword).start (annWorld (uuid 'a'))) log w ∧
      Founded (contestToken (uuid 'b')) 1 7 1 log := by
  have hrun : (Service.runLogged Service.anyLogged []
      ((auths anyPassword).start (annWorld (uuid 'a'))) askWithOther).any
      (fun p => decide (Service.answer p.2 1 =
          some ⟨AuthCall.request (contestToken (uuid 'b')) "/api/challenge",
            .ok (.text 401 "Invalid user token")⟩) &&
        p.1.all fun n => decide (n.pid = 1) → AuthOp.isNext n.op = false) = true := by
    decide +kernel
  obtain ⟨⟨log, w⟩, hw, hall⟩ := (Option.any_eq_true _ _).mp hrun
  simp only [Bool.and_eq_true, decide_eq_true_iff, List.all_eq_true] at hall
  obtain ⟨hanswer, hnot⟩ := hall
  have hrecords := Service.records_of_runLogged .refl hw
  refine ⟨log, w, hrecords, refusal_founded anyPassword (annWorld (uuid 'a')) log w 1 _ _
    (contestToken (uuid 'b')) 7 5 1 (fun _ _ => rfl) hrecords
    (Service.finished_of_answer hanswer) rfl rfl rfl rfl (by decide) fun n hn hpid hop => ?_⟩
  have hno := hnot n hn hpid
  rw [hop] at hno
  cases hno

end Staleness

end Auth

end Fctf
