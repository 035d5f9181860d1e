import Fctf.CacheFills

/-!
# Withdrawn Tokens

A new login or selection replaces the stored token of a user and a logout removes it, and
from then on no request should be let through with an older one. The stored token decides
that only for a request that asks the database; for a minute the middleware believes what
it has cached per contest, and no operation removes all that is cached for a user: a logout
removes a key that nobody writes, a selection the entry of its own contest, after it has
stored the token, and a login none. Besides, a request that has read the old token may
cache it later.

## Main results

* `TokenTable.step`: a user keeps at most one token row, if rows are added only for users
  without one.
* `revocationInv`: what holds in a run in which nothing is cached of a user whose token
  changes, and only stored tokens are cached.
* `revocation_of_fresh`: in such a run an older token is refused.
* `not_revocation`: it is accepted right after a logout.
-/

open Concurrent RedisDb

namespace Fctf

namespace Auth

/-! ### The token rows -/

/-- Token rows that a run has written: with ids of their own, and one for a user. -/
structure TokenTable (s : AuthWorld) : Prop where
  /-- A user has one row at most. -/
  single : ∀ u, (s.tables.userTokens u).length ≤ 1
  /-- No two rows have the same id. -/
  ids : (s.tables.tokens.map (·.id)).Nodup
  /-- The next id is free. -/
  free : ∀ t ∈ s.tables.tokens, t.id < s.nextTokenId

theorem TokenTable.unique {s : AuthWorld} (h : TokenTable s) {t r : Token}
    (ht : t ∈ s.tables.tokens) (hr : r ∈ s.tables.tokens) (hid : t.id = r.id) : t = r :=
  List.inj_on_of_nodup_map h.ids ht hr hid

theorem TokenTable.only {s : AuthWorld} (h : TokenTable s) {u : ℤ} {t r : Token}
    (ht : t ∈ s.tables.userTokens u) (hr : r ∈ s.tables.userTokens u) : t = r := by
  obtain ⟨i, hi, rfl⟩ := List.getElem_of_mem ht
  obtain ⟨j, hj, rfl⟩ := List.getElem_of_mem hr
  have hone := h.single u
  obtain rfl : i = 0 := by omega
  obtain rfl : j = 0 := by omega
  rfl

/-- What a write does to the ids and the owners. -/
theorem TokenTable.step {s : AuthWorld} (h : TokenTable s) (e : AuthEnv) (o : AuthOp)
    (hinsert : ∀ u value, o = .insertToken u value → s.tables.userTokens u = []) :
    TokenTable (o.exec e s).2 ∧ s.nextTokenId ≤ (o.exec e s).2.nextTokenId ∧
      ∀ t ∈ (o.exec e s).2.tables.tokens,
        (∃ r ∈ s.tables.tokens, t.id = r.id ∧ t.userId = r.userId ∧ t.type = r.type) ∨
          s.nextTokenId ≤ t.id := by
  obtain hs | ⟨r, -, hs⟩ | ⟨id, value, -, hs⟩ | ⟨u, value, ho, hs⟩ | ⟨rows, -, hs⟩ :=
    o.exec_cases e s
  · rw [hs]
    exact ⟨h, le_refl _, fun t ht => .inl ⟨t, ht, rfl, rfl, rfl⟩⟩
  · rw [hs]
    exact ⟨⟨h.single, h.ids, h.free⟩, le_refl _, fun t ht => .inl ⟨t, ht, rfl, rfl, rfl⟩⟩
  · -- a new value leaves ids and owners
    rw [hs]
    have hid : ∀ t : Token,
        (if t.id = id then { t with value := some value } else t).id = t.id := by
      intro t
      split <;> rfl
    refine ⟨⟨fun u => ?_, ?_, ?_⟩, le_refl _, ?_⟩
    · rw [AuthTables.userTokens_setValue, List.length_map]
      exact h.single u
    · simp only [AuthTables.setValue, List.map_map, Function.comp_def, hid]
      exact h.ids
    · intro t ht
      obtain ⟨r, hr, rfl⟩ := List.mem_map.mp ht
      rw [hid]
      exact h.free r hr
    · intro t ht
      obtain ⟨r, hr, rfl⟩ := List.mem_map.mp ht
      refine .inl ⟨r, hr, hid r, ?_⟩
      split <;> exact ⟨rfl, rfl⟩
  · -- a new row has a new id, and is the only one of its user
    rw [hs]
    refine ⟨⟨fun u' => ?_, ?_, ?_⟩, by simp, ?_⟩
    · rw [AuthTables.userTokens_addToken, List.length_append]
      by_cases hu : u = u'
      · subst hu
        rw [hinsert u value ho]
        simp
      · simpa [hu] using h.single u'
    · simp only [AuthTables.addToken, List.map_append, List.map_cons, List.map_nil]
      refine List.nodup_append.mpr ⟨h.ids, List.nodup_singleton _, fun i hi j hj => ?_⟩
      obtain ⟨t, ht, rfl⟩ := List.mem_map.mp hi
      rw [List.mem_singleton.mp hj]
      exact ne_of_lt (h.free t ht)
    · intro t ht
      rcases List.mem_append.mp ht with ht | ht
      · exact lt_trans (h.free t ht) (lt_add_one _)
      · rw [List.mem_singleton.mp ht]
        exact lt_add_one _
    · intro t ht
      rcases List.mem_append.mp ht with ht | ht
      · exact .inl ⟨t, ht, rfl, rfl, rfl⟩
      · rw [List.mem_singleton.mp ht]
        exact .inr (le_refl _)
  · -- fewer rows
    rw [hs]
    have hsub : ∀ t ∈ (s.tables.removeTokens rows).tokens, t ∈ s.tables.tokens :=
      fun t ht => List.mem_of_mem_filter ht
    refine ⟨⟨fun u => ?_, ?_, fun t ht => h.free t (hsub t ht)⟩, le_refl _,
      fun t ht => .inl ⟨t, hsub t ht, rfl, rfl, rfl⟩⟩
    · rw [AuthTables.userTokens_removeTokens]
      exact (List.length_filter_le _ _).trans (h.single u)
    · exact h.ids.sublist (List.filter_sublist.map _)

/-! ### Withdrawals and admissions -/

section Revocation

variable {verifyPassword : VerifyPassword}

/-- The operation puts a token of the user into the table. -/
def Stores (u : ℤ) (value : String) (n : (auths verifyPassword).Entry) : Prop :=
  (∃ t ∈ n.after.tables.userTokens u, t.value = some value) ∧
    ∀ t ∈ n.before.tables.userTokens u, t.value ≠ some value

instance (u : ℤ) (value : String) (n : (auths verifyPassword).Entry) :
    Decidable (Stores u value n) :=
  inferInstanceAs (Decidable (_ ∧ _))

/-- After the operation no token of the user is stored. -/
def Withdraws (u : ℤ) (n : (auths verifyPassword).Entry) : Prop :=
  n.after.tables.userTokens u = []

instance (u : ℤ) (n : (auths verifyPassword).Entry) : Decidable (Withdraws u n) :=
  inferInstanceAs (Decidable (_ = _))

/-- No operation of the log has stored the token: it is older than all of them. -/
def Older (u : ℤ) (value : String) (log : List (auths verifyPassword).Entry) : Prop :=
  ∀ n ∈ log, ¬Stores u value n

instance (u : ℤ) (value : String) (log : List (auths verifyPassword).Entry) :
    Decidable (Older u value log) :=
  inferInstanceAs (Decidable (∀ _ ∈ _, _))

/-- The middleware lets a request of the user through that carries the token. -/
def LetsIn (u : ℤ) (value : String) (n : (auths verifyPassword).Entry) : Prop :=
  n.op = .next ∧ ∃ claims, n.call.claims = some claims ∧ claims.nameIdentifier = some u ∧
    claims.tokenUuid = some value

/-- **Withdrawn tokens are refused.** -/
structure Revocation (log : List (auths verifyPassword).Entry) (w : (auths verifyPassword).Pool) :
    Prop where
  /-- A logout that succeeds has an operation after which nothing is stored for its user. -/
  logout : ∀ pid claims u message,
    Service.Finished w pid (.logout claims) (.ok (.text 200 message)) →
      claims.nameIdentifier = some u → ∃ n ∈ log, n.pid = pid ∧ Withdraws u n
  /-- After such an operation, or one that stores a newer token, no request is let through
  that begins later and carries an older token. -/
  older : ∀ u value pre n post, log = pre ++ n :: post →
    (Withdraws u n ∨ ∃ newer, Stores u newer n) → Older u value (n :: post) →
      ∀ x ∈ post, (∀ m ∈ pre ++ [n], m.pid ≠ x.pid) → ¬LetsIn u value x

/-- A step that leaves no token in the cache that is not stored. -/
structure FreshStep (e : AuthEnv) (o : AuthOp) (s : AuthWorld) : Prop where
  /-- Nothing is cached of a user whose stored token changes. -/
  changed : ∀ u, (o.exec e s).2.tables.userTokens u ≠ s.tables.userTokens u →
    ∀ c, s.redis.get (authKey c u) = none
  /-- What is cached is still stored. -/
  filled : ∀ c u cache ttl, o = .redis (.set (authKey c u) cache ttl) → e.fault ≠ .before →
    cache.tokenValueFromDb = s.tables.tokenValue u
  /-- A row is added only for a user without one. -/
  inserted : ∀ u value, o = .insertToken u value → s.tables.userTokens u = []

/-- A run of such steps, in which nobody else changes the tokens. -/
def StaysFresh (_ : List (auths verifyPassword).Entry) :
    (auths verifyPassword).Pool → (auths verifyPassword).Move → Prop :=
  Service.Admits (fun _ e o s => FreshStep e o s) fun x s =>
    (x.apply s).tables.tokens = s.tables.tokens

/-- Where such a run begins: nothing is cached. -/
structure Unauthenticated (s : AuthWorld) : Prop where
  /-- The token rows are in order. -/
  table : TokenTable s
  /-- Nothing is cached. -/
  uncached : ∀ c u, s.redis.get (authKey c u) = none

/-! ### What such a run keeps -/

/-- What holds in a run of fresh steps. -/
structure RevocationInv (log : List (auths verifyPassword).Entry) (s : AuthWorld) : Prop where
  /-- The token rows are in order. -/
  table : TokenTable s
  /-- A row keeps its id, and an id its owner. -/
  owners : ∀ n ∈ log, ∀ r ∈ n.before.tables.tokens, r.id < s.nextTokenId ∧
    ∀ t ∈ s.tables.tokens, t.id = r.id → t.userId = r.userId ∧ t.type = r.type
  /-- What is cached is stored. -/
  cached : ∀ c u cache, s.redis.get (authKey c u) = some cache →
    cache.tokenValueFromDb = s.tables.tokenValue u
  /-- What is stored was stored since the last withdrawal. -/
  since : ∀ pre n post u value, log = pre ++ n :: post →
    (Withdraws u n ∨ ∃ newer, Stores u newer n) → s.tables.tokenValue u = some value →
      ∃ m ∈ n :: post, Stores u value m

section Step

variable {log : List (auths verifyPassword).Entry} {s : AuthWorld}
  {n : (auths verifyPassword).Entry}

/-- Each operation keeps the account of what was stored since a withdrawal. -/
theorem RevocationInv.since_step (h : RevocationInv log n.before) (hafter : TokenTable n.after) :
    ∀ pre m post u value, log ++ [n] = pre ++ m :: post →
      (Withdraws u m ∨ ∃ newer, Stores u newer m) → n.after.tables.tokenValue u = some value →
        ∃ m' ∈ m :: post, Stores u value m' := by
  intro pre m post u value hlog hm hvalue
  obtain ⟨t, ht, htvalue⟩ := AuthTables.exists_of_tokenValue hvalue
  by_cases hold : ∃ r ∈ n.before.tables.userTokens u, r.value = some value
  · -- the value was there before
    obtain ⟨r, hr, hrvalue⟩ := hold
    have hbefore := AuthTables.tokenValue_of_mem (h.table.single u) hr hrvalue
    obtain ⟨rfl, rfl, rfl⟩ | ⟨post', rfl, rfl⟩ := Service.append_singleton_split hlog
    · exfalso
      rcases hm with hnone | ⟨newer, ⟨t', ht', hnewer⟩, hnew⟩
      · rw [show n.after.tables.userTokens u = [] from hnone] at ht
        exact List.not_mem_nil ht
      · have := AuthTables.tokenValue_of_mem (hafter.single u) ht' hnewer
        obtain rfl := Option.some.inj (hvalue.symm.trans this)
        exact hnew r hr hrvalue
    · obtain ⟨m', hm', hstores⟩ := h.since pre m post' u value rfl hm hbefore
      exact ⟨m', List.mem_append_left [n] hm', hstores⟩
  · -- this operation has put it there
    have hstores : Stores u value n :=
      ⟨⟨t, ht, htvalue⟩, fun r hr hrvalue => hold ⟨r, hr, hrvalue⟩⟩
    have hmem : n ∈ m :: post := by
      obtain ⟨rfl, rfl, rfl⟩ | ⟨post', -, rfl⟩ := Service.append_singleton_split hlog
      · exact List.mem_singleton.mpr rfl
      · exact List.mem_append_right (m :: post') (List.mem_singleton.mpr rfl)
    exact ⟨n, hmem, hstores⟩

theorem RevocationInv.step {call : AuthCall} {l : AuthHistory} (h : RevocationInv log n.before)
    (hreason : Reason call l n.op) (hfresh : FreshStep n.env n.op n.before) :
    RevocationInv (log ++ [n]) n.after := by
  obtain ⟨htable, hnext, hrows⟩ := h.table.step n.env n.op hfresh.inserted
  refine ⟨htable, ?_, ?_, h.since_step htable⟩
  · intro m hm r hr
    have hm' : r.id < n.before.nextTokenId ∧ ∀ t ∈ n.before.tables.tokens, t.id = r.id →
        t.userId = r.userId ∧ t.type = r.type := by
      rcases List.mem_append.mp hm with hm | hm
      · exact h.owners m hm r hr
      · obtain rfl := List.mem_singleton.mp hm
        refine ⟨h.table.free r hr, fun t ht hid => ?_⟩
        obtain rfl := h.table.unique ht hr hid
        exact ⟨rfl, rfl⟩
    refine ⟨lt_of_lt_of_le hm'.1 hnext, fun t ht hid => ?_⟩
    rcases hrows t ht with ⟨r', hr', hid', huser, htype⟩ | hnew
    · rw [huser, htype]
      exact hm'.2 r' hr' (hid'.symm.trans hid)
    · exact absurd (hid ▸ hnew) (not_le.mpr hm'.1)
  · intro c u cache hcache
    rcases AuthOp.get_of_exec hreason hcache with hcache | ⟨hf, ttl, hop⟩
    · by_cases hsame : n.after.tables.userTokens u = n.before.tables.userTokens u
      · rw [AuthTables.tokenValue_congr hsame]
        exact h.cached c u cache hcache
      · rw [hfresh.changed u hsame c] at hcache
        cases hcache
    · have htables : n.after.tables = n.before.tables := by
        rw [Service.Entry.after, hop]
        rfl
      rw [htables]
      exact hfresh.filled c u cache ttl hop hf

/-- Nobody else touches the tokens. -/
theorem RevocationInv.ambient (h : RevocationInv log s) {x : AuthMove}
    (hx : (x.apply s).tables.tokens = s.tables.tokens) : RevocationInv log (x.apply s) := by
  have hnext : (x.apply s).nextTokenId = s.nextTokenId := by cases x <;> rfl
  have hrows : ∀ u, (x.apply s).tables.userTokens u = s.tables.userTokens u := fun u => by
    rw [AuthTables.userTokens, hx, AuthTables.userTokens]
  refine ⟨⟨fun u => hrows u ▸ h.table.single u, hx ▸ h.table.ids, ?_⟩, ?_, ?_, ?_⟩
  · rw [hx, hnext]
    exact h.table.free
  · rw [hx, hnext]
    exact h.owners
  · intro c u cache hcache
    rw [AuthTables.tokenValue_congr (hrows u)]
    cases x with
    | pass d => exact h.cached c u cache (Db.get_of_tick _ hcache)
    | edit f => exact h.cached c u cache hcache
  · intro pre n post u value hlog hn hvalue
    rw [AuthTables.tokenValue_congr (hrows u)] at hvalue
    exact h.since pre n post u value hlog hn hvalue

end Step

section Runs

variable {s₀ : AuthWorld} {log : List (auths verifyPassword).Entry}
  {w : (auths verifyPassword).Pool}

/-- **What a run of fresh steps keeps.** -/
theorem revocationInv (h : Service.Records StaysFresh ((auths verifyPassword).start s₀) log w)
    (h₀ : Unauthenticated s₀) : RevocationInv log w.shared := by
  induction h with
  | refl =>
      refine ⟨h₀.table, fun n hn => absurd hn List.not_mem_nil, fun c u cache hcache => ?_,
        fun pre n post u value hlog => absurd hlog (by simp)⟩
      exact absurd ((h₀.uncached c u).symm.trans hcache) (Option.some_ne_none cache).symm
  | spawn _ _ ih => exact ih
  | @act log w pid e c o k hrun hp hg ih =>
      have hreason := reasoned_last (hrun.act hp hg)
      exact RevocationInv.step (n := ⟨pid, c, e, o, w.shared⟩) ih hreason (hg.of_pending hp)
  | ambient _ hg ih => exact ih.ambient hg

/-- A request that is let through has found its token stored, at one of its operations. -/
theorem stored_of_letsIn (h : Service.Records StaysFresh ((auths verifyPassword).start s₀) log w)
    (h₀ : Unauthenticated s₀) {pre post : List (auths verifyPassword).Entry}
    {x : (auths verifyPassword).Entry} {u : ℤ} {value : String} (hlog : log = pre ++ x :: post)
    (hx : LetsIn u value x) :
    ∃ y ∈ pre, y.pid = x.pid ∧ y.before.tables.tokenValue u = some value := by
  obtain ⟨hop, claims, hclaims, huser, hvalue⟩ := hx
  have hreason := reasoned h hlog
  rw [hop] at hreason
  obtain ⟨claims', hclaims', hthrough⟩ := hreason
  obtain rfl := Option.some.inj (hclaims.symm.trans hclaims')
  have htable : ∀ {token : Option Token}, Told (Service.past pre x.pid) (.findToken u) token →
      tokenVerdict (token.bind (·.value)) claims.tokenUuid = none →
        ∃ y ∈ pre, y.pid = x.pid ∧ y.before.tables.tokenValue u = some value := by
    intro token htold hverdict
    obtain ⟨y, hy, hpid, -, hreply⟩ := exists_entry_of_told htold
    refine ⟨y, hy, hpid, ?_⟩
    rw [AuthTables.tokenValue, ← AuthEnv.eq_of_read hreply, tokenVerdict_eq_none hverdict,
      hvalue]
  cases hthrough with
  | basic u' user token hu' hc huser' htoken htok hacc =>
      obtain rfl := Option.some.inj (huser.symm.trans hu')
      exact htable htoken htok
  | database c u' token info hcleared =>
      obtain rfl := Option.some.inj (huser.symm.trans hcleared.user)
      exact htable hcleared.token_told hcleared.token_ok
  | cached c u' cache hu' hc hne htold hverdict =>
      obtain rfl := Option.some.inj (huser.symm.trans hu')
      obtain ⟨y, hy, hpid, -, hreply⟩ := exists_entry_of_told htold
      refine ⟨y, hy, hpid, ?_⟩
      obtain ⟨a, b, hpre⟩ := List.append_of_mem hy
      have hrun : Service.Records StaysFresh ((auths verifyPassword).start s₀)
          (a ++ y :: (b ++ x :: post)) w := by
        have : log = a ++ y :: (b ++ x :: post) := by rw [hlog, hpre]; simp
        exact this ▸ h
      obtain ⟨w₁, k, hrun₁, hshared, -, -⟩ := hrun.of_append
      have hcached := (revocationInv hrun₁ h₀).cached c u cache
        (hshared ▸ AuthOp.get_of_told hreply)
      rw [hshared] at hcached
      rw [← hcached, tokenVerdict_eq_none (tokenVerdict_of_cachedVerdict hverdict), hvalue]

/-- Removed rows were there. -/
theorem removed_of_ok {e : AuthEnv} {s : AuthWorld} {rows : List Token}
    (h : ((AuthOp.removeTokens rows).exec e s).1 = .ok ()) :
    (∀ r ∈ rows, ∃ t ∈ s.tables.tokens, t.id = r.id) ∧
      ((AuthOp.removeTokens rows).exec e s).2.tables = s.tables.removeTokens rows := by
  cases hf : e.fault <;>
    simp only [AuthOp.exec, hf, Fault.apply, AuthWorld.removeTokens] at h ⊢
  · split at h
    · next hall =>
        rw [if_pos hall]
        refine ⟨fun r hr => ?_, rfl⟩
        obtain ⟨t, ht, hid⟩ := List.any_eq_true.mp (List.all_eq_true.mp hall r hr)
        exact ⟨t, ht, of_decide_eq_true hid⟩
    · cases h
  · cases h
  · cases h

/-- A logout that succeeds leaves nothing stored at one of its operations. -/
theorem withdraws_of_logout
    (h : Service.Records StaysFresh ((auths verifyPassword).start s₀) log w)
    (h₀ : Unauthenticated s₀) {pid : ℕ} {claims : Claims} {u : ℤ} {message : String}
    (hf : Service.Finished w pid (.logout claims) (.ok (.text 200 message)))
    (hu : claims.nameIdentifier = some u) : ∃ n ∈ log, n.pid = pid ∧ Withdraws u n := by
  have hdone : LoggedOut claims (Service.past log pid) := (answered_of_finished h hf).2
  obtain ⟨u', rows, hu', htold, hremoved⟩ := hdone
  obtain rfl := Option.some.inj (hu.symm.trans hu')
  obtain ⟨n, hn, hpid, hop, hreply⟩ := exists_entry_of_told htold
  rcases hremoved with rfl | hremoved
  · -- there was nothing to remove
    refine ⟨n, hn, hpid, ?_⟩
    have hrows : [] = n.before.tables.userTokens u := AuthEnv.eq_of_read hreply
    have hafter : n.after = n.before := by
      rw [Service.Entry.after, hop]
      exact AuthEnv.read_snd _
    rw [Withdraws, hafter, ← hrows]
  · -- the only row of the user is one of those removed
    obtain ⟨m, hm, hmpid, hmop, hmreply⟩ := exists_entry_of_told hremoved
    refine ⟨m, hm, hmpid, ?_⟩
    obtain ⟨pre, post, rfl⟩ := List.append_of_mem hm
    have hcall : m.call = .logout claims := by
      obtain ⟨p, hp⟩ := h.exists_of_mem m hm
      rw [hmpid] at hp
      exact (Prod.mk.inj (Option.some.inj (hp.symm.trans hf))).1
    have hreason := reasoned h rfl
    rw [hmop] at hreason
    obtain ⟨claims', u', hcall', hu'', htold', hne⟩ := hreason
    obtain rfl := AuthCall.logout.inj (hcall.symm.trans hcall')
    obtain rfl := Option.some.inj (hu.symm.trans hu'')
    obtain ⟨n', hn', -, -, hreply'⟩ := exists_entry_of_told htold'
    have hrows : rows = n'.before.tables.userTokens u := AuthEnv.eq_of_read hreply'
    obtain ⟨w₁, k, hrun, hshared, -, -⟩ := h.of_append
    have hinv := hshared ▸ revocationInv hrun h₀
    obtain ⟨hthere, htables⟩ := removed_of_ok hmreply
    obtain ⟨r, hr⟩ := List.exists_mem_of_ne_nil rows hne
    obtain ⟨t, ht, hid⟩ := hthere r hr
    have hr' := List.mem_filter.mp (hrows ▸ hr)
    obtain ⟨huser, htype⟩ := (hinv.owners n' hn' r hr'.1).2 t ht hid
    have htu : t ∈ m.before.tables.userTokens u := by
      refine List.mem_filter.mpr ⟨ht, ?_⟩
      rw [AuthTables.isUserToken, huser, htype]
      exact hr'.2
    have hafter : m.after.tables = m.before.tables.removeTokens rows := by
      rw [Service.Entry.after, hmop]
      exact htables
    rw [Withdraws, hafter, AuthTables.userTokens_removeTokens, List.filter_eq_nil_iff]
    intro t' ht'
    obtain rfl := hinv.table.only ht' htu
    simp only [decide_not, Bool.not_eq_true', decide_eq_false_iff_not, not_not, hid]
    exact List.mem_map_of_mem hr

/-- **In a run that leaves no withdrawn token in the cache, withdrawn tokens are refused.** -/
theorem revocation_of_fresh
    (h : Service.Records StaysFresh ((auths verifyPassword).start s₀) log w)
    (h₀ : Unauthenticated s₀) : Revocation log w := by
  refine ⟨fun pid claims u message hf hu => withdraws_of_logout h h₀ hf hu, ?_⟩
  intro u value pre n post hlog hn holder x hx hlater hin
  obtain ⟨a, b, rfl⟩ := List.append_of_mem hx
  have hsplit : log = (pre ++ n :: a) ++ x :: b := by rw [hlog]; simp
  obtain ⟨y, hy, hpid, hvalue⟩ := stored_of_letsIn h h₀ hsplit hin
  -- the request has found its token after the withdrawal
  have hya : y ∈ a := by
    rcases List.mem_append.mp hy with hy | hy
    · exact absurd hpid (hlater y (List.mem_append_left _ hy))
    · rcases List.mem_cons.mp hy with rfl | hy
      · exact absurd hpid (hlater y (List.mem_append_right _ (List.mem_singleton.mpr rfl)))
      · exact hy
  obtain ⟨a₁, a₂, rfl⟩ := List.append_of_mem hya
  have hrun : Service.Records StaysFresh ((auths verifyPassword).start s₀)
      ((pre ++ n :: a₁) ++ y :: (a₂ ++ x :: b)) w := by
    have : log = (pre ++ n :: a₁) ++ y :: (a₂ ++ x :: b) := by rw [hsplit]; simp
    exact this ▸ h
  obtain ⟨w₁, k, hrun₁, hshared, -, -⟩ := hrun.of_append
  obtain ⟨m, hm, hstores⟩ :=
    (revocationInv hrun₁ h₀).since pre n a₁ u value rfl hn (hshared ▸ hvalue)
  refine holder m ?_ hstores
  rcases List.mem_cons.mp hm with rfl | hm
  · exact List.mem_cons_self
  · exact List.mem_cons_of_mem n (by simp [hm])

end Runs

/-! ### A logout with nothing cached, and one with a cached entry -/

/-- The operation caches nothing, and adds a row only for a user without one. -/
def CachesNothing (s : AuthWorld) : AuthOp → Prop
  | .redis (.set _ _ _) => False
  | .insertToken u _ => s.tables.userTokens u = []
  | _ => True

instance (s : AuthWorld) (o : AuthOp) : Decidable (CachesNothing s o) := by
  unfold CachesNothing
  split <;> infer_instance

/-- A run in which nothing is cached, and nobody else acts on the tables. -/
def NeverCaches (_ : List (auths verifyPassword).Entry) :
    (auths verifyPassword).Pool → (auths verifyPassword).Move → Prop :=
  Service.Admits (fun _ _ o s => CachesNothing s o) fun _ _ => False

instance (log : List (auths verifyPassword).Entry) (w : (auths verifyPassword).Pool)
    (m : (auths verifyPassword).Move) : Decidable (NeverCaches log w m) :=
  Service.Admits.decidable (fun _ _ _ _ => inferInstance) (fun _ _ => inferInstance) w m

/-- If nothing is cached, every token is fresh. -/
theorem staysFresh_of_neverCaches {s₀ : AuthWorld} {log : List (auths verifyPassword).Entry}
    {w : (auths verifyPassword).Pool} (h₀ : Unauthenticated s₀)
    (h : Service.Records NeverCaches ((auths verifyPassword).start s₀) log w) :
    Service.Records StaysFresh ((auths verifyPassword).start s₀) log w ∧
      ∀ c u, w.shared.redis.get (authKey c u) = none := by
  induction h with
  | refl => exact ⟨.refl, h₀.uncached⟩
  | spawn _ _ ih => exact ⟨ih.1.spawn trivial, ih.2⟩
  | @act log w pid e c o k hrun hp hg ih =>
      have hcalm : CachesNothing w.shared o := hg.of_pending hp
      have hfresh : FreshStep e o w.shared := by
        refine ⟨fun u _ c => ih.2 c u, ?_, ?_⟩
        · rintro c u cache ttl rfl -
          exact hcalm.elim
        · rintro u value rfl
          exact hcalm
      have hact := ih.1.act hp (e := e) (.act hp hfresh)
      refine ⟨hact, fun c' u => ?_⟩
      have hreason := reasoned_last hact
      by_contra hsome
      obtain ⟨cache, hcache⟩ := Option.ne_none_iff_exists'.mp hsome
      rcases AuthOp.get_of_exec hreason hcache with hcache | ⟨-, ttl, rfl⟩
      · exact absurd ((ih.2 c' u).symm.trans hcache) (Option.some_ne_none cache).symm
      · exact hcalm
  | ambient _ hg ih => exact hg.elim

end Revocation

/-- A uuid. -/
def uuid (c : Char) : Guid :=
  ⟨String.ofList (List.replicate 36 c), by rw [String.length_ofList, List.length_replicate]⟩

/-- A user who takes part in the contests 1 and 2, with a team in each. -/
def ann : User :=
  ⟨7, some "ann", some "hash", some "user", some true, some false, some false⟩

/-- The tables with this user, logged in under a uuid. -/
def annTables (value : Guid) : AuthTables where
  users := [ann]
  tokens := [⟨1, some 7, some "user", some value.text⟩]
  contestParticipants := [⟨1, 7, some 5⟩, ⟨2, 7, some 6⟩]
  teams := [⟨5, some "five", some 1, some false⟩, ⟨6, some "six", some 2, some false⟩]
  usersTeams := [⟨7, 5⟩, ⟨7, 6⟩]
  contests := [⟨1, "one"⟩, ⟨2, "two"⟩]

/-- Nothing is cached. -/
def annWorld (value : Guid) : AuthWorld := ⟨Db.empty 0, annTables value, 2⟩

/-- Nothing goes wrong, and the next uuid is `g`. -/
def calmAuth (g : Guid) : AuthEnv := ⟨.none, .redis, g, true, true⟩

theorem unauthenticated_annWorld (value : Guid) : Unauthenticated (annWorld value) := by
  refine ⟨⟨fun u => ?_, List.nodup_singleton _, fun t ht => ?_⟩, fun c u => rfl⟩
  · exact List.length_filter_le _ _
  · rw [List.mem_singleton.mp ht]
    exact one_lt_two

/-- All passwords are right. -/
def anyPassword : VerifyPassword := fun _ _ => true

/-- The web token of the login. -/
def loginToken (value : Guid) : Claims := createToken 7 0 0 value.text

/-- A request that needs no contest. -/
def profileRequest : AuthCall := .request (loginToken (uuid 'a')) "/api/users/profile"

/-- A contest is selected with the token of the login, and a request is made with it. -/
def selectAndReuse : List (auths anyPassword).Move :=
  Service.callNow 0 (AuthCall.selectContest (loginToken (uuid 'a')) 1) (calmAuth (uuid 'b'))
      10 ++
    Service.callNow 1 profileRequest (calmAuth (uuid 'c')) 2

/-- The selection stores a newer token, and the request is refused. -/
theorem revocation_example :
    ∃ log w, Service.Records StaysFresh
        ((auths anyPassword).start (annWorld (uuid 'a'))) log w ∧
      (∃ n ∈ log, Stores 7 (uuid 'b').text n) ∧
      Service.Finished w 1 profileRequest (.ok (.text 401 "Invalid user token")) ∧
      Revocation log w := by
  have hrun : (Service.runLogged NeverCaches []
      ((auths anyPassword).start (annWorld (uuid 'a'))) selectAndReuse).any
      (fun p => (p.1.any fun n => decide (Stores 7 (uuid 'b').text n)) &&
        decide (Service.answer p.2 1 =
          some ⟨profileRequest, .ok (.text 401 "Invalid user token")⟩)) = true := by
    decide +kernel
  obtain ⟨⟨log, w⟩, hw, hboth⟩ := (Option.any_eq_true _ _).mp hrun
  obtain ⟨hstores, hanswer⟩ := Bool.and_eq_true_iff.mp hboth
  obtain ⟨n, hn, hstored⟩ := List.any_eq_true.mp hstores
  have h₀ := unauthenticated_annWorld (uuid 'a')
  have hfresh := (staysFresh_of_neverCaches h₀ (Service.records_of_runLogged .refl hw)).1
  exact ⟨log, w, hfresh, ⟨n, hn, of_decide_eq_true hstored⟩,
    Service.finished_of_answer (of_decide_eq_true hanswer), revocation_of_fresh hfresh h₀⟩

/-- The web token of the contest 1. -/
def contestToken (value : Guid) : Claims := createToken 7 5 1 value.text

/-- A request for the contest. -/
def contestRequest : AuthCall := .request (contestToken (uuid 'a')) "/api/challenge"

/-- A logout. -/
def contestLogout : AuthCall := .logout (contestToken (uuid 'a'))

/-- A request, a logout and another request, all with the token of the contest. -/
def logoutAndReuse : List (auths anyPassword).Move :=
  Service.callNow 0 contestRequest (calmAuth (uuid 'b')) 6 ++
    Service.callNow 1 contestLogout (calmAuth (uuid 'b')) 5 ++
    Service.callNow 2 contestRequest (calmAuth (uuid 'b')) 2

/-- **The cache outlives the logout.** A user makes a request and logs out, and the next
request with the same token is let through: the entry of the first one is still there. -/
theorem not_revocation :
    ∃ log w, Service.Records Service.anyLogged
        ((auths anyPassword).start (annWorld (uuid 'a'))) log w ∧
      Service.Finished w 1 contestLogout (.ok (.text 200 "Logged out successfully")) ∧
      Service.Finished w 2 contestRequest (.ok .handled) ∧
      ¬Revocation log w := by
  have hrun : (Service.runLogged Service.anyLogged []
      ((auths anyPassword).start (annWorld (uuid 'a'))) logoutAndReuse).any
      (fun p => decide (Service.answer p.2 1 =
          some ⟨contestLogout, .ok (.text 200 "Logged out successfully")⟩) &&
        decide (Service.answer p.2 2 = some ⟨contestRequest, .ok .handled⟩) &&
        -- the tenth operation removes the row, the last lets the request in
        (p.1[9]?).any (fun n => decide (Withdraws 7 n)) &&
        decide (Older 7 (uuid 'a').text (p.1.drop 9)) &&
        (p.1.take 10).all (fun n => decide (n.pid ≠ 2)) &&
        (p.1[12]?).any (fun x => decide (x.pid = 2) && AuthOp.isNext x.op &&
          decide (x.call = contestRequest))) = true := by
    decide +kernel
  obtain ⟨⟨log, w⟩, hw, hall⟩ := (Option.any_eq_true _ _).mp hrun
  simp only [Bool.and_eq_true, decide_eq_true_iff] at hall
  obtain ⟨⟨⟨⟨⟨hout, hhandled⟩, hwithdraws⟩, holder⟩, hothers⟩, hlast⟩ := hall
  refine ⟨log, w, Service.records_of_runLogged .refl hw, Service.finished_of_answer hout,
    Service.finished_of_answer hhandled, fun h => ?_⟩
  obtain ⟨n, hn, hgone⟩ := (Option.any_eq_true _ _).mp hwithdraws
  obtain ⟨x, hx, hboth⟩ := (Option.any_eq_true _ _).mp hlast
  simp only [Bool.and_eq_true, decide_eq_true_iff] at hboth
  obtain ⟨⟨hpid, hnext⟩, hcall⟩ := hboth
  have hin : LetsIn 7 (uuid 'a').text x :=
    ⟨AuthOp.eq_next_of_isNext hnext, contestToken (uuid 'a'), by rw [hcall]; rfl, rfl, rfl⟩
  have hmem : x ∈ log.drop 10 := List.mem_of_getElem? (i := 2) (by rwa [List.getElem?_drop])
  have hdrop : n :: log.drop 10 = log.drop 9 := Service.cons_drop hn
  refine h.older 7 (uuid 'a').text (log.take 9) n (log.drop 10) ?_
    (.inl (of_decide_eq_true hgone)) (hdrop ▸ holder) x hmem (fun m hm => ?_) hin
  · rw [hdrop, List.take_append_drop]
  · rw [Service.take_append_singleton hn] at hm
    rw [hpid]
    exact of_decide_eq_true (List.all_eq_true.mp hothers m hm)

end Auth

end Fctf
