import Fctf.AuthReasons

/-!
# How a Cached Entry Came About

An entry that the middleware keeps under the key of a contest and a user was put there by
a request that has passed the checks against the tables, and it stands for a minute at
most. This holds in every run that begins with nothing cached, whatever happens to the
tables and whatever gets lost.

## Main results

* `AuthOp.lookup_of_exec`: what one operation leaves in the cache.
* `filled_of_lookup`: every cached entry was filled by an operation of the log, at most a
  minute ago.
* `cleared_of_fills`: the request that filled it had read what the entry says.
* `stored_of_next`: a token that is let in was stored before, at some operation.
-/

open Concurrent RedisDb

namespace Fctf

namespace Auth

/-- Nothing is cached. -/
def Uncached (s : AuthWorld) : Prop := ∀ c u, s.redis.lookup (authKey c u) = none

section Exec

variable {call : AuthCall} {l : AuthHistory} {e : AuthEnv} {o : AuthOp} {s : AuthWorld}
  {key : String}

/-- **What an operation leaves under a key** was there before, or the operation has put it
there. -/
theorem AuthOp.lookup_of_exec (hreason : Reason call l o) {slot : Slot AuthInfoCacheDTO}
    (h : (o.exec e s).2.redis.lookup key = some slot) :
    s.redis.lookup key = some slot ∨
      e.fault ≠ .before ∧ ∃ ttl, o = .redis (.set key slot.value ttl) ∧
        slot.expireAt = some (s.redis.clock + ttl) := by
  have hsame : (o.exec e s).2.redis = s.redis → s.redis.lookup key = some slot :=
    fun hs => hs ▸ h
  obtain hs | ⟨r, rfl, hs⟩ | ⟨id, value, -, hs⟩ | ⟨u, value, -, hs⟩ | ⟨rows, -, hs⟩ :=
    o.exec_cases e s
  · exact .inl (hsame (congrArg AuthWorld.redis hs :))
  · rw [hs] at h
    by_cases hf : e.fault = .before
    · rw [hf, RedisOp.execFaulty_before] at h
      exact .inl h
    · rw [RedisOp.execFaulty_of_ne hf] at h
      cases r with
      | set key' cache ttl =>
          simp only [RedisOp.exec] at h
          split at h
          · exact .inl h
          · next db' hset =>
              by_cases hk : key = key'
              · subst hk
                obtain rfl := Option.some.inj ((Db.lookup_setex_same _ hset).symm.trans h)
                exact .inr ⟨hf, ttl, rfl, rfl⟩
              · exact .inl ((Db.lookup_setex_of_ne _ hk hset).symm.trans h)
      | del key' =>
          by_cases hk : key = key'
          · subst hk
            exact absurd ((Db.lookup_del_same _ key).symm.trans h)
              (Option.some_ne_none slot).symm
          · exact .inl ((Db.lookup_del_of_ne _ hk).symm.trans h)
      | get => exact .inl h
      | _ => exact hreason.elim
  · exact .inl (hsame (congrArg AuthWorld.redis hs :))
  · exact .inl (hsame (congrArg AuthWorld.redis hs :))
  · exact .inl (hsame (congrArg AuthWorld.redis hs :))

/-- The same for the value alone. -/
theorem AuthOp.get_of_exec (hreason : Reason call l o) {cache : AuthInfoCacheDTO}
    (h : (o.exec e s).2.redis.get key = some cache) :
    s.redis.get key = some cache ∨
      e.fault ≠ .before ∧ ∃ ttl, o = .redis (.set key cache ttl) := by
  obtain ⟨slot, hslot, rfl⟩ := Db.get_eq_some_iff _ |>.mp h
  rcases AuthOp.lookup_of_exec hreason hslot with hslot | ⟨hf, ttl, ho, -⟩
  · exact .inl ((Db.get_eq_some_iff _).mpr ⟨slot, hslot, rfl⟩)
  · exact .inr ⟨hf, ttl, ho⟩

end Exec

section Fills

variable {verifyPassword : VerifyPassword}
  {G : List (auths verifyPassword).Entry → (auths verifyPassword).Pool →
    (auths verifyPassword).Move → Prop}
  {s₀ : AuthWorld} {log pre post : List (auths verifyPassword).Entry}
  {w : (auths verifyPassword).Pool} {n : (auths verifyPassword).Entry} {c u : ℤ}

/-- The operation puts an entry under the key of the contest and the user. -/
structure Fills (c u : ℤ) (slot : Slot AuthInfoCacheDTO) (n : (auths verifyPassword).Entry) :
    Prop where
  /-- It is a request to Redis. -/
  op : n.op = .redis (.set (authKey c u) slot.value 60)
  /-- It was not lost. -/
  fault : n.env.fault ≠ .before
  /-- The entry is there for a minute. -/
  expireAt : slot.expireAt = some (n.before.redis.clock + 60)

/-- **Every cached entry was filled.** -/
theorem filled_of_lookup (h : Service.Records G ((auths verifyPassword).start s₀) log w)
    (h₀ : Uncached s₀) {slot : Slot AuthInfoCacheDTO}
    (hslot : w.shared.redis.lookup (authKey c u) = some slot) :
    ∃ pre n post, log = pre ++ n :: post ∧ Fills c u slot n := by
  induction h with
  | refl => exact absurd ((h₀ c u).symm.trans hslot) (Option.some_ne_none slot).symm
  | spawn _ _ ih => exact ih hslot
  | @act log w pid e call o k hrun hp hg ih =>
      have hbefore : w.shared.redis.lookup (authKey c u) = some slot →
          ∃ pre n post, log ++ [⟨pid, call, e, o, w.shared⟩] = pre ++ n :: post ∧
            Fills c u slot n := by
        intro hslot
        obtain ⟨pre, n, post, rfl, hn⟩ := ih hslot
        exact ⟨pre, n, post ++ [⟨pid, call, e, o, w.shared⟩], by simp, hn⟩
      have hreason := reasoned_last (hrun.act hp hg)
      rcases AuthOp.lookup_of_exec hreason hslot with hslot | ⟨hf, ttl, rfl, hexpire⟩
      · exact hbefore hslot
      · obtain ⟨-, -, -, -, -, -, -, -, -, rfl⟩ := hreason
        exact ⟨log, _, [], rfl, rfl, hf, hexpire⟩
  | @ambient log w x hrun hg ih =>
      cases x with
      | pass d => exact ih (Db.lookup_of_tick _ hslot)
      | edit f => exact ih hslot

/-- The request that has filled an entry had read what it says. -/
theorem cleared_of_fills (h : Service.Records G ((auths verifyPassword).start s₀) log w)
    (hlog : log = pre ++ n :: post) {slot : Slot AuthInfoCacheDTO} (hn : Fills c u slot n) :
    ∃ claims token info, n.call.claims = some claims ∧
      Cleared claims c u token info (Service.past pre n.pid) ∧
      slot.value = cacheEntry c (token.bind (·.value)) info := by
  have hreason := reasoned h hlog
  rw [hn.op] at hreason
  obtain ⟨claims, c', u', token, info, hclaims, hcleared, hkey, hcache, -⟩ := hreason
  obtain ⟨rfl, rfl⟩ := authKey_inj hkey
  exact ⟨claims, token, info, hclaims, hcleared, hcache⟩

/-- What a request that has passed the checks against the tables has found there, each at
an operation of its own. -/
theorem Cleared.found {claims : Claims} {token : Option Token} {info : UserInfo} {pid : ℕ}
    (h : Cleared claims c u token info (Service.past log pid)) :
    (∃ y ∈ log, y.pid = pid ∧ y.op = .findToken u ∧ y.before.tables.userToken u = token) ∧
      (∃ y ∈ log, y.pid = pid ∧ y.before.tables.userInfo u = some info) ∧
      ∃ y ∈ log, y.pid = pid ∧ y.before.tables.isParticipant c u = true := by
  obtain ⟨y₁, hy₁, hpid₁, hop₁, hreply₁⟩ := exists_entry_of_told h.token_told
  obtain ⟨y₂, hy₂, hpid₂, -, hreply₂⟩ := exists_entry_of_told h.info_told
  obtain ⟨y₃, hy₃, hpid₃, -, hreply₃⟩ := exists_entry_of_told h.participant_told
  exact ⟨⟨y₁, hy₁, hpid₁, hop₁, (AuthEnv.eq_of_read hreply₁).symm⟩,
    ⟨y₂, hy₂, hpid₂, (AuthEnv.eq_of_read hreply₂).symm⟩,
    ⟨y₃, hy₃, hpid₃, (AuthEnv.eq_of_read hreply₃).symm⟩⟩

/-- A call that was told an entry has found it. -/
theorem exists_fill_of_told (h : Service.Records G ((auths verifyPassword).start s₀) log w)
    (h₀ : Uncached s₀) (hlog : log = pre ++ n :: post) {pid : ℕ} {cache : AuthInfoCacheDTO}
    (htold : Told (Service.past pre pid) (.redis (.get (authKey c u))) (some cache)) :
    ∃ a y b slot pre' m post', pre = a ++ y :: b ∧ y.pid = pid ∧ slot.value = cache ∧
      y.before.redis.clock < m.before.redis.clock + 60 ∧ a = pre' ++ m :: post' ∧
      Fills c u slot m := by
  obtain ⟨y, hy, hpid, hop, hreply⟩ := exists_entry_of_told htold
  obtain ⟨a, b, rfl⟩ := List.append_of_mem hy
  have hsplit : log = a ++ y :: (b ++ n :: post) := by rw [hlog]; simp
  obtain ⟨w₁, k, hrun, hshared, -, -⟩ := (hsplit ▸ h).of_append
  have hget : y.before.redis.get (authKey c u) = some cache := AuthOp.get_of_told hreply
  obtain ⟨slot, hslot, rfl⟩ := y.before.redis.get_eq_some_iff.mp hget
  obtain ⟨pre', m, post', rfl, hm⟩ := filled_of_lookup hrun h₀ (hshared ▸ hslot)
  exact ⟨_, y, b, slot, pre', m, post', rfl, hpid, rfl,
    Db.clock_lt_of_lookup _ hslot hm.expireAt, rfl, hm⟩

/-- **A token that is let in was stored** at some earlier operation. -/
theorem stored_of_next (h : Service.Records G ((auths verifyPassword).start s₀) log w)
    (h₀ : Uncached s₀) (hlog : log = pre ++ n :: post) (hop : n.op = .next) {claims : Claims}
    (hclaims : n.call.claims = some claims) :
    ∃ u, claims.nameIdentifier = some u ∧
      ∃ y ∈ pre, y.before.tables.tokenValue u = claims.tokenUuid := by
  have hreason := reasoned h hlog
  rw [hop] at hreason
  obtain ⟨claims', hclaims', hthrough⟩ := hreason
  obtain rfl := Option.some.inj (hclaims.symm.trans hclaims')
  have htold : ∀ {u token}, Told (Service.past pre n.pid) (.findToken u) token →
      tokenVerdict (token.bind (·.value)) claims.tokenUuid = none →
        ∃ y ∈ pre, y.before.tables.tokenValue u = claims.tokenUuid := by
    intro u token htold hverdict
    obtain ⟨y, hy, -, -, hreply⟩ := exists_entry_of_told htold
    refine ⟨y, hy, ?_⟩
    rw [AuthTables.tokenValue, ← AuthEnv.eq_of_read hreply, tokenVerdict_eq_none hverdict]
  cases hthrough with
  | basic u user token hu hc huser htoken hok hacc => exact ⟨u, hu, htold htoken hok⟩
  | database c u token info hcleared =>
      exact ⟨u, hcleared.user, htold hcleared.token_told hcleared.token_ok⟩
  | cached c u cache hu hc hne hcache hok =>
      obtain ⟨a, y, b, slot, pre', m, post', rfl, -, rfl, -, rfl, hm⟩ :=
        exists_fill_of_told h h₀ hlog hcache
      have hsplit : log = pre' ++ m :: (post' ++ y :: (b ++ n :: post)) := by rw [hlog]; simp
      obtain ⟨claims', token, info, -, hcleared, hvalue⟩ := cleared_of_fills h hsplit hm
      obtain ⟨z, hz, -, -, hstored⟩ := hcleared.found.1
      refine ⟨u, hu, z, by simp [hz], ?_⟩
      rw [← tokenVerdict_eq_none (tokenVerdict_of_cachedVerdict hok), hvalue, cacheEntry,
        AuthTables.tokenValue, hstored]

end Fills

end Auth

end Fctf
