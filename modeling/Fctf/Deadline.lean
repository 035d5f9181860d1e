import Fctf.Lib.Protocol
import Fctf.Platform

/-!
# One Deadline per Deployment

`HandleChallengeRunning` turns a deployment into a running one: it keeps the deadline in
the entry it was given while that is in the future, and otherwise inserts a row and sets
a new deadline. It is reached from every running event of every shard and from the status
check, and between the read of the entry and the write of the deadline anything may happen.

A deployment has one deadline and one row as long as its handlers do not overlap, none of
them looks at the clock after the deadline, and the writes get through.

## Main results

* `follows_handler`: where a handler stands after each of its operations.
* `deadlineInv_act`: what one operation of a handler preserves.
* `oneDeadline_of_inTime`: one deadline and one row, in every run of handlers in time.
* `not_oneDeadline`: a restart in the last second starts the time again.
-/

open Concurrent RedisDb

namespace Fctf

section Deployment

variable (n : DeploymentName) (ns : String)

/-! ### The property -/

/-- How many rows the deployment has. -/
def World.rows (w : World) (ns : String) : ℕ :=
  w.challengeStartTrackings.countP fun ct => decide (ct.label = ns)

/-- The history: the deadlines written into the deployment's entry. -/
def noteDeadline (e : DeployEnv) (o : DeployOp) (_ : World) (deadlines : List ℤ) : List ℤ :=
  match o with
  | .redis (.updateExpiration _ dk _ _ _ (some d) _) =>
      if e.fault ≠ .before ∧ dk = n.key then d.timeFinished :: deadlines else deadlines
  | _ => deadlines

/-- One deadline and one row. -/
structure OneDeadline (w : World) (deadlines : List ℤ) : Prop where
  /-- No deadline differs from another. -/
  same : ∀ T ∈ deadlines, ∀ T' ∈ deadlines, T = T'
  /-- The entry has no later one. -/
  entry : ∀ d ∈ w.redis.get n.key, ∀ T ∈ deadlines, d.timeFinished = T
  /-- There is at most one row. -/
  rows_le : w.rows ns ≤ 1
  /-- There is one if there is a deadline. -/
  rows_eq : deadlines ≠ [] → w.rows ns = 1

/-! ### The condition on steps -/

/-- The calls that handle the deployment. -/
def HandlesDeployment : DeployCall → Prop
  | .podEvent pod _ => pod.ns = ns
  | .statusCheck req =>
      req.contestId = n.contestId ∧ req.challengeId = n.contestChallengeId ∧
        req.teamId = n.teamId
  | _ => False

/-- The events that set no deadline. -/
def isDeletion : DeployCall → Bool
  | .podEvent _ eventType => decide (eventType = .deleted)
  | _ => false

/-- Is a call past its read and not finished? -/
def busy : DeployCall × Prog deployI Exn Unit → Bool
  | (_, .call (.redis (.get _)) _) => false
  | (_, .call _ _) => true
  | (_, .ret _) => false

/-- An operation of a handler comes in time and gets through: it looks at the clock before
the deadline, if there is one, it finds the slot when it writes the entry, and an inserted
row does not raise. -/
def InTime (c : DeployCall) (e : DeployEnv) (o : DeployOp) (w : World)
    (deadlines : List ℤ) : Prop :=
  match o with
  | .redis .utcNow => isDeletion c = false → ∀ T ∈ deadlines, w.redis.clock < T
  | .redis (.updateExpiration zk _ id _ _ _ _) =>
      e.fault ≠ .before ∧ (w.redis.zscore zk id).isSome = true
  | .addStartTracking _ => e.fault ≠ .after
  | _ => True

/-! ### Where a handler stands -/

/-- The standing of a handler. -/
inductive Standing where
  | fresh
  | reading (timeFinished : ℤ) (early late : Bool)
  | inserted
  | closed
  | foreign
  deriving DecidableEq

/-- Operations that neither read or write the entry nor insert a row. -/
def Harmless : DeployOp → Prop
  | .redis .utcNow => True
  | .redis (.remove _ _ _) => True
  | .redis _ => False
  | .addStartTracking _ => False
  | _ => True

/-- A write of the deployment's entry with data such as `φ`. -/
def WritesEntry (φ : ChallengeDeploymentCacheDTO → Prop) : DeployOp → Prop
  | .redis (.updateExpiration zk dk id _ ttl v t) =>
      zk = getZSetKKey n.contestId n.teamId ∧ dk = n.key ∧ id = n.contestChallengeId ∧
        t = n.teamId ∧ 0 < ttl ∧
        ∃ d, v = some d ∧ d._namespace = ns ∧ d.teamId = n.teamId ∧ φ d
  | _ => False

/-- An insertion of a row of the deployment. -/
def InsertsRow : DeployOp → Prop
  | .addStartTracking row => row.label = ns
  | _ => False

/-- What a handler may do in a standing. -/
def allowedIn : Standing → DeployOp → Prop
  | .fresh, o => o = .redis (.get n.key)
  | .reading T early late, o =>
      Harmless o ∨ InsertsRow ns o ∧ late = true ∨
        WritesEntry n ns (·.timeFinished = T) o ∧ early = true
  | .inserted, o => o = .redis .utcNow ∨ WritesEntry n ns (fun _ => True) o
  | .closed, o => Harmless o
  | .foreign, _ => True

/-- The standing after the read. -/
def afterRead (c : DeployCall) : Except Exn (Option ChallengeDeploymentCacheDTO) → Standing
  | .ok (some d) =>
      if isDeletion c = true then .closed
      else if d._namespace = ns ∧ d.teamId = n.teamId then .reading d.timeFinished false false
      else .foreign
  | _ => .closed

/-- The standing after a reply. A look at the clock shows that the deadline read is still
to come (`early`) or not (`late`). -/
def standingAfter (c : DeployCall) :
    Standing → (o : DeployOp) → Except Exn o.Reply → Standing
  | .fresh, .redis (.get _), r => afterRead n ns c r
  | .reading T early late, .redis .utcNow, .ok now =>
      .reading T (early || decide ((show ℤ from now) < T)) (late || !decide ((show ℤ from now) < T))
  | .reading _ _ _, .addStartTracking _, .ok _ => .inserted
  | .reading _ _ _, .addStartTracking _, .error _ => .closed
  | .inserted, .redis .utcNow, .ok _ => .inserted
  | .inserted, _, _ => .closed
  | q, _, _ => q

/-- The protocol of a handler. -/
def handlerProtocol (c : DeployCall) : Protocol deployI Exn Standing where
  allows := allowedIn n ns
  next := standingAfter n ns c

end Deployment

/-! ### What a handler performs -/

section Programs

variable {n : DeploymentName} {ns : String} {c : DeployCall} {α β : Type} {T : ℤ}
  {early late : Bool} {post : Standing → Except Exn α → Prop}

/-- The handler has inserted no row whose deadline it still has to write. -/
def AtRest (T : ℤ) (q : Standing) : Prop :=
  q = .closed ∨ ∃ early late, q = .reading T early late

/-- The program is a part of a handler that starts with the entry read, and leaves no row
without a deadline. -/
abbrev Handles (n : DeploymentName) (ns : String) (c : DeployCall) (T : ℤ) (q : Standing)
    (p : Prog deployI Exn α) : Prop :=
  p.Follows (handlerProtocol n ns c) (fun q _ => AtRest T q) q

/-- Operations that leave a handler where it stands. -/
def Still : DeployOp → Prop
  | .redis (.remove _ _ _) => True
  | .redis _ => False
  | .addStartTracking _ => False
  | _ => True

theorem Handles.of_still {q : Standing} (hq : AtRest T q) {p : Prog deployI Exn α}
    (h : p.Throughout Still) : Handles n ns c T q p := by
  refine Prog.Follows.of_throughout (h.mono fun o ho => ?_) fun _ => hq
  obtain rfl | ⟨early, late, rfl⟩ := hq
  · cases o with
    | redis o =>
        cases o with
        | remove zk dk id => exact ⟨trivial, fun r => rfl⟩
        | _ => exact ho.elim
    | addStartTracking row => exact ho.elim
    | _ => exact ⟨trivial, fun r => rfl⟩
  · cases o with
    | redis o =>
        cases o with
        | remove zk dk id => exact ⟨.inl trivial, fun r => rfl⟩
        | _ => exact ho.elim
    | addStartTracking row => exact ho.elim
    | _ => exact ⟨.inl trivial, fun r => rfl⟩

/-- Where a part of a handler ends, the next part takes over. -/
theorem Handles.bind {q : Standing} {p : Prog deployI Exn α} {f : α → Prog deployI Exn β}
    (hp : Handles n ns c T q p) (hf : ∀ a q, AtRest T q → Handles n ns c T q (f a)) :
    Handles n ns c T q (p >>= f) := by
  refine Prog.Follows.bind (hp.mono fun q r hq => ?_)
  cases r with
  | ok a => exact hf a q hq
  | error e => exact hq

theorem Handles.handle {q : Standing} {p : Prog deployI Exn α} {g : Exn → Prog deployI Exn α}
    (hp : Handles n ns c T q p) (hg : ∀ e q, AtRest T q → Handles n ns c T q (g e)) :
    Handles n ns c T q (p.handle g) := by
  refine Prog.Follows.handle (hp.mono fun q r hq => ?_)
  cases r with
  | ok a => exact hq
  | error e => exact hg e q hq

/-- A handler that has read is at rest. -/
theorem atRest_reading : AtRest T (.reading T early late) :=
  .inr ⟨early, late, rfl⟩

/-- After operations that leave it where it stands, the handler goes on. -/
theorem Handles.still_bind {p : Prog deployI Exn α} {f : α → Prog deployI Exn β}
    (hp : p.Throughout Still)
    (hf : ∀ a, Handles n ns c T (.reading T early late) (f a)) :
    Handles n ns c T (.reading T early late) (p >>= f) := by
  refine Prog.Follows.bind (.of_throughout (hp.mono fun o ho => ?_) fun r => ?_)
  · cases o with
    | redis o =>
        cases o with
        | remove zk dk id => exact ⟨.inl trivial, fun r => rfl⟩
        | _ => exact ho.elim
    | addStartTracking row => exact ho.elim
    | _ => exact ⟨.inl trivial, fun r => rfl⟩
  · cases r with
    | ok a => exact hf a
    | error e => exact atRest_reading

/-- After a look at the clock, the handler knows whether the deadline is to come. -/
theorem Handles.utcNow_bind {f : ℤ → Prog deployI Exn β}
    (hf : ∀ now, Handles n ns c T
      (.reading T (early || decide (now < T)) (late || !decide (now < T))) (f now)) :
    Handles n ns c T (.reading T early late) (utcNow >>= f) := by
  refine ⟨.inl trivial, fun r => ?_⟩
  cases r with
  | ok now => exact hf now
  | error e => exact atRest_reading

/-- The entry is written with the deadline it was read with. -/
theorem follows_rewrite {ttl : ℤ} {d : ChallengeDeploymentCacheDTO} (httl : 0 < ttl)
    (hns : d._namespace = ns) (ht : d.teamId = n.teamId) (hT : d.timeFinished = T) :
    (atomicUpdateExpiration n.teamId n.key n.contestChallengeId ttl (some d) n.contestId :
      Prog deployI Exn Bool).Follows (handlerProtocol n ns c)
      (fun q _ => ∃ early late, q = .reading T early late) (.reading T true late) := by
  refine ⟨.inl trivial, fun r => ?_⟩
  cases r with
  | error e => exact ⟨true, late, rfl⟩
  | ok now =>
      refine ⟨.inr (.inr ⟨⟨rfl, rfl, rfl, rfl, httl, d, rfl, hns, ht, hT⟩, rfl⟩), fun r => ?_⟩
      cases r with
      | error e => exact ⟨_, _, rfl⟩
      | ok answer => exact ⟨_, _, rfl⟩

/-- The time to live that `HandleChallengeRunning` gives an entry is positive. -/
theorem realTtl_pos (deadline now : ℤ) :
    0 < (if deadline - now ≤ 0 then 60 else deadline - now) := by
  split <;> omega

/-- The end of `HandleChallengeRunning` with the deadline it was given. -/
theorem handles_keep {deadline : ℤ} {d : ChallengeDeploymentCacheDTO} {a : α}
    (hns : d._namespace = ns) (ht : d.teamId = n.teamId) (hT : d.timeFinished = T) :
    Handles n ns c T (.reading T true late) (do
      let now ← utcNow
      let _ ← atomicUpdateExpiration n.teamId n.key n.contestChallengeId
        (if deadline - now ≤ 0 then 60 else deadline - now) (some d) n.contestId
      pure a) := by
  refine Handles.utcNow_bind fun now => ?_
  refine Prog.Follows.bind ((follows_rewrite (realTtl_pos _ _) hns ht hT).mono fun q r hq => ?_)
  cases r with
  | ok answer => exact .inr hq
  | error e => exact .inr hq

/-- The end of `HandleChallengeRunning` with the deadline of the row just inserted. -/
theorem handles_settle {deadline : ℤ} {d : ChallengeDeploymentCacheDTO} {a : α}
    (hns : d._namespace = ns) (ht : d.teamId = n.teamId) :
    Handles n ns c T .inserted (do
      let now ← utcNow
      let _ ← atomicUpdateExpiration n.teamId n.key n.contestChallengeId
        (if deadline - now ≤ 0 then 60 else deadline - now) (some d) n.contestId
      pure a) := by
  refine ⟨.inl rfl, fun r => ?_⟩
  cases r with
  | error e => exact .inl rfl
  | ok now =>
      refine ⟨.inl rfl, fun r => ?_⟩
      cases r with
      | error e => exact .inl rfl
      | ok now' =>
          refine ⟨.inr ⟨rfl, rfl, rfl, rfl, realTtl_pos _ _, d, rfl, hns, ht, trivial⟩,
            fun r => ?_⟩
          cases r with
          | error e => exact .inl rfl
          | ok answer => exact .inl rfl

theorem still_deleteNamespace (ns' : String) : (deleteNamespace ns').Throughout Still :=
  .handle (.bind (throughout_issue trivial) fun _ => trivial) fun _ => trivial

theorem still_cleanupGhostResources (ns' : String) (status : DeploymentStatus) :
    (cleanupGhostResources ns' n status).Throughout Still := by
  refine .bind (still_deleteNamespace _) fun deleted => ?_
  cases deleted with
  | true =>
      refine .bind (.handle (.bind (throughout_issue trivial) fun _ => trivial) fun _ => trivial)
        fun _ => ?_
      exact throughout_issue trivial
  | false => trivial

/-- **`HandleChallengeRunning`** keeps the deadline, or inserts a row and sets one. -/
theorem follows_handleChallengeRunning (cfg : DeployConfig) (hteam : 0 < n.teamId)
    {cache : ChallengeDeploymentCacheDTO} (hns : cache._namespace = ns)
    (ht : cache.teamId = n.teamId) :
    Handles n ns c cache.timeFinished (.reading cache.timeFinished early late)
      (handleChallengeRunning cfg n.contestChallengeId n.contestId n.teamId ns cache) := by
  refine Handles.handle (Handles.still_bind (throughout_issue trivial) fun challenge => ?_)
    fun e q hq => hq
  split
  · exact atRest_reading
  · next challenge =>
      rw [decideDeadline, Prog.bind_assoc]
      refine Handles.utcNow_bind fun now => ?_
      split
      · next hlt =>
          rw [decide_eq_true hlt, Bool.or_true]
          exact handles_keep hns ht rfl
      · next hge =>
          rw [decide_eq_false hge, Bool.not_false, Bool.or_true, Prog.bind_assoc]
          refine Handles.utcNow_bind fun now => ?_
          have hmember : n.teamId ≠ -1 ∧ n.teamId ≠ -2 := by omega
          rw [Bool.true_or]
          dsimp only
          rw [if_pos hmember]
          refine ⟨.inr (.inl ⟨rfl, rfl⟩), fun r => ?_⟩
          cases r with
          | error e => exact .inl rfl
          | ok u => exact handles_settle hns ht

/-- `HandleRunningState`. -/
theorem follows_handleRunningState (cfg : DeployConfig) (pod : V1Pod) (hteam : 0 < n.teamId)
    {cache : ChallengeDeploymentCacheDTO} (hns : cache._namespace = ns)
    (ht : cache.teamId = n.teamId) (hT : cache.timeFinished = T) :
    Handles n ns c T (.reading T early late) (handleRunningState cfg pod n cache) := by
  subst hT
  rw [handleRunningState]
  split
  · split
    · exact atRest_reading
    · rw [hns]
      exact (follows_handleChallengeRunning cfg hteam hns ht).bind fun result q hq =>
        .of_still hq (throughout_issue trivial)
  · exact atRest_reading

/-- The handling of a pod that is there and has an entry. -/
theorem follows_handleLivePod (cfg : DeployConfig) {pod : V1Pod} (hteam : 0 < n.teamId)
    {cache : ChallengeDeploymentCacheDTO} (hns : cache._namespace = ns)
    (ht : cache.teamId = n.teamId) :
    Handles n ns c cache.timeFinished (.reading cache.timeFinished false false)
      (handleLivePod cfg pod n cache) := by
  have hrest : ∀ early late (d : ChallengeDeploymentCacheDTO), d._namespace = ns →
      d.teamId = n.teamId → d.timeFinished = cache.timeFinished →
      Handles n ns c cache.timeFinished (.reading cache.timeFinished early late) (do
        let now ← utcNow
        if isPodStuck pod now then cleanupGhostResources pod.ns n .failed
        else handleRunningState cfg pod n d) := by
    intro early late d hns ht hT
    refine Handles.utcNow_bind fun now => ?_
    split
    · exact .of_still atRest_reading (still_cleanupGhostResources _ _)
    · exact follows_handleRunningState cfg pod hteam hns ht hT
  rw [handleLivePod]
  split
  · rw [handlePodRestart, Prog.bind_assoc]
    refine Handles.utcNow_bind fun now => ?_
    dsimp only
    split
    · next hpos =>
        have hlt : now < cache.timeFinished := by omega
        rw [decide_eq_true hlt, Bool.or_true, Prog.bind_assoc]
        refine Prog.Follows.bind ((follows_rewrite
          (d := { cache with podId := pod.uid, ready := false }) hpos hns ht rfl).mono
          fun q r hq => ?_)
        obtain ⟨early, late, rfl⟩ := hq
        cases r with
        | error e => exact atRest_reading
        | ok answer => exact hrest _ _ _ hns ht rfl
    · exact hrest _ _ _ hns ht rfl
  · exact hrest _ _ cache hns ht rfl

/-- A handler never ends with a row whose deadline it has not written. -/
def Ended (_ : DeployCall) (q : Standing) (_ : Except Exn Unit) : Prop :=
  q ≠ .inserted

theorem Handles.ended {q : Standing} {p : Prog deployI Exn Unit} (h : Handles n ns c T q p) :
    p.Follows (handlerProtocol n ns c) (Ended c) q := by
  refine h.mono fun q r hq => ?_
  rintro rfl
  obtain hq | ⟨_, _, hq⟩ := hq
  · cases hq
  · cases hq

/-- A handler that read an entry of another deployment may do anything. -/
theorem follows_foreign (p : Prog deployI Exn Unit) :
    p.Follows (handlerProtocol n ns c) (Ended c) .foreign := by
  have hstays : ∀ o : DeployOp, (handlerProtocol n ns c).allows .foreign o ∧
      ∀ r, (handlerProtocol n ns c).next .foreign o r = .foreign := by
    refine fun o => ⟨trivial, fun r => ?_⟩
    cases o with
    | redis o => cases o <;> rfl
    | _ => rfl
  exact .of_throughout (.of_forall hstays p) fun _ h => by cases h

/-- The deletion of a deployment sets no deadline. -/
theorem follows_handleDeletion (cache : Option ChallengeDeploymentCacheDTO) (ns' : String) :
    Handles n ns c T .closed (handleDeletion n cache ns') := by
  have hstays : (handleDeletion n cache ns').Throughout fun o =>
      (handlerProtocol n ns c).allows .closed o ∧
        ∀ r, (handlerProtocol n ns c).next .closed o r = .closed := by
    refine .bind (.handle (.bind (throughout_issue ⟨trivial, fun _ => rfl⟩) fun _ => trivial)
      fun _ => trivial) fun _ => ?_
    refine .bind (throughout_issue ⟨trivial, fun _ => rfl⟩) fun _ => ?_
    refine .handle (.bind (throughout_issue ⟨trivial, fun _ => rfl⟩) fun row => ?_)
      fun _ => trivial
    split
    · trivial
    · exact .bind (throughout_utcNow ⟨trivial, fun _ => rfl⟩) fun _ =>
        throughout_issue ⟨trivial, fun _ => rfl⟩
  exact .of_throughout hstays fun _ => .inl rfl

/-- What the handler of a pod event does with the entry it has read. -/
theorem follows_podEvent (cfg : DeployConfig) {pod : V1Pod} {eventType : WatchEventType}
    (hteam : 0 < n.teamId) (cache : Option ChallengeDeploymentCacheDTO) :
    (if eventType = .deleted then handleDeletion n cache pod.ns
      else
        match cache with
        | none => cleanupGhostResources pod.ns n .stopped
        | some cache => if pod.deleting then pure () else handleLivePod cfg pod n cache).Follows
      (handlerProtocol n pod.ns (.podEvent pod eventType)) (Ended (.podEvent pod eventType))
      (afterRead n pod.ns (.podEvent pod eventType) (.ok cache)) := by
  have hover : AtRest 0 .closed := .inl rfl
  split
  · next hdel =>
      have hstanding : afterRead n pod.ns (.podEvent pod eventType) (.ok cache) = .closed := by
        cases cache with
        | none => rfl
        | some d => exact if_pos (decide_eq_true hdel)
      rw [hstanding]
      exact (follows_handleDeletion (T := 0) cache _).ended
  · next hdel =>
      cases cache with
      | none => exact (Handles.of_still hover (still_cleanupGhostResources _ _)).ended
      | some d =>
          have hkeep : ¬isDeletion (.podEvent pod eventType) = true :=
            fun h => hdel (of_decide_eq_true h)
          rw [afterRead, if_neg hkeep]
          split
          · next hown =>
              obtain ⟨hns, ht⟩ := hown
              dsimp only
              split
              · exact fun h => by cases h
              · exact (follows_handleLivePod cfg hteam hns ht).ended
          · exact follows_foreign _

/-- What the status check does with the entry it has read. -/
theorem follows_statusCheck (cfg : DeployConfig) (req : ChallengCheckStatusReqDTO)
    (hteam : 0 < n.teamId) (cache : Option ChallengeDeploymentCacheDTO) :
    ((match cache with
      | none => pure (.plain 404 false "No deployment info found.")
      | some cache =>
          if cache.status = .runing ∧ cache.ready then
            handleChallengeRunning cfg n.contestChallengeId n.contestId cache.teamId
              cache._namespace cache
          else pure (.plain 200 false "Pod is not running.") :
        Prog deployI Exn ChallengeDeployResponeDTO).handle
        (fun _ => pure (.plain 500 false "Error during status check.")) >>=
      fun _ => pure ()).Follows
      (handlerProtocol n ns (.statusCheck req)) (Ended (.statusCheck req))
      (afterRead n ns (.statusCheck req) (.ok cache)) := by
  cases cache with
  | none => exact fun h => by cases h
  | some d =>
      have hkeep : ¬isDeletion (.statusCheck req) = true := fun h => by cases h
      rw [afterRead, if_neg hkeep]
      split
      · next hown =>
          obtain ⟨rfl, ht⟩ := hown
          dsimp only
          split
          · rw [ht]
            refine Handles.ended (Handles.bind (Handles.handle
              (follows_handleChallengeRunning cfg hteam rfl ht) fun e q hq => ?_)
              fun result q hq => ?_)
            · exact hq
            · exact hq
          · exact fun h => by cases h
      · exact follows_foreign _

/-- **What a handler performs**, and where it stands after each operation. -/
theorem follows_handler (cfg : DeployConfig) (hteam : 0 < n.teamId)
    (hn : parseDeploymentAppName ns = some n) (hc : HandlesDeployment n ns c) :
    (c.program cfg).Follows (handlerProtocol n ns c) (Ended c) .fresh := by
  cases c with
  | podEvent pod eventType =>
      obtain rfl : pod.ns = ns := hc
      simp only [DeployCall.program, processPodChange]
      split
      · exact fun h => by cases h
      · rw [hn]
        refine ⟨rfl, fun r => ?_⟩
        cases r with
        | error e => exact follows_podEvent cfg hteam none
        | ok cache => exact follows_podEvent cfg hteam cache
  | statusCheck req =>
      obtain ⟨hcontest, hchallenge, ht⟩ := hc
      simp only [DeployCall.program, statusCheck, hcontest, hchallenge, ht]
      refine ⟨rfl, fun r => ?_⟩
      cases r with
      | error e => exact follows_statusCheck cfg req hteam none
      | ok cache => exact follows_statusCheck cfg req hteam cache
  | _ => exact hc.elim

end Programs

/-! ### What one operation preserves -/

section Step

variable {n : DeploymentName} {ns : String} {c : DeployCall} {w w' : World}
  {deadlines : List ℤ} {q : Standing}

/-- What holds of the entry and the rows at any time. -/
structure SharedInv (n : DeploymentName) (ns : String) (w : World) (deadlines : List ℤ) :
    Prop extends OneDeadline n ns w deadlines where
  /-- It is later than the epoch. -/
  clock : 0 ≤ w.redis.clock
  /-- The entry is the deployment's own, and has no deadline before there is one. -/
  own : ∀ d ∈ w.redis.get n.key, d._namespace = ns ∧ d.teamId = n.teamId ∧
    (deadlines = [] → d.timeFinished = 0)

/-- What a handler's standing says about the deadlines and the rows. -/
def StandsIn (ns : String) (c : DeployCall) (w : World) (deadlines : List ℤ) :
    Standing → Prop
  | .reading T early late =>
      isDeletion c = false ∧
        (deadlines = [] ∧ w.rows ns = 0 ∧ T = 0 ∧ early = false ∨
          deadlines ≠ [] ∧ (∀ T' ∈ deadlines, T' = T) ∧ late = false)
  | .inserted => deadlines = [] ∧ w.rows ns = 1
  | .foreign => False
  | _ => True

/-- What holds while a handler is the only one at work. -/
structure HandlerInv (n : DeploymentName) (ns : String) (c : DeployCall) (w : World)
    (deadlines : List ℤ) (q : Standing) : Prop where
  /-- The entry and the rows are in order. -/
  shared : SharedInv n ns w deadlines
  /-- The standing is right. -/
  stands : StandsIn ns c w deadlines q
  /-- Only this handler may owe a deadline. -/
  paid : deadlines = [] → w.rows ns ≠ 0 → q = .inserted

/-- The rows of the deployment after an operation. -/
theorem World.rows_exec (e : DeployEnv) (o : DeployOp) (w : World) (ns : String) :
    (o.exec e w).2.rows ns =
      match o with
      | .addStartTracking row =>
          if e.fault ≠ .before ∧ row.label = ns then w.rows ns + 1 else w.rows ns
      | _ => w.rows ns := by
  rw [World.rows, DeployOp.countP_trackings_exec e o w _ fun _ _ => rfl]
  cases o with
  | addStartTracking row => simp only [decide_eq_true_eq, World.rows]
  | _ => rfl

/-- Steps that store no entry and insert no row keep what is shared. -/
theorem SharedInv.frame (h : SharedInv n ns w deadlines)
    (hclock : w.redis.clock ≤ w'.redis.clock)
    (hget : ∀ d ∈ w'.redis.get n.key, d ∈ w.redis.get n.key)
    (hrows : w'.rows ns = w.rows ns) : SharedInv n ns w' deadlines where
  same := h.same
  entry d hd := h.entry d (hget d hd)
  rows_le := hrows ▸ h.rows_le
  rows_eq hne := hrows ▸ h.rows_eq hne
  clock := h.clock.trans hclock
  own d hd := h.own d (hget d hd)

/-- Such steps keep what a standing says. -/
theorem StandsIn.frame (h : StandsIn ns c w deadlines q) (hrows : w'.rows ns = w.rows ns) :
    StandsIn ns c w' deadlines q := by
  cases q with
  | reading T early late => rwa [StandsIn, hrows]
  | inserted => rwa [StandsIn, hrows]
  | _ => exact h

/-- An entry that is there after an operation of the services. -/
theorem DeployOp.get_exec {e : DeployEnv} {o : DeployOp} {w : World} {key : String}
    {d : ChallengeDeploymentCacheDTO} (h : d ∈ (o.exec e w).2.redis.get key) :
    d ∈ w.redis.get key ∨ ∃ r, o = .redis r ∧ r.stores = some (key, d) := by
  rw [DeployOp.exec_redis] at h
  cases o with
  | redis o =>
      dsimp only at h
      by_cases hf : e.fault = .before
      · rw [hf, RedisOp.execFaulty_before] at h
        exact .inl h
      · rw [RedisOp.execFaulty_of_ne hf] at h
        rcases RedisOp.get_exec h with hd | hd
        · exact .inl hd
        · exact .inr ⟨o, rfl, hd⟩
  | _ => exact .inl h

/-- A harmless operation stores no entry and inserts no row. -/
theorem SharedInv.harmless (h : SharedInv n ns w deadlines) {o : DeployOp} (ho : Harmless o)
    (e : DeployEnv) :
    SharedInv n ns (o.exec e w).2 deadlines ∧ (o.exec e w).2.rows ns = w.rows ns ∧
      noteDeadline n e o w deadlines = deadlines := by
  have hrows : (o.exec e w).2.rows ns = w.rows ns := by
    rw [World.rows_exec]
    cases o with
    | addStartTracking row => exact ho.elim
    | _ => rfl
  refine ⟨h.frame (le_of_eq (DeployOp.exec_clock e o w).symm) (fun d hd => ?_) hrows, hrows, ?_⟩
  · rcases DeployOp.get_exec hd with hd | ⟨r, rfl, hr⟩
    · exact hd
    · cases r with
      | utcNow => cases hr
      | remove zk dk id => cases hr
      | _ => exact ho.elim
  · cases o with
    | redis o =>
        cases o with
        | utcNow => rfl
        | remove zk dk id => rfl
        | _ => exact ho.elim
    | _ => rfl

/-- A write of the entry, with the deadline there is if there is one. -/
theorem SharedInv.write (h : SharedInv n ns w deadlines) {o : DeployOp}
    {φ : ChallengeDeploymentCacheDTO → Prop} (ho : WritesEntry n ns φ o) {e : DeployEnv}
    (htime : InTime c e o w deadlines) (hrow : w.rows ns = 1)
    (hsame : ∀ d, φ d → ∀ T ∈ deadlines, T = d.timeFinished) :
    ∃ d, φ d ∧ noteDeadline n e o w deadlines = d.timeFinished :: deadlines ∧
      SharedInv n ns (o.exec e w).2 (d.timeFinished :: deadlines) ∧
      (o.exec e w).2.rows ns = w.rows ns := by
  have hrows : (o.exec e w).2.rows ns = w.rows ns := by
    rw [World.rows_exec]
    cases o with
    | addStartTracking row => exact ho.elim
    | _ => rfl
  cases o with
  | redis o =>
      cases o with
      | updateExpiration zk dk id score ttl v t =>
          obtain ⟨rfl, rfl, rfl, rfl, httl, d, rfl, hns, ht, hφ⟩ := ho
          obtain ⟨hf, hslot⟩ := htime
          have hentry : ∀ d' ∈ ((DeployOp.redis (.updateExpiration
              (getZSetKKey n.contestId n.teamId) n.key n.contestChallengeId score ttl (some d)
              n.teamId)).exec e w).2.redis.get n.key, d' = d := by
            intro d' hd'
            rw [DeployOp.exec_redis] at hd'
            dsimp only at hd'
            rw [RedisOp.execFaulty_of_ne hf] at hd'
            exact get_of_updateExpiration httl (fun _ => hslot) hd'
          refine ⟨d, hφ, if_pos ⟨hf, rfl⟩, ?_, hrows⟩
          have hmem : ∀ T ∈ d.timeFinished :: deadlines, T = d.timeFinished := by
            intro T hT
            rcases List.mem_cons.mp hT with rfl | hT
            · rfl
            · exact hsame d hφ T hT
          refine ⟨⟨fun T hT T' hT' => ?_, fun d' hd' T hT => ?_, ?_, fun _ => ?_⟩, ?_,
            fun d' hd' => ?_⟩
          · rw [hmem T hT, hmem T' hT']
          · rw [hentry d' hd', hmem T hT]
          · rw [hrows]
            exact h.rows_le
          · rw [hrows, hrow]
          · rw [DeployOp.exec_clock]
            exact h.clock
          · rw [hentry d' hd']
            exact ⟨hns, ht, fun hnil => by cases hnil⟩
      | _ => exact ho.elim
  | _ => exact ho.elim

/-- The read of a handler: it sees the entry of its own deployment, or none. -/
theorem HandlerInv.read (h : HandlerInv n ns c w deadlines .fresh) (e : DeployEnv) :
    HandlerInv n ns c ((DeployOp.redis (.get n.key)).exec e w).2 deadlines
      (afterRead n ns c ((DeployOp.redis (.get n.key)).exec e w).1) := by
  have hzero : deadlines = [] → w.rows ns = 0 := by
    intro hnil
    by_contra hne
    cases h.paid hnil hne
  have hclosed : HandlerInv n ns c w deadlines .closed :=
    ⟨h.shared, trivial, fun hnil hne => absurd (hzero hnil) hne⟩
  have hread : HandlerInv n ns c w deadlines (afterRead n ns c (.ok (w.redis.get n.key))) := by
    cases hd : w.redis.get n.key with
    | none => exact hclosed
    | some d =>
        rw [afterRead]
        split
        · exact hclosed
        · next hkeep =>
            obtain ⟨hns, ht, hT⟩ := h.shared.own d hd
            rw [if_pos ⟨hns, ht⟩]
            refine ⟨h.shared, ⟨Bool.eq_false_iff.mpr hkeep, ?_⟩,
              fun hnil hne => absurd (hzero hnil) hne⟩
            by_cases hnil : deadlines = []
            · exact .inl ⟨hnil, hzero hnil, hT hnil, rfl⟩
            · exact .inr ⟨hnil, fun T hT => (h.shared.entry d hd T hT).symm, rfl⟩
  cases hf : e.fault with
  | none =>
      simp only [DeployOp.exec, RedisOp.execFaulty, Fault.apply, hf]
      exact hread
  | before =>
      simp only [DeployOp.exec, RedisOp.execFaulty, Fault.apply, hf]
      exact hclosed
  | after =>
      simp only [DeployOp.exec, RedisOp.execFaulty, Fault.apply, hf]
      exact hclosed

/-- A harmless operation of a handler that stays where it stands. -/
theorem HandlerInv.harmless (h : HandlerInv n ns c w deadlines q) {o : DeployOp}
    (ho : Harmless o) (e : DeployEnv) :
    HandlerInv n ns c (o.exec e w).2 (noteDeadline n e o w deadlines) q := by
  obtain ⟨hshared, hrows, hnote⟩ := h.shared.harmless ho e
  rw [hnote]
  exact ⟨hshared, h.stands.frame hrows, hrows ▸ h.paid⟩

/-- A look at the clock. -/
theorem HandlerInv.look {T : ℤ} {early late : Bool}
    (h : HandlerInv n ns c w deadlines (.reading T early late))
    (htime : isDeletion c = false → ∀ T ∈ deadlines, w.redis.clock < T) :
    HandlerInv n ns c w deadlines (.reading T (early || decide (w.redis.clock < T))
      (late || !decide (w.redis.clock < T))) := by
  obtain ⟨hkeep, hstands⟩ := h.stands
  refine ⟨h.shared, ⟨hkeep, ?_⟩, fun hnil hne => by cases h.paid hnil hne⟩
  obtain ⟨hnil, hzero, rfl, rfl⟩ | ⟨hne, hT, rfl⟩ := hstands
  · have hpast : ¬w.redis.clock < 0 := not_lt.mpr h.shared.clock
    exact .inl ⟨hnil, hzero, rfl, by rw [decide_eq_false hpast, Bool.or_false]⟩
  · obtain ⟨T', hT'⟩ := List.exists_mem_of_ne_nil _ hne
    have hlt : w.redis.clock < T := hT T' hT' ▸ htime hkeep T' hT'
    exact .inr ⟨hne, hT, by rw [decide_eq_true hlt, Bool.not_true, Bool.or_false]⟩

/-- An insertion of the row. -/
theorem HandlerInv.insert {T : ℤ} {early : Bool}
    (h : HandlerInv n ns c w deadlines (.reading T early true)) {row : ChallengeStartTracking}
    (hlabel : row.label = ns) {e : DeployEnv} (hf : e.fault ≠ .after) :
    HandlerInv n ns c ((DeployOp.addStartTracking row).exec e w).2 deadlines
      (standingAfter n ns c (.reading T early true) (.addStartTracking row)
        ((DeployOp.addStartTracking row).exec e w).1) := by
  -- the handler is late, so there was no deadline and no row
  obtain ⟨-, ⟨hnil, hzero, -, -⟩ | ⟨-, -, hlate⟩⟩ := h.stands
  · cases hfault : e.fault with
    | none =>
        have hrows : ((DeployOp.addStartTracking row).exec e w).2.rows ns = 1 := by
          rw [World.rows_exec, hzero]
          exact if_pos ⟨by rw [hfault]; decide, hlabel⟩
        have hredis : ((DeployOp.addStartTracking row).exec e w).2.redis = w.redis :=
          DeployOp.exec_redis e (.addStartTracking row) w
        have hreply : ((DeployOp.addStartTracking row).exec e w).1 = .ok () := by
          simp only [DeployOp.exec, DeployEnv.write, Fault.apply, hfault]
          rfl
        rw [hreply]
        refine ⟨⟨⟨h.shared.same, fun d hd => ?_, hrows.le, fun _ => hrows⟩, ?_, fun d hd => ?_⟩,
          ⟨hnil, hrows⟩, fun _ _ => rfl⟩
        · exact h.shared.entry d (hredis ▸ hd)
        · rw [hredis]
          exact h.shared.clock
        · exact h.shared.own d (hredis ▸ hd)
    | before =>
        simp only [DeployOp.exec, DeployEnv.write, Fault.apply, hfault]
        exact ⟨h.shared, trivial, fun _ hne => absurd hzero hne⟩
    | after => exact absurd hfault hf
  · cases hlate

/-- **What one operation of a handler preserves.** -/
theorem HandlerInv.act (h : HandlerInv n ns c w deadlines q) {o : DeployOp} {e : DeployEnv}
    (hallowed : allowedIn n ns q o) (htime : InTime c e o w deadlines) :
    HandlerInv n ns c (o.exec e w).2 (noteDeadline n e o w deadlines)
      (standingAfter n ns c q o (o.exec e w).1) := by
  cases q with
  | fresh =>
      obtain rfl : o = .redis (.get n.key) := hallowed
      exact h.read e
  | closed =>
      have hstay : standingAfter n ns c .closed o (o.exec e w).1 = .closed := by
        cases o with
        | redis o => cases o <;> rfl
        | _ => rfl
      rw [hstay]
      exact h.harmless hallowed e
  | foreign => exact h.stands.elim
  | inserted =>
      obtain ⟨hnil, hone⟩ := h.stands
      rcases hallowed with rfl | hwrite
      · exact h
      · obtain ⟨d, -, hnote, hshared, -⟩ := h.shared.write hwrite htime hone
          fun d _ T hT => by rw [hnil] at hT; cases hT
        have hclosed : standingAfter n ns c .inserted o (o.exec e w).1 = .closed := by
          cases o with
          | redis o =>
              cases o with
              | updateExpiration zk dk id s ttl v t => rfl
              | _ => exact hwrite.elim
          | _ => rfl
        rw [hnote, hclosed]
        exact ⟨hshared, trivial, fun hnil => by cases hnil⟩
  | reading T early late =>
      rcases hallowed with hharmless | ⟨hinserts, rfl⟩ | ⟨hwrite, rfl⟩
      · cases o with
        | redis o =>
            cases o with
            | utcNow => exact h.look htime
            | remove zk dk id => exact h.harmless hharmless e
            | _ => exact hharmless.elim
        | addStartTracking row => exact hharmless.elim
        | _ => exact h.harmless hharmless e
      · cases o with
        | addStartTracking row => exact h.insert hinserts htime
        | _ => exact hinserts.elim
      · -- the handler is early, so there is a deadline, and it is the one the handler read
        obtain ⟨hkeep, ⟨-, -, -, hearly⟩ | ⟨hne, hT, hlate⟩⟩ := h.stands
        · cases hearly
        · obtain ⟨d, hd, hnote, hshared, -⟩ := h.shared.write hwrite htime
            (h.shared.rows_eq hne) fun d hd T' hT' => (hT T' hT').trans hd.symm
          have hstay : standingAfter n ns c (.reading T true late) o (o.exec e w).1 =
              .reading T true late := by
            cases o with
            | redis o =>
                cases o with
                | updateExpiration zk dk id s ttl v t => rfl
                | _ => exact hwrite.elim
            | _ => exact hwrite.elim
          rw [hnote, hstay]
          refine ⟨hshared, ⟨hkeep, .inr ⟨List.cons_ne_nil _ _, fun T' hT' => ?_, hlate⟩⟩,
            fun hnil => by cases hnil⟩
          rcases List.mem_cons.mp hT' with rfl | hT'
          · exact hd
          · exact hT T' hT'

end Step

/-! ### Runs -/

/-- The platform, with the deadlines written into the deployment's entry. -/
def deadlinePlatform (cfg : DeployConfig) (n : DeploymentName) :
    Service deployI Exn Unit (World × List ℤ) :=
  (platform cfg).withHistory (noteDeadline n)

/-- Handlers of one deployment that do not overlap and are in time. -/
def handlerGuard (cfg : DeployConfig) (n : DeploymentName) (ns : String)
    (w : (deadlinePlatform cfg n).Pool) : (deadlinePlatform cfg n).Move → Prop
  | .spawn c => HandlesDeployment n ns c
  | .act pid e =>
      (∀ p ∈ w.procs.eraseIdx pid, busy p = false) ∧
        match w.procs[pid]? with
        | some (c, .call o _) => InTime c e o w.shared.1 w.shared.2
        | _ => True
  | .ambient _ => True

/-- The deployment has its entry, no deadline and no row. -/
structure NotRunning (n : DeploymentName) (ns : String) (w : World) : Prop where
  /-- It is later than the epoch. -/
  clock : 0 ≤ w.redis.clock
  /-- The entry is the deployment's own, without deadline. -/
  own : ∀ d ∈ w.redis.get n.key,
    d._namespace = ns ∧ d.teamId = n.teamId ∧ d.timeFinished = 0
  /-- There is no row. -/
  rows : w.rows ns = 0

/-- The invariant of a run: no handler is at work and nothing is owed, or there is one at
work, and what holds is up to its standing. -/
structure DeadlineInv (n : DeploymentName) (ns : String) (s : World × List ℤ)
    (procs : List (DeployCall × Prog deployI Exn Unit)) (qs : List Standing) : Prop where
  /-- Nobody saw the entry of another deployment. -/
  own : ∀ q ∈ qs, q ≠ .foreign
  /-- One handler is at work, or none. -/
  work : (∀ p ∈ procs, busy p = false) ∧ SharedInv n ns s.1 s.2 ∧
      (s.2 = [] → s.1.rows ns = 0) ∨
    ∃ (i : ℕ) (p : DeployCall × Prog deployI Exn Unit) (q : Standing),
      procs[i]? = some p ∧ qs[i]? = some q ∧ busy p = true ∧
        (∀ p ∈ procs.eraseIdx i, busy p = false) ∧ HandlerInv n ns p.1 s.1 s.2 q

/-- A handler that may only read is not at work. -/
theorem busy_of_follows_fresh {n : DeploymentName} {ns : String} {c : DeployCall}
    {p : Prog deployI Exn Unit}
    (h : p.Follows (handlerProtocol n ns c) (Ended c) .fresh) : busy (c, p) = false := by
  cases p with
  | ret r => rfl
  | call o k =>
      obtain rfl : o = .redis (.get n.key) := h.1
      rfl

/-- A handler at work has read. -/
theorem eq_fresh_of_not_busy {n : DeploymentName} {ns : String} {c : DeployCall}
    {o : DeployOp} {k : Except Exn o.Reply → Prog deployI Exn Unit} {q : Standing}
    (h : (Prog.call o k : Prog deployI Exn Unit).Follows (handlerProtocol n ns c) (Ended c) q)
    (hq : q ≠ .foreign) (hbusy : busy (c, .call o k) = false) : q = .fresh := by
  obtain ⟨hallowed, -⟩ := h
  cases o with
  | redis o =>
      cases o with
      | get key =>
          cases q with
          | fresh => rfl
          | reading T early late =>
              obtain h | ⟨h, -⟩ | ⟨h, -⟩ := hallowed
              · exact h.elim
              · exact h.elim
              · exact h.elim
          | inserted =>
              obtain h | h := hallowed
              · cases h
              · exact h.elim
          | closed => exact hallowed.elim
          | foreign => exact absurd rfl hq
      | _ => cases hbusy
  | _ => cases hbusy

/-- A handler that owes a deadline is at work. -/
theorem busy_of_follows_inserted {n : DeploymentName} {ns : String} {c : DeployCall}
    {p : Prog deployI Exn Unit}
    (h : p.Follows (handlerProtocol n ns c) (Ended c) .inserted) : busy (c, p) = true := by
  cases p with
  | ret r => exact absurd rfl h
  | call o k =>
      rcases h.1 with rfl | hwrite
      · rfl
      · cases o with
        | redis o =>
            cases o with
            | updateExpiration zk dk id s ttl v t => rfl
            | _ => exact hwrite.elim
        | _ => exact hwrite.elim

/-- A standing that no step leads into. -/
theorem HandlerInv.ne_foreign {n : DeploymentName} {ns : String} {c : DeployCall} {w : World}
    {deadlines : List ℤ} {q : Standing} (h : HandlerInv n ns c w deadlines q) :
    q ≠ .foreign := by
  rintro rfl
  exact h.stands

/-- A handler that has read may not have inserted a row for nothing. -/
theorem HandlerInv.rows_eq_zero {n : DeploymentName} {ns : String} {c : DeployCall} {w : World}
    {deadlines : List ℤ} {q : Standing} (h : HandlerInv n ns c w deadlines q)
    (hq : q ≠ .inserted) (hnil : deadlines = []) : w.rows ns = 0 := by
  by_contra hne
  exact hq (h.paid hnil hne)

/-- The passage of time. -/
theorem SharedInv.tick {n : DeploymentName} {ns : String} {w : World} {deadlines : List ℤ}
    (h : SharedInv n ns w deadlines) (d : ℕ) :
    SharedInv n ns ((DeployMove.tick d).apply w) deadlines :=
  h.frame (w.redis.clock_le_tick d) (fun _ hd => Db.get_of_tick _ hd) rfl

section Run

variable {n : DeploymentName} {ns : String} {s : World × List ℤ}
  {procs : List (DeployCall × Prog deployI Exn Unit)} {qs : List Standing}

/-- A handler takes a step. -/
theorem deadlineInv_act {pid : ℕ} {e : DeployEnv} {c : DeployCall} {o : DeployOp}
    {k : Except Exn o.Reply → Prog deployI Exn Unit} {q : Standing}
    (h : DeadlineInv n ns s procs qs) (hp : procs[pid]? = some (c, .call o k))
    (hq : qs[pid]? = some q) (hothers : ∀ p ∈ procs.eraseIdx pid, busy p = false)
    (htime : InTime c e o s.1 s.2)
    (hf : (Prog.call o k : Prog deployI Exn Unit).Follows (handlerProtocol n ns c) (Ended c) q) :
    DeadlineInv n ns ((o.exec e s.1).2, noteDeadline n e o s.1 s.2)
      (procs.set pid (c, k (o.exec e s.1).1))
      (qs.set pid (standingAfter n ns c q o (o.exec e s.1).1)) := by
  have hqne := h.own q (List.mem_of_getElem? hq)
  -- the others are not at work, so this one is, or it starts now
  have hinv : HandlerInv n ns c s.1 s.2 q := by
    obtain ⟨hidle, hshared, hzero⟩ | ⟨i, p, q', hpi, hqi, hbusy, -, hinv⟩ := h.work
    · obtain rfl := eq_fresh_of_not_busy hf hqne (hidle _ (List.mem_of_getElem? hp))
      exact ⟨hshared, trivial, fun hnil hne => absurd (hzero hnil) hne⟩
    · by_cases hi : i = pid
      · subst hi
        obtain rfl := Option.some.inj (hpi.symm.trans hp)
        obtain rfl := Option.some.inj (hqi.symm.trans hq)
        exact hinv
      · have hidle := hothers p (List.mem_eraseIdx_iff_getElem?.mpr ⟨i, hi, hpi⟩)
        rw [hidle] at hbusy
        cases hbusy
  have hinv' := hinv.act hf.1 htime
  have hf' : (k (o.exec e s.1).1).Follows (handlerProtocol n ns c) (Ended c)
      (standingAfter n ns c q o (o.exec e s.1).1) := hf.2 _
  refine ⟨fun q' hq' => ?_, ?_⟩
  · rcases List.mem_or_eq_of_mem_set hq' with hq' | rfl
    · exact h.own q' hq'
    · exact hinv'.ne_foreign
  · by_cases hbusy : busy (c, k (o.exec e s.1).1) = true
    · refine .inr ⟨pid, _, _, List.getElem?_set_self (List.getElem?_eq_some_iff.mp hp).1,
        List.getElem?_set_self (List.getElem?_eq_some_iff.mp hq).1, hbusy, ?_, hinv'⟩
      rw [List.eraseIdx_set_eq]
      exact hothers
    · refine .inl ⟨fun p hpm => ?_, hinv'.shared, hinv'.rows_eq_zero fun hins => hbusy ?_⟩
      · obtain ⟨i, hpi⟩ := List.mem_iff_getElem?.mp hpm
        by_cases hi : i = pid
        · subst hi
          rw [List.getElem?_set_self (List.getElem?_eq_some_iff.mp hp).1] at hpi
          obtain rfl := Option.some.inj hpi
          exact Bool.eq_false_iff.mpr hbusy
        · rw [List.getElem?_set_ne (Ne.symm hi)] at hpi
          exact hothers p (List.mem_eraseIdx_iff_getElem?.mpr ⟨i, hi, hpi⟩)
      · rw [hins] at hf'
        exact busy_of_follows_inserted hf'

/-- A handler comes. -/
theorem deadlineInv_spawn {c : DeployCall} {p : Prog deployI Exn Unit}
    (h : DeadlineInv n ns s procs qs) (hbusy : busy (c, p) = false) :
    DeadlineInv n ns s (procs ++ [(c, p)]) (qs ++ [.fresh]) := by
  refine ⟨fun q hq => ?_, ?_⟩
  · rcases List.mem_append.mp hq with hq | hq
    · exact h.own q hq
    · obtain rfl := List.mem_singleton.mp hq
      exact fun hne => by cases hne
  · have hidle : ∀ procs : List (DeployCall × Prog deployI Exn Unit),
        (∀ p ∈ procs, busy p = false) → ∀ p' ∈ procs ++ [(c, p)], busy p' = false := by
      intro procs hprocs p' hp
      rcases List.mem_append.mp hp with hp | hp
      · exact hprocs p' hp
      · obtain rfl := List.mem_singleton.mp hp
        exact hbusy
    obtain ⟨hall, hrest⟩ | ⟨i, p', q, hpi, hqi, hb, hothers, hinv⟩ := h.work
    · exact .inl ⟨hidle _ hall, hrest⟩
    · have hlt := (List.getElem?_eq_some_iff.mp hpi).1
      refine .inr ⟨i, p', q, ?_, ?_, hb, ?_, hinv⟩
      · rw [List.getElem?_append_left hlt]
        exact hpi
      · rw [List.getElem?_append_left (List.getElem?_eq_some_iff.mp hqi).1]
        exact hqi
      · rw [List.eraseIdx_append_of_lt_length hlt]
        exact hidle _ hothers

/-- The surroundings act. -/
theorem deadlineInv_ambient (m : DeployMove) (h : DeadlineInv n ns s procs qs) :
    DeadlineInv n ns (m.apply s.1, s.2) procs qs := by
  have hrows : (m.apply s.1).rows ns = s.1.rows ns := by
    cases m <;> rfl
  have hshared : SharedInv n ns s.1 s.2 →
      SharedInv n ns (m.apply s.1) s.2 := by
    intro hs
    cases m with
    | tick d => exact hs.tick d
    | tables t => exact hs.frame (le_refl _) (fun _ hd => hd) rfl
  refine ⟨h.own, ?_⟩
  obtain ⟨hall, hs, hzero⟩ | ⟨i, p, q, hpi, hqi, hb, hothers, hinv⟩ := h.work
  · exact .inl ⟨hall, hshared hs, fun hnil => hrows.trans (hzero hnil)⟩
  · refine .inr ⟨i, p, q, hpi, hqi, hb, hothers, hshared hinv.shared, hinv.stands.frame hrows, ?_⟩
    exact fun hnil hne => hinv.paid hnil (hrows ▸ hne)

end Run

instance decidableHandlesDeployment (n : DeploymentName) (ns : String) (c : DeployCall) :
    Decidable (HandlesDeployment n ns c) := by
  unfold HandlesDeployment
  split <;> infer_instance

instance decidableInTime (c : DeployCall) (e : DeployEnv) (o : DeployOp) (w : World)
    (deadlines : List ℤ) : Decidable (InTime c e o w deadlines) := by
  unfold InTime
  split <;> infer_instance

/-- Are all handlers but one not at work? -/
def othersIdle (procs : List (DeployCall × Prog deployI Exn Unit)) (pid : ℕ) : Bool :=
  (procs.eraseIdx pid).all fun p => !busy p

instance (cfg : DeployConfig) (n : DeploymentName) (ns : String)
    (w : (deadlinePlatform cfg n).Pool) (m : (deadlinePlatform cfg n).Move) :
    Decidable (handlerGuard cfg n ns w m) := by
  unfold handlerGuard
  split
  · exact decidableHandlesDeployment ..
  · next pid e =>
      refine @instDecidableAnd _ _ (decidable_of_iff (othersIdle w.procs pid = true) ?_) ?_
      · simp only [othersIdle, List.all_eq_true, Bool.not_eq_true']
        rfl
      · split
        · exact decidableInTime ..
        · infer_instance
  · infer_instance

/-- The challenge was started by team 5 at time 1000 and its workflow submitted. -/
def deployedWorld : World :=
  ((Service.run ((platform defaultConfig).start webWorld) deployWeb).map
    fun w => (show World from w.shared)).getD webWorld

/-- The name of its deployment. -/
def webName : DeploymentName := ⟨5, 1, 7⟩

theorem notRunning_deployedWorld : NotRunning webName "team-5-1-7-web-1000" deployedWorld := by
  have hown : (deployedWorld.redis.get webName.key).all (fun d =>
      decide (d._namespace = "team-5-1-7-web-1000" ∧ d.teamId = 5 ∧ d.timeFinished = 0)) =
        true := by
    decide +kernel
  refine ⟨by decide +kernel, fun d hd => ?_, by decide +kernel⟩
  rw [Option.mem_def.mp hd, Option.all_some] at hown
  exact of_decide_eq_true hown

end Fctf
