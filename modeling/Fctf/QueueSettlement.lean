import Fctf.Lib.History
import Fctf.Platform
import Fctf.QueueService

/-!
# Messages are Settled

The broker keeps a delivery until it is acknowledged, positively or negatively. A delivery
that is never settled is blocked, one that is settled twice closes the channel, and one
that is acknowledged too early is lost if its deployment fails afterwards.

## Main results

* `settled_of_wellFormed`: in every run with well-formed requests whose settlements get
  through, every delivery that has left the buffer is settled once, and an acknowledgement
  is not too early as long as no workflow is started.
* `not_settled`: a request that is `null` is never settled, and a started workflow is
  acknowledged before it is recorded.
-/

open Concurrent RedisDb

namespace Fctf

namespace QueueSettlement

/-! ### Where a call stands -/

/-- Can the worker decode the request? -/
def processable (payload : Option DeploymentQueuePayload) : Bool :=
  payload.any fun payload =>
    match payload.data with
    | .request _ => true
    | _ => false

/-- Where a call stands. -/
structure Stage where
  /-- The deliveries it has to settle or to pass on. -/
  held : Multiset ℕ
  /-- The message it has seen last. -/
  seen : Option BufferedMessage
  /-- Is that one known to be too old? -/
  old : Bool
  /-- Has Argo started a workflow? -/
  named : Bool
  /-- Has something happened that leaves a delivery unsettled, or lets it be settled
  twice? -/
  spoiled : Bool

/-- A call that has begun. -/
def Stage.start : Stage := ⟨0, none, false, false, false⟩

/-- The message of a delivery, if it can be decoded. -/
def messageOf (tag : ℕ) : Body → Option BufferedMessage
  | .undecodable => none
  | .decoded payload => some ⟨tag, payload⟩

/-- A delivery was settled, or passed on. -/
def Stage.release (q : Stage) (tag : ℕ) : Stage := { q with held := q.held.erase tag }

/-- A delivery may be left unsettled. -/
def Stage.spoil (q : Stage) : Stage := { q with spoiled := true }

/-- The stage after Argo's response. -/
def Stage.submitted (q : Stage) : ArgoResponse → Stage
  | .empty => q.spoil
  | .named workflowName =>
      { q with
        named := true
        spoiled := q.spoiled || workflowName.toList.all Char.isWhitespace }
  | _ => q

/-- The stage after an operation. -/
def Stage.next (q : Stage) : (o : queueI.Op) → Except Exn (queueI.Reply o) → Stage
  | .inr (.deliver body), .ok tag =>
      { q with held := tag ::ₘ q.held, seen := messageOf tag body, old := false }
  | .inr (.write message), .ok _ => q.release message.deliveryTag
  | .inr (.write _), .error _ => q.spoil
  | .inr .tryRead, .ok (some message) =>
      { q with
        held := message.deliveryTag ::ₘ q.held
        seen := some message
        old := false
        spoiled := q.spoiled || !processable message.payload }
  | .inr .tryRead, .error _ => q.spoil
  | .inr (.basicAck tag), .ok _ => q.release tag
  | .inr (.basicAck _), .error _ => q.spoil
  | .inl (.ack tag), .ok _ => q.release tag
  | .inl (.ack _), .error _ => q.spoil
  | .inl (.nack tag), .ok _ => q.release tag
  | .inl (.nack _), .error _ => q.spoil
  | .inl (.redis .utcNow), .ok now =>
      { q with old := q.old || q.seen.any fun message => isExpired message.payload now }
  | .inl (.redis .utcNow), .error _ => q.spoil
  | .inl (.submitWorkflow _ _), .ok response => q.submitted response
  | _, _ => q

/-- It may settle a delivery that it holds. -/
def Stage.Holds (q : Stage) (tag : ℕ) : Prop := q.spoiled = true ∨ tag ∈ q.held

/-- It may acknowledge a delivery that is too old, or whose workflow was started. -/
def Stage.MayAck (q : Stage) (tag : ℕ) : Prop :=
  q.named = true ∨ q.old = true ∧ ∃ message, q.seen = some message ∧ message.deliveryTag = tag

/-- The operations of the deployment services allowed in a stage. -/
def Stage.allowsDeploy (q : Stage) : DeployOp → Prop
  | .ack tag => q.Holds tag ∧ q.MayAck tag
  | .nack tag => q.Holds tag
  | _ => True

/-- The operations of the buffer allowed in a stage. -/
def Stage.allowsBuffer (c : QueueCall) (q : Stage) : BufferOp → Prop
  | .deliver body => c = .receive body
  | .basicAck tag => q.Holds tag ∧ q.MayAck tag
  | .write message => q.seen = some message ∧ q.Holds message.deliveryTag
  | _ => True

/-- The protocol of a call. -/
def protocol (c : QueueCall) : Protocol queueI Exn Stage where
  allows q
    | .inl o => q.allowsDeploy o
    | .inr o => q.allowsBuffer c o
  next := Stage.next

/-- It ends with nothing in its hands. -/
def Stage.ends (q : Stage) (_ : Except Exn Unit) : Prop := q.spoiled = true ∨ q.held = 0

/-! ### The programs, stage by stage -/

/-- An operation that neither settles, passes on nor takes a delivery, and starts no
workflow. -/
def Quiet : DeployOp → Prop
  | .ack _ => False
  | .nack _ => False
  | .submitWorkflow _ _ => False
  | _ => True

/-- The deliveries of `rest` are left to be settled. -/
def Left (rest : Multiset ℕ) (q : Stage) : Prop := q.spoiled = true ∨ q.held = rest

section Walk

variable {c : QueueCall} {q : Stage} {rest : Multiset ℕ} {tag : ℕ}

theorem Left.holds (h : Left (tag ::ₘ rest) q) : q.Holds tag := by
  rcases h with h | h
  · exact .inl h
  · exact .inr (h ▸ Multiset.mem_cons_self tag rest)

theorem Left.release (h : Left (tag ::ₘ rest) q) : Left rest (q.release tag) := by
  refine h.imp id fun h => ?_
  rw [Stage.release, h, Multiset.erase_cons_head]

theorem left_spoil : Left rest q.spoil := .inl rfl

/-- The part of the protocol that concerns the deployment services. -/
def deployProtocol : Protocol deployI Exn Stage :=
  ⟨Stage.allowsDeploy, fun q o r => q.next (.inl o) r⟩

/-- A quiet operation changes nothing of what is held. -/
theorem next_of_quiet {o : DeployOp} (h : Quiet o) (r : Except Exn o.Reply) :
    (q.next (.inl o) r).held = q.held ∧
      (q.spoiled = true → (q.next (.inl o) r).spoiled = true) := by
  cases o with
  | ack tag => exact h.elim
  | nack tag => exact h.elim
  | submitWorkflow appName req => exact h.elim
  | redis o =>
      cases o with
      | utcNow =>
          rcases r with e | now
          · exact ⟨rfl, fun _ => rfl⟩
          · exact ⟨rfl, id⟩
      | _ => exact ⟨rfl, id⟩
  | _ => exact ⟨rfl, id⟩

theorem allows_of_quiet {o : DeployOp} (h : Quiet o) : deployProtocol.allows q o := by
  cases o with
  | ack tag => exact h.elim
  | nack tag => exact h.elim
  | submitWorkflow appName req => exact h.elim
  | _ => trivial

theorem Left.next_of_quiet {o : DeployOp} (hq : Left rest q) (h : Quiet o)
    (r : Except Exn o.Reply) : Left rest (q.next (.inl o) r) := by
  obtain ⟨hheld, hspoiled⟩ := QueueSettlement.next_of_quiet (q := q) h r
  exact hq.imp hspoiled hheld.trans

/-- A quiet program. -/
theorem follows_of_quiet {α : Type} {p : Prog deployI Exn α} (h : p.Throughout Quiet)
    (hq : Left rest q) : p.Follows deployProtocol (fun q _ => Left rest q) q :=
  .of_invariant (h.mono fun _ ho _ hq => ⟨allows_of_quiet ho, hq.next_of_quiet ho⟩) hq

/-- What an attempt to settle `tag` leaves: the rest, or everything if it has raised. -/
def Settles {α : Type} (tag : ℕ) (rest : Multiset ℕ) (q : Stage) : Except Exn α → Prop
  | .ok _ => Left rest q
  | .error _ => Left (tag ::ₘ rest) q

theorem follows_submitAndAck (appName : String) (req : ChallengeStartStopReqDTO) (expiry : ℤ)
    (h : Left (tag ::ₘ rest) q) :
    (submitAndAck appName ⟨tag, req, expiry⟩).Follows deployProtocol (Settles tag rest) q := by
  refine ⟨trivial, fun r => ?_⟩
  rcases r with e | response
  · exact h
  cases response with
  | none => exact h
  | empty => exact left_spoil
  | malformed => exact h
  | named workflowName =>
      have hnamed : Left (tag ::ₘ rest) (q.submitted (.named workflowName)) :=
        h.imp (fun hq => Bool.or_eq_true_iff.mpr (.inl hq)) id
      refine ⟨⟨hnamed.holds, .inl rfl⟩, fun r => ?_⟩
      rcases r with e | _
      · exact left_spoil
      · dsimp only
        split
        · next hblank => exact Or.inl (Bool.or_eq_true_iff.mpr (.inr hblank))
        · exact hnamed.release

/-- The entry is written. The clock answers, and nothing else is raised. -/
theorem follows_record (tag : ℕ) (teamId challengeId ttl contestId : ℤ) (key : String)
    (value : Option ChallengeDeploymentCacheDTO) (hq : Left rest q) :
    (atomicUpdateExpiration teamId key challengeId ttl value contestId :
      Prog deployI Exn Bool).Follows deployProtocol (Settles tag rest) q := by
  refine ⟨trivial, fun r => ?_⟩
  rcases r with e | now
  · exact left_spoil
  · refine ⟨trivial, fun r => ?_⟩
    rcases r with e | result
    · exact hq
    · exact hq

theorem follows_deployMessage (cfg : DeployConfig) (req : ChallengeStartStopReqDTO) (expiry : ℤ)
    (cache : Option ChallengeDeploymentCacheDTO) (h : Left (tag ::ₘ rest) q) :
    (deployMessage cfg ⟨tag, req, expiry⟩ cache).Follows deployProtocol (Settles tag rest) q := by
  rcases cache with _ | cache
  · exact h
  have hfind : (issue (.findContestsChallenge req.contestChallengeId)).Throughout Quiet :=
    throughout_issue trivial
  refine Prog.Follows.bind ((follows_of_quiet hfind h).mono fun q r hq => ?_)
  rcases r with e | _ | contestChallenge
  · exact hq
  · exact hq
  dsimp only
  split
  · exact hq
  have happName : (buildArgoPayload cfg contestChallenge req).Throughout Quiet :=
    .bind (throughout_utcNow trivial) fun _ => trivial
  refine Prog.Follows.bind ((follows_of_quiet happName hq).mono fun q r hq => ?_)
  rcases r with e | appName
  · exact hq
  refine Prog.Follows.bind ((follows_submitAndAck appName req expiry hq).mono fun q r hq => ?_)
  rcases r with e | workflowName
  · exact hq
  refine Prog.Follows.bind ((follows_record tag _ _ _ _ _ _ hq).mono fun q r hq => ?_)
  rcases r with e | recorded
  · exact hq
  · exact hq

/-- What is left in the end, unless something was raised. -/
def LeftUnlessRaised {α : Type} (rest : Multiset ℕ) (q : Stage) : Except Exn α → Prop
  | .ok _ => Left rest q
  | .error _ => q.spoiled = true

/-- **One message** that can be decoded is settled. -/
theorem follows_processMessage (cfg : DeployConfig) (req : ChallengeStartStopReqDTO) (expiry : ℤ)
    (h : Left (tag ::ₘ rest) q) :
    (processMessage cfg ⟨tag, req, expiry⟩).Follows deployProtocol (LeftUnlessRaised rest) q := by
  have hcache : (getFromCacheAsync req.key : Prog deployI Exn _).Follows deployProtocol
      (fun q r => Left (tag ::ₘ rest) q ∧ r.isOk = true) q := by
    refine ⟨trivial, fun r => ?_⟩
    rcases r with e | cache
    · exact ⟨h, rfl⟩
    · exact ⟨h, rfl⟩
  refine Prog.Follows.bind (hcache.mono fun q r hq => ?_)
  rcases r with e | cache
  · cases hq.2
  refine Prog.Follows.handle ((follows_deployMessage cfg req expiry cache hq.1).mono
    fun q r hq => ?_)
  rcases r with e | _
  · refine ⟨hq.holds, fun r => ?_⟩
    rcases r with e | _
    · rfl
    · exact hq.release
  · exact hq

/-- What a look at the time tells of the message seen last. -/
def Judged (message : BufferedMessage) (rest : Multiset ℕ) (q : Stage) :
    Except Exn Bool → Prop
  | .ok expired => Left rest q ∧ q.seen = some message ∧ (expired = true → q.old = true)
  | .error _ => q.spoiled = true

theorem follows_checkExpired {payload : Option DeploymentQueuePayload} (h : Left rest q)
    (hseen : q.seen = some ⟨tag, payload⟩) :
    (checkExpired payload).Follows (protocol c) (Judged ⟨tag, payload⟩ rest) q := by
  rcases payload with _ | payload
  · exact ⟨h, hseen, fun h => absurd h Bool.false_ne_true⟩
  · refine ⟨trivial, fun r => ?_⟩
    rcases r with e | now
    · rfl
    · refine ⟨h, hseen, fun hexpired => Bool.or_eq_true_iff.mpr (.inr ?_)⟩
      rw [hseen]
      exact hexpired

/-- The tags of a batch. -/
def tags (batch : List BufferedMessage) : Multiset ℕ := ↑(batch.map (·.deliveryTag))

theorem tags_concat (batch : List BufferedMessage) (message : BufferedMessage) :
    tags (batch ++ [message]) = message.deliveryTag ::ₘ tags batch := by
  rw [tags, List.map_append, List.map_singleton, ← Multiset.coe_add, Multiset.coe_singleton,
    add_comm, Multiset.singleton_add, tags]

/-- A batch is held, and all of it can be decoded. -/
def HoldsBatch (batch : List BufferedMessage) (q : Stage) : Prop :=
  q.spoiled = true ∨ q.held = tags batch ∧ ∀ message ∈ batch, processable message.payload = true

/-- Where a batch has been read. -/
def BatchRead (q : Stage) : Except Exn (List BufferedMessage) → Prop
  | .ok batch => HoldsBatch batch q
  | .error _ => q.spoiled = true

/-- A message that has been read. -/
theorem holdsBatch_of_read {batch : List BufferedMessage} {message : BufferedMessage}
    (h : HoldsBatch batch q) :
    HoldsBatch (batch ++ [message]) (q.next (.inr .tryRead) (.ok (some message))) := by
  by_cases hmessage : processable message.payload = true
  · refine h.imp (fun hq => Bool.or_eq_true_iff.mpr (.inl hq)) fun ⟨hheld, hall⟩ => ⟨?_, ?_⟩
    · rw [tags_concat, ← hheld]
      rfl
    · exact List.forall_mem_append.mpr ⟨hall, List.forall_mem_singleton.mpr hmessage⟩
  · refine .inl (Bool.or_eq_true_iff.mpr (.inr ?_))
    rw [Bool.eq_false_iff.mpr hmessage]
    rfl

/-- What is spoiled stays so. -/
theorem spoiled_next (q : Stage) (o : queueI.Op) (r : Except Exn (queueI.Reply o))
    (h : q.spoiled = true) : (q.next o r).spoiled = true := by
  unfold Stage.next
  split
  case h_4 => exact Bool.or_eq_true_iff.mpr (.inl h)
  case h_14 response =>
      cases response with
      | named workflowName => exact Bool.or_eq_true_iff.mpr (.inl h)
      | empty => rfl
      | _ => exact h
  all_goals first | exact h | rfl

theorem follows_readBatch (count moreReads : ℕ) (batch : List BufferedMessage)
    (h : HoldsBatch batch q) :
    (readBatch count moreReads batch).Follows (protocol c) BatchRead q := by
  induction moreReads generalizing batch q with
  | zero => exact h
  | succ n ih =>
      rw [readBatch]
      split
      · refine ⟨trivial, fun r => ?_⟩
        rcases r with e | _ | message
        · rfl
        · exact h
        have hread := @holdsBatch_of_read _ _ message h
        have hleft : Left (message.deliveryTag ::ₘ tags batch)
            (q.next (.inr .tryRead) (.ok (some message))) :=
          hread.imp id fun hheld => hheld.1.trans (tags_concat batch message)
        refine Prog.Follows.bind (p := checkExpired message.payload)
          (((follows_checkExpired hleft rfl).keep spoiled_next).mono fun q' r hq' => ?_)
        obtain ⟨hq', hspoiled⟩ := hq'
        rcases r with e | expired
        · exact hq'
        obtain ⟨hleft', hseen, hold⟩ := hq'
        dsimp only
        split
        · -- it is too old
          next hexpired =>
          refine ⟨⟨hleft'.holds, .inr ⟨hold hexpired, message, hseen, rfl⟩⟩, fun r => ?_⟩
          rcases r with e | _
          · rfl
          refine ih batch ?_
          rcases hread with hread | hread
          · exact .inl (hspoiled hread)
          · exact hleft'.release.imp id fun hheld =>
              ⟨hheld, (List.forall_mem_append.mp hread.2).1⟩
        · refine ih (batch ++ [message]) ?_
          rcases hread with hread | hread
          · exact .inl (hspoiled hread)
          · exact hleft'.imp id fun hheld =>
              ⟨hheld.trans (tags_concat batch message).symm, hread.2⟩
      · exact h

/-- A message that cannot be decoded spoils the batch. -/
theorem HoldsBatch.spoiled {batch : List BufferedMessage} {message : BufferedMessage}
    (h : HoldsBatch (message :: batch) q) (hmessage : processable message.payload = false) :
    q.spoiled = true := by
  rcases h with h | h
  · exact h
  · exact absurd (h.2 message List.mem_cons_self) (Bool.eq_false_iff.mp hmessage)

/-- **The batch** is worked through. -/
theorem follows_excute (cfg : DeployConfig) (batch : List BufferedMessage)
    (h : HoldsBatch batch q) :
    (forM batch (excute cfg)).Follows (protocol c) Stage.ends q := by
  induction batch generalizing q with
  | nil => exact h.imp id fun hheld => hheld.1
  | cons message batch ih =>
      rw [List.forM_cons]
      obtain ⟨tag, payload⟩ := message
      rcases payload with _ | ⟨data, expiry⟩
      · exact Or.inl (h.spoiled rfl)
      cases data with
      | undecodable => exact Or.inl (h.spoiled rfl)
      | null => exact ih (.inl (h.spoiled rfl))
      | request req =>
          have hleft : Left (tag ::ₘ tags batch) q := h.imp id fun hheld => hheld.1
          refine Prog.Follows.bind
            (((follows_processMessage cfg req expiry hleft).onFirst.keep spoiled_next).mono
              fun q' r hq' => ?_)
          obtain ⟨hq', hspoiled⟩ := hq'
          rcases r with e | _
          · exact Or.inl hq'
          refine ih ?_
          rcases h with h | h
          · exact .inl (hspoiled h)
          · exact hq'.imp id fun hheld => ⟨hheld, (List.forall_mem_cons.mp h.2).2⟩

/-- **A batch** from its start. -/
theorem follows_processAsync (cfg : DeployConfig) (moreReads : ℕ) :
    (processAsync cfg moreReads).Follows (protocol c) Stage.ends .start := by
  have hstart : HoldsBatch [] Stage.start := .inr ⟨rfl, fun _ h => nomatch h⟩
  refine Prog.Follows.bind ⟨trivial, fun r => ?_⟩
  rcases r with e | runningWorkflow
  · exact Or.inr rfl
  change Prog.Follows (protocol c) Stage.ends Stage.start
    (if cfg.maxRunningWorkflow ≤ (show ℕ from runningWorkflow) then _ else _)
  split
  · exact Or.inr rfl
  refine Prog.Follows.bind ?_
  refine ⟨trivial, fun r => ?_⟩
  rcases r with e | _
  · exact Or.inr rfl
  refine (follows_readBatch _ moreReads [] hstart).mono fun q r hq => ?_
  rcases r with e | batch
  · exact Or.inl hq
  · exact follows_excute cfg batch hq

/-- What the `try` block leaves of a delivery. -/
def Buffers (tag : ℕ) (q : Stage) : Except Exn Unit → Prop
  | .ok _ => Left 0 q
  | .error _ => Left {tag} q

theorem follows_bufferDelivery (body : Body) (h : Left {tag} q)
    (hseen : q.seen = messageOf tag body) :
    (bufferDelivery tag body).Follows (protocol c) (Buffers tag) q := by
  rcases body with _ | payload
  · exact h
  · refine Prog.Follows.bind ((follows_checkExpired h hseen).mono fun q r hq => ?_)
    rcases r with e | expired
    · exact Or.inl hq
    obtain ⟨hleft, hseen, hold⟩ := hq
    cases expired with
    | true =>
        refine ⟨⟨hleft.holds, .inr ⟨hold rfl, _, hseen, rfl⟩⟩, fun r => ?_⟩
        rcases r with e | _
        · exact left_spoil
        · exact hleft.release
    | false =>
        refine ⟨⟨hseen, hleft.holds⟩, fun r => ?_⟩
        rcases r with e | _
        · exact left_spoil
        · exact hleft.release

/-- **A delivery** is buffered or settled. -/
theorem follows_onMessageReceived (body : Body) :
    (onMessageReceived body).Follows (protocol (.receive body)) Stage.ends .start := by
  refine ⟨rfl, fun r => ?_⟩
  rcases r with e | tag
  · exact Or.inr rfl
  have hleft : Left {tag} (Stage.start.next (.inr (.deliver body)) (.ok tag)) := .inr rfl
  refine Prog.Follows.handle ((follows_bufferDelivery body hleft rfl).mono fun q r hq => ?_)
  rcases r with e | _
  · refine ⟨hq.holds, fun r => ?_⟩
    rcases r with e | _
    · exact Or.inl rfl
    · exact hq.release
  · exact hq

/-- Every call keeps to its stages. -/
theorem follows_call (cfg : DeployConfig) (c : QueueCall) :
    ((queueService cfg).program c).Follows (protocol c) Stage.ends .start := by
  cases c with
  | receive body => exact follows_onMessageReceived body
  | process moreReads => exact follows_processAsync cfg moreReads

end Walk

/-! ### Runs -/

/-- A delivery that cannot be decoded at all is fine, and so is one with a request. -/
def WellFormed : Body → Prop
  | .undecodable => True
  | .decoded payload => processable payload = true

/-- Does it settle a delivery? -/
def settles : queueI.Op → Bool
  | .inl (.ack _) => true
  | .inl (.nack _) => true
  | .inr (.basicAck _) => true
  | _ => false

/-- Does it submit a workflow? -/
def submits : queueI.Op → Bool
  | .inl (.submitWorkflow _ _) => true
  | _ => false

/-- A response that is not empty, and that names the workflow if it has one. -/
def Usable : ArgoResponse → Bool
  | .empty => false
  | .named workflowName => !workflowName.toList.all Char.isWhitespace
  | _ => true

/-- A response that names a workflow. -/
def Starts : ArgoResponse → Bool
  | .named _ => true
  | _ => false

section Runs

variable {cfg : DeployConfig}

/-- **What is settled**: requests are well-formed, the channel stays open, settlements get
through, and Argo's responses are usable. -/
def Settling (_ : List (queueService cfg).Entry) (w : (queueService cfg).Pool) :
    (queueService cfg).Move → Prop
  | .spawn (.receive body) => WellFormed body
  | .spawn (.process _) => True
  | .ambient .close => False
  | .ambient _ => True
  | .act pid e =>
      match w.procs[pid]? with
      | some (_, .call o _) =>
          (settles o = true → DeployEnv.fault e = .none) ∧
            (submits o = true → Usable (DeployEnv.argo e) = true)
      | _ => True

/-- **What is not acknowledged early**: the channel stays open, and no workflow is
started. -/
def NothingStarted (_ : List (queueService cfg).Entry) (w : (queueService cfg).Pool) :
    (queueService cfg).Move → Prop
  | .ambient .close => False
  | .act pid e =>
      match w.procs[pid]? with
      | some (_, .call o _) => submits o = true → Starts (DeployEnv.argo e) = false
      | _ => True
  | _ => True

/-- What the broker was told of a delivery, and how often. -/
def settledCount (w : QueueWorld) (tag : ℕ) : ℕ := w.settlements.countP fun x => x.tag = tag

/-- **Settled once**: no delivery is settled twice, and when all calls have finished every
delivery is still in the buffer or settled. -/
def SettledOnce (w : (queueService cfg).Pool) : Prop :=
  (∀ tag, settledCount w.shared tag ≤ 1) ∧
    (Service.Quiescent w → ∀ tag < w.shared.deliveries.length,
      (∀ message ∈ w.shared.buffer, message.deliveryTag ≠ tag) → settledCount w.shared tag = 1)

/-- A delivery is too old. -/
def Obsolete (w : QueueWorld) (tag : ℕ) : Prop :=
  ∃ payload, w.deliveries[tag]? = some (.decoded (some payload)) ∧
    payload.expiry < w.deploy.redis.clock

/-- Does it write the entry `key`? -/
def records (key : String) : queueI.Op → Bool
  | .inl (.redis (.updateExpiration _ k _ _ _ _ _)) => k = key
  | _ => false

/-- The deployment of a delivery is recorded in the cache. -/
def Recorded (log : List (queueService cfg).Entry) (w : QueueWorld) (tag : ℕ) : Prop :=
  ∃ payload req, w.deliveries[tag]? = some (.decoded (some payload)) ∧
    payload.data = .request req ∧
    ∃ n ∈ log, records req.key n.op = true ∧ n.reply.isOk = true

/-- Does it acknowledge the delivery `tag`? -/
def acks (tag : ℕ) : queueI.Op → Bool
  | .inl (.ack t) => t = tag
  | .inr (.basicAck t) => t = tag
  | _ => false

/-- **No acknowledgement is early.** -/
def AcksInTime (log : List (queueService cfg).Entry) : Prop :=
  ∀ pre n post tag, log = pre ++ n :: post → acks tag n.op = true →
    Obsolete n.before tag ∨ Recorded pre n.before tag

/-! ### Every delivery is in one place -/

/-- What is settled, by tag. -/
def settledTags (w : QueueWorld) : Multiset ℕ := ↑(w.settlements.map Settlement.tag)

/-- A call in a state in which every delivery is in one place: in the buffer, in its hands or
those of others (`rest`), or settled. -/
structure InPlace (w : QueueWorld) (q : Stage) (rest : Multiset ℕ) : Prop where
  /-- The channel. -/
  isOpen : w.channelOpen = true
  /-- The buffer can be decoded. -/
  buffered : ∀ message ∈ w.buffer, processable message.payload = true
  /-- Nothing was left. -/
  unspoiled : q.spoiled = false
  /-- What was seen can be decoded. -/
  seen : ∀ message, q.seen = some message → processable message.payload = true
  /-- The places. -/
  places : tags w.buffer + (q.held + rest) + settledTags w =
    Multiset.range w.deliveries.length

section Exec

variable {c : QueueCall} {e : DeployEnv} {w : QueueWorld} {q : Stage} {rest : Multiset ℕ}

theorem Stage.mem_held {tag : ℕ} (h : q.spoiled = false) (hq : q.Holds tag) : tag ∈ q.held := by
  rcases hq with hq | hq
  · exact absurd (h.symm.trans hq) Bool.false_ne_true
  · exact hq

theorem exec_ensureConsumer (e : DeployEnv) (hopen : w.channelOpen = true) :
    (queueExec e (.inr .ensureConsumer) w).2 = w :=
  (Fault.apply_snd e.fault e.exn _ w).elim id fun h => h.trans (if_pos hopen)

theorem settledTags_settle (hopen : w.channelOpen = true) (x : Settlement) :
    settledTags (w.settle x) = x.tag ::ₘ settledTags w := by
  rw [QueueWorld.settle, if_pos hopen, settledTags, settledTags, List.map_append,
    List.map_singleton, ← Multiset.coe_add, Multiset.coe_singleton, add_comm,
    Multiset.singleton_add]

/-- A delivery that is held is settled. -/
theorem InPlace.settle (h : InPlace w q rest) (x : Settlement) (hx : q.Holds x.tag) :
    InPlace (w.settle x) (q.release x.tag) rest := by
  have hmem := Stage.mem_held h.unspoiled hx
  have hsettle : w.settle x = { w with settlements := w.settlements ++ [x] } := if_pos h.isOpen
  refine ⟨?_, ?_, h.unspoiled, h.seen, ?_⟩
  · rw [hsettle]
    exact h.isOpen
  · rw [hsettle]
    exact h.buffered
  · have hlength : (w.settle x).deliveries.length = w.deliveries.length := by rw [hsettle]
    have hbuffer : (w.settle x).buffer = w.buffer := by rw [hsettle]
    rw [hlength, hbuffer, settledTags_settle h.isOpen, ← h.places]
    conv_rhs => rw [← Multiset.cons_erase hmem]
    rw [Stage.release, Multiset.cons_add, Multiset.add_cons, Multiset.add_cons,
      Multiset.cons_add]

/-- Neither the queue nor what is held notices. -/
theorem InPlace.deploy {q' : Stage} (h : InPlace w q rest) (deploy : World)
    (hheld : q'.held = q.held) (hseen : q'.seen = q.seen) (hspoiled : q'.spoiled = false) :
    InPlace { w with deploy := deploy } q' rest :=
  ⟨h.isOpen, h.buffered, hspoiled, hseen ▸ h.seen, hheld ▸ h.places⟩

theorem submitted_of_usable {response : ArgoResponse} (h : Usable response = true) :
    (q.submitted response).held = q.held ∧ (q.submitted response).seen = q.seen ∧
      (q.submitted response).spoiled = q.spoiled := by
  cases response with
  | empty => cases h
  | named workflowName =>
      refine ⟨rfl, rfl, ?_⟩
      change (q.spoiled || workflowName.toList.all Char.isWhitespace) = q.spoiled
      rw [(Bool.not_eq_true' _).mp h, Bool.or_false]
  | _ => exact ⟨rfl, rfl, rfl⟩

theorem InPlace.execDeploy {o : DeployOp} (h : InPlace w q rest) (ho : q.allowsDeploy o)
    (hsettles : settles (.inl o) = true → e.fault = .none)
    (hsubmits : submits (.inl o) = true → Usable e.argo = true) :
    InPlace (execDeploy e o w).2 (q.next (.inl o) (execDeploy e o w).1) rest := by
  cases o with
  | ack tag =>
      rw [Fctf.execDeploy, hsettles rfl]
      exact h.settle (.ack tag) ho.1
  | nack tag =>
      rw [Fctf.execDeploy, hsettles rfl]
      exact h.settle (.nack tag) ho
  | submitWorkflow appName req =>
      cases hr : (Fctf.execDeploy e (.submitWorkflow appName req) w).1 with
      | error exn => exact h.deploy _ rfl rfl h.unspoiled
      | ok response =>
          have hargo : response = e.argo := by
            cases hf : e.fault <;>
              simp [Fctf.execDeploy, DeployOp.exec, DeployEnv.read, Fault.apply, hf] at hr
            exact (Except.ok.inj hr).symm
          obtain ⟨hheld, hseen, hspoiled⟩ :=
            submitted_of_usable (q := q) (hargo ▸ hsubmits rfl)
          exact h.deploy _ hheld hseen (hspoiled.trans h.unspoiled)
  | redis o => cases o <;> exact h.deploy _ rfl rfl h.unspoiled
  | _ => exact h.deploy _ rfl rfl h.unspoiled

/-- **One operation** keeps every delivery in one place. -/
theorem InPlace.exec {o : queueI.Op} (h : InPlace w q rest) (ho : (protocol c).allows q o)
    (hc : ∀ body, c = .receive body → WellFormed body)
    (hsettles : settles o = true → e.fault = .none)
    (hsubmits : submits o = true → Usable e.argo = true) :
    InPlace (queueExec e o w).2 (q.next o (queueExec e o w).1) rest := by
  rcases o with o | o
  · exact h.execDeploy ho hsettles hsubmits
  cases o with
  | ensureConsumer =>
      rw [exec_ensureConsumer e h.isOpen]
      exact h
  | deliver body =>
      refine ⟨h.isOpen, h.buffered, h.unspoiled, fun message hmessage => ?_, ?_⟩
      · cases body with
        | undecodable => cases hmessage
        | decoded payload =>
            obtain rfl := Option.some.inj hmessage
            exact hc _ ho
      · change tags w.buffer + (w.deliveries.length ::ₘ q.held + rest) + settledTags w =
          Multiset.range (w.deliveries ++ [body]).length
        rw [List.length_append, List.length_singleton, Multiset.range_succ, ← h.places,
          Multiset.cons_add, Multiset.add_cons, Multiset.cons_add]
  | basicAck tag =>
      have hexec : queueExec e (.inr (.basicAck tag)) w = (.ok (), w.settle (.ack tag)) := by
        rw [queueExec, BufferOp.exec, hsettles rfl]
        exact if_pos h.isOpen
      rw [hexec]
      exact h.settle (.ack tag) ho.1
  | write message =>
      have hmem := Stage.mem_held h.unspoiled ho.2
      refine ⟨h.isOpen, ?_, h.unspoiled, h.seen, ?_⟩
      · exact List.forall_mem_append.mpr
          ⟨h.buffered, List.forall_mem_singleton.mpr (h.seen message ho.1)⟩
      · change tags (w.buffer ++ [message]) + (q.held.erase message.deliveryTag + rest) +
          settledTags w = Multiset.range w.deliveries.length
        rw [← h.places, tags_concat]
        conv_rhs => rw [← Multiset.cons_erase hmem]
        rw [Multiset.cons_add, Multiset.cons_add, Multiset.cons_add, Multiset.add_cons,
          Multiset.cons_add]
  | tryRead =>
      obtain ⟨deploy, deliveries, buffer, channelOpen, settlements⟩ := w
      cases buffer with
      | nil => exact h
      | cons message buffer =>
          obtain ⟨hmessage, hbuffer⟩ := List.forall_mem_cons.mp h.buffered
          refine ⟨h.isOpen, hbuffer, ?_, fun m hm => ?_, ?_⟩
          · change (q.spoiled || !processable message.payload) = false
            rw [h.unspoiled, hmessage]
            rfl
          · obtain rfl := Option.some.inj hm
            exact hmessage
          · have hplaces := h.places
            change tags buffer + (message.deliveryTag ::ₘ q.held + rest) + _ = _
            rw [Multiset.cons_add, Multiset.add_cons, ← Multiset.cons_add]
            exact hplaces

end Exec

/-- Every delivery is in one place. -/
structure AllInPlace (w : (queueService cfg).Pool) (qs : List Stage) : Prop where
  /-- What was delivered. -/
  wellFormed : ∀ p ∈ w.procs, ∀ body, p.1 = .receive body → WellFormed body
  /-- The channel. -/
  isOpen : w.shared.channelOpen = true
  /-- The buffer can be decoded. -/
  buffered : ∀ message ∈ w.shared.buffer, processable message.payload = true
  /-- Nothing was left, and what was seen can be decoded. -/
  stages : ∀ q ∈ qs, q.spoiled = false ∧
    ∀ message, q.seen = some message → processable message.payload = true
  /-- The places. -/
  places : tags w.shared.buffer + heldBy Stage.held qs + settledTags w.shared =
    Multiset.range w.shared.deliveries.length

section Invariant

variable {log : List (queueService cfg).Entry} {w : (queueService cfg).Pool} {qs : List Stage}

theorem allInPlace_of_settling {world : QueueWorld} (hopen : world.channelOpen = true)
    (hbuffer : world.buffer = []) (hsettled : settledTags world =
      Multiset.range world.deliveries.length)
    (h : Service.Records Settling ((queueService cfg).start world) log w) :
    ∃ qs, AllInPlace w qs ∧ Service.Standings protocol (fun _ => Stage.ends) w qs := by
  refine h.protocol_invariant (J := fun _ => AllInPlace) (fun _ => .start) ?_
    (fun _ _ c _ => follows_call cfg c) ?_ ?_ ?_
  · refine ⟨fun p hp => (nomatch hp), hopen, ?_, fun q hq => (nomatch hq), ?_⟩
    · exact fun message hmessage => absurd (hbuffer ▸ hmessage) List.not_mem_nil
    · change tags world.buffer + heldBy Stage.held [] + settledTags world =
        Multiset.range world.deliveries.length
      rw [hbuffer, hsettled, heldBy_nil, add_zero, tags, List.map_nil, Multiset.coe_nil, zero_add]
  · intro log w qs c hJ hst hg
    refine ⟨?_, hJ.isOpen, hJ.buffered, ?_, ?_⟩
    · refine List.forall_mem_append.mpr ⟨hJ.wellFormed, List.forall_mem_singleton.mpr ?_⟩
      rintro body rfl
      exact hg
    · exact List.forall_mem_append.mpr
        ⟨hJ.stages, List.forall_mem_singleton.mpr ⟨rfl, fun m hm => nomatch hm⟩⟩
    · rw [heldBy_append_singleton, show Stage.start.held = 0 from rfl, add_zero]
      exact hJ.places
  · intro log w qs pid e c o k q hJ hst hp hq hg hf
    simp only [Settling, show w.procs[pid]? = some (c, .call o k) from hp] at hg
    obtain ⟨rest, hheld, hset⟩ := @heldBy_split _ _ Stage.held _ _ _ hq
    obtain ⟨hspoiled, hseen⟩ := hJ.stages q (List.mem_of_getElem? hq)
    have hplace : InPlace w.shared q rest :=
      ⟨hJ.isOpen, hJ.buffered, hspoiled, hseen, hheld ▸ hJ.places⟩
    have hcall : ∀ body, c = .receive body → WellFormed body :=
      hJ.wellFormed _ (List.mem_of_getElem? hp)
    have hplace' := hplace.exec hf.1 hcall hg.1 hg.2
    refine ⟨?_, hplace'.isOpen, hplace'.buffered, ?_, ?_⟩
    · intro p hp'
      rcases List.mem_or_eq_of_mem_set hp' with hp' | rfl
      · exact hJ.wellFormed p hp'
      · exact hcall
    · intro q' hq'
      rcases List.mem_or_eq_of_mem_set hq' with hq' | rfl
      · exact hJ.stages q' hq'
      · exact ⟨hplace'.unspoiled, hplace'.seen⟩
    · rw [hset]
      exact hplace'.places
  · intro log w qs m hJ hst hg
    cases m with
    | close => exact hg.elim
    | _ => exact ⟨hJ.wellFormed, hJ.isOpen, hJ.buffered, hJ.stages, hJ.places⟩

theorem settledCount_eq (w : QueueWorld) (tag : ℕ) :
    settledCount w tag = (settledTags w).count tag := by
  rw [settledCount, settledTags, Multiset.coe_count, List.count, List.countP_map]
  exact List.countP_congr fun x _ => by simp

/-- When every delivery is in one place, it is settled once. -/
theorem AllInPlace.settledOnce (h : AllInPlace w qs)
    (hst : Service.Standings protocol (fun _ => Stage.ends) w qs) : SettledOnce w := by
  have hcount (tag : ℕ) : (tags w.shared.buffer).count tag +
      (heldBy Stage.held qs).count tag + settledCount w.shared tag =
        (Multiset.range w.shared.deliveries.length).count tag := by
    rw [settledCount_eq, ← h.places, Multiset.count_add, Multiset.count_add]
  constructor
  · intro tag
    have hle := Multiset.nodup_iff_count_le_one.mp
      (Multiset.nodup_range w.shared.deliveries.length) tag
    have := hcount tag
    omega
  · intro hfinished tag hlt hbuffer
    have hheld : heldBy Stage.held qs = 0 := by
      refine heldBy_eq_zero fun q hq => ?_
      obtain ⟨pid, hpid⟩ := List.getElem?_of_mem hq
      obtain ⟨c, p, hp, hfollows⟩ := hst.exists_of_getElem? hpid
      obtain ⟨r, rfl⟩ := hfinished _ (List.mem_of_getElem? hp)
      exact hfollows.resolve_left (Bool.eq_false_iff.mp (h.stages q hq).1)
    have hone : (Multiset.range w.shared.deliveries.length).count tag = 1 :=
      Multiset.count_eq_one_of_mem (Multiset.nodup_range _) (Multiset.mem_range.mpr hlt)
    have hzero : (tags w.shared.buffer).count tag = 0 := by
      refine Multiset.count_eq_zero.mpr fun hmem => ?_
      obtain ⟨message, hmessage, htag⟩ := List.mem_map.mp (Multiset.mem_coe.mp hmem)
      exact hbuffer message hmessage htag
    have htag := hcount tag
    rw [hheld, hone, hzero, Multiset.count_zero, add_zero, zero_add] at htag
    exact htag

end Invariant

/-! ### What is acknowledged was too old -/

/-- A message is what was delivered under its tag. -/
def Delivered (w : QueueWorld) (message : BufferedMessage) : Prop :=
  w.deliveries[message.deliveryTag]? = some (.decoded message.payload)

/-- What a call knows is true, and it has started no workflow. -/
structure Informed (w : QueueWorld) (q : Stage) : Prop where
  /-- No workflow. -/
  unnamed : q.named = false
  /-- What it has seen. -/
  seen : ∀ message, q.seen = some message → Delivered w message
  /-- What is too old. -/
  old : q.old = true →
    (q.seen.any fun message => isExpired message.payload w.deploy.redis.clock) = true

section Inform

variable {c : QueueCall} {e : DeployEnv} {w w' : QueueWorld} {q : Stage}

theorem isExpired_later {payload : Option DeploymentQueuePayload} {now now' : ℤ}
    (hle : now ≤ now') (h : isExpired payload now = true) : isExpired payload now' = true := by
  obtain ⟨payload, rfl, hlt⟩ := (Option.any_eq_true _ _).mp h
  exact decide_eq_true (lt_of_lt_of_le (of_decide_eq_true hlt) hle)

theorem Delivered.later {message : BufferedMessage} (h : Delivered w message)
    (hbefore : w.deliveries <+: w'.deliveries) : Delivered w' message := by
  obtain ⟨more, hmore⟩ := hbefore
  rw [Delivered, ← hmore]
  exact List.getElem?_append_left (List.getElem?_eq_some_iff.mp h).1 |>.trans h

/-- Nothing of it is forgotten. -/
theorem Informed.later (h : Informed w q) (hbefore : w.deliveries <+: w'.deliveries)
    (hclock : w.deploy.redis.clock ≤ w'.deploy.redis.clock) : Informed w' q := by
  refine ⟨h.unnamed, fun message hm => (h.seen message hm).later hbefore, fun hold => ?_⟩
  obtain ⟨message, hseen, hexpired⟩ := (Option.any_eq_true _ _).mp (h.old hold)
  exact (Option.any_eq_true _ _).mpr ⟨message, hseen, isExpired_later hclock hexpired⟩

theorem settle_deliveries (x : Settlement) : (w.settle x).deliveries = w.deliveries ∧
    (w.settle x).channelOpen = w.channelOpen ∧ (w.settle x).deploy = w.deploy ∧
    (w.settle x).buffer = w.buffer := by
  rw [QueueWorld.settle]
  split
  · exact ⟨rfl, rfl, rfl, rfl⟩
  · exact ⟨rfl, rfl, rfl, rfl⟩

/-- What an operation of the deployment services leaves alone. -/
theorem execDeploy_queue (e : DeployEnv) (o : DeployOp) (w : QueueWorld) :
    (execDeploy e o w).2.deliveries = w.deliveries ∧
      (execDeploy e o w).2.channelOpen = w.channelOpen ∧
      (execDeploy e o w).2.deploy.redis.clock = w.deploy.redis.clock ∧
      (execDeploy e o w).2.buffer = w.buffer := by
  have hsettle (x : Settlement) : (w.settle x).deliveries = w.deliveries ∧
      (w.settle x).channelOpen = w.channelOpen ∧
      (w.settle x).deploy.redis.clock = w.deploy.redis.clock ∧
      (w.settle x).buffer = w.buffer := by
    obtain ⟨hdeliveries, hopen, hdeploy, hbuffer⟩ := settle_deliveries (w := w) x
    exact ⟨hdeliveries, hopen, by rw [hdeploy], hbuffer⟩
  cases o with
  | ack tag =>
      cases hf : e.fault <;> rw [execDeploy, hf]
      · exact hsettle _
      · exact ⟨rfl, rfl, rfl, rfl⟩
      · exact hsettle _
  | nack tag =>
      cases hf : e.fault <;> rw [execDeploy, hf]
      · exact hsettle _
      · exact ⟨rfl, rfl, rfl, rfl⟩
      · exact hsettle _
  | _ => exact ⟨rfl, rfl, DeployOp.exec_clock _ _ _, rfl⟩

theorem exec_basicAck (e : DeployEnv) (tag : ℕ) (hopen : w.channelOpen = true) :
    (queueExec e (.inr (.basicAck tag)) w).2 = w ∨
      (queueExec e (.inr (.basicAck tag)) w).2 = w.settle (.ack tag) := by
  refine (Fault.apply_snd e.fault e.exn _ w).imp id fun h => h.trans ?_
  rw [if_pos hopen]

/-- The channel in an operation. -/
theorem exec_channel (e : DeployEnv) (o : queueI.Op) (hopen : w.channelOpen = true) :
    (queueExec e o w).2.channelOpen = true ∧
      w.deliveries <+: (queueExec e o w).2.deliveries ∧
      (queueExec e o w).2.deploy.redis.clock = w.deploy.redis.clock := by
  rcases o with o | o
  · obtain ⟨hdeliveries, hchannel, hclock, -⟩ := execDeploy_queue e o w
    exact ⟨hchannel.trans hopen, hdeliveries ▸ List.prefix_refl _, hclock⟩
  cases o with
  | ensureConsumer =>
      rw [exec_ensureConsumer e hopen]
      exact ⟨hopen, List.prefix_refl _, rfl⟩
  | deliver body => exact ⟨hopen, List.prefix_append _ _, rfl⟩
  | basicAck tag =>
      obtain ⟨hdeliveries, hchannel, hdeploy, -⟩ := settle_deliveries (w := w) (.ack tag)
      rcases exec_basicAck e tag hopen with hw | hw
      · rw [hw]
        exact ⟨hopen, List.prefix_refl _, rfl⟩
      · rw [hw]
        exact ⟨hchannel.trans hopen, hdeliveries ▸ List.prefix_refl _, by rw [hdeploy]⟩
  | write message => exact ⟨hopen, List.prefix_refl _, rfl⟩
  | tryRead => exact ⟨hopen, List.prefix_refl _, rfl⟩

/-- What is acknowledged, if anything, is too old. -/
theorem Informed.obsolete {o : queueI.Op} {tag : ℕ} (h : Informed w q)
    (ho : (protocol c).allows q o) (hacks : acks tag o = true) : Obsolete w tag := by
  have hmay : q.MayAck tag := by
    rcases o with o | o
    · cases o with
      | ack t =>
          obtain rfl : t = tag := of_decide_eq_true hacks
          exact ho.2
      | _ => cases hacks
    · cases o with
      | basicAck t =>
          obtain rfl : t = tag := of_decide_eq_true hacks
          exact ho.2
      | _ => cases hacks
  rcases hmay with hnamed | ⟨hold, message, hseen, rfl⟩
  · exact absurd (h.unnamed.symm.trans hnamed) Bool.false_ne_true
  · have hexpired := h.old hold
    rw [hseen, Option.any_some] at hexpired
    obtain ⟨payload, hpayload, hlt⟩ := (Option.any_eq_true _ _).mp hexpired
    exact ⟨payload, hpayload ▸ h.seen message hseen, of_decide_eq_true hlt⟩

/-- An operation that shows nothing new to the call. -/
theorem Informed.same {q' : Stage} (h : Informed w q) (hnamed : q'.named = q.named)
    (hseen : q'.seen = q.seen) (hold : q'.old = q.old) : Informed w q' :=
  ⟨hnamed.trans h.unnamed, hseen ▸ h.seen, fun h' => hseen ▸ h.old (hold.symm.trans h')⟩

theorem Informed.nextDeploy {o : DeployOp} (h : Informed w q)
    (hsubmits : submits (.inl o) = true → Starts e.argo = false) :
    Informed w (q.next (.inl o) (execDeploy e o w).1) := by
  cases o with
  | ack tag => cases (execDeploy e (.ack tag) w).1 <;> exact h.same rfl rfl rfl
  | nack tag => cases (execDeploy e (.nack tag) w).1 <;> exact h.same rfl rfl rfl
  | submitWorkflow appName req =>
      cases hr : (Fctf.execDeploy e (.submitWorkflow appName req) w).1 with
      | error exn => exact h
      | ok response =>
          have hargo : response = e.argo := by
            cases hf : e.fault <;>
              simp [Fctf.execDeploy, DeployOp.exec, DeployEnv.read, Fault.apply, hf] at hr
            exact (Except.ok.inj hr).symm
          subst hargo
          cases hargo : e.argo with
          | named workflowName =>
              have hstarts := hsubmits rfl
              rw [hargo] at hstarts
              cases hstarts
          | _ => exact h.same rfl rfl rfl
  | redis o =>
      cases o with
      | utcNow =>
          refine ⟨h.unnamed, h.seen, fun hold => ?_⟩
          exact (Bool.or_eq_true_iff.mp hold).elim h.old id
      | _ => exact h
  | _ => exact h

/-- **One operation** leaves a call informed, and the buffer true. -/
theorem Informed.next {o : queueI.Op} (h : Informed w q) (ho : (protocol c).allows q o)
    (hopen : w.channelOpen = true) (hbuffered : ∀ message ∈ w.buffer, Delivered w message)
    (hsubmits : submits o = true → Starts e.argo = false) :
    Informed (queueExec e o w).2 (q.next o (queueExec e o w).1) ∧
      ∀ message ∈ (queueExec e o w).2.buffer, Delivered (queueExec e o w).2 message := by
  obtain ⟨-, hbefore, hclock⟩ := exec_channel e o hopen
  have hlater {q' : Stage} (h : Informed w q') : Informed (queueExec e o w).2 q' :=
    h.later hbefore hclock.ge
  have htrue (messages : List BufferedMessage) (hm : ∀ m ∈ messages, Delivered w m) :
      ∀ m ∈ messages, Delivered (queueExec e o w).2 m := fun m hmem => (hm m hmem).later hbefore
  rcases o with o | o
  · obtain ⟨-, -, -, hbuffer⟩ := execDeploy_queue e o w
    exact ⟨hlater (h.nextDeploy hsubmits), htrue _ (hbuffer.symm ▸ hbuffered)⟩
  cases o with
  | ensureConsumer =>
      rw [exec_ensureConsumer e hopen]
      exact ⟨h, hbuffered⟩
  | deliver body =>
      refine ⟨⟨h.unnamed, fun message hmessage => ?_, fun hold => (nomatch hold)⟩,
        htrue _ hbuffered⟩
      cases body with
      | undecodable => cases hmessage
      | decoded payload =>
          obtain rfl := Option.some.inj hmessage
          exact List.getElem?_concat_length
  | basicAck tag =>
      refine ⟨hlater ?_, htrue _ ?_⟩
      · cases (queueExec e (.inr (.basicAck tag)) w).1 <;> exact h.same rfl rfl rfl
      · rcases exec_basicAck e tag hopen with hw | hw
        · exact hw.symm ▸ hbuffered
        · rw [hw, (settle_deliveries (.ack tag)).2.2.2]
          exact hbuffered
  | write message =>
      refine ⟨hlater (h.same rfl rfl rfl), htrue _ ?_⟩
      exact List.forall_mem_append.mpr
        ⟨hbuffered, List.forall_mem_singleton.mpr (h.seen message ho.1)⟩
  | tryRead =>
      obtain ⟨deploy, deliveries, buffer, channelOpen, settlements⟩ := w
      cases buffer with
      | nil => exact ⟨h, hbuffered⟩
      | cons message buffer =>
          obtain ⟨hmessage, hbuffer⟩ := List.forall_mem_cons.mp hbuffered
          refine ⟨⟨h.unnamed, fun m hm => ?_, fun hold => (nomatch hold)⟩, hbuffer⟩
          obtain rfl := Option.some.inj hm
          exact hmessage

end Inform

/-- What is known at the queue while no workflow is started. -/
structure AllInformed (log : List (queueService cfg).Entry) (w : (queueService cfg).Pool)
    (qs : List Stage) : Prop where
  /-- The channel. -/
  isOpen : w.shared.channelOpen = true
  /-- The calls. -/
  stages : ∀ q ∈ qs, Informed w.shared q
  /-- The buffer. -/
  buffered : ∀ message ∈ w.shared.buffer, Delivered w.shared message
  /-- The acknowledgements. -/
  inTime : AcksInTime log

theorem acksInTime_of_nothingStarted {world : QueueWorld} (hopen : world.channelOpen = true)
    (hbuffer : world.buffer = []) {log : List (queueService cfg).Entry}
    {w : (queueService cfg).Pool}
    (h : Service.Records NothingStarted ((queueService cfg).start world) log w) :
    AcksInTime log := by
  have hinv : ∃ qs : List Stage, AllInformed log w qs ∧
      Service.Standings protocol (fun _ => Stage.ends) w qs := by
    refine h.protocol_invariant (J := AllInformed) (fun _ => .start) ?_
      (fun _ _ c _ => follows_call cfg c) ?_ ?_ ?_
    · exact ⟨hopen, fun q hq => (nomatch hq), fun m hm => absurd (hbuffer ▸ hm) List.not_mem_nil,
        fun pre n post tag hnil => absurd hnil (by simp)⟩
    · intro log w qs c hJ hst hg
      exact ⟨hJ.isOpen, List.forall_mem_append.mpr ⟨hJ.stages, List.forall_mem_singleton.mpr
        ⟨rfl, fun m hm => (nomatch hm), fun hold => nomatch hold⟩⟩, hJ.buffered, hJ.inTime⟩
    · intro log w qs pid e c o k q hJ hst hp hq hg hf
      simp only [NothingStarted, show w.procs[pid]? = some (c, .call o k) from hp] at hg
      have hinformed := hJ.stages q (List.mem_of_getElem? hq)
      obtain ⟨hopen', hbefore, hclock⟩ := exec_channel e o hJ.isOpen
      obtain ⟨hnext, hbuffered⟩ := hinformed.next hf.1 hJ.isOpen hJ.buffered hg
      refine ⟨hopen', fun q' hq' => ?_, hbuffered, fun pre n post tag hsplit hacks => ?_⟩
      · rcases List.mem_or_eq_of_mem_set hq' with hq' | rfl
        · exact (hJ.stages q' hq').later hbefore hclock.ge
        · exact hnext
      · obtain ⟨rfl, rfl, -⟩ | ⟨post', hlog, -⟩ := Service.append_singleton_split hsplit
        · exact .inl (hinformed.obsolete hf.1 hacks)
        · exact hJ.inTime pre n post' tag hlog hacks
    · intro log w qs m hJ hst hg
      cases m with
      | close => exact hg.elim
      | tick seconds =>
          refine ⟨hJ.isOpen, fun q hq => (hJ.stages q hq).later (List.prefix_refl _) ?_,
            hJ.buffered, hJ.inTime⟩
          exact Int.le_add_of_nonneg_right (Int.natCast_nonneg seconds)
      | cache strings zsets =>
          exact ⟨hJ.isOpen, fun q hq => (hJ.stages q hq).later (List.prefix_refl _) (le_refl _),
            hJ.buffered, hJ.inTime⟩
      | tables tables =>
          exact ⟨hJ.isOpen, fun q hq => (hJ.stages q hq).later (List.prefix_refl _) (le_refl _),
            hJ.buffered, hJ.inTime⟩
  obtain ⟨qs, hJ, -⟩ := hinv
  exact hJ.inTime

end Runs

/-- The state with an open channel on which nothing was delivered yet. -/
def QueueWorld.Fresh (w : QueueWorld) : Prop :=
  w.channelOpen = true ∧ w.deliveries = [] ∧ w.buffer = [] ∧ w.settlements = []

/-- **Messages are settled once, and not too early.** In every run with well-formed requests
in which settlements get through and Argo's responses are usable, no delivery is settled twice, and
all that have left the buffer are settled when all calls have finished. In every run in which
no workflow is started, an acknowledged delivery is too old or recorded. -/
theorem settled_of_wellFormed (cfg : DeployConfig) (world : QueueWorld)
    (log : List (queueService cfg).Entry) (w : (queueService cfg).Pool)
    (hworld : QueueWorld.Fresh world) :
    (Service.Records Settling ((queueService cfg).start world) log w → SettledOnce w) ∧
      (Service.Records NothingStarted ((queueService cfg).start world) log w →
        AcksInTime log) := by
  obtain ⟨hopen, hdeliveries, hbuffer, hsettlements⟩ := hworld
  refine ⟨fun h => ?_, fun h => acksInTime_of_nothingStarted hopen hbuffer h⟩
  have hsettled : settledTags world = Multiset.range world.deliveries.length := by
    rw [settledTags, hsettlements, hdeliveries]
    rfl
  obtain ⟨qs, hJ, hst⟩ := allInPlace_of_settling hopen hbuffer hsettled h
  exact hJ.settledOnce hst

/-! ### Runs of one message -/

instance : DecidablePred WellFormed := fun body =>
  match body with
  | .undecodable => inferInstanceAs (Decidable True)
  | .decoded payload => inferInstanceAs (Decidable (processable payload = true))

instance (cfg : DeployConfig) (log : List (queueService cfg).Entry)
    (w : (queueService cfg).Pool) (m : (queueService cfg).Move) :
    Decidable (Settling log w m) := by
  unfold Settling
  split
  · infer_instance
  · infer_instance
  · infer_instance
  · infer_instance
  · split <;> infer_instance

instance (cfg : DeployConfig) (log : List (queueService cfg).Entry)
    (w : (queueService cfg).Pool) (m : (queueService cfg).Move) :
    Decidable (NothingStarted log w m) := by
  unfold NothingStarted
  split
  · infer_instance
  · split <;> infer_instance
  · infer_instance

/-- Whatever is delivered and whatever fails: messages are settled once, and not too early. -/
def AlwaysSettled (cfg : DeployConfig) : Prop :=
  ∀ world log w, QueueWorld.Fresh world →
    Service.Records Service.anyLogged ((queueService cfg).start world) log w →
    SettledOnce w ∧ AcksInTime log

/-- A queue on which nothing was delivered yet. -/
def emptyQueue (deploy : World) : QueueWorld := ⟨deploy, [], [], true, []⟩

/-- The state with the entry of a deployment that waits for the worker. -/
def waitingWorld : World :=
  { webWorld with
    redis := ((RedisOp.set webStart.key (pendingDeployEntry webStart) 300).exec
      webWorld.redis).2 }

/-- A delivery is received, and the worker takes `n` steps. -/
def receiveAndProcess (body : Body) (n : ℕ) : List (queueService defaultConfig).Move :=
  Service.callNow 0 (QueueCall.receive body) calm 3 ++
    Service.callNow 1 (QueueCall.process 2) calm n

/-- A request that is too old, and then one whose deployment has no entry. -/
theorem settled_example :
    ∃ log w, Service.runLogged (fun log w m => Settling log w m ∧ NothingStarted log w m) []
        ((queueService defaultConfig).start (emptyQueue webWorld))
        (Service.callNow 0 (QueueCall.receive (.decoded (some ⟨.request webStart, 500⟩))) calm 3 ++
          Service.callNow 1 (QueueCall.receive (.decoded (some ⟨.request webStart, 2000⟩))) calm 3 ++
          Service.callNow 2 (QueueCall.process 2) calm 7) = some (log, w) ∧
      Service.atRest w = true ∧ w.shared.settlements = [.ack 0, .nack 1] ∧
      SettledOnce w ∧ AcksInTime log := by
  have hrun : (Service.runLogged (fun log w m => Settling log w m ∧ NothingStarted log w m) []
      ((queueService defaultConfig).start (emptyQueue webWorld))
      (Service.callNow 0 (QueueCall.receive (.decoded (some ⟨.request webStart, 500⟩))) calm 3 ++
        Service.callNow 1 (QueueCall.receive (.decoded (some ⟨.request webStart, 2000⟩))) calm 3 ++
        Service.callNow 2 (QueueCall.process 2) calm 7)).any
      (fun p => Service.atRest p.2 &&
        decide (p.2.shared.settlements = [.ack 0, .nack 1])) = true := by
    decide +kernel
  obtain ⟨⟨log, w⟩, hw, hboth⟩ := (Option.any_eq_true _ _).mp hrun
  obtain ⟨hrest, hsettlements⟩ := Bool.and_eq_true_iff.mp hboth
  have hrecords := Service.records_of_runLogged .refl hw
  obtain ⟨honce, htime⟩ := settled_of_wellFormed defaultConfig (emptyQueue webWorld) log w
    ⟨rfl, rfl, rfl, rfl⟩
  exact ⟨log, w, hw, hrest, of_decide_eq_true hsettlements,
    honce (hrecords.mono fun _ _ _ h => h.1), htime (hrecords.mono fun _ _ _ h => h.2)⟩

/-- Does a log end in an acknowledgement of a delivery that is neither too old nor recorded? -/
def endsEarly (log : List (queueService defaultConfig).Entry) : Bool :=
  log.getLast?.any (fun n => acks 0 n.op &&
    decide (n.before.deliveries = [.decoded (some ⟨.request webStart, 2000⟩)]) &&
    decide (n.before.deploy.redis.clock = 1000)) &&
  log.dropLast.all fun n => !records webStart.key n.op

theorem not_acksInTime_of_endsEarly {log : List (queueService defaultConfig).Entry}
    (h : endsEarly log = true) : ¬AcksInTime log := by
  obtain ⟨hlast, hrecords⟩ := Bool.and_eq_true_iff.mp h
  obtain ⟨n, hn, hall⟩ := (Option.any_eq_true _ _).mp hlast
  obtain ⟨hboth, hclock⟩ := Bool.and_eq_true_iff.mp hall
  obtain ⟨hacks, hdeliveries⟩ := Bool.and_eq_true_iff.mp hboth
  have hdelivered : n.before.deliveries[0]? =
      some (.decoded (some ⟨.request webStart, 2000⟩)) := by
    rw [of_decide_eq_true hdeliveries]
    rfl
  have hsplit : log = log.dropLast ++ n :: [] := (List.dropLast_append_getLast? n hn).symm
  intro htime
  rcases htime _ n [] 0 hsplit hacks with ⟨payload, hpayload, hlt⟩ | ⟨payload, req, hpayload, hreq, hrec⟩
  · rw [hdelivered] at hpayload
    obtain rfl := Option.some.inj (Body.decoded.inj (Option.some.inj hpayload))
    rw [of_decide_eq_true hclock] at hlt
    exact absurd hlt (by decide)
  · rw [hdelivered] at hpayload
    obtain rfl := Option.some.inj (Body.decoded.inj (Option.some.inj hpayload))
    obtain rfl := PayloadData.request.inj hreq
    obtain ⟨m, hm, hwrites, -⟩ := hrec
    have hnone := List.all_eq_true.mp hrecords m hm
    rw [hwrites] at hnone
    cases hnone

/-- **A request that is `null`** is never settled, and **a workflow that was started** is
acknowledged before it is recorded. -/
theorem not_settled :
    (∃ log w, Service.Records Service.anyLogged
        ((queueService defaultConfig).start (emptyQueue webWorld)) log w ∧ ¬SettledOnce w) ∧
      (∃ log w, Service.Records Service.anyLogged
        ((queueService defaultConfig).start (emptyQueue waitingWorld)) log w ∧
          ¬AcksInTime log) ∧
      ¬AlwaysSettled defaultConfig := by
  have hnull : ∃ log w, Service.Records Service.anyLogged
      ((queueService defaultConfig).start (emptyQueue webWorld)) log w ∧ ¬SettledOnce w := by
    have hrun : (Service.runLogged Service.anyLogged []
        ((queueService defaultConfig).start (emptyQueue webWorld))
        (receiveAndProcess (.decoded (some ⟨.null, 2000⟩)) 5)).any
        (fun p => Service.atRest p.2 && (decide (p.2.shared.deliveries.length = 1) &&
          (decide (p.2.shared.buffer = []) && decide (p.2.shared.settlements = [])))) = true := by
      decide +kernel
    obtain ⟨⟨log, w⟩, hw, hall⟩ := (Option.any_eq_true _ _).mp hrun
    obtain ⟨hrest, hall⟩ := Bool.and_eq_true_iff.mp hall
    obtain ⟨hlength, hall⟩ := Bool.and_eq_true_iff.mp hall
    obtain ⟨hbuffer, hsettlements⟩ := Bool.and_eq_true_iff.mp hall
    refine ⟨log, w, Service.records_of_runLogged .refl hw, fun honce => ?_⟩
    have hcount := honce.2 (Service.quiescent_of_atRest hrest) 0
      (of_decide_eq_true hlength ▸ Nat.zero_lt_one)
      fun message hmessage => absurd (of_decide_eq_true hbuffer ▸ hmessage) List.not_mem_nil
    rw [settledCount, of_decide_eq_true hsettlements] at hcount
    cases hcount
  refine ⟨hnull, ?_, fun h => ?_⟩
  · have hrun : (Service.runLogged Service.anyLogged []
        ((queueService defaultConfig).start (emptyQueue waitingWorld))
        (receiveAndProcess (.decoded (some ⟨.request webStart, 2000⟩)) 10)).any
        (fun p => endsEarly p.1) = true := by
      decide +kernel
    obtain ⟨⟨log, w⟩, hw, hearly⟩ := (Option.any_eq_true _ _).mp hrun
    exact ⟨log, w, Service.records_of_runLogged .refl hw, not_acksInTime_of_endsEarly hearly⟩
  · obtain ⟨log, w, hrecords, hnot⟩ := hnull
    exact hnot (h _ log w ⟨rfl, rfl, rfl, rfl⟩ hrecords).1

end QueueSettlement

end Fctf
