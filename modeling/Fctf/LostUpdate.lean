import Fctf.Platform

/-!
# Producer and Worker

`DeployService.Start` puts a request into the queue and writes the cached entry after
that; the worker takes the request out and writes the entry too. Nothing orders the two
writes. The worker's entry survives if the worker's write comes after the whole start,
and if the slot is still there, without which the worker's script writes nothing.

## Main results

* `throughout_workerProcess`, `throughout_deployServiceStart`: what the two perform.
* `lostUpdate_step`: what one operation preserves.
* `keepsWorkerEntry_of_writesLast`: the worker's entry survives in every run whose worker
  writes last.
* `not_keepsWorkerEntry`: a worker that is faster than the producer loses its entry.
-/

open Concurrent RedisDb

namespace Fctf

/-! ### The property -/

/-- The entry of a submitted deployment: it names its namespace. -/
def IsWorkerEntry (d : ChallengeDeploymentCacheDTO) : Prop :=
  ∃ cache appName workflowName,
    d = deployedEntry cache appName workflowName ∧ appName ≠ ""

/-- The history: the entry a worker wrote last at the key. -/
def noteWorker (key : String) (e : DeployEnv) (o : DeployOp) (_ : World)
    (written : Option ChallengeDeploymentCacheDTO) : Option ChallengeDeploymentCacheDTO :=
  match o with
  | .redis (.updateExpiration _ dk _ _ _ v _) =>
      if e.fault ≠ .before ∧ dk = key then v else written
  | _ => written

/-- The entry at the key is the one a worker wrote, if one did. -/
def KeepsWorkerEntry (key : String) (db : Db ChallengeDeploymentCacheDTO ℤ)
    (written : Option ChallengeDeploymentCacheDTO) : Prop :=
  ∀ d₀ ∈ written, IsWorkerEntry d₀ ∧ ∀ d ∈ db.get key, d = d₀

/-! ### The condition on steps -/

/-- Is the call a start that has not returned? -/
def startsStill : DeployCall × Prog deployI Exn Unit → Bool
  | (.start _, .call _ _) => true
  | _ => false

/-- An operation at the key that a worker writes with comes when no start is under way,
with time to live, and with the slot in place. -/
def WritesLast (key : String) (procs : List (DeployCall × Prog deployI Exn Unit))
    (e : DeployEnv) (o : DeployOp) (db : Db ChallengeDeploymentCacheDTO ℤ) : Prop :=
  match o with
  | .redis (.updateExpiration zk dk id _ ttl _ t) =>
      e.fault ≠ .before → dk = key →
        (∀ p ∈ procs, startsStill p = false) ∧ 0 < ttl ∧
          (0 < t → (db.zscore zk id).isSome = true)
  | _ => True

/-! ### What the producer and the worker perform -/

/-- The only write of a worker is its entry. -/
def WorkerOp : DeployOp → Prop
  | .redis .utcNow => True
  | .redis (.get _) => True
  | .redis (.updateExpiration _ _ _ _ _ v _) => ∃ d, v = some d ∧ IsWorkerEntry d
  | .redis _ => False
  | _ => True

/-- A start does not write with the worker's script. -/
def StartOp : DeployOp → Prop
  | .redis (.updateExpiration _ _ _ _ _ _ _) => False
  | _ => True

section Programs

/-- A deployment's namespace has a name. -/
theorem getDeploymentAppName_ne (parseAlphaNumeric : String → String)
    (teamId contestId contestChallengeId : ℤ) (name : String) (date : ℤ) :
    getDeploymentAppName parseAlphaNumeric teamId contestId contestChallengeId name date ≠ "" := by
  intro h
  have hlist := congrArg String.toList h
  simp [getDeploymentAppName, kebab] at hlist

theorem throughout_submitAndAck (appName : String) (mess : DequeuedMessage) :
    (submitAndAck appName mess).Throughout WorkerOp := by
  refine .bind (throughout_issue trivial) fun response => ?_
  split
  · trivial
  · trivial
  · trivial
  · refine .bind (throughout_issue trivial) fun _ => ?_
    split <;> trivial

theorem throughout_processMessage (cfg : DeployConfig) (mess : DequeuedMessage) :
    (processMessage cfg mess).Throughout WorkerOp := by
  refine .bind (throughout_get trivial) fun cache => .handle ?_ fun _ => throughout_issue trivial
  cases cache with
  | none => trivial
  | some cache => ?_
  refine .bind (throughout_issue trivial) fun challenge => ?_
  split
  · trivial
  split
  · trivial
  rw [buildArgoPayload, Prog.bind_assoc]
  refine .bind (throughout_utcNow trivial) fun date => ?_
  rw [Prog.pure_eq, Prog.ret_ok_bind]
  refine .bind (throughout_submitAndAck _ _) fun workflowName => ?_
  refine .bind (.bind (throughout_utcNow trivial) fun now => .handle (.bind ?_ fun _ => trivial)
    fun _ => trivial) fun _ => trivial
  exact throughout_issue ⟨_, rfl, cache, _, workflowName, rfl,
    getDeploymentAppName_ne _ _ _ _ _ _⟩

/-- **What a worker performs.** -/
theorem throughout_workerProcess (cfg : DeployConfig) :
    (workerProcess cfg).Throughout WorkerOp := by
  refine .bind (throughout_issue trivial) fun running => ?_
  split
  · trivial
  · refine .bind (throughout_issue trivial) fun messages => ?_
    exact .forM fun mess => throughout_processMessage cfg mess

/-- **What a start performs.** -/
theorem throughout_deployServiceStart (cfg : DeployConfig) (req : ChallengeStartStopReqDTO) :
    (deployServiceStart cfg req).Throughout StartOp :=
  (performs_deployServiceStart cfg req).mono fun o ho => by
    cases o with
    | redis o =>
        cases o with
        | updateExpiration zk dk id s ttl v t => exact ho
        | _ => trivial
    | _ => trivial

end Programs

/-! ### What one operation preserves -/

section Step

variable {key : String} {w : World} {written : Option ChallengeDeploymentCacheDTO}

/-- **What one operation of a worker preserves.** -/
theorem lostUpdate_step {procs : List (DeployCall × Prog deployI Exn Unit)} {e : DeployEnv}
    {o : DeployOp} (h : KeepsWorkerEntry key w.redis written) (hop : WorkerOp o)
    (hlast : WritesLast key procs e o w.redis) :
    KeepsWorkerEntry key (o.exec e w).2.redis (noteWorker key e o w written) := by
  rw [DeployOp.exec_redis]
  cases o with
  | redis o =>
      dsimp only
      by_cases hf : e.fault = .before
      · have hsame : noteWorker key e (.redis o) w written = written := by
          cases o with
          | updateExpiration zk dk id s ttl v t =>
              rw [noteWorker, if_neg fun hboth => hboth.1 hf]
          | _ => rfl
        rw [hf, RedisOp.execFaulty_before, hsame]
        exact h
      · rw [RedisOp.execFaulty_of_ne hf]
        cases o with
        | utcNow => exact h
        | get key' => exact h
        | updateExpiration zk dk id s ttl v t =>
            obtain ⟨d₀, rfl, hd₀⟩ := hop
            by_cases hdk : dk = key
            · subst hdk
              obtain ⟨-, httl, hslot⟩ := hlast hf rfl
              rw [noteWorker, if_pos ⟨hf, rfl⟩]
              rintro d₁ hd₁
              obtain rfl := Option.mem_some.mp hd₁
              exact ⟨hd₀, fun d hd => get_of_updateExpiration httl hslot hd⟩
            · rw [noteWorker, if_neg fun hboth => hdk hboth.2]
              intro d₁ hd₁
              refine ⟨(h d₁ hd₁).1, fun d hd => (h d₁ hd₁).2 d ?_⟩
              rcases RedisOp.get_exec hd with hd | hd
              · exact hd
              · cases hd
                exact absurd rfl hdk
        | _ => exact absurd hop id
  | _ => exact h

end Step

/-! ### Runs -/

/-- The platform, with the entry a worker wrote last at the key. -/
def workerPlatform (cfg : DeployConfig) (key : String) :
    Service deployI Exn Unit (World × Option ChallengeDeploymentCacheDTO) :=
  (platform cfg).withHistory (noteWorker key)

/-- A start and any number of workers, each of which writes last. -/
def workerGuard (cfg : DeployConfig) (key : String) (w : (workerPlatform cfg key).Pool) :
    (workerPlatform cfg key).Move → Prop
  | .spawn c => c = DeployCall.worker
  | .act pid e =>
      match w.procs[pid]? with
      | some (_, .call o _) => WritesLast key w.procs e o w.shared.1.redis
      | _ => True
  | .ambient _ => True

/-- One start has come. -/
def startOnly (cfg : DeployConfig) (req : ChallengeStartStopReqDTO) (w₀ : World) :
    (workerPlatform cfg req.key).Pool :=
  ⟨(w₀, none), [(DeployCall.start req, DeployCall.program cfg (.start req))]⟩

/-- Where a call stands: a worker goes on to perform a worker's operations, and the start
has returned before a worker writes. -/
def WorkerInv (written : Option ChallengeDeploymentCacheDTO) (c : DeployCall)
    (q : Prog deployI Exn Unit) : Prop :=
  match c with
  | .worker => q.Throughout WorkerOp
  | .start _ => q.Throughout StartOp ∧ (written ≠ none → ∃ r, q = .ret r)
  | _ => False

/-- An operation of a start is not noted. -/
theorem noteWorker_of_startOp {key : String} {o : DeployOp} (h : StartOp o) (e : DeployEnv)
    (w : World) (written : Option ChallengeDeploymentCacheDTO) :
    noteWorker key e o w written = written := by
  cases o with
  | redis o =>
      cases o with
      | updateExpiration zk dk id s ttl v t => exact h.elim
      | _ => rfl
  | _ => rfl

/-- Once a worker has written, the start has returned. -/
theorem WorkerInv.returned {cfg : DeployConfig} {req : ChallengeStartStopReqDTO}
    {w : (workerPlatform cfg req.key).Pool} {pid : ℕ} {e : DeployEnv} {c : DeployCall}
    {o : DeployOp} {k : Except Exn o.Reply → Prog deployI Exn Unit}
    {req' : ChallengeStartStopReqDTO} {q : Prog deployI Exn Unit}
    (hg : workerGuard cfg req.key w (.act pid e)) (hp : Service.Pending w pid c o k)
    (hmem : (DeployCall.start req', q) ∈ w.procs)
    (h : w.shared.2 ≠ none → ∃ r, q = .ret r)
    (hwritten : noteWorker req.key e o w.shared.1 w.shared.2 ≠ none) : ∃ r, q = .ret r := by
  have hp' : w.procs[pid]? = some (c, .call o k) := hp
  have hlast : WritesLast req.key w.procs e o w.shared.1.redis := by
    simpa only [workerGuard, hp'] using hg
  rw [noteWorker.eq_def] at hwritten
  split at hwritten
  · split at hwritten
    · next hnote =>
        have hstill := (hlast hnote.1 hnote.2).1 _ hmem
        cases q with
        | ret r => exact ⟨r, rfl⟩
        | call o' k' => cases hstill
    · exact h hwritten
  · exact h hwritten

/-- **The worker's entry survives.** In every run of one start with any number of workers
that write last, the entry at the key is the one a worker wrote, if one did. -/
theorem keepsWorkerEntry_of_writesLast (cfg : DeployConfig) (req : ChallengeStartStopReqDTO)
    (w₀ : World) (w : (workerPlatform cfg req.key).Pool)
    (h : Service.Reaches (workerGuard cfg req.key) (startOnly cfg req w₀) w) :
    KeepsWorkerEntry req.key w.shared.1.redis w.shared.2 := by
  refine (h.local_invariant
    (P := fun s => KeepsWorkerEntry req.key (World.redis s.1) s.2)
    (L := fun s c q => WorkerInv s.2 c q) ?_ ?_ ?_ ?_ ?_ ?_).1
  · intro d₀ hd₀
    cases hd₀
  · intro p hp
    obtain rfl := List.mem_singleton.mp hp
    exact ⟨.bind (throughout_deployServiceStart cfg req) fun _ => trivial,
      fun hne => absurd rfl hne⟩
  · rintro w c - hg
    obtain rfl : c = DeployCall.worker := hg
    exact throughout_workerProcess cfg
  · intro w pid e c o k hP hp hg hL
    have hp' : w.procs[pid]? = some (c, .call o k) := hp
    have hlast : WritesLast req.key w.procs e o w.shared.1.redis := by
      simpa only [workerGuard, hp'] using hg
    cases c with
    | worker => exact ⟨lostUpdate_step hP hL.1 hlast, hL.2 _⟩
    | start req' =>
        -- no worker has written yet, and a start's operation is not noted
        have hnone : w.shared.2 = none := by
          by_contra hne
          obtain ⟨r, hr⟩ := hL.2 hne
          cases hr
        have hnote : noteWorker req.key e o w.shared.1 w.shared.2 = none :=
          (noteWorker_of_startOp hL.1.1 e w.shared.1 w.shared.2).trans hnone
        refine ⟨fun d₀ hd₀ => ?_, hL.1.2 _, fun hne => absurd hnote hne⟩
        have hd₀ : d₀ ∈ noteWorker req.key e o w.shared.1 w.shared.2 := hd₀
        rw [hnote] at hd₀
        cases hd₀
    | _ => exact hL.elim
  · intro w pid e c o k d q _ hp hg _ hmem hL
    cases d with
    | worker => exact hL
    | start req' => exact ⟨hL.1, fun hne => WorkerInv.returned hg hp hmem hL.2 hne⟩
    | _ => exact hL.elim
  · rintro w (d | tables) hP -
    · exact ⟨fun d₀ hd₀ => ⟨(hP d₀ hd₀).1, fun d hd =>
        (hP d₀ hd₀).2 d (Db.get_of_tick _ hd)⟩, fun c q hL => hL⟩
    · exact ⟨hP, fun c q hL => hL⟩

instance decidableWritesLast (key : String) (procs : List (DeployCall × Prog deployI Exn Unit))
    (e : DeployEnv) (o : DeployOp) (db : Db ChallengeDeploymentCacheDTO ℤ) :
    Decidable (WritesLast key procs e o db) := by
  unfold WritesLast
  induction o using DeployOp.casesOn with
  | redis r => induction r using RedisOp.casesOn <;> dsimp only <;> infer_instance
  | _ => dsimp only; infer_instance

instance (cfg : DeployConfig) (key : String) (w : (workerPlatform cfg key).Pool)
    (m : (workerPlatform cfg key).Move) : Decidable (workerGuard cfg key w m) := by
  unfold workerGuard
  split
  · exact instDecidableEqDeployCall _ _
  · split
    · exact decidableWritesLast ..
    · infer_instance
  · infer_instance

/-- The challenge's slot was reserved for team 5 at time 1000. -/
def reservedWorld : World :=
  { webWorld with
    redis := (reserveScript (getZSetKKey 1 5) (getCacheKey 1 7 5) 7 3
      (initialEntry webChallenge 1 5 9) 1300 1000 300 (Db.empty 1000)).2 }

/-- The start returns, and then a worker takes its request. -/
theorem keepsWorkerEntry_example :
    ∃ w, Service.runIf (workerGuard defaultConfig webStart.key)
        (startOnly defaultConfig webStart reservedWorld)
        (List.replicate 3 (.act 0 calm) ++ Service.callNow 1 DeployCall.worker calm 9) = some w ∧
      w.shared.2.isSome = true ∧ KeepsWorkerEntry webStart.key w.shared.1.redis w.shared.2 := by
  have hrun : (Service.runIf (workerGuard defaultConfig webStart.key)
      (startOnly defaultConfig webStart reservedWorld)
      (List.replicate 3 (.act 0 calm) ++ Service.callNow 1 DeployCall.worker calm 9)).any
      (·.shared.2.isSome) = true := by
    decide +kernel
  obtain ⟨w, hw, hwritten⟩ := (Option.any_eq_true _ _).mp hrun
  exact ⟨w, hw, hwritten, keepsWorkerEntry_of_writesLast defaultConfig webStart reservedWorld w
    (Service.reaches_of_runIf hw)⟩

/-- Has every call returned? -/
def allReturned (procs : List (DeployCall × Prog deployI Exn Unit)) : Bool :=
  procs.all fun p =>
    match p.2 with
    | .ret _ => true
    | .call _ _ => false

/-- **A worker's entry can get lost.** The worker takes the request as soon as it is in
the queue and writes the entry before the start does. -/
theorem not_keepsWorkerEntry :
    ∃ w, Service.Reaches Service.anyMove (startOnly defaultConfig webStart reservedWorld) w ∧
      allReturned w.procs = true ∧
      ¬KeepsWorkerEntry webStart.key w.shared.1.redis w.shared.2 := by
  have hrun : (Service.run (startOnly defaultConfig webStart reservedWorld)
      (List.replicate 2 (.act 0 calm) ++ Service.callNow 1 DeployCall.worker calm 9 ++
        [.act 0 calm])).any
      (fun w => allReturned w.procs && w.shared.2.any fun d₀ =>
        (w.shared.1.redis.get webStart.key).any fun d => decide (d._namespace ≠ d₀._namespace)) =
        true := by
    decide +kernel
  obtain ⟨w, hw, hboth⟩ := (Option.any_eq_true _ _).mp hrun
  obtain ⟨hreturned, hlost⟩ := Bool.and_eq_true_iff.mp hboth
  obtain ⟨d₀, hd₀, hany⟩ := (Option.any_eq_true _ _).mp hlost
  obtain ⟨d, hd, hne⟩ := (Option.any_eq_true _ _).mp hany
  refine ⟨w, Service.reaches_of_run hw, hreturned, fun hkeeps => ?_⟩
  have heq := (hkeeps d₀ hd₀).2 d hd
  exact of_decide_eq_true hne (congrArg (·._namespace) heq)

end Fctf
