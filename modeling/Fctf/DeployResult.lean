import Fctf.ChallengeUpload

/-!
# What a Workflow's Result Does

The result of a workflow is translated to one vocabulary and compared with another, so a
message never changes the state of a challenge. It finds the challenge by its id, whatever
workflow it is from.

## Main results

* `state_reported`: no message changes a state.
* `resultDrives`: the status and the state are those of the latest workflow, as long as the
  workflows fail, and their challenge is marked before they report.
* `not_resultDrives`: a workflow that succeeds leaves its challenge hidden.
-/

open Concurrent

namespace Fctf

namespace Bank

/-! ### Messages -/

/-- **No message changes a state.** -/
theorem state_reported (message : WorkflowStatusDTO) (challenge : BankChallenge) :
    reported message challenge =
      { challenge with deployStatus := some (getDeploymentStatus (message.status.getD "")) } := by
  have hstatus : getDeploymentStatus (message.status.getD "") ≠ "Succeeded" ∧
      getDeploymentStatus (message.status.getD "") ≠ "Failed" := by
    rw [getDeploymentStatus]
    split
    · decide
    split
    · decide
    split <;> decide
  rw [reported]
  simp only [if_neg hstatus.1, if_neg hstatus.2]

/-- The text says that a workflow failed, in any letter case. -/
def saysFailed (phase : String) : Bool := equalsIgnoreCase phase "Failed"

theorem isSpace_of_toLower {c : Char} (h : c.toLower = 'f') : isSpace c = false := by
  by_cases hupper : c.val ≥ 'A'.val ∧ c.val ≤ 'Z'.val
  · have hge : 65 ≤ c.toNat := UInt32.le_iff_toNat_le.mp hupper.1
    have hle : c.toNat ≤ 90 := UInt32.le_iff_toNat_le.mp hupper.2
    have hcontrol : (c ≤ '\r') = False := by
      refine eq_false fun hcr => ?_
      have hcr : c.toNat ≤ 13 := UInt32.le_iff_toNat_le.mp hcr
      omega
    have hlist : c.toNat ∉ [0x20, 0x85, 0xA0, 0x1680, 0x2028, 0x2029, 0x202F, 0x205F, 0x3000] := by
      simp only [List.mem_cons, List.not_mem_nil, or_false]
      omega
    have hrange : ¬0x2000 ≤ c.toNat := by omega
    simp [isSpace, hcontrol, hlist, hrange]
  · rw [Char.toLower, dif_neg hupper] at h
    rw [h]
    decide

theorem getDeploymentStatus_failed {status : String} (h : saysFailed status = true) :
    getDeploymentStatus status = "DEPLOY_FAILED" := by
  have hblank : isNullOrWhiteSpace status = false := by
    cases hs : status.toList with
    | nil =>
        rw [saysFailed, equalsIgnoreCase, hs] at h
        cases h
    | cons c l =>
        rw [saysFailed, equalsIgnoreCase, hs, List.map_cons, beq_iff_eq] at h
        rw [isNullOrWhiteSpace, hs, List.all_cons, isSpace_of_toLower (List.cons.inj h).1,
          Bool.false_and]
  rw [getDeploymentStatus, hblank]
  exact if_pos h

/-! ### The requests -/

/-- The requests: uploads and messages. -/
inductive ResultCall where
  | upload (challengeId : ℤ) (filename : String) (exposePort : Option String)
  | messageUp (message : WorkflowStatusDTO)
  deriving DecidableEq, Repr

/-- The program of a request. -/
def ResultCall.program (cfg : UploadConfig) : ResultCall → Prog bankI Exn Response
  | .upload challengeId filename exposePort => uploadFile cfg challengeId filename exposePort
  | .messageUp message => handleMessageUpChallenge message

/-- Uploads and messages at once. -/
def results (cfg : UploadConfig) : Service bankI Exn Response World where
  Call := ResultCall
  Env := BankEnv
  Ext := Empty
  program := ResultCall.program cfg
  exec e o w := o.exec cfg e w
  ambient x _ := nomatch x

instance (cfg : UploadConfig) : DecidableEq (results cfg).Call :=
  inferInstanceAs (DecidableEq ResultCall)

/-- What a request performs: a message stores what it makes of the challenge it names. -/
def Performs : ResultCall → BankOp → Prop
  | .messageUp message, .saveChallenge challenge =>
      ∃ row, message.challengeId = some row.id ∧ challenge = reported message row
  | .messageUp _, .findChallenge _ => True
  | .messageUp _, _ => False
  | .upload _ _ _, o => OfUpload o

/-- A challenge is found by its id. -/
def FindsChallenge : (o : BankOp) → Except Exn o.Reply → Prop
  | .findChallenge id, .ok (some (challenge : BankChallenge)) => id = some challenge.id
  | _, _ => True

/-- **Every request** performs what it may. -/
theorem performs_program {cfg : UploadConfig} (c : ResultCall) (t : Unit) :
    (c.program cfg).Guarded (fun _ => Performs c) (fun _ => FindsChallenge) t := by
  cases c with
  | upload challengeId filename exposePort =>
      exact throughout_uploadFile.guarded (fun _ _ ho => ho) t
  | messageUp message =>
      refine .handle ?_ fun _ _ _ => trivial
      intro u _
      refine ⟨trivial, fun r hr => ?_⟩
      match r with
      | .error e => trivial
      | .ok none => trivial
      | .ok (some (challenge : BankChallenge)) =>
          intro v _
          exact ⟨⟨challenge, hr, rfl⟩, fun r _ => by cases r <;> trivial⟩

/-! ### The law -/

/-- What a message stores. -/
def BankOp.stored : BankOp → Option BankChallenge
  | .saveChallenge challenge => some challenge
  | _ => none

/-- The copy in which an upload has marked its challenge. -/
def BankOp.marked : BankOp → Option BankChallenge
  | .commitUpload _ challenge => some challenge
  | .commit _ challenge => some challenge
  | _ => none

/-- Does the operation submit a workflow? -/
def BankOp.submits : BankOp → Bool
  | .submit _ _ _ => true
  | _ => false

/-- The latest workflow of a challenge. -/
def World.latestWorkflow (w : World) (challengeId : ℤ) : Option Workflow :=
  (w.workflows.filter (·.challengeId = challengeId)).getLast?

section Law

variable {cfg : UploadConfig}

/-- Does the entry store a message of the workflow with its final phase? -/
def reports (final : String → String) (f : Workflow) (n : (results cfg).Entry) : Bool :=
  match n.call, n.op with
  | .messageUp message, .saveChallenge _ =>
      decide (message.workFlowName = some f.name ∧ message.challengeId = some f.challengeId) &&
        equalsIgnoreCase (message.status.getD "") (final f.name) && n.reply.isOk
  | _, _ => false

/-- The workflow has reported its final phase. -/
def HasReported (final : String → String) (log : List (results cfg).Entry) (f : Workflow) : Prop :=
  log.any (reports final f) = true

/-- The phase denotes a failure. -/
def denotesFailure (phase : String) : Bool :=
  equalsIgnoreCase phase "Failed" || equalsIgnoreCase phase "Error"

/-- The challenge shows a workflow's final phase. -/
structure Shows (phase : String) (challenge : BankChallenge) : Prop where
  succeeded : equalsIgnoreCase phase "Succeeded" = true →
    challenge.deployStatus = some "DEPLOY_SUCCEEDED" ∧ challenge.state = "visible"
  failed : denotesFailure phase = true →
    challenge.deployStatus = some "DEPLOY_FAILED" ∧ challenge.state = "hidden"

/-- **The law**: once every workflow has reported, every challenge shows the final phase of
its latest one, -/
def ResultDrives (final : String → String) (log : List (results cfg).Entry) (w : World) : Prop :=
  (∀ f ∈ w.workflows, HasReported final log f) →
    ∀ challenge ∈ w.challenges, ∀ f, w.latestWorkflow challenge.id = some f →
      Shows (final f.name) challenge

/-- and a message changes no other challenge than the one it names. -/
def KeepsOthers (log : List (results cfg).Entry) : Prop :=
  ∀ n ∈ log, ∀ message, n.call = .messageUp message → ∀ id, message.challengeId ≠ some id →
    ((results cfg).exec n.env n.op n.before).2.challenge id = n.before.challenge id

/-- The workflow a message names. -/
def named (n : (results cfg).Entry) : Option String :=
  match n.call with
  | .messageUp message => message.workFlowName
  | _ => none

/-- A workflow gets a name that no message has named. -/
def NewName (log : List (results cfg).Entry) (n : (results cfg).Entry) : Prop :=
  BankOp.submits n.op = true → ∀ name ∈ BankEnv.workflowName n.env, some name ∉ log.map named

/-- Does the message say that its workflow failed? -/
def tellsFailure (n : (results cfg).Entry) : Bool :=
  match n.call with
  | .messageUp message => saysFailed (message.status.getD "")
  | _ => false

/-- **The condition**: a message that comes when the latest workflow has reported, or is its
report, says that it failed, and finds the challenge hidden; an upload marks the challenge
before its workflow reports. -/
structure InStep (final : String → String) (log : List (results cfg).Entry)
    (n : (results cfg).Entry) : Prop where
  message : ∀ challenge ∈ BankOp.stored n.op, ∀ f ∈ World.latestWorkflow n.before challenge.id,
    HasReported final (log ++ [n]) f → tellsFailure n = true ∧ challenge.state = "hidden"
  upload : cfg.mapsRuntime = true → ∀ challenge ∈ BankOp.marked n.op,
    ∀ f ∈ World.latestWorkflow n.before challenge.id, ¬HasReported final log f

/-- The runs the law is about: no workflow gets a name that a message has named already. -/
def NewNames (log : List (results cfg).Entry) (w : (results cfg).Pool)
    (m : (results cfg).Move) : Prop :=
  ∀ n ∈ Service.entryOf w m, NewName log n

/-- The runs in which the law holds. -/
def InSteps (final : String → String) (log : List (results cfg).Entry) (w : (results cfg).Pool)
    (m : (results cfg).Move) : Prop :=
  ∀ n ∈ Service.entryOf w m, InStep final log n

/-! ### What holds along a run -/

/-- **What is known** of a challenge whose latest workflow has reported. -/
def Settled (final : String → String) (log : List (results cfg).Entry) (w : World) : Prop :=
  ∀ id f, w.latestWorkflow id = some f → HasReported final log f →
    saysFailed (final f.name) = true ∧ ∀ challenge ∈ w.challenges, challenge.id = id →
      challenge.deployStatus = some "DEPLOY_FAILED" ∧ challenge.state = "hidden"

variable {final : String → String} {log : List (results cfg).Entry} {n : (results cfg).Entry}
  {w w' : World}

theorem HasReported.of_append {f : Workflow} (h : HasReported final (log ++ [n]) f) :
    HasReported final log f ∨ reports final f n = true := by
  rw [HasReported, List.any_append, Bool.or_eq_true] at h
  refine h.imp id fun h => ?_
  rwa [List.any_cons, List.any_nil, Bool.or_false] at h

/-- Only messages report. -/
theorem reports_eq_false (hop : BankOp.stored n.op = none) (f : Workflow) :
    reports final f n = false := by
  rw [reports]
  split
  · next hsave =>
      rw [hsave] at hop
      cases hop
  · rfl

/-- An entry that does not report. -/
theorem HasReported.of_silent {f : Workflow} (h : HasReported final (log ++ [n]) f)
    (hsilent : ∀ f, reports final f n = false) : HasReported final log f :=
  h.of_append.resolve_right fun hreports => by
    rw [hsilent f] at hreports
    cases hreports

/-- A report names its workflow and its challenge. -/
theorem of_reports {f : Workflow} (h : reports final f n = true) :
    named n = some f.name ∧ ∃ message, n.call = .messageUp message ∧
      message.challengeId = some f.challengeId ∧
      equalsIgnoreCase (message.status.getD "") (final f.name) = true := by
  rw [reports] at h
  split at h
  · next message challenge hcall hop =>
      rw [Bool.and_eq_true, Bool.and_eq_true, decide_eq_true_iff] at h
      refine ⟨?_, message, hcall, h.1.1.2, h.1.2⟩
      rw [named, hcall]
      exact h.1.1.1
  · cases h

theorem latestWorkflow_challengeId {id : ℤ} {f : Workflow} (h : w.latestWorkflow id = some f) :
    f.challengeId = id := by
  have hmem := List.mem_of_getLast? h
  exact of_decide_eq_true (List.mem_filter.mp hmem).2

/-- Nothing that matters has changed. -/
theorem Settled.keep (h : Settled final log w)
    (hsilent : ∀ f, reports final f n = false)
    (hworkflows : w'.workflows = w.workflows)
    (hchallenges : ∀ challenge' ∈ w'.challenges, ∃ challenge ∈ w.challenges,
      challenge'.id = challenge.id ∧ challenge'.state = challenge.state ∧
        challenge'.deployStatus = challenge.deployStatus) :
    Settled final (log ++ [n]) w' := by
  intro id f hf hreported
  rw [World.latestWorkflow, hworkflows] at hf
  obtain ⟨hfinal, hrows⟩ := h id f hf (hreported.of_silent hsilent)
  refine ⟨hfinal, fun challenge' hmem hid => ?_⟩
  obtain ⟨challenge, hmem, hid', hstate, hstatus⟩ := hchallenges challenge' hmem
  rw [hstate, hstatus]
  exact hrows challenge hmem (hid'.symm.trans hid)

/-- A challenge is changed whose latest workflow has not reported. -/
theorem Settled.update (h : Settled final log w)
    (hsilent : ∀ f, reports final f n = false)
    (hworkflows : w'.workflows = w.workflows) {id : ℤ}
    (hnot : ∀ f ∈ w.latestWorkflow id, ¬HasReported final log f)
    (hchallenges : ∀ challenge ∈ w'.challenges, challenge.id ≠ id → challenge ∈ w.challenges) :
    Settled final (log ++ [n]) w' := by
  intro id' f hf hreported
  rw [World.latestWorkflow, hworkflows] at hf
  have hold := hreported.of_silent hsilent
  obtain ⟨hfinal, hrows⟩ := h id' f hf hold
  refine ⟨hfinal, fun challenge hmem hid => ?_⟩
  have hne : challenge.id ≠ id := fun heq => hnot f (hid.symm.trans heq ▸ hf) hold
  exact hrows challenge (hchallenges challenge hmem hne) hid

/-- A workflow is submitted. -/
theorem Settled.submit (h : Settled final log w) {name : String} {id : ℤ}
    (hsilent : ∀ f, reports final f n = false) (hnew : some name ∉ log.map named) :
    Settled final (log ++ [n]) { w with workflows := w.workflows ++ [⟨name, id⟩] } := by
  intro id' f hf hreported
  have hold := hreported.of_silent hsilent
  rw [World.latestWorkflow, List.filter_append] at hf
  by_cases hid : id = id'
  · -- the new workflow has not reported
    have hsingle : [(⟨name, id⟩ : Workflow)].filter (fun g => g.challengeId = id') =
        [⟨name, id⟩] := by
      simp [hid]
    rw [hsingle, List.getLast?_concat] at hf
    obtain rfl := Option.some.inj hf
    obtain ⟨m, hm, hreports⟩ := List.any_eq_true.mp hold
    exact absurd (List.mem_map.mpr ⟨m, hm, (of_reports hreports).1⟩) hnew
  · have hnone : [(⟨name, id⟩ : Workflow)].filter (fun g => g.challengeId = id') = [] := by
      simp [hid]
    rw [hnone, List.append_nil] at hf
    exact h id' f hf hold

theorem mem_updateChallenge {id : ℤ} {f : BankChallenge → BankChallenge}
    {challenge : BankChallenge}
    (h : challenge ∈ (w.updateChallenge id f).challenges) :
    (challenge ∈ w.challenges ∧ challenge.id ≠ id) ∨
      ∃ old ∈ w.challenges, old.id = id ∧ challenge = f old := by
  obtain ⟨old, hold, rfl⟩ := List.mem_map.mp h
  by_cases hid : old.id = id
  · exact .inr ⟨old, hold, hid, if_pos hid⟩
  · rw [if_neg hid]
    exact .inl ⟨hold, hid⟩

/-- An upload writes its copy. -/
theorem Settled.commit (h : Settled final log w)
    (hsilent : ∀ f, reports final f n = false) (loaded : BankChallenge) {challenge : BankChallenge}
    (hcond : cfg.mapsRuntime = true →
      ∀ f ∈ w.latestWorkflow challenge.id, ¬HasReported final log f)
    (hworkflows : w'.workflows = w.workflows)
    (hchallenges : w'.challenges =
      (w.updateChallenge challenge.id (flush cfg loaded challenge)).challenges) :
    Settled final (log ++ [n]) w' := by
  by_cases hmaps : cfg.mapsRuntime = true
  · refine h.update hsilent hworkflows (hcond hmaps) fun row hmem hne => ?_
    rw [hchallenges] at hmem
    obtain ⟨hmem, -⟩ | ⟨old, -, hid, rfl⟩ := mem_updateChallenge hmem
    · exact hmem
    · exact absurd hid hne
  · refine h.keep hsilent hworkflows fun row hmem => ?_
    rw [hchallenges] at hmem
    obtain ⟨hmem, -⟩ | ⟨old, hold, -, rfl⟩ := mem_updateChallenge hmem
    · exact ⟨row, hmem, rfl, rfl, rfl⟩
    · exact ⟨old, hold, rfl, if_neg hmaps, if_neg hmaps⟩

/-- **A message is stored.** -/
theorem Settled.save (h : Settled final log w) {message : WorkflowStatusDTO}
    {row : BankChallenge} (hcall : n.call = .messageUp message)
    (hid : message.challengeId = some row.id)
    (hcond : ∀ f ∈ w.latestWorkflow row.id, HasReported final (log ++ [n]) f →
      tellsFailure n = true ∧ row.state = "hidden") :
    Settled final (log ++ [n]) (w.updateChallenge row.id fun _ => reported message row) := by
  intro id f hf hreported
  have hf : w.latestWorkflow id = some f := hf
  by_cases heq : row.id = id
  · subst heq
    obtain ⟨htells, hhidden⟩ := hcond f hf hreported
    have hfailed : saysFailed (message.status.getD "") = true := by
      rw [tellsFailure, hcall] at htells
      exact htells
    refine ⟨?_, fun challenge hmem hsame => ?_⟩
    · obtain hold | hnow := hreported.of_append
      · exact (h row.id f hf hold).1
      · obtain ⟨-, message', hcall', -, hphase⟩ := of_reports hnow
        obtain rfl := ResultCall.messageUp.inj (hcall.symm.trans hcall')
        rw [saysFailed, equalsIgnoreCase, beq_iff_eq] at hfailed ⊢
        rw [equalsIgnoreCase, beq_iff_eq] at hphase
        exact hphase.symm.trans hfailed
    · obtain ⟨-, hne⟩ | ⟨old, -, -, rfl⟩ := mem_updateChallenge hmem
      · exact absurd hsame hne
      · rw [state_reported]
        exact ⟨congrArg some (getDeploymentStatus_failed hfailed), hhidden⟩
  · have hold : HasReported final log f := by
      refine hreported.of_append.resolve_right fun hnow => heq ?_
      obtain ⟨-, message', hcall', hchallenge, -⟩ := of_reports hnow
      obtain rfl := ResultCall.messageUp.inj (hcall.symm.trans hcall')
      exact (Option.some.inj (hid.symm.trans hchallenge)).trans (latestWorkflow_challengeId hf)
    obtain ⟨hfinal, hrows⟩ := h id f hf hold
    refine ⟨hfinal, fun challenge hmem hsame => ?_⟩
    obtain ⟨hmem, -⟩ | ⟨old, hmem, hid', rfl⟩ := mem_updateChallenge hmem
    · exact hrows challenge hmem hsame
    · rw [state_reported] at hsame
      exact absurd hsame heq

theorem exists_message {c : ResultCall} {challenge : BankChallenge}
    (h : Performs c (.saveChallenge challenge)) : ∃ message row, c = .messageUp message ∧
      message.challengeId = some row.id ∧ challenge = reported message row := by
  cases c with
  | upload challengeId filename exposePort => exact h.elim
  | messageUp message =>
      obtain ⟨row, hid, heq⟩ := h
      exact ⟨message, row, rfl, hid, heq⟩

/-- **One operation** of a request. -/
theorem Settled.act (h : Settled final log n.before) (hperforms : Performs n.call n.op)
    (hnew : NewName log n) (hcond : InStep final log n) :
    Settled final (log ++ [n]) ((results cfg).exec n.env n.op n.before).2 := by
  obtain ⟨pid, call, e, o, w⟩ := n
  have hstay (hsilent : ∀ f, reports final f ⟨pid, call, e, o, w⟩ = false) :
      Settled final (log ++ [⟨pid, call, e, o, w⟩]) w :=
    h.keep hsilent rfl fun challenge hmem => ⟨challenge, hmem, rfl, rfl, rfl⟩
  have hexec := o.exec_snd cfg e w
  change Settled final _ (o.exec cfg e w).2
  cases o with
  | saveChallenge challenge =>
      obtain ⟨message, row, rfl, hid, rfl⟩ := exists_message hperforms
      have hcond' : ∀ f ∈ w.latestWorkflow row.id,
          HasReported final (log ++ [⟨pid, .messageUp message, e,
            .saveChallenge (reported message row), w⟩]) f →
          saysFailed (message.status.getD "") = true ∧ row.state = "hidden" := by
        intro f hf hreported
        have hboth := hcond.message _ rfl f (by rwa [state_reported]) hreported
        rwa [state_reported] at hboth
      obtain ⟨fault, _, _, _, _, _, _, _⟩ := e
      cases fault with
      | before =>
          refine hstay fun f => ?_
          exact Bool.and_false _
      | _ =>
          have hsave := h.save rfl hid hcond'
          rwa [← congrArg BankChallenge.id (state_reported message row)] at hsave
  | submit id path tag =>
      obtain hsame | heffect := hexec
      · rw [hsame]
        exact hstay (reports_eq_false rfl)
      · rw [heffect]
        change Settled final _ { w with workflows := w.workflows ++ _ }
        cases hname : e.workflowName with
        | none =>
            rw [Option.map_none, Option.toList_none, List.append_nil]
            exact hstay (reports_eq_false rfl)
        | some name => exact h.submit (reports_eq_false rfl) (hnew rfl name hname)
  | commitUpload loaded challenge =>
      obtain hsame | heffect := hexec
      · rw [hsame]
        exact hstay (reports_eq_false rfl)
      · rw [heffect.trans (effect_commitUpload cfg e loaded challenge w)]
        refine h.commit (reports_eq_false rfl) loaded (hcond.upload · challenge rfl)
          ?_ ?_ <;>
        · split <;> rfl
  | commit loaded challenge =>
      obtain hsame | heffect := hexec
      · rw [hsame]
        exact hstay (reports_eq_false rfl)
      · rw [heffect]
        exact h.commit (reports_eq_false rfl) loaded (hcond.upload · challenge rfl)
          rfl rfl
  | commitRollback versionId loaded challenge => cases call <;> exact hperforms.elim
  | _ =>
      rw [show _ = w from hexec.elim id id]
      exact hstay (reports_eq_false rfl)

/-- Messages change no other challenge. -/
theorem challenge_exec {c : ResultCall} {message : WorkflowStatusDTO} {o : BankOp} {e : BankEnv}
    (hperforms : Performs c o) (hcall : c = .messageUp message) {id : ℤ}
    (hid : message.challengeId ≠ some id) : (o.exec cfg e w).2.challenge id = w.challenge id := by
  subst hcall
  have hexec := o.exec_snd cfg e w
  cases o with
  | saveChallenge challenge =>
      obtain ⟨row, hrow, rfl⟩ := hperforms
      obtain hsame | heffect := hexec
      · rw [hsame]
      · rw [heffect]
        refine World.challenge_updateChallenge_of_ne (fun _ _ => rfl) (fun heq => hid ?_) w
        rw [hrow, heq, state_reported]
  | findChallenge _ => rw [show _ = w from hexec.elim (fun h => h) fun h => h]
  | _ => exact hperforms.elim

theorem findsChallenge_exec (e : BankEnv) (o : BankOp) (w : World) :
    FindsChallenge o (o.exec cfg e w).1 := by
  cases o with
  | findChallenge id =>
      obtain ⟨fault, _, _, _, _, _, _, _⟩ := e
      cases fault with
      | none =>
          rw [BankOp.exec, Fault.apply]
          dsimp only
          cases hfind : id.bind w.challenge with
          | none => trivial
          | some challenge =>
              obtain ⟨id, rfl, hchallenge⟩ := Option.bind_eq_some_iff.mp hfind
              exact congrArg some (World.id_of_challenge hchallenge).symm
      | _ => trivial
  | _ => trivial

/-- **What holds along a run.** -/
theorem settled_of_records {w₀ : World} {w : (results cfg).Pool}
    (h : Service.Records (fun log w m => NewNames log w m ∧ InSteps final log w m)
      ((results cfg).start w₀) log w) :
    Settled final log w.shared ∧ KeepsOthers log := by
  induction h with
  | refl => exact ⟨(fun id f _ hreported => nomatch hreported), (fun n hn => nomatch hn)⟩
  | spawn _ _ ih => exact ih
  | @ambient _ _ x _ _ _ => exact nomatch (x : Empty)
  | @act log w pid e c o k hr hp hg ih =>
      have hguarded := (hr.guarded (fun c t _ => performs_program c t)
        (fun e o w => findsChallenge_exec e o w) (fun _ _ _ => le_refl ()) fun x _ => nomatch x).2
      have hperforms : Performs c o := (hguarded _ hp.mem () (le_refl _)).1
      have hentry := Service.entryOf_act (e := e) hp
      refine ⟨ih.1.act (n := ⟨pid, c, e, o, w.shared⟩) hperforms (hg.1 _ hentry) (hg.2 _ hentry),
        List.forall_mem_append.mpr ⟨ih.2, fun n hn => ?_⟩⟩
      obtain rfl := List.mem_singleton.mp hn
      exact fun message hcall id hid => challenge_exec hperforms hcall hid

/-- **The law holds in every run** whose steps meet the condition. -/
theorem resultDrives (cfg : UploadConfig) (final : String → String) (w₀ : World)
    (log : List (results cfg).Entry) (w : (results cfg).Pool)
    (h : Service.Records (fun log w m => NewNames log w m ∧ InSteps final log w m)
      ((results cfg).start w₀) log w) :
    ResultDrives final log w.shared ∧ KeepsOthers log := by
  obtain ⟨hsettled, hothers⟩ := settled_of_records h
  refine ⟨fun hall challenge hmem f hf => ?_, hothers⟩
  have hworkflow : f ∈ w.shared.workflows := List.mem_of_mem_filter (List.mem_of_getLast? hf)
  obtain ⟨hfinal, hrows⟩ := hsettled challenge.id f hf (hall f hworkflow)
  refine ⟨fun hsucceeded => ?_, fun _ => hrows challenge hmem rfl⟩
  -- the phase does not say both
  rw [saysFailed, equalsIgnoreCase, beq_iff_eq] at hfinal
  rw [equalsIgnoreCase, hfinal] at hsucceeded
  exact absurd hsucceeded (by decide)

/-! ### Concrete runs -/

instance (final : String → String) (log : List (results cfg).Entry) (f : Workflow) :
    Decidable (HasReported final log f) := inferInstanceAs (Decidable (_ = true))

instance (log : List (results cfg).Entry) (n : (results cfg).Entry) : Decidable (NewName log n) :=
  inferInstanceAs (Decidable (_ → _))

instance (final : String → String) (log : List (results cfg).Entry) (n : (results cfg).Entry) :
    Decidable (InStep final log n) :=
  decidable_of_iff (_ ∧ _) ⟨fun h => ⟨h.1, h.2⟩, fun h => ⟨h.message, h.upload⟩⟩

instance (log : List (results cfg).Entry) (w : (results cfg).Pool) (m : (results cfg).Move) :
    Decidable (NewNames log w m) :=
  inferInstanceAs (Decidable (∀ n ∈ Service.entryOf w m, NewName log n))

instance (final : String → String) (log : List (results cfg).Entry) (w : (results cfg).Pool)
    (m : (results cfg).Move) : Decidable (InSteps final log w m) :=
  inferInstanceAs (Decidable (∀ n ∈ Service.entryOf w m, InStep final log n))

instance (phase : String) (challenge : BankChallenge) : Decidable (Shows phase challenge) :=
  decidable_of_iff (_ ∧ _) ⟨fun h => ⟨h.1, h.2⟩, fun h => ⟨h.succeeded, h.failed⟩⟩

instance (final : String → String) (log : List (results cfg).Entry) (w : World) :
    Decidable (ResultDrives final log w) :=
  inferInstanceAs (Decidable ((∀ f ∈ w.workflows, HasReported final log f) →
    ∀ challenge ∈ w.challenges, ∀ f ∈ w.latestWorkflow challenge.id,
      Shows (final f.name) challenge))

/-- The platform as it is, but for its classes. -/
def uploadConfig (mapsRuntime : Bool) : UploadConfig :=
  ⟨mapsRuntime, "/mnt/nfs", "fctf", "challenges"⟩

/-- A challenge that was never deployed. -/
def newChallenge : BankChallenge where
  id := 1
  imageLink := none
  deployFile := none
  cpuLimit := none
  cpuRequest := none
  memoryLimit := none
  memoryRequest := none
  useGvisor := none
  hardenContainer := some true
  maxDeployCount := some 0
  state := "hidden"
  requireDeploy := false
  deployStatus := none

/-- Surroundings in which nothing is lost. -/
def calmBank : BankEnv :=
  ⟨.none, .redis, true, .copied (some "challenges/web-1"), 1000, some "up-1", some "Running", true⟩

/-- The challenge, whose workflow runs. -/
def deploying : World := ⟨[newChallenge], [], 1, [⟨"up-1", 1⟩]⟩

/-- The message that the workflow ends in a phase, and another upload. -/
def messageThenUpload (phase : String) : List (results (uploadConfig false)).Move :=
  Service.callNow 0 (ResultCall.messageUp ⟨some "up-1", some 1, some phase⟩) calmBank 2 ++
    Service.callNow 1 (ResultCall.upload 1 "web.zip" (some "80")) calmBank 5

/-- A workflow that fails. -/
theorem resultDrives_example :
    ∃ log w, Service.runLogged (fun log w m => NewNames log w m ∧
        InSteps (fun _ => "Failed") log w m) [] ((results (uploadConfig false)).start deploying)
        (messageThenUpload "FAILED") = some (log, w) ∧
      (∀ f ∈ w.shared.workflows, HasReported (fun _ => "Failed") log f) ∧
      ResultDrives (fun _ => "Failed") log w.shared ∧ KeepsOthers log := by
  have hrun : (Service.runLogged (fun log w m => NewNames log w m ∧
      InSteps (fun _ => "Failed") log w m) [] ((results (uploadConfig false)).start deploying)
      (messageThenUpload "FAILED")).any
      (fun p => decide (∀ f ∈ p.2.shared.workflows, HasReported (fun _ => "Failed") p.1 f)) =
        true := by
    decide +kernel
  obtain ⟨⟨log, w⟩, hw, hall⟩ := (Option.any_eq_true _ _).mp hrun
  exact ⟨log, w, hw, of_decide_eq_true hall, resultDrives (uploadConfig false) _ deploying log w
    (Service.records_of_runLogged .refl hw)⟩

/-- An upload, and then the message that its workflow ends in a phase, if uploads get that
far. -/
def uploadThenMessage (phase : String) : List (results (uploadConfig true)).Move :=
  Service.callNow 0 (ResultCall.upload 1 "web.zip" (some "80")) calmBank 9 ++
    Service.callNow 1 (ResultCall.messageUp ⟨some "up-1", some 1, some phase⟩) calmBank 2

/-- Is every challenge hidden, though its latest workflow has succeeded and said so? -/
def staysHidden (log : List (results cfg).Entry) (w : World) : Bool :=
  w.challenges.all (fun challenge => challenge.deployStatus = some "DEPLOY_SUCCEEDED" ∧
      challenge.state = "hidden") &&
    decide (¬ResultDrives (fun _ => "Succeeded") log w)

/-- **A challenge that stays hidden.** Its workflow succeeds and says so; and so it would be
if the classes had all columns. -/
theorem not_resultDrives :
    (∃ log w, Service.Records NewNames ((results (uploadConfig false)).start deploying) log w ∧
      ¬ResultDrives (fun _ => "Succeeded") log w.shared) ∧
    ∃ log w, Service.Records NewNames
        ((results (uploadConfig true)).start ⟨[newChallenge], [], 1, []⟩) log w ∧
      ¬ResultDrives (fun _ => "Succeeded") log w.shared := by
  have hrun : (Service.runLogged NewNames [] ((results (uploadConfig false)).start deploying)
      (messageThenUpload "Succeeded")).any (fun p => staysHidden p.1 p.2.shared) = true := by
    decide +kernel
  have hmapped : (Service.runLogged NewNames []
      ((results (uploadConfig true)).start ⟨[newChallenge], [], 1, []⟩)
      (uploadThenMessage "Succeeded")).any (fun p => staysHidden p.1 p.2.shared) = true := by
    decide +kernel
  obtain ⟨⟨log, w⟩, hw, hhidden⟩ := (Option.any_eq_true _ _).mp hrun
  obtain ⟨⟨log', w'⟩, hw', hhidden'⟩ := (Option.any_eq_true _ _).mp hmapped
  exact ⟨⟨log, w, Service.records_of_runLogged .refl hw,
      of_decide_eq_true (Bool.and_eq_true_iff.mp hhidden).2⟩,
    ⟨log', w', Service.records_of_runLogged .refl hw',
      of_decide_eq_true (Bool.and_eq_true_iff.mp hhidden').2⟩⟩

end Law

end Bank

end Fctf
