import Fctf.ChallengeToken
import Fctf.RedisHelper
import Fctf.Lib.Protocol

/-!
# Uploads of Bank Challenges

An upload of a challenge's folder submits a workflow that builds its image, and stores a
version of the challenge; the workflow reports its phase to the deployment center. An
administrator rolls a challenge back to an earlier version.

The management platform loads a row, changes its copy, and writes the columns that it has
changed; the deployment center writes the row as a whole. The class `Challenges` of the
platform does not map the columns `state`, `require_deploy` and `deploy_status`, though the
table has them: to read one from a row raises, and what is assigned to one is not written.

## Main results

* `handleChallengeUpload`, `handleMessageUpChallenge`, `rollback`: the three requests.
* `flush_eq_self`: a copy that was not changed writes nothing.
-/

open Concurrent

namespace Fctf

namespace Bank

/-! ### The tables -/

/-- A row of `challenges`: what a deployment needs of it. -/
structure BankChallenge where
  id : ℤ
  imageLink : Option String
  deployFile : Option String
  cpuLimit : Option ℤ
  cpuRequest : Option ℤ
  memoryLimit : Option ℤ
  memoryRequest : Option ℤ
  useGvisor : Option Bool
  hardenContainer : Option Bool
  maxDeployCount : Option ℤ
  state : String
  requireDeploy : Bool
  deployStatus : Option String
  deriving DecidableEq, Repr

/-- A row of `challenge_versions`. -/
structure ChallengeVersion where
  id : ℤ
  challengeId : ℤ
  versionNumber : ℤ
  imageLink : Option String
  deployFile : Option String
  cpuLimit : Option ℤ
  cpuRequest : Option ℤ
  memoryLimit : Option ℤ
  memoryRequest : Option ℤ
  useGvisor : Option Bool
  hardenContainer : Option Bool
  maxDeployCount : Option ℤ
  isActive : Bool
  deriving DecidableEq, Repr

/-- A workflow that builds a challenge's image. -/
structure Workflow where
  name : String
  challengeId : ℤ
  deriving DecidableEq, Repr

/-- The tables, the versions in the order of their creation, and the workflows in the order
of their submission. -/
structure World where
  challenges : List BankChallenge
  versions : List ChallengeVersion
  /-- The next id of a version. -/
  nextId : ℤ
  workflows : List Workflow
  deriving DecidableEq, Repr

namespace World

/-- `filter_by(id=id).first()`; `FirstOrDefaultAsync`. -/
def challenge (w : World) (id : ℤ) : Option BankChallenge := w.challenges.find? (·.id = id)

/-- An `UPDATE` of a challenge. -/
def updateChallenge (id : ℤ) (f : BankChallenge → BankChallenge) (w : World) : World :=
  { w with challenges := w.challenges.map fun c => if c.id = id then f c else c }

/-- `update({"is_active": False})` for the versions of a challenge. -/
def deactivate (challengeId : ℤ) (w : World) : World :=
  { w with versions := w.versions.map fun v =>
      if v.challengeId = challengeId then { v with isActive := false } else v }

/-- `version.is_active = True`. -/
def activate (id : ℤ) (w : World) : World :=
  { w with versions := w.versions.map fun v =>
      if v.id = id then { v with isActive := true } else v }

/-- The number after the latest version's. -/
def nextVersion (w : World) (challengeId : ℤ) : ℤ :=
  match ((w.versions.filter (·.challengeId = challengeId)).map (·.versionNumber)).max? with
  | some latest => latest + 1
  | none => 1

/-- The new version of a challenge. A `None` lets the two defaults of the table apply. -/
def addVersion (challenge : BankChallenge) (w : World) : World :=
  { w with
    versions := w.versions ++ [{
      id := w.nextId
      challengeId := challenge.id
      versionNumber := w.nextVersion challenge.id
      imageLink := challenge.imageLink
      deployFile := challenge.deployFile
      cpuLimit := challenge.cpuLimit
      cpuRequest := challenge.cpuRequest
      memoryLimit := challenge.memoryLimit
      memoryRequest := challenge.memoryRequest
      useGvisor := challenge.useGvisor
      hardenContainer := some (challenge.hardenContainer.getD true)
      maxDeployCount := some (challenge.maxDeployCount.getD 0)
      isActive := true }]
    nextId := w.nextId + 1 }

/-- An `UPDATE` that keeps the key. -/
theorem challenge_updateChallenge {id' : ℤ} {f : BankChallenge → BankChallenge}
    (hkey : ∀ c, c.id = id' → (f c).id = id') (w : World) (id : ℤ) :
    (w.updateChallenge id' f).challenge id =
      (w.challenge id).map fun c => if c.id = id' then f c else c := by
  have hsame : (fun c : BankChallenge => decide (c.id = id)) ∘ (fun c =>
      if c.id = id' then f c else c) = fun c => decide (c.id = id) := by
    funext c
    rw [Function.comp_apply]
    split
    · next hc => rw [hkey c hc, hc]
    · rfl
  rw [challenge, updateChallenge, List.find?_map, hsame, challenge]

theorem id_of_challenge {w : World} {id : ℤ} {c : BankChallenge} (h : w.challenge id = some c) :
    c.id = id := by
  have hdecide := List.find?_some h
  exact of_decide_eq_true hdecide

theorem challenge_updateChallenge_same {id : ℤ} {f : BankChallenge → BankChallenge}
    (hkey : ∀ c, c.id = id → (f c).id = id) {w : World} {c : BankChallenge}
    (h : w.challenge id = some c) : (w.updateChallenge id f).challenge id = some (f c) := by
  rw [challenge_updateChallenge hkey, h, Option.map_some, if_pos (id_of_challenge h)]

/-- The other challenges are left alone. -/
theorem challenge_updateChallenge_of_ne {id id' : ℤ} {f : BankChallenge → BankChallenge}
    (hkey : ∀ c, c.id = id' → (f c).id = id') (h : id ≠ id') (w : World) :
    (w.updateChallenge id' f).challenge id = w.challenge id := by
  rw [challenge_updateChallenge hkey]
  cases hfind : w.challenge id with
  | none => rfl
  | some c => rw [Option.map_some, if_neg ((id_of_challenge hfind).trans_ne h)]

end World

/-! ### Copies of rows -/

/-- The configuration of the management platform. -/
structure UploadConfig where
  /-- Does `Challenges` map the columns `state`, `require_deploy` and `deploy_status`? -/
  mapsRuntime : Bool
  nfsMountPath : String
  dockerUsername : String
  imageRepo : String

/-- What a column holds after a copy was written. -/
def written {α : Type} [DecidableEq α] (loaded new current : α) : α :=
  if new = loaded then current else new

/-- The `UPDATE` of a copy: the mapped columns that differ from what was loaded. -/
def flush (cfg : UploadConfig) (loaded new current : BankChallenge) : BankChallenge where
  id := current.id
  imageLink := written loaded.imageLink new.imageLink current.imageLink
  deployFile := written loaded.deployFile new.deployFile current.deployFile
  cpuLimit := written loaded.cpuLimit new.cpuLimit current.cpuLimit
  cpuRequest := written loaded.cpuRequest new.cpuRequest current.cpuRequest
  memoryLimit := written loaded.memoryLimit new.memoryLimit current.memoryLimit
  memoryRequest := written loaded.memoryRequest new.memoryRequest current.memoryRequest
  useGvisor := written loaded.useGvisor new.useGvisor current.useGvisor
  hardenContainer := written loaded.hardenContainer new.hardenContainer current.hardenContainer
  maxDeployCount := written loaded.maxDeployCount new.maxDeployCount current.maxDeployCount
  state := if cfg.mapsRuntime then written loaded.state new.state current.state
    else current.state
  requireDeploy :=
    if cfg.mapsRuntime then written loaded.requireDeploy new.requireDeploy current.requireDeploy
    else current.requireDeploy
  deployStatus :=
    if cfg.mapsRuntime then written loaded.deployStatus new.deployStatus current.deployStatus
    else current.deployStatus

@[simp] theorem written_self {α : Type} [DecidableEq α] (loaded current : α) :
    written loaded loaded current = current := if_pos rfl

/-- A current copy of a column is written as it is. -/
@[simp] theorem written_loaded {α : Type} [DecidableEq α] (loaded new : α) :
    written loaded new loaded = new := by
  rw [written]
  split
  · next h => exact h.symm
  · rfl

/-- A copy that was not changed writes nothing. -/
theorem flush_eq_self (cfg : UploadConfig) (loaded current : BankChallenge) :
    flush cfg loaded loaded current = current := by
  simp only [flush, written_self, ite_self]

/-! ### Operations -/

/-- What becomes of the uploaded file. -/
inductive Unpacked where
  | invalidZip
  | badZipFile
  /-- The folder is copied; the directory of its `Dockerfile`, if there is one. -/
  | copied (dockerfilePath : Option String)
  deriving DecidableEq, Repr

/-- The awaited operations. -/
inductive BankOp where
  | deleteCachedFiles (challengeId : ℤ)
  | fileExists (filename : String)
  | findChallenge (id : Option ℤ)
  | unpack (filename nfsDestination : String)
  | time
  | submit (challengeId : ℤ) (challengePath imageTag : String)
  | setWorkflowName (challengeId : ℤ) (workflowName : String)
  | workflowStatus (workflowName : String)
  | commitUpload (loaded challenge : BankChallenge)
  | commit (loaded challenge : BankChallenge)
  | findVersion (id challengeId : ℤ)
  | commitRollback (versionId : ℤ) (loaded challenge : BankChallenge)
  | saveChallenge (challenge : BankChallenge)
  deriving DecidableEq, Repr

/-- The type of an operation's reply. -/
def BankOp.Reply : BankOp → Type
  | deleteCachedFiles _ => Unit
  | fileExists _ => Bool
  | findChallenge _ => Option BankChallenge
  | unpack _ _ => Unpacked
  | time => ℤ
  | submit _ _ _ => Option String
  | setWorkflowName _ _ => Unit
  | workflowStatus _ => Option String
  | commitUpload _ _ => Unit
  | commit _ _ => Unit
  | findVersion _ _ => Option ChallengeVersion
  | commitRollback _ _ _ => Unit
  | saveChallenge _ => Unit

/-- The interface of these requests. -/
def bankI : Interface := ⟨BankOp, BankOp.Reply⟩

/-- An operation as a program. -/
def query (o : BankOp) : Prog bankI Exn o.Reply := Prog.perform (I := bankI) o

/-- What the surroundings choose during one operation. -/
structure BankEnv where
  /-- Is it lost, or its reply? -/
  fault : Fault
  /-- What a lost operation raises. -/
  exn : Exn
  fileExists : Bool
  unpacked : Unpacked
  time : ℤ
  /-- The name of the workflow, if it is accepted. -/
  workflowName : Option String
  /-- The phase of a workflow, if it is told. -/
  phase : Option String
  /-- Is the version stored? If not, its exception is caught before the commit. -/
  versionSaved : Bool
  deriving DecidableEq, Repr

/-- The effect of an operation that is not lost. -/
def BankOp.effect (cfg : UploadConfig) (e : BankEnv) : BankOp → World → World
  | submit id _ _, w =>
      { w with workflows := w.workflows ++ (e.workflowName.map (⟨·, id⟩)).toList }
  | commitUpload loaded challenge, w =>
      let w' := w.updateChallenge challenge.id (flush cfg loaded challenge)
      if e.versionSaved then (w'.deactivate challenge.id).addVersion challenge else w'
  | commit loaded challenge, w => w.updateChallenge challenge.id (flush cfg loaded challenge)
  | commitRollback versionId loaded challenge, w =>
      ((w.deactivate challenge.id).activate versionId).updateChallenge challenge.id
        (flush cfg loaded challenge)
  | saveChallenge challenge, w => w.updateChallenge challenge.id fun _ => challenge
  | _, w => w

theorem effect_commitUpload (cfg : UploadConfig) (e : BankEnv) (loaded challenge : BankChallenge)
    (w : World) :
    BankOp.effect cfg e (.commitUpload loaded challenge) w =
      if e.versionSaved then
        ((w.updateChallenge challenge.id (flush cfg loaded challenge)).deactivate
          challenge.id).addVersion challenge
      else w.updateChallenge challenge.id (flush cfg loaded challenge) := rfl

/-- What one operation answers and does. -/
def BankOp.exec (cfg : UploadConfig) (e : BankEnv) :
    (o : BankOp) → World → Except Exn o.Reply × World
  | deleteCachedFiles _, w => e.fault.apply e.exn (fun w => (.ok (), w)) w
  | fileExists _, w => (.ok e.fileExists, w)
  | findChallenge id, w => e.fault.apply e.exn (fun w => (.ok (id.bind w.challenge), w)) w
  | unpack _ _, w => e.fault.apply e.exn (fun w => (.ok e.unpacked, w)) w
  | time, w => (.ok e.time, w)
  | submit id path tag, w => e.fault.apply e.exn (fun w =>
      (.ok e.workflowName, effect cfg e (submit id path tag) w)) w
  | setWorkflowName _ _, w => e.fault.apply e.exn (fun w => (.ok (), w)) w
  | workflowStatus _, w => (.ok e.phase, w)
  | commitUpload loaded challenge, w => e.fault.apply e.exn (fun w =>
      (.ok (), effect cfg e (commitUpload loaded challenge) w)) w
  | commit loaded challenge, w => e.fault.apply e.exn (fun w =>
      (.ok (), effect cfg e (commit loaded challenge) w)) w
  | findVersion id challengeId, w =>
      e.fault.apply e.exn (fun w =>
        (.ok (w.versions.find? fun v => v.id = id ∧ v.challengeId = challengeId), w)) w
  | commitRollback versionId loaded challenge, w => e.fault.apply e.exn (fun w =>
      (.ok (), effect cfg e (commitRollback versionId loaded challenge) w)) w
  | saveChallenge challenge, w => e.fault.apply e.exn (fun w =>
      (.ok (), effect cfg e (saveChallenge challenge) w)) w

/-- **An operation** has its effect or none. -/
theorem BankOp.exec_snd (cfg : UploadConfig) (e : BankEnv) (o : BankOp) (w : World) :
    (o.exec cfg e w).2 = w ∨ (o.exec cfg e w).2 = o.effect cfg e w := by
  cases o with
  | fileExists _ | time | workflowStatus _ => exact .inl rfl
  | _ => exact Fault.apply_snd _ _ _ _

/-! ### The upload -/

/-- An answer to a request. -/
structure Response where
  httpStatus : ℕ
  success : Bool
  message : String
  workflowName : Option String
  workflowPhase : Option String
  versionNumber : Option ℤ
  deriving DecidableEq, Repr

/-- An answer that is a message. -/
def Response.plain (httpStatus : ℕ) (success : Bool) (message : String) : Response :=
  ⟨httpStatus, success, message, none, none, none⟩

/-- `os.path.join`. -/
def joinPath (a b : String) : String := if a.endsWith "/" then a ++ b else a ++ "/" ++ b

/-- `os.path.splitext(filename)[0]`: up to the last dot, unless it has only dots before it. -/
def splitextRoot (filename : String) : String :=
  let root := (filename.toList.reverse.dropWhile (· ≠ '.')).reverse.dropLast
  if filename.toList.contains '.' && root.any (· ≠ '.') then String.ofList root else filename

/-- `safe_folder_name`. The names that are passed have no letters but those of ASCII. -/
def safeFolderName (filename : String) (challengeId : ℤ) : String :=
  String.ofList ((splitextRoot filename ++ "-" ++ toString challengeId).toList.map fun c =>
    if c.isAlphanum || c = '-' || c = '_' then c else '_')

/-- Four hexadecimal digits. -/
def hex4 (n : ℕ) : List Char :=
  [n / 4096 % 16, n / 256 % 16, n / 16 % 16, n % 16].map Nat.digitChar

/-- A character as `json.dumps` writes it. -/
def jsonChar (c : Char) : List Char :=
  match c with
  | '"' => ['\\', '"']
  | '\\' => ['\\', '\\']
  | '\n' => ['\\', 'n']
  | '\r' => ['\\', 'r']
  | '\t' => ['\\', 't']
  | '\x08' => ['\\', 'b']
  | '\x0C' => ['\\', 'f']
  | c =>
      if ' ' ≤ c ∧ c ≤ '~' then [c]
      else if c.toNat < 0x10000 then '\\' :: 'u' :: hex4 c.toNat
      else
        let n := c.toNat - 0x10000
        '\\' :: 'u' :: hex4 (0xD800 + n / 1024) ++ '\\' :: 'u' :: hex4 (0xDC00 + n % 1024)

/-- `json.dumps` of a text. -/
def jsonText (s : String) : String := "\"" ++ String.ofList (s.toList.flatMap jsonChar) ++ "\""

/-- `json.dumps(object_image)`. -/
def objectImage (imageLink exposedPort : String) : String :=
  "\x7b\"imageLink\": " ++ jsonText imageLink ++ ", \"exposedPort\": " ++ jsonText exposedPort ++
    "\x7d"

section Upload

variable (cfg : UploadConfig)

/-- The `except` of the whole upload: the copy is written as far as it was changed. -/
def uploadFailed (loaded challenge : BankChallenge) : Prog bankI Exn Response := do
  let _ : Unit ← query (.commit loaded
    { challenge with deployStatus := some "FILE_UPLOAD_FAILED", state := "hidden" })
  return .plain 500 false "Error processing challenge upload"

/-- Submit the workflow, and mark the challenge. -/
def submitUpload (loaded challenge : BankChallenge) (safeName dockerfilePath exposePort : String) :
    Prog bankI Exn Response := do
  let unixTime : ℤ ← query .time
  let imageTag :=
    "challenge-" ++ toString challenge.id ++ "-" ++ safeName.toLower ++ "-" ++ toString unixTime
  let imageLink := cfg.dockerUsername ++ "/" ++ cfg.imageRepo ++ "/" ++ imageTag ++ ":latest"
  let submitted : Option String ← query (.submit challenge.id dockerfilePath imageTag)
  match submitted with
  | none => return .plain 500 false "Deployment service error"
  | some workflowName =>
      let _ : Unit ← query (.setWorkflowName challenge.id workflowName)
      let workflowPhase : Option String ← query (.workflowStatus workflowName)
      match workflowPhase with
      | none => return .plain 500 false "Error getting workflow status"
      | some phase =>
          let _ : Unit ← query (.commitUpload loaded
            { challenge with
              requireDeploy := true
              deployStatus := some "PENDING_DEPLOY"
              state := "hidden"
              imageLink := some (objectImage imageLink exposePort) })
          return ⟨200, true, "Challenge folder uploaded successfully", some workflowName,
            some phase, none⟩

/-- What follows when the folder is copied. -/
def copiedUpload (loaded challenge : BankChallenge) (safeName : String)
    (dockerfilePath exposePort : Option String) : Prog bankI Exn Response :=
  match dockerfilePath, exposePort with
  | none, _ => pure (.plain 400 false "Dockerfile not found in challenge folder")
  | some _, none => pure (.plain 400 false "No exposed port found")
  | some dockerfilePath, some exposePort =>
      -- `challenge.deploy_status` is read
      if !cfg.mapsRuntime then uploadFailed loaded challenge
      else if challenge.deployStatus = some "PENDING_DEPLOY" then
        pure (.plain 400 false "Challenge already pending deploy")
      else
        (submitUpload cfg loaded challenge safeName dockerfilePath exposePort).handle fun _ =>
          pure (.plain 500 false "Error updating challenge status")

/-- The upload of a challenge that was loaded. -/
def handleChallengeUpload (loaded : BankChallenge) (filename : String)
    (exposePort : Option String) : Prog bankI Exn Response := do
  let safeName := safeFolderName filename loaded.id
  let nfsDestination := joinPath (joinPath cfg.nfsMountPath "challenges") safeName
  let unpacked : Option Unpacked ←
    Prog.handle (do
      let unpacked : Unpacked ← query (.unpack filename nfsDestination)
      pure (some unpacked)) fun _ => pure none
  match unpacked with
  | none => uploadFailed loaded loaded
  | some .invalidZip => return .plain 400 false "Invalid Zip file"
  | some .badZipFile => return .plain 400 false "Invalid zip file format"
  | some (.copied dockerfilePath) =>
      copiedUpload cfg loaded { loaded with deployFile := some nfsDestination } safeName
        dockerfilePath exposePort

/-- `upload_file`. -/
def uploadFile (challengeId : ℤ) (filename : String) (exposePort : Option String) :
    Prog bankI Exn Response := do
  let _ : Unit ← query (.deleteCachedFiles challengeId)
  let found : Bool ← query (.fileExists filename)
  if !found then return .plain 400 false "File not found"
  let challenge : Option BankChallenge ← query (.findChallenge (some challengeId))
  if !filename.endsWith ".zip" then
    return .plain 400 false "File type not allowed. Only zip files are allowed."
  match challenge with
  -- `None` has no attribute `id`
  | none => throw .attributeError
  | some challenge => handleChallengeUpload cfg challenge filename exposePort

variable {cfg} {challengeId : ℤ} {filename : String} {exposePort : Option String}

/-- The operations of an upload. -/
def OfUpload : BankOp → Prop
  | .saveChallenge _ => False
  | .commitRollback _ _ _ => False
  | _ => True

theorem ofUpload_query {o : BankOp} (h : OfUpload o) : (query o).Throughout OfUpload :=
  (Prog.throughout_perform _).mpr h

theorem throughout_submitUpload (loaded challenge : BankChallenge)
    (safeName dockerfilePath port : String) :
    (submitUpload cfg loaded challenge safeName dockerfilePath port).Throughout OfUpload := by
  refine .bind (ofUpload_query trivial) fun unixTime => ?_
  refine .bind (ofUpload_query trivial) fun submitted => ?_
  split
  · trivial
  refine .bind (ofUpload_query trivial) fun _ => ?_
  refine .bind (ofUpload_query trivial) fun phase => ?_
  split
  · trivial
  exact .bind (ofUpload_query trivial) fun _ => trivial

theorem throughout_uploadFailed (loaded challenge : BankChallenge) :
    (uploadFailed loaded challenge).Throughout OfUpload :=
  .bind (ofUpload_query trivial) fun _ => trivial

theorem throughout_copiedUpload (loaded challenge : BankChallenge) (safeName : String)
    (dockerfilePath exposePort : Option String) :
    (copiedUpload cfg loaded challenge safeName dockerfilePath exposePort).Throughout
      OfUpload := by
  rw [copiedUpload.eq_def]
  split
  · trivial
  · trivial
  split
  · exact throughout_uploadFailed _ _
  split
  · trivial
  · exact .handle (throughout_submitUpload _ _ _ _ _) fun _ => trivial

/-- **An upload** performs no operation of the other requests. -/
theorem throughout_uploadFile :
    (uploadFile cfg challengeId filename exposePort).Throughout OfUpload := by
  refine .bind (ofUpload_query trivial) fun _ => .bind (ofUpload_query trivial) fun found => ?_
  split
  · trivial
  refine .bind (ofUpload_query trivial) fun challenge => ?_
  split
  · trivial
  split
  · trivial
  refine .bind (.handle (.bind (ofUpload_query trivial) fun _ => trivial) fun _ => trivial)
    fun unpacked => ?_
  split
  · exact throughout_uploadFailed _ _
  · trivial
  · trivial
  · exact throughout_copiedUpload _ _ _ _ _

end Upload

/-! ### The report of a workflow -/

/-- `Equals` with `OrdinalIgnoreCase`, if the second text is of ASCII letters. -/
def equalsIgnoreCase (s t : String) : Bool :=
  s.toList.map Char.toLower == t.toList.map Char.toLower

/-- `GetDeploymentStatus`. -/
def getDeploymentStatus (status : String) : String :=
  if isNullOrWhiteSpace status then "PENDING_DEPLOY"
  else if equalsIgnoreCase status "Failed" then "DEPLOY_FAILED"
  else if equalsIgnoreCase status "Succeeded" then "DEPLOY_SUCCEEDED"
  else "PENDING_DEPLOY"

/-- A message of type `up`. -/
structure WorkflowStatusDTO where
  workFlowName : Option String
  challengeId : Option ℤ
  status : Option String
  deriving DecidableEq, Repr

/-- What the message makes of the challenge. -/
def reported (message : WorkflowStatusDTO) (challenge : BankChallenge) : BankChallenge :=
  let deployStatus := getDeploymentStatus (message.status.getD "")
  let challenge := { challenge with deployStatus := some deployStatus }
  if deployStatus = "Succeeded" then { challenge with state := "visible" }
  else if deployStatus = "Failed" then { challenge with state := "hidden" }
  else challenge

/-- `HandleMessageUpChallenge`. -/
def handleMessageUpChallenge (message : WorkflowStatusDTO) : Prog bankI Exn Response :=
  Prog.handle (do
    let challenge : Option BankChallenge ← query (.findChallenge message.challengeId)
    match challenge with
    | none => return .plain 404 false "Challenge not found"
    | some challenge =>
        let _ : Unit ← query (.saveChallenge (reported message challenge))
        return .plain 200 true "Message from Argo processed successfully") fun _ =>
    pure (.plain 500 false "Internal server error")

/-! ### The rollback -/

/-- The version's configuration, where it has one. -/
def ChallengeVersion.applyTo (version : ChallengeVersion) (challenge : BankChallenge) :
    BankChallenge :=
  { challenge with
    imageLink := version.imageLink
    deployFile :=
      if version.deployFile.any (· ≠ "") then version.deployFile else challenge.deployFile
    cpuLimit := version.cpuLimit.or challenge.cpuLimit
    cpuRequest := version.cpuRequest.or challenge.cpuRequest
    memoryLimit := version.memoryLimit.or challenge.memoryLimit
    memoryRequest := version.memoryRequest.or challenge.memoryRequest
    useGvisor := version.useGvisor.or challenge.useGvisor
    hardenContainer := version.hardenContainer.or challenge.hardenContainer
    maxDeployCount := version.maxDeployCount.or challenge.maxDeployCount
    deployStatus := some "DEPLOY_SUCCESS" }

/-- `ChallengeVersionRollback.post`. -/
def rollback (challengeId versionId : ℤ) : Prog bankI Exn Response := do
  let challenge : Option BankChallenge ← query (.findChallenge (some challengeId))
  match challenge with
  | none => return .plain 404 false "Not Found"
  | some challenge =>
      let version : Option ChallengeVersion ← query (.findVersion versionId challengeId)
      match version with
      | none => return .plain 404 false "Not Found"
      | some version =>
          if version.isActive then return .plain 400 false "This version is already active"
          if version.imageLink.all (· = "") then
            return .plain 400 false "This version has no image to rollback to"
          Prog.handle (do
            let _ : Unit ←
              query (.commitRollback version.id challenge (version.applyTo challenge))
            return ⟨200, true,
              "Challenge rolled back to version " ++ toString version.versionNumber, none, none,
              some version.versionNumber⟩) fun _ =>
            pure (.plain 500 false "Rollback failed")

end Bank

end Fctf
