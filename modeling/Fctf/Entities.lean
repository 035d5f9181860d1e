import Mathlib.Data.Int.Notation
import Mathlib.Data.Nat.Notation

/-!
# Entities and Data Transfer Objects

The records that the modelled services read and write: the challenges of a contest and
of the bank, submissions and start trackings, the cached deployment entry, and the
requests and responses of the deployment API. A record has the columns some modelled
function uses.
-/

namespace Fctf

/-- `Enums.DeploymentStatus`. -/
inductive DeploymentStatus where
  | initial
  | pending
  | runing
  | stopped
  | deleting
  | failed
  | succeeded
  | pendingDeploy
  | deployFailed
  | deploySucceeded
  deriving DecidableEq, Repr

/-- `Enums.ChallengeState`, and the state `locked` the controllers also check for. -/
inductive ChallengeState where
  | visible
  | hidden
  | locked
  deriving DecidableEq, Repr

/-- `Enums.SubmissionTypes`. -/
inductive SubmissionType where
  | correct
  | incorrect
  | discard
  deriving DecidableEq, Repr

/-- The text a user typed, as the backend holds it: UTF-16 code units. -/
abbrev Utf16 := List (BitVec 16)

/-- How a flag is compared (`Flag.Type`); an unknown type raises. -/
inductive FlagType where
  | static
  | regex
  | unknown
  deriving DecidableEq, Repr

/-- A flag of a bank challenge. -/
structure Flag where
  /-- How it is compared. -/
  type : FlagType
  /-- The flag or the pattern. -/
  content : Option Utf16
  /-- Is `Data` the text `case_insensitive`? -/
  caseInsensitive : Bool
  deriving DecidableEq, Repr

/-- A challenge of the bank. -/
structure Challenge where
  /-- Its id. -/
  id : ℤ
  /-- Its name. -/
  name : String
  /-- Is it one instance for all teams? -/
  sharedInstant : Bool
  /-- The prerequisites in `Requirements`; `none` if there are none to be read. -/
  prerequisites : Option (List ℤ)
  /-- Is it a challenge whose value decays (`Type == "dynamic"`)? -/
  dynamic : Bool
  deriving DecidableEq, Repr

/-- A challenge as used in a contest. -/
structure ContestsChallenge where
  /-- Its id, which the API calls the challenge id. -/
  id : ℤ
  /-- The contest. -/
  contestId : ℤ
  /-- The bank challenge, if it is still there. -/
  bankChallenge : Option Challenge
  /-- Its own name, if it has one. -/
  name : Option String
  /-- The points for solving it. -/
  value : Option ℤ
  /-- Is it shown? -/
  state : ChallengeState
  /-- Does it have to be deployed? -/
  requireDeploy : Bool
  /-- How many wrong answers a team has. -/
  maxAttempts : Option ℤ
  /-- How many starts a team has. -/
  maxDeployCount : Option ℤ
  /-- The running time in minutes. -/
  timeLimit : Option ℤ
  /-- The seconds between two answers. -/
  cooldown : Option ℤ
  /-- Can `ImageLink` be read? -/
  hasImage : Bool
  deriving DecidableEq, Repr

/-- A user account. -/
structure User where
  /-- Its id. -/
  id : ℤ
  /-- Is it of type `admin`? -/
  admin : Bool
  deriving DecidableEq, Repr

/-- A row of `submissions`. -/
structure Submission where
  /-- Its id. -/
  id : ℤ
  /-- The contest. -/
  contestId : ℤ
  /-- The challenge in the contest. -/
  contestChallengeId : ℤ
  /-- Who submitted it. -/
  userId : Option ℤ
  /-- For which team. -/
  teamId : Option ℤ
  /-- The text. -/
  provided : Utf16
  /-- What it was found to be. -/
  type : SubmissionType
  /-- When it was submitted. -/
  date : Option ℤ
  deriving DecidableEq, Repr

/-- A row of `solves`; its id is that of its submission. -/
structure Solf where
  /-- Its id. -/
  id : ℤ
  /-- The challenge in the contest. -/
  contestChallengeId : ℤ
  /-- Who solved it. -/
  userId : Option ℤ
  /-- For which team. -/
  teamId : Option ℤ
  deriving DecidableEq, Repr

/-- A row of `ChallengeStartTrackings`. -/
structure ChallengeStartTracking where
  /-- The challenge in the contest. -/
  contestChallengeId : ℤ
  /-- The contest. -/
  contestId : ℤ
  /-- The team. -/
  teamId : ℤ
  /-- When it was reported running. -/
  startedAt : ℤ
  /-- When it was gone. -/
  stoppedAt : Option ℤ
  /-- The deployment's namespace. -/
  label : String
  deriving DecidableEq, Repr

/-- The cached entry of a deployment. -/
structure ChallengeDeploymentCacheDTO where
  /-- The challenge in the contest. -/
  challengeId : ℤ
  /-- The contest. -/
  contestId : ℤ
  /-- Who started it. -/
  userId : ℤ
  /-- The team. -/
  teamId : ℤ
  /-- The namespace it runs in. -/
  _namespace : String
  /-- The pod last seen. -/
  podId : String
  /-- The workflow that deploys it. -/
  workflowName : String
  /-- The token its users reach it with. -/
  challengeUrl : String
  /-- The deadline. -/
  timeFinished : ℤ
  /-- Where it stands. -/
  status : DeploymentStatus
  /-- Can it be used? -/
  ready : Bool
  deriving DecidableEq, Repr

/-- The body of a start or stop request. -/
structure ChallengeStartStopReqDTO where
  /-- The bank challenge for a start, the contest's challenge for a stop. -/
  challengeId : ℤ
  /-- The challenge in the contest. -/
  contestChallengeId : ℤ
  /-- The contest. -/
  contestId : ℤ
  /-- The team. -/
  teamId : ℤ
  /-- The user. -/
  userId : ℤ
  deriving DecidableEq, Repr

/-- The body of a status request. -/
structure ChallengCheckStatusReqDTO where
  /-- The challenge in the contest. -/
  challengeId : ℤ
  /-- The contest. -/
  contestId : ℤ
  /-- The team. -/
  teamId : ℤ
  deriving DecidableEq, Repr

/-- The response of the deployment API. -/
structure ChallengeDeployResponeDTO where
  /-- The HTTP status. -/
  status : ℕ
  /-- Did it work? -/
  success : Bool
  /-- The text for the user. -/
  message : String
  /-- The token, if there is one. -/
  challengeUrl : Option String
  /-- Minutes left, or the limit. -/
  timeLimit : ℤ
  deriving DecidableEq, Repr

/-- A response with a text and no data. -/
def ChallengeDeployResponeDTO.plain (status : ℕ) (success : Bool) (message : String) :
    ChallengeDeployResponeDTO :=
  ⟨status, success, message, none, 0⟩

/-- A refusal `new { error = … }`. -/
def ChallengeDeployResponeDTO.refuse (status : ℕ) (error : String) :
    ChallengeDeployResponeDTO :=
  ⟨status, false, error, none, 0⟩

end Fctf
