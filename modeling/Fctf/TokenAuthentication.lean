import Fctf.AuthWorld

/-!
# Tokens and Their Check

The middleware that every request to an endpoint with `[Authorize]` passes
(`TokenAuthenticationMiddleware`), the login, the logout and the two ways to select a
contest. The requests it is asked about carry a web token whose signature has been
verified, so only the claims matter here; a request for an endpoint that asks for no
authorisation is let through and does not appear.

Every endpoint behind the middleware that neither issues nor withdraws tokens is one
endpoint here, which answers `handled`.

## Main definitions

* `invokeAsync`: the middleware in front of an endpoint.
* `generateUserToken`, `loginContestant`, `logout`, `selectContest`: the services.
* `ContestController.selectContest`: the second endpoint to select a contest.
* `auths`: the service of all these calls, over any course of time and any changes that
  others make to the tables.
-/

open Concurrent RedisDb

namespace Fctf

namespace Auth

/-! ### Answers -/

/-- `SelectContestResponseDTO`. -/
structure SelectContestResponseDTO where
  /-- The web token. -/
  token : Claims
  /-- The contest. -/
  contestId : ℤ
  /-- Its name. -/
  contestName : String
  /-- The team, if there is one. -/
  teamId : Option ℤ
  /-- Its name. -/
  teamName : Option String
  deriving DecidableEq, Repr

/-- An answer. -/
inductive Response where
  /-- A status and a text. -/
  | text (status : ℕ) (message : String)
  /-- A login succeeded. -/
  | loggedIn (userId : ℤ) (token : Claims)
  /-- A contest was selected. -/
  | selected (dto : SelectContestResponseDTO)
  /-- Any other endpoint has answered. -/
  | handled
  deriving DecidableEq, Repr

/-! ### The middleware -/

/-- The paths that need no contest. -/
def allowedPathsWithoutContest : List String :=
  ["/api/contest", "/api/auth/select-contest", "/api/users/profile", "/api/config"]

/-- Does a path, in lower case, need a contest? -/
def requiresContest (path : String) : Bool :=
  !allowedPathsWithoutContest.any fun p => p.toList.isPrefixOf path.toList

/-- The comparison of the token that was found with the one that is claimed. -/
def tokenVerdict (tokenValueFromDb tokenUuid : Option String) : Option Response :=
  if tokenValueFromDb.getD "" = "" ∨ tokenValueFromDb ≠ tokenUuid then
    some (.text 401 "Invalid user token")
  else none

/-- The checks of the account. -/
def accountVerdict (verified banned hidden : Option Bool) : Option Response :=
  if verified ≠ some true then some (.text 403 "Account not verified.")
  else if banned = some true then some (.text 403 "Account banned.")
  else if hidden = some true then some (.text 403 "Account hidden.")
  else none

/-- The check of the team. -/
def teamVerdict (teamBanned : Option Bool) : Option Response :=
  if teamBanned = some true then some (.text 403 "Your team has been banned.") else none

/-- The checks against a cached entry. -/
def cachedVerdict (claims : Claims) (claimContestId : ℤ) (cache : AuthInfoCacheDTO) :
    Option Response :=
  match tokenVerdict cache.tokenValueFromDb claims.tokenUuid with
  | some answer => some answer
  | none =>
      if cache.contestId ≠ claimContestId then
        some (.text 401 "Token not valid for this contest.")
      else
        match accountVerdict cache.verified cache.banned cache.hidden with
        | some answer => some answer
        | none => teamVerdict cache.teamBanned

/-- A token that passes is the stored one. -/
theorem tokenVerdict_eq_none {stored claimed : Option String}
    (h : tokenVerdict stored claimed = none) : stored = claimed := by
  simp only [tokenVerdict] at h
  split at h
  · cases h
  · next hne => exact not_not.mp (not_or.mp hne).2

theorem tokenVerdict_of_cachedVerdict {claims : Claims} {c : ℤ} {cache : AuthInfoCacheDTO}
    (h : cachedVerdict claims c cache = none) :
    tokenVerdict cache.tokenValueFromDb claims.tokenUuid = none := by
  simp only [cachedVerdict] at h
  split at h
  · cases h
  · next htoken => exact htoken

/-- The entry that is cached for a request. -/
def cacheEntry (claimContestId : ℤ) (tokenValueFromDb : Option String) (info : UserInfo) :
    AuthInfoCacheDTO :=
  ⟨tokenValueFromDb, claimContestId, info.verified, info.banned, info.hidden,
    some info.teamBanned⟩

/-- The checks without a contest, for the token of a login. -/
def checkBasic (claims : Claims) (id : ℤ) : Prog authI Exn (Option Response) := do
  let basicUserInfo : Option User ← issue (.findUser id)
  match basicUserInfo with
  | none => pure (some (.text 401 "User not found."))
  | some user =>
      let token : Option Token ← issue (.findToken id)
      match tokenVerdict (token.bind (·.value)) claims.tokenUuid with
      | some answer => pure (some answer)
      | none => pure (accountVerdict user.verified user.banned user.hidden)

/-- The checks of one who takes part, and the entry for the cache. -/
def checkParticipant (claimContestId id : ℤ) (tokenValueFromDb : Option String) (info : UserInfo) :
    Prog authI Exn (Option Response) :=
  match accountVerdict info.verified info.banned info.hidden with
  | some answer => pure (some answer)
  | none =>
      match teamVerdict (some info.teamBanned) with
      | some answer => pure (some answer)
      | none => do
          let _ ← setCacheAsync (authKey claimContestId id)
            (cacheEntry claimContestId tokenValueFromDb info) 60
          pure none

/-- The checks against the database. -/
def checkDatabase (claims : Claims) (claimContestId id : ℤ) :
    Prog authI Exn (Option Response) := do
  let token : Option Token ← issue (.findToken id)
  let userInfo : Option UserInfo ← issue (.findUserInfo id)
  match userInfo with
  | none => pure (some (.text 401 "User not found."))
  | some info =>
      match tokenVerdict (token.bind (·.value)) claims.tokenUuid with
      | some answer => pure (some answer)
      | none =>
          let isParticipant : Bool ← issue (.isParticipant claimContestId id)
          if isParticipant then checkParticipant claimContestId id (token.bind (·.value)) info
          else pure (some (.text 403 "You are not a participant of this contest."))

/-- The checks with a contest: against the cached entry, or else against the database. -/
def checkContest (claims : Claims) (claimContestId id : ℤ) :
    Prog authI Exn (Option Response) := do
  let authInfoCache : Option AuthInfoCacheDTO ← getFromCacheAsync (authKey claimContestId id)
  match authInfoCache with
  | some cache => pure (cachedVerdict claims claimContestId cache)
  | none => checkDatabase claims claimContestId id

/-- All checks; `none` lets the request through. -/
def check (claims : Claims) (path : String) : Prog authI Exn (Option Response) :=
  match claims.nameIdentifier, claims.teamId, claims.contestId with
  | some id, some _, some claimContestId =>
      if requiresContest path ∧ claimContestId ≤ 0 then
        pure (some (.text 401 "Invalid user token: missing contestId."))
      else if claimContestId = 0 then checkBasic claims id
      else checkContest claims claimContestId id
  | some _, some _, none =>
      pure (some (.text 401 "Invalid user token: missing contestId."))
  | _, _, _ => pure (some (.text 401 "Invalid user token."))

/-- `InvokeAsync`, in front of an endpoint. -/
def invokeAsync (claims : Claims) (path : String) (next : Prog authI Exn Response) :
    Prog authI Exn Response :=
  try
    match ← check claims path with
    | some answer => pure answer
    | none =>
        issue .next
        next
  catch _ => pure (.text 500 "An error occurred while processing your request.")

/-! ### Tokens -/

/-- `CreateToken`: the claims of a web token. -/
def createToken (userId teamId contestId : ℤ) (tokenUuid : String) : Claims :=
  ⟨some userId, none, some teamId, some contestId, some tokenUuid⟩

/-- `GenerateUserToken`: a new uuid, which replaces the stored one. -/
def generateUserToken (userId contestId contestTeamId : ℤ) : Prog authI Exn Claims := do
  let tokenUuid : Guid ← issue .newGuid
  let existingToken : Option Token ← issue (.findToken userId)
  match existingToken with
  | some row => issue (.updateToken row.id tokenUuid.text)
  | none => issue (.insertToken userId tokenUuid.text)
  pure (createToken userId contestTeamId contestId tokenUuid.text)

/-! ### The services -/

/-- `LoginDTO`, with its texts trimmed. -/
structure LoginDTO where
  /-- The name. -/
  username : Option String
  /-- The password. -/
  password : Option String
  deriving DecidableEq, Repr

/-- `VerifyPassword`: a password against the stored hash; a missing hash stands for the
dummy one. -/
abbrev VerifyPassword := String → Option String → Bool

/-- The checks of a user who logs in. -/
def loginVerdict (passwordValid : Bool) (user : User) : Option Response :=
  if user.type ≠ some "user" then some (.text 400 "Invalid username or password")
  else if user.verified = some false then
    some (.text 400 "Your account is not verified yet")
  else if !passwordValid then some (.text 400 "Invalid username or password")
  else if user.hidden.getD false ∨ user.banned.getD false then
    some (.text 400 "Your account is not allowed")
  else none

/-- A login with a name and a password. -/
def loginUser (verifyPassword : VerifyPassword) (username password : String) :
    Prog authI Exn Response := do
  let captchaValid : Bool ← issue .validateCaptcha
  if captchaValid then
    let user : Option User ← issue (.findUserByName username)
    match user with
    | none => pure (.text 400 "Invalid username or password")
    | some user =>
        match loginVerdict (verifyPassword password user.password) user with
        | some answer => pure answer
        | none =>
            let jwt ← generateUserToken user.id 0 0
            let _ ← issue (.findTracking user.id)
            issue (.saveTracking user.id)
            pure (.loggedIn user.id jwt)
  else pure (.text 400 "Captcha validation failed")

/-- `LoginContestant`. -/
def loginContestant (verifyPassword : VerifyPassword) (loginDto : LoginDTO) :
    Prog authI Exn Response :=
  try
    match loginDto.username.filter (· ≠ ""), loginDto.password.filter (· ≠ "") with
    | some username, some password => loginUser verifyPassword username password
    | _, _ => pure (.text 400 "Missing username or password")
  catch _ => pure (.text 400 "An error occurred during login")

/-- `Logout`. -/
def logout (userId : ℤ) : Prog authI Exn Response :=
  try
    let existingTokens : List Token ← issue (.listTokens userId)
    if existingTokens ≠ [] then issue (.removeTokens existingTokens)
    let _ ← removeCacheAsync (logoutKey userId)
    pure (.text 200 "Logged out successfully")
  catch _ => pure (.text 400 "An error occurred during logout")

/-- A selection by one who takes part. -/
def selectFor (userId contestId : ℤ) (user : User) (contest : Contest)
    (participant : ContestParticipant) (contestTeam : Option Team) :
    Prog authI Exn Response :=
  let contestTeamId := participant.teamId.getD 0
  if (contestTeam.bind (·.banned)).getD false then
    pure (.text 400 "Your team has been banned from this contest")
  else do
    let jwt ← generateUserToken user.id contestId contestTeamId
    let _ ← removeCacheAsync (authKey contestId userId)
    pure (.selected
      ⟨jwt, contestId, contest.name, if 0 < contestTeamId then some contestTeamId else none,
        contestTeam.bind (·.name)⟩)

/-- `AuthService.SelectContest`. -/
def selectContest (userId contestId : ℤ) : Prog authI Exn Response :=
  try
    if contestId ≤ 0 then pure (.text 400 "Invalid contest ID")
    else
      let user : Option User ← issue (.findUser userId)
      match user with
      | none => pure (.text 400 "User not found")
      | some user =>
          let contest : Option Contest ← issue (.findContest contestId)
          match contest with
          | none => pure (.text 400 "Contest not found")
          | some contest =>
              let participant : Option (ContestParticipant × Option Team) ←
                issue (.findParticipant contestId userId)
              match participant with
              | none => pure (.text 400 "You are not registered for this contest")
              | some (participant, contestTeam) =>
                  selectFor userId contestId user contest participant contestTeam
  catch _ => pure (.text 400 "Failed to select contest")

/-- Whether one who is no admin takes part. -/
def maySelect (role : Option String) (contestId userId : ℤ) : Prog authI Exn Bool :=
  if role = some "admin" then pure true else issue (.isParticipant contestId userId)

/-- `ContestController.SelectContest`. -/
def ContestController.selectContest (claims : Claims) (contestId : ℤ) :
    Prog authI Exn Response :=
  match claims.nameIdentifier with
  | none => pure (.text 401 "")
  | some userId => do
      let contest : Option Contest ← issue (.findContest contestId)
      match contest with
      | none => pure (.text 404 "Contest not found")
      | some contest =>
          if ← maySelect claims.role contestId userId then
            let user : Option User ← issue (.findUser userId)
            match user with
            | none => pure (.text 404 "User not found")
            | some user =>
                let team : Option Team ← issue (.findTeam contestId userId)
                let tokenUuid : Guid ← issue .newGuid
                pure (.selected
                  ⟨createToken user.id ((team.map (·.id)).getD 0) contestId tokenUuid.text,
                    contestId, contest.name, team.map (·.id), team.bind (·.name)⟩)
          else pure (.text 403 "")

/-- `UserContext.UserId`, for an endpoint that needs it. -/
def withUserId (claims : Claims) (endpoint : ℤ → Prog authI Exn Response) :
    Prog authI Exn Response :=
  match claims.nameIdentifier with
  | some userId => endpoint userId
  | none => throw .argument

/-! ### The service -/

/-- What the contestants ask for. -/
inductive AuthCall where
  /-- A login. -/
  | login (dto : LoginDTO)
  /-- A request to an endpoint that does not deal with tokens. -/
  | request (claims : Claims) (path : String)
  /-- `POST /api/auth/logout`. -/
  | logout (claims : Claims)
  /-- `POST /api/auth/select-contest`. -/
  | selectContest (claims : Claims) (contestId : ℤ)
  /-- `POST /api/contest/select`. -/
  | select (claims : Claims) (contestId : ℤ)
  deriving DecidableEq

/-- The program of a call. -/
def AuthCall.program (verifyPassword : VerifyPassword) : AuthCall → Prog authI Exn Response
  | login dto => loginContestant verifyPassword dto
  | request claims path => invokeAsync claims path (pure .handled)
  | logout claims =>
      invokeAsync claims "/api/auth/logout" (withUserId claims Auth.logout)
  | selectContest claims contestId =>
      invokeAsync claims "/api/auth/select-contest"
        (withUserId claims fun userId => Auth.selectContest userId contestId)
  | select claims contestId =>
      invokeAsync claims "/api/contest/select"
        (ContestController.selectContest claims contestId)

/-- The claims a call presents. -/
def AuthCall.claims : AuthCall → Option Claims
  | login _ => none
  | request claims _ => some claims
  | logout claims => some claims
  | selectContest claims _ => some claims
  | select claims _ => some claims

/-- What happens between operations: time passes, and others change the tables. -/
inductive AuthMove where
  | pass (seconds : ℕ)
  | edit (f : AuthTables → AuthTables)

/-- What such a move does. -/
def AuthMove.apply : AuthMove → AuthWorld → AuthWorld
  | pass d, w => { w with redis := w.redis.tick d }
  | edit f, w => { w with tables := f w.tables }

/-- All these calls at once. -/
def auths (verifyPassword : VerifyPassword) : Service authI Exn Response AuthWorld where
  Call := AuthCall
  Env := AuthEnv
  Ext := AuthMove
  program := AuthCall.program verifyPassword
  exec e o := AuthOp.exec e o
  ambient := AuthMove.apply

instance (verifyPassword : VerifyPassword) : DecidableEq (auths verifyPassword).Call :=
  inferInstanceAs (DecidableEq AuthCall)

end Auth

end Fctf
