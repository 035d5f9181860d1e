import Fctf.RedisLock
import Fctf.SecretKey

/-!
# Accounts

`RegisterContestant` lets a visitor create an account; `ImportParticipants` makes accounts
for a list of e-mail addresses and puts them into a contest. Both write the table of the
users: the one in a transaction, and under a lock if the number of users is limited, the
other one through a change tracker that keeps what could not be saved.

The id of a user is its place in the table. A row that is rolled back leaves its place
empty, as `AUTO_INCREMENT` does.
-/

open Concurrent RedisDb

namespace Fctf

namespace Accounts

/-! ### Text -/

/-- The classes of characters, and lower case. The database does not tell letters of
different case apart. -/
structure Culture where
  isWhiteSpace : Char → Bool
  isUpper : Char → Bool
  isLower : Char → Bool
  isDigit : Char → Bool
  toLower : Char → Char
  /-- Lower case stays as it is. -/
  toLower_toLower : ∀ c, toLower (toLower c) = toLower c

namespace Culture

variable (u : Culture)

/-- `ToLower`, `LOWER`. -/
def lower (s : String) : String := String.ofList (s.toList.map u.toLower)

/-- `Trim`. -/
def trim (s : String) : String :=
  String.ofList
    (((s.toList.dropWhile u.isWhiteSpace).reverse.dropWhile u.isWhiteSpace).reverse)

/-- `IsNullOrWhiteSpace`. -/
def isBlank (s : String) : Bool := s.toList.all u.isWhiteSpace

@[simp] theorem lower_lower (s : String) : u.lower (u.lower s) = u.lower s := by
  simp [lower, List.map_map, Function.comp_def, u.toLower_toLower]

/-- The comparison of a text column. -/
def sameText (column : Option String) (s : String) : Bool :=
  column.any fun t => u.lower t = u.lower s

/-- `NormalizeNullable`. -/
def normalizeNullable (value : Option String) : Option String :=
  (value.map u.trim).filter (· ≠ "")

/-- `IsValidPasswordPolicy`. -/
def isValidPasswordPolicy (password : String) : Bool :=
  decide (8 ≤ password.length) && decide (password.length ≤ 20) && password.toList.any u.isUpper &&
    password.toList.any u.isLower && password.toList.any u.isDigit &&
    password.toList.any "!@#$%^&*(),.?\":\x7b\x7d|<>".toList.contains

/-- Lower case is in lower case. -/
theorem char_toLower_toLower (c : Char) : c.toLower.toLower = c.toLower := by
  have hother (d : Char) (h : ¬(d.val ≥ 'A'.val ∧ d.val ≤ 'Z'.val)) : d.toLower = d := dif_neg h
  by_cases h : c.val ≥ 'A'.val ∧ c.val ≤ 'Z'.val
  · refine hother _ fun h' => ?_
    rw [Char.toLower, dif_pos h] at h'
    obtain ⟨hge, hle⟩ := h
    have hle' := h'.2
    simp only [ge_iff_le, UInt32.le_iff_toNat_le, UInt32.toNat_add] at hge hle hle'
    simp at hge hle hle'
    omega
  · rw [hother c h, hother c h]

/-- The characters of ASCII. -/
def ascii : Culture where
  isWhiteSpace := Char.isWhitespace
  isUpper := Char.isUpper
  isLower := Char.isLower
  isDigit := Char.isDigit
  toLower := Char.toLower
  toLower_toLower := char_toLower_toLower

end Culture

/-! ### The tables -/

/-- What has become of a row. -/
inductive RowState where
  | committed
  | pending
  | discarded
  deriving DecidableEq, Repr

/-- A user, with the transaction that has inserted it. -/
structure User where
  (email name : Option String)
  type : String
  (verified hidden banned : Option Bool)
  state : RowState
  tx : Option ℕ
  deriving DecidableEq, Repr

/-- Is the row there for everyone? -/
def User.visible (u : User) : Bool := u.state = .committed

/-- Does the row hold its keys? -/
def User.live (u : User) : Bool := u.state ≠ .discarded

/-- Is it one of the users that are counted? -/
def User.counted (u : User) : Bool :=
  u.visible && decide (u.banned ≠ some true) && decide (u.hidden ≠ some true)

/-- A participant of a contest. -/
structure Participant where
  (contestId userId : ℕ)
  role : String
  deriving DecidableEq, Repr

/-- A contest. -/
structure Contest where
  id : ℕ
  ownerId : Option ℕ
  deriving DecidableEq, Repr

/-- A field of the registration form. -/
structure Field where
  id : ℤ
  name : String
  fieldType : Option String
  required : Option Bool
  deriving DecidableEq, Repr

/-- What an entry of the form holds. -/
inductive EntryValue where
  | text (s : String)
  | boolean (b : Bool)
  deriving DecidableEq, Repr

/-- An entry of the form. -/
structure FieldEntry where
  fieldId : ℤ
  value : EntryValue
  deriving DecidableEq, Repr

/-- What the table of the settings holds under a key. -/
inductive ConfigValue where
  | int (n : ℤ)
  | bool (b : Bool)
  | text (s : String)
  deriving DecidableEq, Repr

/-- The tables, the locks in Redis, and the time. -/
structure AccountWorld where
  users : List User
  participants : List Participant
  contests : List Contest
  config : String → Option ConfigValue
  fields : List Field
  /-- The number of transactions so far. -/
  transactions : ℕ
  /-- The locks. -/
  lock : RedisLock.LockWorld

/-- The users that are counted against the limit. -/
def AccountWorld.countUsers (w : AccountWorld) : ℕ := w.users.countP User.counted

/-- What has been told to a change tracker, and not been saved. -/
inductive Tracked where
  | user (email name : String)
  | participant (contestId userId : ℕ) (role : String)
  deriving DecidableEq, Repr

/-- The database: how it compares, and what it refuses for its contents (too long a value,
say). -/
structure Database where
  culture : Culture
  refusesUser : (email name : String) → Bool
  refusesRole : String → Bool

namespace Database

variable (db : Database)

/-- The account of an e-mail address. -/
def findByEmail (users : List User) (normalizedEmail : String) : Option ℕ :=
  users.findIdx? fun u => u.visible && db.culture.sameText u.email normalizedEmail

/-- May a row be inserted? The index on the addresses is unique, and those of other
transactions count. -/
def acceptsUser (users : List User) (email name : String) : Bool :=
  !db.refusesUser email name && users.all fun u => !(u.live && db.culture.sameText u.email email)

/-- A new account. -/
def newUser (email name : String) (state : RowState) (tx : Option ℕ) : User :=
  ⟨some email, some name, "user", some false, some false, some false, state, tx⟩

/-- May a participant be inserted? It needs its user, and the index on contest and user is
unique. -/
def acceptsParticipant (users : List User) (participants : List Participant) (p : Participant) :
    Bool :=
  !db.refusesRole p.role && users[p.userId]?.any User.visible &&
    participants.all fun q => !(decide (q.contestId = p.contestId) && decide (q.userId = p.userId))

/-- One row is inserted. -/
def insert : Tracked → List User × List Participant → Option (List User × List Participant)
  | .user email name, (users, participants) =>
      if db.acceptsUser users email name then
        some (users ++ [newUser email name .committed none], participants)
      else none
  | .participant contestId userId role, (users, participants) =>
      if db.acceptsParticipant users participants ⟨contestId, userId, role⟩ then
        some (users, participants ++ [⟨contestId, userId, role⟩])
      else none

/-- All rows are inserted, or none. -/
def insertAll : List Tracked → List User × List Participant →
    Option (List User × List Participant)
  | [], tables => some tables
  | row :: rows, tables => (db.insert row tables).bind (insertAll rows)

/-- `SaveChangesAsync`, with the id of the last user. -/
def saveChanges (rows : List Tracked) (w : AccountWorld) : Except Exn ℕ × AccountWorld :=
  match db.insertAll rows (w.users, w.participants) with
  | none => (.error .duplicateKey, w)
  | some (users, participants) =>
      (.ok (users.length - 1), { w with users := users, participants := participants })

end Database

/-! ### Operations -/

/-- What the requests ask for. -/
inductive AccountOp where
  | getConfig (key : String)
  | verifyCaptcha (token : String)
  | lock (o : RedisLock.LockOp)
  | countUsers
  | nameExists (name : String)
  | emailExists (email : String)
  | userFields
  | beginTransaction
  | insertUser (tx : ℕ) (email name : String)
  | insertEntries (tx userId : ℕ) (entries : List FieldEntry)
  | commit (tx : ℕ)
  | rollback (tx : ℕ)
  | findUser (userId : ℕ)
  | findContest (contestId : ℕ)
  | participantsOf (contestId : ℕ)
  | findByEmail (normalizedEmail : String)
  | saveChanges (rows : List Tracked)

/-- The type of an operation's reply. -/
def AccountOp.Reply : AccountOp → Type
  | getConfig _ => Option ConfigValue
  | verifyCaptcha _ => Bool
  | lock o => o.Reply
  | countUsers => ℕ
  | nameExists _ => Bool
  | emailExists _ => Bool
  | userFields => List Field
  | beginTransaction => ℕ
  | insertUser _ _ _ => ℕ
  | insertEntries _ _ _ => Unit
  | commit _ => Unit
  | rollback _ => Unit
  | findUser _ => Option User
  | findContest _ => Option Contest
  | participantsOf _ => List ℕ
  | findByEmail _ => Option ℕ
  | saveChanges _ => ℕ

/-- The interface. -/
def accountI : Interface := ⟨AccountOp, AccountOp.Reply⟩

/-- What the surroundings choose: whether an operation fails, what Turnstile answers, and
whether the database refuses the entries of the form. -/
structure AccountEnv where
  fault : Fault
  captcha : Bool
  entriesRefused : Bool
  deriving DecidableEq, Repr

/-- A request that only reads. -/
def AccountEnv.read {α : Type} (e : AccountEnv) (answer : AccountWorld → α) (w : AccountWorld) :
    Except Exn α × AccountWorld :=
  e.fault.apply .database (fun w => (.ok (answer w), w)) w

/-- The rows of a transaction get a new state. -/
def settle (tx : ℕ) (state : RowState) (users : List User) : List User :=
  users.map fun u => if u.tx = some tx ∧ u.state = .pending then { u with state := state } else u

/-- What one operation answers and does. The connection of a transaction that cannot be
rolled back is closed, and that is the end of it as well. -/
def AccountOp.exec (db : Database) (e : AccountEnv) :
    (o : AccountOp) → AccountWorld → Except Exn o.Reply × AccountWorld
  | getConfig key, w => e.read (fun w => w.config key) w
  | verifyCaptcha _, w => e.fault.apply .remote (fun w => (.ok e.captcha, w)) w
  | lock o, w =>
      let r := o.exec e.fault w.lock
      (r.1, { w with lock := r.2 })
  | countUsers, w => e.read AccountWorld.countUsers w
  | nameExists name, w =>
      e.read (fun w => w.users.any fun u => u.visible && db.culture.sameText u.name name) w
  | emailExists email, w =>
      e.read (fun w => w.users.any fun u => u.visible && db.culture.sameText u.email email) w
  | userFields, w => e.read (·.fields) w
  | beginTransaction, w =>
      e.fault.apply .database (fun w =>
        (.ok w.transactions, { w with transactions := w.transactions + 1 })) w
  | insertUser tx email name, w =>
      e.fault.apply .database (fun w =>
        if db.acceptsUser w.users email name then
          (.ok w.users.length,
            { w with users := w.users ++ [Database.newUser email name .pending (some tx)] })
        else (.error .duplicateKey, w)) w
  | insertEntries _ _ _, w =>
      e.fault.apply .database (fun w =>
        (if e.entriesRefused then .error .argument else .ok (), w)) w
  | commit tx, w =>
      e.fault.apply .database (fun w =>
        (.ok (), { w with users := settle tx .committed w.users })) w
  | rollback tx, w =>
      (if e.fault = .none then .ok () else .error .database,
        { w with users := settle tx .discarded w.users })
  | findUser userId, w => e.read (fun w => w.users[userId]?.filter User.visible) w
  | findContest contestId, w => e.read (fun w => w.contests.find? (·.id = contestId)) w
  | participantsOf contestId, w =>
      e.read (fun w => (w.participants.filter (·.contestId = contestId)).map (·.userId)) w
  | findByEmail normalizedEmail, w =>
      e.read (fun w => db.findByEmail w.users normalizedEmail) w
  | saveChanges rows, w => e.fault.apply .database (db.saveChanges rows) w

/-- The operations of the interface. -/
def accountExec (db : Database) (e : AccountEnv) (o : accountI.Op) (w : AccountWorld) :
    Except Exn (accountI.Reply o) × AccountWorld :=
  AccountOp.exec db e o w

/-- No request fails. -/
def calmAccounts : AccountEnv := ⟨.none, true, false⟩

/-- A database that refuses nobody. -/
def plainDatabase : Database := ⟨.ascii, fun _ _ => false, fun _ => false⟩

/-! ### Registration -/

/-- The response of a registration. -/
inductive Response where
  | fail (message : String)
  | ok (data message : String)
  deriving DecidableEq, Repr

/-- `Success`. -/
def Response.success : Response → Bool
  | fail _ => false
  | ok _ _ => true

/-- The request. -/
structure RegisterContestantDTO where
  (username email password confirmPassword captchaToken : Option String)
  userFields : List (ℤ × Option JsonElement)
  deriving DecidableEq, Repr

/-- One operation. -/
def request (o : AccountOp) : Prog accountI Exn o.Reply := Prog.perform (I := accountI) o

/-- A program of the lock helper. -/
def withLocks {α : Type} : Prog RedisLock.lockI Exn α → Prog accountI Exn α
  | .ret r => .ret r
  | .call o k => .call (.lock o) fun r => withLocks (k r)

section Register

variable (db : Database) (turnstileEnabled : Bool)

/-- `ValidateCaptchaTokenAsync`. -/
def validateCaptchaToken (captchaToken : Option String) : Prog accountI Exn Bool :=
  if turnstileEnabled then
    match db.culture.normalizeNullable captchaToken with
    | none => pure false
    | some token => (request (.verifyCaptcha token)).handle fun _ => pure false
  else pure true

/-- `BuildFieldValueMap`: the last value of a field counts. -/
def buildFieldValueMap (values : List (ℤ × Option JsonElement)) (fieldId : ℤ) :
    Option JsonElement :=
  ((values.filter fun v => decide (0 < v.1) && decide (v.1 = fieldId)).getLast?.map (·.2)).join

/-- `HasFieldValue`. -/
def hasFieldValue : Option JsonElement → Bool
  | none => false
  | some .null => false
  | some (.string s) => !db.culture.isBlank s
  | some _ => true

/-- `ReadTextValue`. -/
def readTextValue : Option JsonElement → Option String
  | none => none
  | some .null => none
  | some .true => some "true"
  | some .false => some "false"
  | some (.number raw) => some raw
  | some (.string s) => db.culture.normalizeNullable (some s)
  | some (.nested raw) => db.culture.normalizeNullable (some raw)

/-- `TryReadBoolean`. -/
def tryReadBoolean : Option JsonElement → Option Bool
  | some .true => some true
  | some .false => some false
  | some (.number raw) =>
      if raw.toInt? = some 1 then some true
      else if raw.toInt? = some 0 then some false
      else none
  | some (.string s) =>
      match (db.culture.normalizeNullable (some s)).map db.culture.lower with
      | none => none
      | some normalized =>
          if ["true", "1", "yes", "y", "on"].contains normalized then some true
          else if ["false", "0", "no", "n", "off"].contains normalized then some false
          else none
  | _ => none

/-- `NormalizeFieldType(..) == "boolean"`. -/
def isBooleanField (fieldType : Option String) : Bool :=
  fieldType.any fun t => db.culture.lower t = "boolean"

/-- One field of the form: the entry it gives, or why the request is refused. -/
def readField (values : List (ℤ × Option JsonElement)) (field : Field) :
    Except String (Option FieldEntry) :=
  let rawValue := buildFieldValueMap values field.id
  if field.required = some true ∧ hasFieldValue db rawValue = false then
    .error ("User field '" ++ field.name ++ "' is required")
  else if hasFieldValue db rawValue = false then .ok none
  else if isBooleanField db field.fieldType then
    match tryReadBoolean db rawValue with
    | none => .error ("User field '" ++ field.name ++ "' must be a boolean value")
    | some booleanValue =>
        if field.required = some true ∧ booleanValue ≠ true then
          .error ("User field '" ++ field.name ++ "' must be accepted")
        else .ok (some ⟨field.id, .boolean booleanValue⟩)
  else
    match readTextValue db rawValue with
    | none =>
        if field.required = some true then
          .error ("User field '" ++ field.name ++ "' is required")
        else .ok none
    | some textValue => .ok (some ⟨field.id, .text textValue⟩)

/-- The loop over the fields of the form. -/
def readFields (values : List (ℤ × Option JsonElement)) :
    List Field → Except String (List FieldEntry)
  | [] => .ok []
  | field :: fields => do
      let entry ← readField db values field
      let entries ← readFields values fields
      return entry.toList ++ entries

/-- What is left of a request once it is checked. -/
structure Registration where
  (username email : String)
  userFields : List (ℤ × Option JsonElement)
  deriving DecidableEq, Repr

/-- What is done in the transaction. Ids of the database are positive. -/
def insertAndCommit (r : Registration) (userFieldEntries : List FieldEntry) (tx : ℕ) :
    Prog accountI Exn Response := do
  let userId : ℕ ← request (.insertUser tx r.email r.username)
  if userFieldEntries ≠ [] then
    let _ : Unit ← request (.insertEntries tx userId userFieldEntries)
  let _ : Unit ← request (.commit tx)
  return .ok "Registration submitted. Your account is pending verification."
    "Registration submitted"

/-- The transaction is rolled back when it is disposed of without a commit. -/
def createUser (r : Registration) (userFieldEntries : List FieldEntry) :
    Prog accountI Exn Response := do
  let tx : ℕ ← request .beginTransaction
  (insertAndCommit r userFieldEntries tx).handle fun e => do
    let _ : Unit ← request (.rollback tx)
    throw e

/-- The form is read, and the account is created. -/
def readAndCreate (r : Registration) : Prog accountI Exn Response := do
  let fields : List Field ← request .userFields
  match readFields db r.userFields fields with
  | .error message => return .fail message
  | .ok entries => createUser r entries

/-- The checks against the tables, and the transaction. -/
def checkAndCreate (r : Registration) : Prog accountI Exn Response := do
  let usernameExists : Bool ← request (.nameExists r.username)
  if usernameExists then return .fail ("Username has already been taken: " ++ r.username)
  else
    let emailExists : Bool ← request (.emailExists r.email)
    if emailExists then return .fail ("Email address has already been used: " ++ r.email)
    else readAndCreate db r

/-- What an exception is answered with. An exception that names the table of the entries is
`argument`. -/
def failure : Exn → Response
  | .duplicateKey => .fail "A duplicated username or email was detected"
  | .argument => .fail "Invalid registration field data"
  | _ => .fail "Unable to submit registration"

/-- `auth:register:num-users-limit`. -/
def registrationLimitLockKey : String := "auth:register:num-users-limit"

/-- What is done under the lock. -/
def checkLimit (r : Registration) (numUsersLimit : ℤ) : Prog accountI Exn Response := do
  let currentUsers : ℕ ← request .countUsers
  if numUsersLimit < currentUsers + 1 then
    return .fail ("Reached the maximum number of users (" ++ toString numUsersLimit ++ ")")
  else checkAndCreate db r

/-- `ReleaseLock`, whose exceptions are ignored. -/
def releaseQuietly (token : String) : Prog accountI Exn Unit :=
  (withLocks (RedisLock.releaseLock registrationLimitLockKey token)).handle fun _ => pure ()

/-- The lock is taken, and given back whatever happens. -/
def underLock (token : String) (r : Registration) (numUsersLimit : ℤ) :
    Prog accountI Exn Response := do
  let acquired ← withLocks
    (RedisLock.acquireWithRetry registrationLimitLockKey token (some 10000) 100 8)
  if acquired then
    let response ← (checkLimit db r numUsersLimit).handle fun e => pure (failure e)
    releaseQuietly token
    return response
  else return .fail "Registration is busy, please try again"

/-- The checks that need no tables. -/
def validate (dto : RegisterContestantDTO) : Except String Registration :=
  let password := (dto.password.map db.culture.trim).getD ""
  let confirmPassword := (dto.confirmPassword.map db.culture.trim).getD ""
  match db.culture.normalizeNullable dto.username, db.culture.normalizeNullable dto.email with
  | some username, some email =>
      if password = "" ∨ confirmPassword = "" then
        .error "Username, email, password, and confirm password are required"
      else if password ≠ confirmPassword then .error "Password confirmation does not match"
      else if db.culture.isValidPasswordPolicy password = false then
        .error "Password must be 8-20 characters and include uppercase, lowercase, number, and special character"
      else .ok ⟨username, email, dto.userFields⟩
  | _, _ => .error "Username, email, password, and confirm password are required"

/-- `GetConfig<int>` of what was read. -/
def toInt (defaultValue : ℤ) : Option ConfigValue → ℤ
  | some (.int n) => n
  | some (.bool b) => if b then 1 else 0
  | _ => defaultValue

/-- `GetConfig<bool>` of what was read. -/
def toBool (defaultValue : Bool) : Option ConfigValue → Bool
  | some (.int n) => decide (n ≠ 0)
  | some (.bool b) => b
  | _ => defaultValue

/-- What follows the checks. -/
def limitAndCreate (token : String) (r : Registration) : Prog accountI Exn Response := do
  let limit : Option ConfigValue ← request (.getConfig "num_users")
  if 0 < toInt 0 limit then underLock db token r (toInt 0 limit)
  else checkAndCreate db r

/-- The body of the `try`. -/
def registerBody (dto : RegisterContestantDTO) (token : String) : Prog accountI Exn Response := do
  let enabled : Option ConfigValue ← request (.getConfig "contestant_registration_enabled")
  if toBool false enabled = false then return .fail "Registration is currently disabled"
  else
    let captchaValid ← validateCaptchaToken db turnstileEnabled dto.captchaToken
    if captchaValid = false then return .fail "Captcha validation failed"
    else
      match validate db dto with
      | .error message => return .fail message
      | .ok r => limitAndCreate db token r

/-- `RegisterContestant`, with the token of its call. -/
def registerContestant (dto : RegisterContestantDTO) (token : String) :
    Prog accountI Exn Response :=
  (registerBody db turnstileEnabled dto token).handle fun e => pure (failure e)

end Register

/-! ### The import -/

/-- The counters of an import. -/
structure ImportParticipantsResultDTO where
  totalEmails : ℕ
  newUsersCreated : ℕ
  existingUsersAdded : ℤ
  alreadyParticipants : ℕ
  failedEmails : List String
  deriving DecidableEq, Repr

/-- `FailedEmails.Add`. -/
def ImportParticipantsResultDTO.fail (result : ImportParticipantsResultDTO) (email : String) :
    ImportParticipantsResultDTO :=
  { result with failedEmails := result.failedEmails ++ [email] }

/-- The request. -/
structure ImportParticipantsDTO where
  emails : List String
  role : String
  deriving DecidableEq, Repr

/-- The response. -/
inductive ImportResponse where
  | userNotFound
  | contestNotFound
  | forbidden
  | ok (data : ImportParticipantsResultDTO)
  | failed
  deriving DecidableEq, Repr

/-- `Message`. -/
def ImportResponse.message : ImportResponse → String
  | userNotFound => "User not found"
  | contestNotFound => "Contest not found"
  | forbidden => "Only contest owner or admin can import participants"
  | ok data =>
      "Imported " ++ toString (data.newUsersCreated + data.existingUsersAdded) ++ " participants"
  | failed => "Failed to import participants"

/-- `normalizedEmail.Split('@')[0]`. -/
def emailPrefix (normalizedEmail : String) : String :=
  String.ofList (normalizedEmail.toList.takeWhile (· ≠ '@'))

/-- An exception becomes a value. -/
def attempt {α : Type} (p : Prog accountI Exn α) : Prog accountI Exn (Except Exn α) :=
  (p >>= fun a => pure (.ok a)).handle fun e => pure (.error e)

/-- An attempt, run alone. -/
theorem eval_attempt {α : Type}
    {exec : (o : accountI.Op) → AccountWorld → Except Exn (accountI.Reply o) × AccountWorld}
    (p : Prog accountI Exn α) (w : AccountWorld) :
    (attempt p).eval exec w = (.ok (p.eval exec w).1, (p.eval exec w).2) := by
  rw [attempt, Prog.eval_handle, Prog.eval_bind]
  generalize p.eval exec w = out
  obtain ⟨_ | a, w'⟩ := out <;> rfl

section Import

variable (db : Database)

/-- `SaveChangesAsync`. -/
def saveRows (rows : List Tracked) : Prog accountI Exn ℕ := request (.saveChanges rows)

/-- The query for an account. -/
def findAccount (normalizedEmail : String) : Prog accountI Exn (Option ℕ) :=
  request (.findByEmail normalizedEmail)

/-- `email.Trim().ToLower()`. -/
def normalizeEmail (email : String) : String := db.culture.lower (db.culture.trim email)

/-- The second half of a row. What could not be saved stays with the tracker. -/
def addParticipant (contestId : ℕ) (role : String) (existingParticipants : List ℕ)
    (email : String) (targetUser : ℕ) (tracked : List Tracked)
    (result : ImportParticipantsResultDTO) :
    Prog accountI Exn (List Tracked × ImportParticipantsResultDTO) :=
  if existingParticipants.contains targetUser then
    pure (tracked, { result with
      alreadyParticipants := result.alreadyParticipants + 1
      existingUsersAdded := result.existingUsersAdded - 1 })
  else do
    let tracked := tracked ++ [.participant contestId targetUser role]
    let saved ← attempt (saveRows tracked)
    match saved with
    | .error _ => return (tracked, result.fail email)
    | .ok _ => return ([], result)

/-- One row. -/
def importRow (contestId : ℕ) (role : String) (existingParticipants : List ℕ) (email : String)
    (tracked : List Tracked) (result : ImportParticipantsResultDTO) :
    Prog accountI Exn (List Tracked × ImportParticipantsResultDTO) :=
  let normalizedEmail := normalizeEmail db email
  if db.culture.isBlank normalizedEmail then pure (tracked, result.fail email)
  else do
    let existingUser ← attempt (findAccount normalizedEmail)
    match existingUser with
    | .error _ => return (tracked, result.fail email)
    | .ok (some targetUser) =>
        addParticipant contestId role existingParticipants email targetUser tracked
          { result with existingUsersAdded := result.existingUsersAdded + 1 }
    | .ok none =>
        let tracked := tracked ++ [.user normalizedEmail (emailPrefix normalizedEmail)]
        let saved ← attempt (saveRows tracked)
        match saved with
        | .error _ => return (tracked, result.fail email)
        | .ok targetUser =>
            addParticipant contestId role existingParticipants email targetUser []
              { result with newUsersCreated := result.newUsersCreated + 1 }

/-- The loop. -/
def importRows (contestId : ℕ) (role : String) (existingParticipants : List ℕ) :
    List String → List Tracked → ImportParticipantsResultDTO →
      Prog accountI Exn ImportParticipantsResultDTO
  | [], _, result => pure result
  | email :: emails, tracked, result => do
      let (tracked, result) ← importRow db contestId role existingParticipants email tracked result
      importRows contestId role existingParticipants emails tracked result

/-- The counters to begin with. -/
def noneImported (totalEmails : ℕ) : ImportParticipantsResultDTO := ⟨totalEmails, 0, 0, 0, []⟩

/-- What follows once the user and the contest are found. -/
def importInto (contestId : ℕ) (dto : ImportParticipantsDTO) (userId : ℕ) (user : User)
    (contest : Contest) : Prog accountI Exn ImportResponse :=
  if user.type ≠ "admin" ∧ contest.ownerId ≠ some userId then pure .forbidden
  else do
    let existingParticipants : List ℕ ← request (.participantsOf contestId)
    let result ← importRows db contestId dto.role existingParticipants dto.emails []
      (noneImported dto.emails.length)
    return .ok result

/-- The body of the `try`. -/
def importBody (contestId : ℕ) (dto : ImportParticipantsDTO) (userId : ℕ) :
    Prog accountI Exn ImportResponse := do
  let user : Option User ← request (.findUser userId)
  match user with
  | none => return .userNotFound
  | some user =>
      let contest : Option Contest ← request (.findContest contestId)
      match contest with
      | none => return .contestNotFound
      | some contest => importInto db contestId dto userId user contest

/-- `ImportParticipants`. -/
def importParticipants (contestId : ℕ) (dto : ImportParticipantsDTO) (userId : ℕ) :
    Prog accountI Exn ImportResponse :=
  (importBody db contestId dto userId).handle fun _ => pure .failed

end Import

/-! ### The service -/

/-- A call, of the one method or the other. -/
inductive AccountCall where
  | register (dto : RegisterContestantDTO) (token : String)
  | importParticipants (contestId : ℕ) (dto : ImportParticipantsDTO) (userId : ℕ)
  deriving DecidableEq, Repr

/-- What a call answers. -/
inductive Answer where
  | registered (response : Response)
  | imported (response : ImportResponse)
  deriving DecidableEq, Repr

/-- What others do meanwhile: time passes, a user is hidden or banned, a setting is changed. -/
inductive Happening where
  | tick (d : ℕ)
  | hide (userId : ℕ)
  | ban (userId : ℕ)
  | configure (key : String) (value : Option ConfigValue)

/-- What happens to the tables. -/
def Happening.ambient : Happening → AccountWorld → AccountWorld
  | tick d, w => { w with lock := { w.lock with clock := w.lock.clock + d } }
  | hide userId, w =>
      { w with users := w.users.modify userId fun u => { u with hidden := some true } }
  | ban userId, w =>
      { w with users := w.users.modify userId fun u => { u with banned := some true } }
  | configure key value, w => { w with config := Function.update w.config key value }

/-- The program of a call. -/
def AccountCall.program (db : Database) (turnstileEnabled : Bool) :
    AccountCall → Prog accountI Exn Answer
  | register dto token => .registered <$> registerContestant db turnstileEnabled dto token
  | importParticipants contestId dto userId =>
      .imported <$> Accounts.importParticipants db contestId dto userId

/-- The service. -/
def accountService (db : Database) (turnstileEnabled : Bool) :
    Service accountI Exn Answer AccountWorld where
  Call := AccountCall
  Env := AccountEnv
  Ext := Happening
  program := AccountCall.program db turnstileEnabled
  exec := accountExec db
  ambient := Happening.ambient

/-! ### What a save does -/

/-- The user that is inserted. -/
def Tracked.toUser : Tracked → Option User
  | .user email name => some (Database.newUser email name .committed none)
  | .participant _ _ _ => none

/-- The participant that is inserted. -/
def Tracked.toParticipant : Tracked → Option Participant
  | .user _ _ => none
  | .participant contestId userId role => some ⟨contestId, userId, role⟩

namespace Database

variable {db : Database} {users users' : List User} {participants participants' : List Participant}
  {rows : List Tracked}

/-- A row that is refused is not accepted later. -/
theorem acceptsUser_of_append {us : List User} {email name : String}
    (h : db.acceptsUser (users ++ us) email name = true) : db.acceptsUser users email name = true := by
  rw [acceptsUser, List.all_append, Bool.and_eq_true, Bool.and_eq_true] at h
  rw [acceptsUser, Bool.and_eq_true]
  exact ⟨h.1, h.2.1⟩

/-- A row that the database can hold beside the rows there are. -/
def Fits (db : Database) (users : List User) (participants : List Participant) : Tracked → Prop
  | .user email name => db.acceptsUser users email name = true
  | .participant contestId userId role => db.refusesRole role = false ∧
      ∀ q ∈ participants, ¬(q.contestId = contestId ∧ q.userId = userId)

/-- One row is inserted. -/
theorem insert_eq_some {row : Tracked}
    (h : db.insert row (users, participants) = some (users', participants')) :
    users' = users ++ row.toUser.toList ∧ participants' = participants ++ row.toParticipant.toList ∧
      db.Fits users participants row := by
  cases row with
  | user email name =>
      rw [insert] at h
      split at h
      · next haccepts =>
          obtain ⟨rfl, rfl⟩ := Prod.mk.inj (Option.some.inj h)
          exact ⟨rfl, (List.append_nil _).symm, haccepts⟩
      · cases h
  | participant contestId userId role =>
      rw [insert] at h
      split at h
      · next haccepts =>
          obtain ⟨rfl, rfl⟩ := Prod.mk.inj (Option.some.inj h)
          rw [acceptsParticipant, Bool.and_eq_true, Bool.and_eq_true] at haccepts
          obtain ⟨⟨hrole, -⟩, hall⟩ := haccepts
          refine ⟨(List.append_nil _).symm, rfl, (Bool.not_eq_true' _).mp hrole, fun q hq hboth => ?_⟩
          have hfree := List.all_eq_true.mp hall q hq
          rw [decide_eq_true hboth.1, decide_eq_true hboth.2] at hfree
          cases hfree
      · cases h

/-- What fits beside more rows fits beside fewer. -/
theorem Fits.of_append {us : List User} {ps : List Participant} {row : Tracked}
    (h : db.Fits (users ++ us) (participants ++ ps) row) : db.Fits users participants row := by
  cases row with
  | user email name => exact acceptsUser_of_append h
  | participant contestId userId role =>
      exact ⟨h.1, fun q hq => h.2 q (List.mem_append_left _ hq)⟩

/-- **A save** adds all rows, and every one of them fits. -/
theorem insertAll_eq_some
    (h : db.insertAll rows (users, participants) = some (users', participants')) :
    users' = users ++ rows.filterMap Tracked.toUser ∧
      participants' = participants ++ rows.filterMap Tracked.toParticipant ∧
      ∀ row ∈ rows, db.Fits users participants row := by
  induction rows generalizing users participants with
  | nil =>
      obtain ⟨rfl, rfl⟩ := Prod.mk.inj (Option.some.inj h)
      exact ⟨(List.append_nil _).symm, (List.append_nil _).symm, nofun⟩
  | cons row rows ih =>
      obtain ⟨⟨us, ps⟩, hrow, hrows⟩ := Option.bind_eq_some_iff.mp h
      obtain ⟨rfl, rfl, hfits⟩ := insert_eq_some hrow
      obtain ⟨husers, hparticipants, hall⟩ := ih hrows
      refine ⟨?_, ?_, List.forall_mem_cons.mpr ⟨hfits, fun r hr => (hall r hr).of_append⟩⟩
      · rw [husers, List.append_assoc]
        cases row <;> rfl
      · rw [hparticipants, List.append_assoc]
        cases row <;> rfl

/-- One row alone. -/
theorem insertAll_singleton (row : Tracked) (tables : List User × List Participant) :
    db.insertAll [row] tables = db.insert row tables := by
  rw [insertAll]
  cases db.insert row tables <;> rfl

/-- A row that does not fit spoils the save. -/
theorem insertAll_eq_none {row : Tracked} (hrow : row ∈ rows)
    (h : ¬db.Fits users participants row) : db.insertAll rows (users, participants) = none := by
  cases hall : db.insertAll rows (users, participants) with
  | none => rfl
  | some tables => exact absurd ((insertAll_eq_some hall).2.2 row hrow) h

/-- The account of an address stays the same. -/
theorem findByEmail_append {us : List User} {email : String} {userId : ℕ}
    (h : db.findByEmail users email = some userId) :
    db.findByEmail (users ++ us) email = some userId := by
  rw [findByEmail, List.findIdx?_append, ← findByEmail, h, Option.some_or]

/-- The account of an address is one of the users. -/
theorem lt_of_findByEmail {email : String} {userId : ℕ}
    (h : db.findByEmail users email = some userId) : userId < users.length :=
  (List.findIdx?_eq_some_iff_findIdx_eq.mp h).1

end Database

end Accounts

end Fctf
