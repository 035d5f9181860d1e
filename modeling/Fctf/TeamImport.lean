import Fctf.ChallengeToken
import Mathlib.Data.List.DropRight

/-!
# Importing Users and Teams

`load_users_and_teams_csv` goes through the rows of a table; a row finds its team or adds it, and
adds its user. The schema of a team asks for the team of the account that is logged in, and accounts
have none: a new team ends the import. The schema of a user has no team, so that the id of a team
that was found is dropped.

## Main results

* `importRow_done_iff`: when a row is done as a whole or not at all, in any state.
* `perRow_iff`: when all rows of a table are.
* `not_perRow`: a user of an existing team, who is not in it afterwards.
-/

namespace Fctf.TeamImport

/-! ### Rows -/

/-- Is it white space to `str.strip`? -/
def isPySpace (c : Char) : Bool := isSpace c || (0x1C ≤ c.toNat && c.toNat ≤ 0x1F)

/-- `str.strip`. -/
def strip (s : String) : String :=
  String.ofList ((s.toList.dropWhile isPySpace).rdropWhile isPySpace)

/-- A row of `csv.DictReader`: the headers and the values. Surplus values have no header, and
missing values are none. -/
abbrev Row := List (Option String × Option String)

/-- What the import depends on beside its rows. -/
structure Env where
  /-- `str.lower`. -/
  lower : String → String
  /-- The collation of the names of teams. -/
  sameName : String → String → Bool
  /-- Is somebody logged in? -/
  authed : Bool
  /-- The `SQLAlchemyError` of the look-up of a row's team. -/
  lookupError : ℕ → Option String
  /-- The errors of the schema or of the database for a row's user. -/
  userError : ℕ → Option String

/-- `(row.get(key) or "").strip()`, where the headers are stripped and in lower case; of two values
the later one counts. -/
def Row.field (env : Env) (row : Row) (key : String) : String :=
  let value := (row.reverse.find? fun x => x.1.map (fun k => env.lower (strip k)) = some key).bind
    (·.2)
  strip (value.getD "")

def isAsciiLetter (c : Char) : Bool := c.isLower || c.isUpper

/-- `^[a-zA-Z0-9._%+-]+@[a-zA-Z0-9.-]+\.[a-zA-Z]{2,}$`. The last dot ends the host. -/
def isEmail (email : String) : Bool :=
  match email.toList.splitOn '@' with
  | [front, domain] =>
    let tld := domain.rtakeWhile (· ≠ '.')
    let host := (domain.rdropWhile (· ≠ '.')).dropLast
    !front.isEmpty && front.all (fun c => isAsciiLetter c || c.isDigit || "._%+-".contains c) &&
      '.' ∈ domain && !host.isEmpty &&
      host.all (fun c => isAsciiLetter c || c.isDigit || ".-".contains c) &&
      2 ≤ tld.length && tld.all isAsciiLetter
  | _ => false

/-! ### Tables -/

structure User where
  id : ℕ
  name : String
  email : String
  /-- The password, before it is hashed. -/
  password : String
  verified : Bool
  deriving DecidableEq, Repr

structure Team where
  id : ℕ
  name : String
  deriving DecidableEq, Repr

/-- The tables. Members are users that there are. -/
structure Db where
  users : List User
  teams : List Team
  /-- Who is in which team. -/
  members : List (ℕ × ℕ)
  nextUserId : ℕ
  member_lt : ∀ m ∈ members, m.1 < nextUserId

/-- The import under way. -/
structure State where
  db : Db
  /-- `existing_emails`. -/
  existingEmails : List String
  /-- `created_users`. -/
  createdUsers : List User
  /-- `warnings`, with the numbers of their rows. -/
  warnings : List (ℕ × String)

/-- An exception that is not caught. -/
inductive PyError where
  /-- `AttributeError`. -/
  | attribute (name : String)
  deriving DecidableEq, Repr

/-! ### The import -/

variable (env : Env)

/-- `get_current_team`: an account has no attribute `team`. -/
def getCurrentTeam : Except PyError (Option Team) :=
  if env.authed then .error (.attribute "team") else .ok none

/-- `TeamSchema.load` of a name that no team has: `validate_name` asks for the current team, and for
its name if nobody is an admin. -/
def teamSchemaLoad (teamname : String) : Except PyError String := do
  let currentTeam ← getCurrentTeam env
  match currentTeam with
  | none => .error (.attribute "name")
  | some _ => .ok teamname

/-- The warning of the first check that a row does not pass. -/
def checkRow (existingEmails : List String) (i : ℕ) (row : Row) : Option String :=
  let name := row.field env "name"
  let email := row.field env "email"
  let password := row.field env "password"
  if name = "" ∨ email = "" then some ("Row " ++ toString i ++ ": missing name or email; skipped")
  else if password = "" then
    some ("Row " ++ toString i ++ ": missing password for " ++ email ++ "; skipped")
  else if env.lower email ∈ existingEmails then
    some ("Row " ++ toString i ++ ": email already exists (" ++ email ++ "); skipped")
  else if isEmail email = false then
    some ("Row " ++ toString i ++ ": invalid email (" ++ email ++ "); skipped")
  else none

/-- The team of a row: the warning, or the tables and the team's id. -/
def rowTeam (i : ℕ) (row : Row) (db : Db) : Except PyError (Except String (Db × Option ℕ)) :=
  let email := row.field env "email"
  let teamname := row.field env "team"
  if teamname = "" then .ok (.ok (db, none))
  else
    match env.lookupError i with
    | some e =>
        .ok (.error ("Row " ++ toString i ++ ": failed to create/find team '" ++ teamname ++
          "' for " ++ email ++ "; skipped (" ++ e ++ ")"))
    | none =>
      match db.teams.find? fun t => env.sameName t.name teamname with
      | some team => .ok (.ok (db, some team.id))
      | none => do
          let name ← teamSchemaLoad env teamname
          let id := db.teams.length + 1
          pure (.ok ({ db with teams := db.teams ++ [⟨id, name⟩] }, some id))

/-- A new row of `users`. -/
def Db.addUser (db : Db) (name email password : String) : Db where
  users := db.users ++ [⟨db.nextUserId, name, email, password, true⟩]
  teams := db.teams
  members := db.members
  nextUserId := db.nextUserId + 1
  member_lt m hm := Nat.lt_succ_of_lt (db.member_lt m hm)

/-- The user of a row. The schema has no field `team_id`, and unknown fields are dropped. -/
def rowUser (i : ℕ) (row : Row) (_teamId : Option ℕ) (s : State) : State :=
  let name := row.field env "name"
  let email := row.field env "email"
  let password := row.field env "password"
  match env.userError i with
  | some e =>
      { s with warnings := s.warnings ++ [(i, "Row " ++ toString i ++ ": failed to create user " ++
          email ++ "; skipped (" ++ e ++ ")")] }
  | none =>
      { s with
        db := s.db.addUser name email password
        existingEmails := env.lower email :: s.existingEmails
        createdUsers := s.createdUsers ++ [⟨s.db.nextUserId, name, email, password, true⟩] }

/-- One row. -/
def importRow (i : ℕ) (row : Row) (s : State) : Except PyError State :=
  match checkRow env s.existingEmails i row with
  | some warning => .ok { s with warnings := s.warnings ++ [(i, warning)] }
  | none => do
      let team ← rowTeam env i row s.db
      match team with
      | .error warning => pure { s with warnings := s.warnings ++ [(i, warning)] }
      | .ok (db, teamId) => pure (rowUser env i row teamId { s with db := db })

/-- The loop, from row `i` on. -/
def importRows : ℕ → List Row → State → Except PyError State
  | _, [], s => .ok s
  | i, row :: rows, s => do
      let s ← importRow env i row s
      importRows (i + 1) rows s

/-- Before the first row. -/
def start (db : Db) : State where
  db := db
  existingEmails := (db.users.filter (·.email ≠ "")).map fun u => env.lower u.email
  createdUsers := []
  warnings := []

/-- `load_users_and_teams_csv`. -/
def loadUsersAndTeamsCsv (rows : List Row) (db : Db) : Except PyError State :=
  importRows env 1 rows (start env db)

/-! ### What is asked of the import -/

/-- A row is reported with a warning and leaves the tables as they were, or is reported with its
user, who is in the tables and in the team of the row. -/
def RowDone (i : ℕ) (row : Row) (s s' : State) : Prop :=
  (∃ warning, s'.warnings = s.warnings ++ [(i, warning)] ∧ s'.createdUsers = s.createdUsers ∧
    s'.db = s.db) ∨
  ∃ user, s'.warnings = s.warnings ∧ s'.createdUsers = s.createdUsers ++ [user] ∧
    s'.db.users = s.db.users ++ [user] ∧ user.name = row.field env "name" ∧
    user.email = row.field env "email" ∧
    (row.field env "team" ≠ "" → ∃ team ∈ s'.db.teams,
      env.sameName team.name (row.field env "team") = true ∧ (user.id, team.id) ∈ s'.db.members)

/-- **Every row is done**, one after the other, as a whole or not at all. -/
def PerRow : ℕ → List Row → State → Prop
  | _, [], _ => True
  | i, row :: rows, s =>
      ∃ s', importRow env i row s = .ok s' ∧ RowDone env i row s s' ∧ PerRow (i + 1) rows s'

/-- A row that names a team, and passes the checks, comes to nothing: its team cannot be looked up,
or it exists and the user is refused. -/
def Harmless (i : ℕ) (row : Row) (s : State) : Prop :=
  checkRow env s.existingEmails i row = none → row.field env "team" ≠ "" →
    (env.lookupError i).isSome ∨
      (∃ team ∈ s.db.teams, env.sameName team.name (row.field env "team") = true) ∧
        (env.userError i).isSome

/-- All rows come to nothing that name a team, in the states in which they are reached. -/
def AllHarmless : ℕ → List Row → State → Prop
  | _, [], _ => True
  | i, row :: rows, s =>
      Harmless env i row s ∧
        ∀ s', importRow env i row s = .ok s' → AllHarmless (i + 1) rows s'

/-! ### One row -/

variable {env} {i : ℕ} {row : Row} {s : State}

theorem teamSchemaLoad_eq_error (teamname : String) :
    ∃ e, teamSchemaLoad env teamname = .error e := by
  cases hauthed : env.authed with
  | false => exact ⟨.attribute "name", by rw [teamSchemaLoad, getCurrentTeam, hauthed]; rfl⟩
  | true => exact ⟨.attribute "team", by rw [teamSchemaLoad, getCurrentTeam, hauthed]; rfl⟩

theorem rowDone_warning (warning : String) :
    RowDone env i row s { s with warnings := s.warnings ++ [(i, warning)] } :=
  .inl ⟨warning, rfl, rfl, rfl⟩

/-- The user alone: refused, or added without a team. -/
theorem rowDone_rowUser_iff (teamId : Option ℕ) :
    RowDone env i row s (rowUser env i row teamId s) ↔
      (row.field env "team" ≠ "" → (env.userError i).isSome) := by
  rw [rowUser]
  cases huser : env.userError i with
  | some e => exact iff_of_true (rowDone_warning _) fun _ => rfl
  | none =>
      by_cases hteam : row.field env "team" = ""
      · exact iff_of_true (.inr ⟨_, rfl, rfl, rfl, rfl, rfl, fun hne => absurd hteam hne⟩)
          fun hne => absurd hteam hne
      · refine iff_of_false ?_ fun himp => absurd (himp hteam) (by simp)
        rintro (⟨warning, hwarnings, -, -⟩ | ⟨user, -, -, husers, -, -, hmember⟩)
        · simpa using hwarnings
        · -- the new user cannot be a member of anything yet
          obtain ⟨team, -, -, hin⟩ := hmember hteam
          obtain rfl : user = ⟨s.db.nextUserId, row.field env "name", row.field env "email",
              row.field env "password", true⟩ := by
            simpa [Db.addUser, eq_comm] using husers
          exact absurd (s.db.member_lt _ hin) (lt_irrefl _)

/-- **One row**, in any state. -/
theorem importRow_done_iff :
    (∃ s', importRow env i row s = .ok s' ∧ RowDone env i row s s') ↔ Harmless env i row s := by
  unfold importRow Harmless
  cases hcheck : checkRow env s.existingEmails i row with
  | some warning => exact iff_of_true ⟨_, rfl, rowDone_warning warning⟩ nofun
  | none =>
      dsimp only
      rw [rowTeam]
      by_cases hteam : row.field env "team" = ""
      · simp only [hteam]
        refine iff_of_true ⟨rowUser env i row none s, rfl, ?_⟩ fun _ hne => absurd rfl hne
        exact (rowDone_rowUser_iff none).mpr fun hne => absurd hteam hne
      · simp only [hteam]
        cases hlookup : env.lookupError i with
        | some e => exact iff_of_true ⟨_, rfl, rowDone_warning _⟩ fun _ _ => .inl rfl
        | none =>
            cases hfind : s.db.teams.find? fun t => env.sameName t.name (row.field env "team") with
            | some team =>
                have hexists : ∃ team ∈ s.db.teams,
                    env.sameName team.name (row.field env "team") = true :=
                  ⟨team, List.mem_of_find?_eq_some hfind, by simpa using List.find?_some hfind⟩
                have hdone := @rowDone_rowUser_iff env i row s (some team.id)
                constructor
                · rintro ⟨s', hs', hrow⟩ - hne
                  obtain rfl : rowUser env i row (some team.id) s = s' := Except.ok.inj hs'
                  exact .inr ⟨hexists, hdone.mp hrow hne⟩
                · intro hharmless
                  refine ⟨rowUser env i row (some team.id) s, rfl, hdone.mpr fun hne => ?_⟩
                  rcases hharmless trivial hne with hnone | ⟨-, huser⟩
                  · cases hnone
                  · exact huser
            | none =>
                obtain ⟨e, he⟩ := @teamSchemaLoad_eq_error env (row.field env "team")
                refine iff_of_false ?_ fun hharmless => ?_
                · rintro ⟨s', hs', -⟩
                  simp only [he] at hs'
                  cases hs'
                · rcases hharmless trivial hteam with hnone | ⟨⟨team, hmem, hsame⟩, -⟩
                  · cases hnone
                  · exact absurd hsame (List.find?_eq_none.mp hfind team hmem)

/-! ### All rows -/

theorem perRow_iff_from (rows : List Row) :
    PerRow env i rows s ↔ AllHarmless env i rows s := by
  induction rows generalizing i s with
  | nil => exact Iff.rfl
  | cons row rows ih =>
      rw [PerRow, AllHarmless, ← importRow_done_iff]
      constructor
      · rintro ⟨s', hs', hrow, hrest⟩
        refine ⟨⟨s', hs', hrow⟩, fun s'' hs'' => ?_⟩
        obtain rfl := Except.ok.inj (hs'.symm.trans hs'')
        exact ih.mp hrest
      · rintro ⟨⟨s', hs', hrow⟩, hrest⟩
        exact ⟨s', hs', hrow, ih.mpr (hrest s' hs')⟩

/-- Rows that are done are reported, each of them once. -/
theorem PerRow.reported (rows : List Row) (h : PerRow env i rows s) :
    ∃ s', importRows env i rows s = .ok s' ∧
      s'.warnings.length + s'.createdUsers.length =
        s.warnings.length + s.createdUsers.length + rows.length := by
  induction rows generalizing i s with
  | nil => exact ⟨s, rfl, rfl⟩
  | cons row rows ih =>
      obtain ⟨s₁, hs₁, hrow, hrest⟩ := h
      obtain ⟨s', hs', hcount⟩ := ih hrest
      refine ⟨s', ?_, ?_⟩
      · rw [importRows, hs₁]
        exact hs'
      · have hone : s₁.warnings.length + s₁.createdUsers.length =
            s.warnings.length + s.createdUsers.length + 1 := by
          rcases hrow with ⟨warning, hwarnings, hcreated, -⟩ | ⟨user, hwarnings, hcreated, -⟩
          · rw [hwarnings, hcreated, List.length_append, List.length_singleton]
            omega
          · rw [hwarnings, hcreated, List.length_append, List.length_singleton]
            omega
        rw [hcount, hone, List.length_cons]
        omega

/-- The import of a table is done row by row, and it returns with one report for each row. -/
def PerRowImport (env : Env) (rows : List Row) (db : Db) : Prop :=
  PerRow env 1 rows (start env db) ∧
    ∃ s, loadUsersAndTeamsCsv env rows db = .ok s ∧
      s.warnings.length + s.createdUsers.length = rows.length

/-- **When a table is imported row by row**: if each row that names a team, and passes the checks,
comes to nothing. -/
theorem perRow_iff (env : Env) (rows : List Row) (db : Db) :
    PerRowImport env rows db ↔ AllHarmless env 1 rows (start env db) := by
  rw [← perRow_iff_from]
  refine ⟨fun h => h.1, fun h => ⟨h, ?_⟩⟩
  obtain ⟨s, hs, hcount⟩ := h.reported
  exact ⟨s, hs, hcount.trans (Nat.zero_add _)⟩

/-! ### A member of an existing team -/

/-- An administrator's import where nothing fails. -/
def plainEnv : Env where
  lower s := String.ofList (s.toList.map Char.toLower)
  sameName a b := a == b
  authed := true
  lookupError _ := none
  userError _ := none

/-- The tables with one team. -/
def redDb : Db := ⟨[], [⟨3, "red"⟩], [], 1, nofun⟩

/-- One user of that team. -/
def annRow : Row :=
  [(some "Name", some "Ann"), (some "Email", some "ann@ctf.org"), (some "Password", some "pw"),
    (some "Team", some "red")]

/-- She is added, and is in no team. -/
theorem not_perRow : ¬PerRowImport plainEnv [annRow] redDb := by
  rintro ⟨hrows, -⟩
  obtain ⟨hharmless, -⟩ := (perRow_iff_from [annRow]).mp hrows
  have hrow := hharmless (by decide) (by decide)
  simp [plainEnv] at hrow

end Fctf.TeamImport
