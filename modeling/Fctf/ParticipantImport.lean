import Fctf.TeamImport
import Fctf.Lib.Grouping

/-!
# Importing Participants

`ContestParticipantImport.post` goes through the rows of a sheet. A row finds the user of its email
or adds one, and adds the user to the contest. What is added waits for one commit at the end, and a
row that raises rolls it back, with what the rows before it have added.

## Main results

* `finallyReported_iff`: what the reports of any state are at the end.
* `reportsCommitted_iff`: when the reply tells what has been committed.
* `not_reportsCommitted`: a user who was reported before the next row raised.
-/

namespace Fctf.ParticipantImport

open Grouping
open TeamImport (strip)

/-! ### Tables -/

structure UserRow where
  id : ℕ
  name : String
  email : String
  type : String
  deriving DecidableEq, Repr

structure Participant where
  contestId : ℤ
  userId : ℕ
  role : String
  deriving DecidableEq, Repr

/-- The tables. An id is given once. -/
structure Db where
  users : List UserRow
  participants : List Participant
  nextId : ℕ
  id_lt : ∀ u ∈ users, u.id < nextId
  nodup : (users.map UserRow.id).Nodup

/-- What the import depends on beside its sheet. Errors are by the place of a row. -/
structure Env where
  /-- `str.lower`. -/
  lower : String → String
  /-- How the database compares emails. -/
  collation : Collation
  /-- What the query for a user raises. -/
  lookupError : ℕ → Option String
  /-- What the flush of a new user raises. -/
  userError : ℕ → Option String
  /-- What the query for a participant raises. -/
  participantLookupError : ℕ → Option String
  /-- What the flush of a new participant raises. -/
  participantError : ℕ → Option String

/-- The cells of a row; no text is an empty cell. -/
abbrev Row := List (Option String)

/-- An entry of `created` or `existing`. -/
structure Report where
  email : String
  userId : ℕ
  deriving DecidableEq, Repr

/-- An entry of `errors`. `own` is the number of its row in the sheet, and no part of the reply. -/
structure RowError where
  row : ℕ
  email : String
  error : String
  own : ℕ
  deriving DecidableEq, Repr

/-- The import under way; `db` is what the session sees. -/
structure State where
  db : Db
  createdUsers : List Report
  existingUsers : List Report
  errors : List RowError

/-- The request. -/
structure Request where
  contestId : ℤ
  role : String
  rows : List Row

/-! ### The import -/

/-- A new row of `users`. -/
def Db.addUser (db : Db) (name email : String) : Db where
  users := db.users ++ [⟨db.nextId, name, email, "user"⟩]
  participants := db.participants
  nextId := db.nextId + 1
  id_lt u hu := by
    rcases List.mem_append.mp hu with hu | hu
    · exact Nat.lt_succ_of_lt (db.id_lt u hu)
    · obtain rfl := List.mem_singleton.mp hu
      exact Nat.lt_succ_self db.nextId
  nodup := by
    rw [List.map_append, List.map_cons, List.map_nil]
    refine List.nodup_append.mpr ⟨db.nodup, List.nodup_singleton _, fun id hid id' hid' heq => ?_⟩
    obtain ⟨u, hu, rfl⟩ := List.mem_map.mp hid
    rw [List.mem_singleton.mp hid'] at heq
    exact absurd heq (Nat.ne_of_lt (db.id_lt u hu))

/-- A new row of `contest_participants`. -/
def Db.addParticipant (db : Db) (participant : Participant) : Db :=
  { db with participants := db.participants ++ [participant] }

/-- `db.session.rollback()`: the tables are as they were committed, and ids that were given stay
given. -/
def Db.rollback (committed : Db) (db : Db) : Db where
  users := committed.users
  participants := committed.participants
  nextId := max committed.nextId db.nextId
  id_lt u hu := lt_of_lt_of_le (committed.id_lt u hu) (le_max_left _ _)
  nodup := committed.nodup

variable (env : Env) (contestId : ℤ) (role : String)

/-- `Users.query.filter_by(email=email).first()`. -/
def findUser (db : Db) (email : String) : Option UserRow :=
  db.users.find? fun u => env.collation.eq u.email email

/-- `ContestParticipants.query.filter_by(contest_id=.., user_id=..).first()`. -/
def findParticipant (db : Db) (userId : ℕ) : Option Participant :=
  db.participants.find? fun p => p.contestId = contestId && p.userId = userId

/-- The user of a row, who is new or not, or what is raised. -/
def rowUser (db : Db) (i : ℕ) (email : String) : Except String (UserRow × Bool × Db) :=
  match env.lookupError i with
  | some e => .error e
  | none =>
    match findUser env db email with
    | some user => .ok (user, false, db)
    | none =>
      match env.userError i with
      | some e => .error e
      | none =>
        let name := (email.splitOn "@").headD ""
        .ok (⟨db.nextId, name, email, "user"⟩, true, db.addUser name email)

/-- The participant of a row, or what is raised. -/
def rowParticipant (db : Db) (i userId : ℕ) : Except String Db :=
  match env.participantLookupError i with
  | some e => .error e
  | none =>
    match findParticipant contestId db userId with
    | some _ => .ok db
    | none =>
      match env.participantError i with
      | some e => .error e
      | none => .ok (db.addParticipant ⟨contestId, userId, role⟩)

/-- An admin or a teacher takes part in no contest. -/
def UserRow.eligible (user : UserRow) : Bool := !(user.type = "admin" || user.type = "teacher")

/-- The body of `try`. -/
def tryRow (own i : ℕ) (email : String) (s : State) : Except String State := do
  let (user, isNew, db) ← rowUser env s.db i email
  if user.eligible = false then
    .ok { s with
      db := db
      errors := s.errors ++ [⟨2 + i, email, "User '" ++ email ++ "' has role '" ++ user.type ++
        "' and cannot be a contest participant", own⟩] }
  else
    let db ← rowParticipant env contestId role db i user.id
    if isNew then
      .ok { s with db := db, createdUsers := s.createdUsers ++ [⟨email, user.id⟩] }
    else .ok { s with db := db, existingUsers := s.existingUsers ++ [⟨email, user.id⟩] }

/-- A row with an email. -/
def importEmail (committed : Db) (own i : ℕ) (email : String) (s : State) : State :=
  if '@' ∉ email.toList then
    { s with errors := s.errors ++ [⟨2 + i, email, "Invalid email format", own⟩] }
  else
    match tryRow env contestId role own i email s with
    | .ok s => s
    | .error e =>
      { s with
        db := committed.rollback s.db
        errors := s.errors ++ [⟨2 + i, email, e, own⟩] }

/-- `str(cell).strip().lower()`. -/
def cellText (cell : String) : String := env.lower (strip cell)

/-- The email of a row, if it has any. -/
def rowEmail (column : ℕ) (row : Row) : Option String :=
  (row[column]?.join.map (cellText env)).filter (· ≠ "")

/-- One row. `own` is its number in the sheet, and `i` its place in the loop. -/
def importRow (committed : Db) (column own i : ℕ) (row : Row) (s : State) : State :=
  match rowEmail env column row with
  | none => s
  | some email => importEmail env contestId role committed own i email s

/-- The loop. `shift` is the number of the first data row in the sheet. -/
def importRows (committed : Db) (column shift : ℕ) : ℕ → List Row → State → State
  | _, [], s => s
  | i, row :: rows, s =>
    importRows committed column shift (i + 1) rows
      (importRow env contestId role committed column (shift + i) i row s)

/-- The column of a header, if the first row is one. -/
def headerColumn (rows : List Row) : Option ℕ :=
  rows.head?.bind fun first => first.findIdx? fun cell =>
    cell ≠ some "" && cell.map (cellText env) = some "email"

/-- `email_col_index`; without a header it is the first column. -/
def emailColumn (rows : List Row) : ℕ := (headerColumn env rows).getD 0

/-- The rows behind the header, and the number of the first one in the sheet. -/
def dataRows (rows : List Row) : List Row × ℕ :=
  if (headerColumn env rows).isSome then (rows.tail, 2) else (rows, 1)

def State.start (db : Db) : State := ⟨db, [], [], []⟩

/-- `ContestParticipantImport.post`. -/
def importParticipants (request : Request) (db : Db) : State :=
  importRows env request.contestId request.role db (emailColumn env request.rows)
    (dataRows env request.rows).2 0 (dataRows env request.rows).1 (.start db)

/-! ### What is asked of the reply -/

def State.reports (s : State) : List Report := s.createdUsers ++ s.existingUsers

def TakesPart (db : Db) (userId : ℕ) : Prop :=
  ∃ p ∈ db.participants, p.contestId = contestId ∧ p.userId = userId

/-- The user of a report is there, and takes part in the contest. -/
def Backed (db : Db) (r : Report) : Prop :=
  (∃ u ∈ db.users, u.id = r.userId ∧ env.collation.eq u.email r.email = true) ∧
    TakesPart contestId db r.userId

/-- **The reply tells what has been committed.** -/
structure ReportsCommitted (before : Db) (s : State) : Prop where
  /-- What is reported is there. -/
  backed : ∀ r ∈ s.reports, Backed env contestId s.db r
  /-- Users that are reported as created are new. -/
  created : ∀ r ∈ s.createdUsers, ∀ u ∈ before.users, u.id ≠ r.userId
  /-- A new user is reported. -/
  users : ∀ u ∈ s.db.users, u ∈ before.users ∨
    ∃ r ∈ s.createdUsers, r.userId = u.id ∧ r.email = u.email
  /-- A new participant is reported. -/
  participants : ∀ p ∈ s.db.participants, p ∈ before.participants ∨
    p.contestId = contestId ∧ ∃ r ∈ s.reports, r.userId = p.userId
  /-- Errors have the numbers of their rows. -/
  rows : ∀ e ∈ s.errors, e.row = e.own

/-! ### The condition -/

/-- The queries for a participant raise. -/
def ParticipantRaises (db : Db) (i userId : ℕ) : Prop :=
  (env.participantLookupError i).isSome ∨
    findParticipant contestId db userId = none ∧ (env.participantError i).isSome

/-- The row raises. -/
def Raises (db : Db) (i : ℕ) (email : String) : Prop :=
  (env.lookupError i).isSome ∨
    match findUser env db email with
    | some user => user.eligible = true ∧ ParticipantRaises env contestId db i user.id
    | none => (env.userError i).isSome ∨ ParticipantRaises env contestId db i db.nextId

/-- The row is reported as an error. -/
def Refused (db : Db) (i : ℕ) (email : String) : Prop :=
  '@' ∉ email.toList ∨ Raises env contestId db i email ∨
    ∃ user, findUser env db email = some user ∧ user.eligible = false

/-- A row is for the user of a report, who was there before the import. -/
def AddsAgain (before : Db) (column : ℕ) (r : Report) (row : Row) : Prop :=
  ∃ email, rowEmail env column row = some email ∧ '@' ∈ email.toList ∧
    ∃ u, findUser env before email = some u ∧ u.id = r.userId

/-- When the row raises, what has been reported is in the committed tables, or the rows that follow
add it again. -/
def RollsBackSafely (before : Db) (column i : ℕ) (row : Row) (rows : List Row) (s : State) : Prop :=
  ∀ email, rowEmail env column row = some email → '@' ∈ email.toList →
    Raises env contestId s.db i email → ∀ r ∈ s.reports,
      Backed env contestId before r ∨ ∃ row ∈ rows, AddsAgain env before column r row

/-- The row is not reported as an error. -/
def NotRefused (column i : ℕ) (row : Row) (s : State) : Prop :=
  ∀ email, rowEmail env column row = some email → ¬Refused env contestId s.db i email

/-- A condition on every row, with those that follow, and the state in which it is reached. -/
def Along (P : ℕ → Row → List Row → State → Prop) (committed : Db) (column shift : ℕ) :
    ℕ → List Row → State → Prop
  | _, [], _ => True
  | i, row :: rows, s =>
    P i row rows s ∧ Along P committed column shift (i + 1) rows
      (importRow env contestId role committed column (shift + i) i row s)

/-- A condition on every row of a request. -/
def EveryRow (request : Request) (db : Db) (P : ℕ → Row → List Row → State → Prop) : Prop :=
  Along env request.contestId request.role P db (emailColumn env request.rows)
    (dataRows env request.rows).2 0 (dataRows env request.rows).1 (.start db)

/-! ### What a row can do -/

variable {env contestId role} {before db : Db} {column own shift i userId : ℕ} {email : String}
  {row : Row} {rows : List Row} {s : State} {r : Report}

/-- The user with this id takes part. -/
def Db.enrol (contestId : ℤ) (role : String) (db : Db) (userId : ℕ) : Db :=
  if (findParticipant contestId db userId).isSome then db
  else db.addParticipant ⟨contestId, userId, role⟩

theorem rowParticipant_cases (env : Env) (contestId : ℤ) (role : String) (db : Db) (i userId : ℕ) :
    (ParticipantRaises env contestId db i userId ∧
      ∃ e, rowParticipant env contestId role db i userId = .error e) ∨
    (¬ParticipantRaises env contestId db i userId ∧
      rowParticipant env contestId role db i userId = .ok (db.enrol contestId role userId)) := by
  unfold ParticipantRaises rowParticipant Db.enrol
  cases hlookup : env.participantLookupError i with
  | some e => exact .inl ⟨.inl rfl, e, rfl⟩
  | none =>
      cases hfind : findParticipant contestId db userId with
      | some p => exact .inr ⟨by simp, rfl⟩
      | none =>
          cases herror : env.participantError i with
          | some e => exact .inl ⟨.inr ⟨rfl, rfl⟩, e, rfl⟩
          | none => exact .inr ⟨by simp, rfl⟩

/-- **What a row with an email can do.** It raises, its user may not take part, its user is there,
or its user is new. -/
theorem importEmail_cases (env : Env) (contestId : ℤ) (role : String) (before : Db)
    (hat : '@' ∈ email.toList) (own i : ℕ) (s : State) :
    (Raises env contestId s.db i email ∧ ∃ e,
      importEmail env contestId role before own i email s =
        { s with db := before.rollback s.db, errors := s.errors ++ [⟨2 + i, email, e, own⟩] }) ∨
    (¬Raises env contestId s.db i email ∧ ∃ user e, findUser env s.db email = some user ∧
      user.eligible = false ∧
      importEmail env contestId role before own i email s =
        { s with errors := s.errors ++ [⟨2 + i, email, e, own⟩] }) ∨
    (¬Raises env contestId s.db i email ∧ ∃ user, findUser env s.db email = some user ∧
      user.eligible = true ∧
      importEmail env contestId role before own i email s =
        { s with
          db := s.db.enrol contestId role user.id
          existingUsers := s.existingUsers ++ [⟨email, user.id⟩] }) ∨
    (¬Raises env contestId s.db i email ∧ findUser env s.db email = none ∧ ∃ name,
      importEmail env contestId role before own i email s =
        { s with
          db := (s.db.addUser name email).enrol contestId role s.db.nextId
          createdUsers := s.createdUsers ++ [⟨email, s.db.nextId⟩] }) := by
  rw [importEmail, if_neg (not_not_intro hat), tryRow, rowUser]
  unfold Raises
  cases hlookup : env.lookupError i with
  | some e => exact .inl ⟨.inl rfl, e, rfl⟩
  | none =>
      cases hfind : findUser env s.db email with
      | some user =>
          cases heligible : user.eligible with
          | false =>
              simp only [bind, Except.bind, heligible, if_true]
              exact .inr (.inl ⟨by simp, user, _, rfl, heligible, rfl⟩)
          | true =>
              simp only [bind, Except.bind, heligible, Bool.true_eq_false, if_false]
              rcases rowParticipant_cases env contestId role s.db i user.id with
                ⟨hraises, e, he⟩ | ⟨hraises, hok⟩
              · exact .inl ⟨.inr ⟨trivial, hraises⟩, e, by rw [he]⟩
              · refine .inr (.inr (.inl ⟨by simpa using hraises, user, rfl, heligible, ?_⟩))
                rw [hok]
                rfl
      | none =>
          cases huser : env.userError i with
          | some e => exact .inl ⟨.inr (.inl rfl), e, rfl⟩
          | none =>
              simp only [bind, Except.bind]
              rcases rowParticipant_cases env contestId role
                (s.db.addUser ((email.splitOn "@").headD "") email) i s.db.nextId with
                ⟨hraises, e, he⟩ | ⟨hraises, hok⟩
              · refine .inl ⟨.inr (.inr hraises), e, ?_⟩
                rw [he]
                rfl
              · refine .inr (.inr (.inr ⟨?_, trivial, (email.splitOn "@").headD "", ?_⟩))
                · rintro (hnone | hnone | hnone)
                  · cases hnone
                  · cases hnone
                  · exact hraises hnone
                · rw [hok]
                  rfl

/-! ### Users that take part -/

@[simp] theorem enrol_users : (db.enrol contestId role userId).users = db.users := by
  unfold Db.enrol
  split <;> rfl

@[simp] theorem enrol_nextId : (db.enrol contestId role userId).nextId = db.nextId := by
  unfold Db.enrol
  split <;> rfl

theorem mem_enrol_of_mem {p : Participant} (h : p ∈ db.participants) :
    p ∈ (db.enrol contestId role userId).participants := by
  unfold Db.enrol
  split
  · exact h
  · exact List.mem_append_left _ h

/-- Who takes part after somebody is enrolled. -/
theorem takesPart_enrol (userId' : ℕ) :
    TakesPart contestId (db.enrol contestId role userId) userId' ↔
      userId' = userId ∨ TakesPart contestId db userId' := by
  unfold Db.enrol TakesPart
  cases hfind : findParticipant contestId db userId with
  | some p =>
      have hp : p.contestId = contestId ∧ p.userId = userId := by
        simpa using List.find?_some hfind
      rw [if_pos (Option.isSome_some)]
      refine ⟨.inr, ?_⟩
      rintro (rfl | h)
      · exact ⟨p, List.mem_of_find?_eq_some hfind, hp⟩
      · exact h
  | none =>
      rw [if_neg (by simp)]
      constructor
      · rintro ⟨p, hp, hcontest, rfl⟩
        rcases List.mem_append.mp hp with hp | hp
        · exact .inr ⟨p, hp, hcontest, rfl⟩
        · exact .inl (congrArg Participant.userId (List.mem_singleton.mp hp))
      · rintro (rfl | ⟨p, hp, hpart⟩)
        · exact ⟨_, List.mem_append_right _ (List.mem_singleton_self _), rfl, rfl⟩
        · exact ⟨p, List.mem_append_left _ hp, hpart⟩

/-- Only the user that is enrolled becomes a participant. -/
theorem eq_of_mem_enrol {p : Participant}
    (h : p ∈ (db.enrol contestId role userId).participants) :
    p ∈ db.participants ∨ p.contestId = contestId ∧ p.userId = userId := by
  unfold Db.enrol at h
  split at h
  · exact .inl h
  · rcases List.mem_append.mp h with h | h
    · exact .inl h
    · obtain rfl := List.mem_singleton.mp h
      exact .inr ⟨rfl, rfl⟩

/-- Ids of users are not repeated. -/
theorem eq_of_id_eq {u u' : UserRow} (hu : u ∈ db.users) (hu' : u' ∈ db.users)
    (hid : u.id = u'.id) : u = u' :=
  List.inj_on_of_nodup_map db.nodup hu hu' hid

/-! ### The invariant -/

theorem mem_reports : r ∈ s.reports ↔ r ∈ s.createdUsers ∨ r ∈ s.existingUsers := List.mem_append

/-- The invariant: the session sees what was committed, and what it has reported since. -/
structure Inv (env : Env) (contestId : ℤ) (before : Db) (s : State) : Prop where
  users : before.users <+: s.db.users
  pending : ∀ u ∈ s.db.users, u ∈ before.users ∨
    TakesPart contestId s.db u.id ∧ ∃ r ∈ s.createdUsers, r.userId = u.id ∧ r.email = u.email
  kept : ∀ p ∈ before.participants, p ∈ s.db.participants
  participants : ∀ p ∈ s.db.participants, p ∈ before.participants ∨
    p.contestId = contestId ∧ ∃ r ∈ s.reports, r.userId = p.userId
  nextId : before.nextId ≤ s.db.nextId
  created : ∀ r ∈ s.createdUsers, before.nextId ≤ r.userId
  reported : ∀ r ∈ s.reports, r.userId < s.db.nextId ∧ ∀ u ∈ before.users, u.id = r.userId →
    u.eligible = true ∧ env.collation.eq u.email r.email = true

theorem Inv.start (env : Env) (contestId : ℤ) (before : Db) :
    Inv env contestId before (.start before) where
  users := List.prefix_rfl
  pending _ hu := .inl hu
  kept _ hp := hp
  participants _ hp := .inl hp
  nextId := le_refl _
  created r hr := by cases hr
  reported r hr := by cases hr

theorem Inv.rollback (h : Inv env contestId before s) (errors : List RowError) :
    Inv env contestId before { s with db := before.rollback s.db, errors := errors } where
  users := List.prefix_rfl
  pending _ hu := .inl hu
  kept _ hp := hp
  participants _ hp := .inl hp
  nextId := le_max_left _ _
  created := h.created
  reported r hr := ⟨lt_of_lt_of_le (h.reported r hr).1 (le_max_right _ _), (h.reported r hr).2⟩

theorem Inv.refuse (h : Inv env contestId before s) (errors : List RowError) :
    Inv env contestId before { s with errors := errors } :=
  ⟨h.users, h.pending, h.kept, h.participants, h.nextId, h.created, h.reported⟩

/-- A user who is there is found and enrolled. -/
theorem Inv.existing (role : String) (h : Inv env contestId before s) {user : UserRow}
    (hfind : findUser env s.db email = some user) (heligible : user.eligible = true) :
    Inv env contestId before { s with
      db := s.db.enrol contestId role user.id
      existingUsers := s.existingUsers ++ [⟨email, user.id⟩] } where
  users := by
    rw [enrol_users]
    exact h.users
  pending u hu := by
    rw [enrol_users] at hu
    rcases h.pending u hu with hu | ⟨hpart, hr⟩
    · exact .inl hu
    · exact .inr ⟨(takesPart_enrol u.id).mpr (.inr hpart), hr⟩
  kept p hp := mem_enrol_of_mem (h.kept p hp)
  participants p hp := by
    rcases eq_of_mem_enrol hp with hp | ⟨hcontest, huser⟩
    · refine (h.participants p hp).imp_right fun ⟨hcontest, r, hr, hid⟩ => ⟨hcontest, r, ?_, hid⟩
      exact mem_reports.mpr ((mem_reports.mp hr).imp_right (List.mem_append_left _))
    · exact .inr ⟨hcontest, _, mem_reports.mpr (.inr List.mem_concat_self), huser.symm⟩
  nextId := by
    rw [enrol_nextId]
    exact h.nextId
  created := h.created
  reported r hr := by
    have huser := List.mem_of_find?_eq_some hfind
    rw [enrol_nextId]
    rcases mem_reports.mp hr with hr | hr
    · exact h.reported r (mem_reports.mpr (.inl hr))
    rcases List.mem_append.mp hr with hr | hr
    · exact h.reported r (mem_reports.mpr (.inr hr))
    · obtain rfl := List.mem_singleton.mp hr
      refine ⟨s.db.id_lt user huser, fun u hu hid => ?_⟩
      obtain rfl := eq_of_id_eq (h.users.subset hu) huser hid
      have hemail := List.find?_some hfind
      exact ⟨heligible, hemail⟩

/-- A user is added and enrolled. -/
theorem Inv.new (h : Inv env contestId before s) (name : String) :
    Inv env contestId before { s with
      db := (s.db.addUser name email).enrol contestId role s.db.nextId
      createdUsers := s.createdUsers ++ [⟨email, s.db.nextId⟩] } where
  users := by
    rw [enrol_users]
    exact h.users.trans (List.prefix_append _ _)
  pending u hu := by
    rw [enrol_users] at hu
    rcases List.mem_append.mp hu with hu | hu
    · refine (h.pending u hu).imp_right fun ⟨hpart, r, hr, hid⟩ => ?_
      exact ⟨(takesPart_enrol u.id).mpr (.inr hpart), r, List.mem_append_left _ hr, hid⟩
    · obtain rfl := List.mem_singleton.mp hu
      exact .inr ⟨(takesPart_enrol s.db.nextId).mpr (.inl rfl), _, List.mem_concat_self, rfl, rfl⟩
  kept p hp := mem_enrol_of_mem (h.kept p hp)
  participants p hp := by
    rcases eq_of_mem_enrol hp with hp | ⟨hcontest, huser⟩
    · refine (h.participants p hp).imp_right fun ⟨hcontest, r, hr, hid⟩ => ⟨hcontest, r, ?_, hid⟩
      exact mem_reports.mpr ((mem_reports.mp hr).imp_left (List.mem_append_left _))
    · exact .inr ⟨hcontest, _, mem_reports.mpr (.inl List.mem_concat_self), huser.symm⟩
  nextId := by
    rw [enrol_nextId]
    exact Nat.le_succ_of_le h.nextId
  created r hr := by
    rcases List.mem_append.mp hr with hr | hr
    · exact h.created r hr
    · obtain rfl := List.mem_singleton.mp hr
      exact h.nextId
  reported r hr := by
    have hold : r ∈ s.reports → r.userId < s.db.nextId + 1 ∧ ∀ u ∈ before.users,
        u.id = r.userId → u.eligible = true ∧ env.collation.eq u.email r.email = true :=
      fun hr => ⟨Nat.lt_succ_of_lt (h.reported r hr).1, (h.reported r hr).2⟩
    rw [enrol_nextId]
    rcases mem_reports.mp hr with hr | hr
    · rcases List.mem_append.mp hr with hr | hr
      · exact hold (mem_reports.mpr (.inl hr))
      · obtain rfl := List.mem_singleton.mp hr
        refine ⟨Nat.lt_succ_self _, fun u hu hid => ?_⟩
        exact absurd hid (Nat.ne_of_lt (lt_of_lt_of_le (before.id_lt u hu) h.nextId))
    · exact hold (mem_reports.mpr (.inr hr))

theorem Inv.importRow (h : Inv env contestId before s) (column own i : ℕ) (row : Row) :
    Inv env contestId before (importRow env contestId role before column own i row s) := by
  unfold ParticipantImport.importRow
  cases hemail : rowEmail env column row with
  | none => exact h
  | some email =>
      dsimp only
      by_cases hat : '@' ∈ email.toList
      · rcases importEmail_cases env contestId role before hat own i s with ⟨-, e, heq⟩ |
          ⟨-, user, e, -, -, heq⟩ | ⟨-, user, hfind, heligible, heq⟩ | ⟨-, -, name, heq⟩
        · exact heq ▸ h.rollback _
        · exact heq ▸ h.refuse _
        · exact heq ▸ h.existing role hfind heligible
        · exact heq ▸ h.new name
      · rw [importEmail, if_pos hat]
        exact h.refuse _

theorem Inv.importRows (h : Inv env contestId before s) (column shift i : ℕ) (rows : List Row) :
    Inv env contestId before
      (importRows env contestId role before column shift i rows s) := by
  induction rows generalizing i s with
  | nil => exact h
  | cons row rows ih => exact ih (h.importRow column (shift + i) i row) (i + 1)

/-! ### What the reports of a state come to -/

theorem Backed.mono (hb : Backed env contestId before r)
    (h : Inv env contestId before s) : Backed env contestId s.db r := by
  obtain ⟨⟨u, hu, hid⟩, p, hp, hpart⟩ := hb
  exact ⟨⟨u, h.users.subset hu, hid⟩, p, h.kept p hp, hpart⟩

/-- The user of a report is there now, or a row that follows enrols the user again. -/
def Restored (env : Env) (contestId : ℤ) (before : Db) (column : ℕ) (rows : List Row) (db : Db)
    (r : Report) : Prop :=
  Backed env contestId db r ∨ ∃ row ∈ rows, AddsAgain env before column r row

/-- A row that is no user's adds nothing again. -/
theorem restored_cons_iff (hrow : ¬AddsAgain env before column r row) :
    Restored env contestId before column (row :: rows) db r ↔
      Restored env contestId before column rows db r := by
  unfold Restored
  rw [List.exists_mem_cons_iff, or_iff_right hrow]

/-- What is found among the committed users is found. -/
theorem Inv.findUser (h : Inv env contestId before s) {u : UserRow}
    (hfind : findUser env before email = some u) : findUser env s.db email = some u :=
  h.users.find?_eq_some hfind

/-- **A user who is there is enrolled.** What was reported before is as before, or restored by this
row. -/
theorem backed_existing_iff (h : Inv env contestId before s) {user : UserRow}
    (hemail : rowEmail env column row = some email) (hat : '@' ∈ email.toList)
    (hfind : ParticipantImport.findUser env s.db email = some user) (hr : r ∈ s.reports) :
    Restored env contestId before column rows (s.db.enrol contestId role user.id) r ↔
      Restored env contestId before column (row :: rows) s.db r := by
  have hadds : AddsAgain env before column r row ↔ user ∈ before.users ∧ user.id = r.userId := by
    constructor
    · rintro ⟨email', hemail', -, u, hu, hid⟩
      obtain rfl := Option.some.inj (hemail.symm.trans hemail')
      obtain rfl := Option.some.inj (hfind.symm.trans (h.findUser hu))
      exact ⟨List.mem_of_find?_eq_some hu, hid⟩
    · rintro ⟨hu, hid⟩
      refine ⟨email, hemail, hat, user, ?_, hid⟩
      cases hbefore : ParticipantImport.findUser env before email with
      | some u => exact hfind.symm.trans (h.findUser hbefore) ▸ rfl
      | none =>
          have hsame := List.find?_some hfind
          exact absurd hsame (List.find?_eq_none.mp hbefore user hu)
  have hback : Backed env contestId (s.db.enrol contestId role user.id) r ↔
      Backed env contestId s.db r ∨ AddsAgain env before column r row := by
    unfold Backed
    rw [enrol_users, takesPart_enrol, hadds]
    constructor
    · rintro ⟨⟨u, hu, hid, hsame⟩, huser | hpart⟩
      · -- a pending user takes part already
        obtain rfl := eq_of_id_eq hu (List.mem_of_find?_eq_some hfind) (hid.trans huser)
        rcases h.pending u hu with hu | ⟨hpart, -⟩
        · exact .inr ⟨hu, hid⟩
        · exact .inl ⟨⟨u, hu, hid, hsame⟩, hid ▸ hpart⟩
      · exact .inl ⟨⟨u, hu, hid, hsame⟩, hpart⟩
    · rintro (⟨huser, hpart⟩ | ⟨hu, hid⟩)
      · exact ⟨huser, .inr hpart⟩
      · exact ⟨⟨user, h.users.subset hu, hid, ((h.reported r hr).2 user hu hid).2⟩, .inl hid.symm⟩
  unfold Restored
  rw [hback, List.exists_mem_cons_iff, or_assoc]

/-- **A user is added.** What was reported before is as before. -/
theorem backed_new_iff (h : Inv env contestId before s) (name : String)
    (hemail : rowEmail env column row = some email)
    (hfind : ParticipantImport.findUser env s.db email = none) (hr : r ∈ s.reports) :
    Restored env contestId before column rows
        ((s.db.addUser name email).enrol contestId role s.db.nextId) r ↔
      Restored env contestId before column (row :: rows) s.db r := by
  have hne : r.userId ≠ s.db.nextId := Nat.ne_of_lt (h.reported r hr).1
  have hback : Backed env contestId ((s.db.addUser name email).enrol contestId role s.db.nextId) r ↔
      Backed env contestId s.db r := by
    unfold Backed
    rw [enrol_users, takesPart_enrol, or_iff_right hne]
    refine and_congr_left fun _ => ⟨?_, ?_⟩
    · rintro ⟨u, hu, hid, hsame⟩
      rcases List.mem_append.mp hu with hu | hu
      · exact ⟨u, hu, hid, hsame⟩
      · obtain rfl := List.mem_singleton.mp hu
        exact absurd hid.symm hne
    · rintro ⟨u, hu, hu'⟩
      exact ⟨u, List.mem_append_left _ hu, hu'⟩
  rw [restored_cons_iff, Restored, Restored, hback]
  rintro ⟨email', hemail', -, u, hu, -⟩
  obtain rfl := Option.some.inj (hemail.symm.trans hemail')
  exact Option.some_ne_none u ((h.findUser hu).symm.trans hfind)

theorem forall_reports_created {P : Report → Prop} (db : Db) (x : Report) :
    (∀ r ∈ State.reports { s with db := db, createdUsers := s.createdUsers ++ [x] }, P r) ↔
      (∀ r ∈ s.reports, P r) ∧ P x := by
  simp only [mem_reports, List.mem_append, List.mem_singleton, or_imp, forall_and, forall_eq]
  exact and_right_comm

theorem forall_reports_existing {P : Report → Prop} (db : Db) (x : Report) :
    (∀ r ∈ State.reports { s with db := db, existingUsers := s.existingUsers ++ [x] }, P r) ↔
      (∀ r ∈ s.reports, P r) ∧ P x := by
  simp only [mem_reports, List.mem_append, List.mem_singleton, or_imp, forall_and, forall_eq]
  exact and_assoc.symm

/-- A row that does not raise rolls nothing back. -/
theorem rollsBackSafely_of_not_raises (hemail : rowEmail env column row = some email)
    (hraises : ¬Raises env contestId s.db i email) :
    RollsBackSafely env contestId before column i row rows s := by
  intro email' hemail' _ hraises'
  obtain rfl := Option.some.inj (hemail.symm.trans hemail')
  exact absurd hraises' hraises

/-- **One row.** All reports are restored after it, if it rolls back safely and they are restored
before. -/
theorem restored_importRow_iff (h : Inv env contestId before s) :
    (∀ r ∈ (importRow env contestId role before column own i row s).reports,
      Restored env contestId before column rows
        (importRow env contestId role before column own i row s).db r) ↔
      RollsBackSafely env contestId before column i row rows s ∧
        ∀ r ∈ s.reports, Restored env contestId before column (row :: rows) s.db r := by
  unfold importRow
  cases hemail : rowEmail env column row with
  | none =>
      rw [and_iff_right]
      · refine forall₂_congr fun r hr => (restored_cons_iff ?_).symm
        rintro ⟨email, hemail', -⟩
        cases hemail.symm.trans hemail'
      · intro email hemail'
        cases hemail.symm.trans hemail'
  | some email =>
      dsimp only
      by_cases hat : '@' ∈ email.toList
      · rcases importEmail_cases env contestId role before hat own i s with ⟨hraises, e, heq⟩ |
          ⟨hraises, user, e, hfind, hno, heq⟩ | ⟨hraises, user, hfind, heligible, heq⟩ |
          ⟨hraises, hfind, name, heq⟩
        · rw [heq]
          constructor
          · intro hall
            refine ⟨fun email' _ _ _ r hr => hall r hr, fun r hr => ?_⟩
            refine (hall r hr).imp (fun hb => Backed.mono hb h) ?_
            exact fun ⟨row', hrow', hadds⟩ => ⟨row', List.mem_cons_of_mem _ hrow', hadds⟩
          · rintro ⟨hsafe, -⟩
            exact hsafe email hemail hat hraises
        · rw [heq, and_iff_right (rollsBackSafely_of_not_raises hemail hraises)]
          refine forall₂_congr fun r hr => (restored_cons_iff ?_).symm
          rintro ⟨email', hemail', -, u, hu, hid⟩
          obtain rfl := Option.some.inj (hemail.symm.trans hemail')
          obtain rfl := Option.some.inj (hfind.symm.trans (h.findUser hu))
          have hyes := ((h.reported r hr).2 user (List.mem_of_find?_eq_some hu) hid).1
          rw [hno] at hyes
          cases hyes
        · rw [heq, and_iff_right (rollsBackSafely_of_not_raises hemail hraises)]
          rw [forall_reports_existing, and_iff_left]
          · exact forall₂_congr fun r hr => backed_existing_iff h hemail hat hfind hr
          · have hsame := List.find?_some hfind
            refine .inl ⟨⟨user, ?_, rfl, hsame⟩, (takesPart_enrol user.id).mpr (.inl rfl)⟩
            rw [enrol_users]
            exact List.mem_of_find?_eq_some hfind
        · rw [heq, and_iff_right (rollsBackSafely_of_not_raises hemail hraises)]
          rw [forall_reports_created, and_iff_left]
          · exact forall₂_congr fun r hr => backed_new_iff h name hemail hfind hr
          · refine .inl ⟨⟨⟨s.db.nextId, name, email, "user"⟩, ?_, rfl, ?_⟩,
              (takesPart_enrol s.db.nextId).mpr (.inl rfl)⟩
            · rw [enrol_users]
              exact List.mem_concat_self
            · exact Collation.eq_iff.mpr rfl
      · rw [importEmail, if_pos hat, and_iff_right]
        · refine forall₂_congr fun r hr => (restored_cons_iff ?_).symm
          rintro ⟨email', hemail', hat', -⟩
          obtain rfl := Option.some.inj (hemail.symm.trans hemail')
          exact absurd hat' hat
        · intro email' hemail' hat'
          obtain rfl := Option.some.inj (hemail.symm.trans hemail')
          exact absurd hat' hat

/-- **All rows.** At the end all reports are true, if no row rolls back what stays rolled back. -/
theorem finallyReported_iff (role : String) (h : Inv env contestId before s)
    (column shift i : ℕ) (rows : List Row) :
    (∀ r ∈ (importRows env contestId role before column shift i rows s).reports,
      Backed env contestId (importRows env contestId role before column shift i rows s).db r) ↔
      Along env contestId role (RollsBackSafely env contestId before column) before column shift i
          rows s ∧
        ∀ r ∈ s.reports, Restored env contestId before column rows s.db r := by
  induction rows generalizing i s with
  | nil =>
      rw [Along, true_and]
      refine forall₂_congr fun r _ => (or_iff_left ?_).symm
      rintro ⟨row, hrow, -⟩
      cases hrow
  | cons row rows ih =>
      rw [importRows, ih (h.importRow column (shift + i) i row), restored_importRow_iff h, Along,
        and_left_comm, and_assoc]

/-! ### The numbers of the errors -/

/-- The errors of a row: what there was, and the row's own if it is refused. -/
theorem errors_importRow (env : Env) (contestId : ℤ) (role : String) (before : Db)
    (column own i : ℕ) (row : Row) (s : State) :
    (NotRefused env contestId column i row s ∧
      (importRow env contestId role before column own i row s).errors = s.errors) ∨
    (¬NotRefused env contestId column i row s ∧ ∃ email error,
      (importRow env contestId role before column own i row s).errors =
        s.errors ++ [⟨2 + i, email, error, own⟩]) := by
  unfold importRow NotRefused
  cases hemail : rowEmail env column row with
  | none => exact .inl ⟨fun email hsome => (by cases hsome), rfl⟩
  | some email =>
      simp only [Option.some.injEq, forall_eq', not_not]
      by_cases hat : '@' ∈ email.toList
      · rcases importEmail_cases env contestId role before hat own i s with ⟨hraises, e, heq⟩ |
          ⟨-, user, e, hfind, hno, heq⟩ | ⟨hraises, user, hfind, heligible, heq⟩ |
          ⟨hraises, hfind, name, heq⟩
        · exact .inr ⟨.inr (.inl hraises), email, e, heq ▸ rfl⟩
        · exact .inr ⟨.inr (.inr ⟨user, hfind, hno⟩), email, e, heq ▸ rfl⟩
        · refine .inl ⟨?_, heq ▸ rfl⟩
          rintro (hno | hno | ⟨user', hfind', hno⟩)
          · exact hno hat
          · exact hraises hno
          · obtain rfl := Option.some.inj (hfind.symm.trans hfind')
            rw [heligible] at hno
            cases hno
        · refine .inl ⟨?_, heq ▸ rfl⟩
          rintro (hno | hno | ⟨user', hfind', -⟩)
          · exact hno hat
          · exact hraises hno
          · exact Option.some_ne_none user' (hfind'.symm.trans hfind)
      · refine .inr ⟨.inl hat, email, "Invalid email format", ?_⟩
        rw [importEmail, if_pos hat]

/-- With a header the errors have the numbers of their rows, and without one none of them has. -/
theorem errorRows_iff (env : Env) (contestId : ℤ) (role : String) (before : Db)
    (column shift i : ℕ) (rows : List Row) (s : State) :
    (∀ e ∈ (importRows env contestId role before column shift i rows s).errors,
      e.row = e.own) ↔
      (∀ e ∈ s.errors, e.row = e.own) ∧ (shift = 2 ∨
        Along env contestId role (fun i row _ s => NotRefused env contestId column i row s) before
          column shift i rows s) := by
  induction rows generalizing i s with
  | nil => exact ⟨fun h => ⟨h, .inr trivial⟩, fun h => h.1⟩
  | cons row rows ih =>
      rw [importRows, ih, Along]
      rcases errors_importRow env contestId role before column (shift + i) i row s with
        ⟨hkept, heq⟩ | ⟨hrefused, email, e, heq⟩
      · rw [heq, and_iff_right hkept]
      · have hnew : 2 + i = shift + i ↔ shift = 2 := by omega
        rw [heq]
        simp only [List.mem_append, List.mem_singleton, or_imp, forall_and, forall_eq, hrefused,
          false_and, or_false, hnew]
        tauto

/-! ### The import of a sheet -/

/-- **When the reply tells what has been committed**: if no row rolls back what stays rolled back,
and the sheet has a header or no row is reported as an error. -/
theorem reportsCommitted_iff (env : Env) (request : Request) (db : Db) :
    ReportsCommitted env request.contestId db (importParticipants env request db) ↔
      EveryRow env request db
          (RollsBackSafely env request.contestId db (emailColumn env request.rows)) ∧
        ((headerColumn env request.rows).isSome ∨ EveryRow env request db fun i row _ s =>
          NotRefused env request.contestId (emailColumn env request.rows) i row s) := by
  have hshift : (dataRows env request.rows).2 = 2 ↔ (headerColumn env request.rows).isSome := by
    unfold dataRows
    split
    · next h => exact iff_of_true rfl h
    · next h => exact iff_of_false (show ¬1 = 2 by decide) h
  have hinv := Inv.start env request.contestId db
  have hend : Inv env request.contestId db (importParticipants env request db) :=
    hinv.importRows _ _ _ _
  have hbacked := finallyReported_iff request.role hinv
    (emailColumn env request.rows) (dataRows env request.rows).2 0 (dataRows env request.rows).1
  have hrows := errorRows_iff env request.contestId request.role db (emailColumn env request.rows)
    (dataRows env request.rows).2 0 (dataRows env request.rows).1 (.start db)
  rw [and_iff_left (fun r hr => by cases hr)] at hbacked
  rw [and_iff_right (fun e he => by cases he), hshift] at hrows
  rw [EveryRow, EveryRow, ← hbacked, ← hrows]
  constructor
  · exact fun h => ⟨h.backed, h.rows⟩
  · rintro ⟨hb, hr⟩
    exact
      { backed := hb
        created := fun r hr u hu hid =>
          absurd (hend.created r hr) (Nat.not_le.mpr (hid ▸ db.id_lt u hu))
        users := fun u hu => (hend.pending u hu).imp_right And.right
        participants := hend.participants
        rows := hr }

/-! ### A user who is rolled back -/

/-- The database does not add the second user. -/
def refusingEnv : Env where
  lower s := String.ofList (s.toList.map Char.toLower)
  collation := .binary
  lookupError _ := none
  userError i := if i = 1 then some "Lock wait timeout exceeded" else none
  participantLookupError _ := none
  participantError _ := none

/-- No users yet. -/
def emptyDb : Db := ⟨[], [], 1, by simp, List.nodup_nil⟩

/-- A header and two addresses. -/
def twoAddresses : Request :=
  ⟨1, "contestant", [[some "email"], [some "ann@ctf.org"], [some "bob@ctf.org"]]⟩

/-- Ann is reported as created, and Bob's row rolls her back. -/
theorem not_reportsCommitted :
    ¬ReportsCommitted refusingEnv 1 emptyDb
      (importParticipants refusingEnv twoAddresses emptyDb) := by
  intro h
  obtain ⟨⟨u, hu, -⟩, -⟩ := h.backed ⟨"ann@ctf.org", 1⟩ (by decide)
  have hnone : (importParticipants refusingEnv twoAddresses emptyDb).db.users = [] := by decide
  rw [hnone] at hu
  cases hu

end Fctf.ParticipantImport
