import Fctf.Accounts
import Mathlib.Data.List.Dedup

/-!
# Importing Participants Row by Row

An import goes through a list of addresses, and a row that cannot be saved is to fail alone.
But all rows share one change tracker: what could not be saved is tried again with every
later row, and spoils it. Nor does the import notice whom it has added itself.

## Main results

* `importedRows_iff`: the import is right row by row if and only if every row that adds
  somebody comes before the first row that fails, and no address is named twice among them.
* `not_importedRows`: an address that is named twice is counted as failed.
-/

open Concurrent

namespace Fctf

namespace Accounts

/-! ### The loop alone -/

/-- The tables, the tracker and the counters. -/
structure ImportState where
  users : List User
  participants : List Participant
  tracked : List Tracked
  result : ImportParticipantsResultDTO

/-- The tables as they stand. -/
def ImportState.world (st : ImportState) (w : AccountWorld) : AccountWorld :=
  { w with users := st.users, participants := st.participants }

section Step

variable (db : Database) (contestId : ℕ) (role : String) (existing : List ℕ)

/-- The second half of a row. -/
def participantStep (email : String) (targetUser : ℕ) (st : ImportState) : ImportState :=
  if existing.contains targetUser then
    { st with result := { st.result with
        alreadyParticipants := st.result.alreadyParticipants + 1
        existingUsersAdded := st.result.existingUsersAdded - 1 } }
  else
    match db.insertAll (st.tracked ++ [.participant contestId targetUser role])
        (st.users, st.participants) with
    | none => { st with
        tracked := st.tracked ++ [.participant contestId targetUser role]
        result := st.result.fail email }
    | some (users, participants) => ⟨users, participants, [], st.result⟩

/-- A row. -/
def rowStep (st : ImportState) (email : String) : ImportState :=
  if db.culture.isBlank (normalizeEmail db email) then
    { st with result := st.result.fail email }
  else
    match db.findByEmail st.users (normalizeEmail db email) with
    | some targetUser =>
        participantStep db contestId role existing email targetUser { st with result :=
          { st.result with existingUsersAdded := st.result.existingUsersAdded + 1 } }
    | none =>
        match db.insertAll (st.tracked ++
            [.user (normalizeEmail db email) (emailPrefix (normalizeEmail db email))])
            (st.users, st.participants) with
        | none => { st with
            tracked := st.tracked ++
              [.user (normalizeEmail db email) (emailPrefix (normalizeEmail db email))]
            result := st.result.fail email }
        | some (users, participants) =>
            participantStep db contestId role existing email (users.length - 1)
              ⟨users, participants, [],
                { st.result with newUsersCreated := st.result.newUsersCreated + 1 }⟩

variable {db contestId role existing} (w : AccountWorld) (st : ImportState) (email : String)

/-- A save, whose exception becomes a value. -/
theorem eval_save (rows : List Tracked) :
    (attempt (saveRows rows)).eval (accountExec db calmAccounts) (st.world w) =
      match db.insertAll rows (st.users, st.participants) with
      | none => (.ok (.error .duplicateKey), st.world w)
      | some tables =>
          (.ok (.ok (tables.1.length - 1)),
            ImportState.world ⟨tables.1, tables.2, [], st.result⟩ w) := by
  rw [eval_attempt]
  have hsave : (saveRows rows).eval (accountExec db calmAccounts) (st.world w) =
      db.saveChanges rows (st.world w) := rfl
  rw [hsave, Database.saveChanges]
  simp only [ImportState.world]
  cases db.insertAll rows (st.users, st.participants) with
  | none => rfl
  | some tables => rfl

theorem eval_addParticipant (targetUser : ℕ) :
    (addParticipant contestId role existing email targetUser st.tracked st.result).eval
        (accountExec db calmAccounts) (st.world w) =
      (.ok ((participantStep db contestId role existing email targetUser st).tracked,
          (participantStep db contestId role existing email targetUser st).result),
        (participantStep db contestId role existing email targetUser st).world w) := by
  rw [addParticipant, participantStep]
  split
  · rfl
  · change (attempt _ >>= _).eval _ _ = _
    rw [Prog.eval_bind, eval_save]
    cases db.insertAll (st.tracked ++ [.participant contestId targetUser role])
        (st.users, st.participants) with
    | none => rfl
    | some tables => rfl

/-- **One row** does what its step says. -/
theorem eval_importRow :
    (importRow db contestId role existing email st.tracked st.result).eval
        (accountExec db calmAccounts) (st.world w) =
      (.ok ((rowStep db contestId role existing st email).tracked,
          (rowStep db contestId role existing st email).result),
        (rowStep db contestId role existing st email).world w) := by
  have hfind : (attempt (findAccount (normalizeEmail db email))).eval
      (accountExec db calmAccounts) (st.world w) =
      (.ok (.ok (db.findByEmail st.users (normalizeEmail db email))), st.world w) := rfl
  rw [importRow, rowStep]
  split
  · rfl
  · change (attempt _ >>= _).eval _ _ = _
    rw [Prog.eval_bind, hfind]
    cases db.findByEmail st.users (normalizeEmail db email) with
    | some targetUser =>
        exact eval_addParticipant w { st with result := { st.result with
          existingUsersAdded := st.result.existingUsersAdded + 1 } } email targetUser
    | none =>
        change (attempt _ >>= _).eval _ _ = _
        rw [Prog.eval_bind, eval_save]
        cases db.insertAll (st.tracked ++
            [.user (normalizeEmail db email) (emailPrefix (normalizeEmail db email))])
            (st.users, st.participants) with
        | none => rfl
        | some tables =>
            exact eval_addParticipant w ⟨tables.1, tables.2, [], { st.result with
              newUsersCreated := st.result.newUsersCreated + 1 }⟩ email (tables.1.length - 1)

/-- **All rows**, one after the other. -/
theorem eval_importRows (emails : List String) :
    (importRows db contestId role existing emails st.tracked st.result).eval
        (accountExec db calmAccounts) (st.world w) =
      (.ok (emails.foldl (rowStep db contestId role existing) st).result,
        (emails.foldl (rowStep db contestId role existing) st).world w) := by
  induction emails generalizing st with
  | nil => rfl
  | cons email emails ih =>
      rw [importRows, Prog.eval_bind, eval_importRow, List.foldl_cons]
      generalize rowStep db contestId role existing st email = st'
      exact ih st'

end Step

/-! ### The kinds of rows -/

/-- Who takes part in a contest. -/
def participantIds (contestId : ℕ) (participants : List Participant) : List ℕ :=
  (participants.filter (·.contestId = contestId)).map (·.userId)

section Kinds

variable (db : Database) (contestId : ℕ) (role : String) (w : AccountWorld) (email : String)

/-- The account of an address, before the import. -/
def account : Option ℕ := db.findByEmail w.users (normalizeEmail db email)

/-- There is no address. -/
def blank : Bool := db.culture.isBlank (normalizeEmail db email)

/-- The account takes part already. -/
def already : Bool :=
  !blank db email && (account db w email).any (participantIds contestId w.participants).contains

/-- There is no account, and none can be made. -/
def refused : Bool :=
  !blank db email && (account db w email).isNone &&
    !db.acceptsUser w.users (normalizeEmail db email) (emailPrefix (normalizeEmail db email))

/-- A row that would add somebody. -/
def addable : Bool := !blank db email && !already db contestId w email && !refused db w email

/-- A row that can be served: its account takes part already, or can be added. -/
def valid : Bool :=
  already db contestId w email || (addable db contestId w email && !db.refusesRole role)

/-- A row that adds an account there is. -/
def joins : Bool :=
  valid db contestId role w email && addable db contestId w email && (account db w email).isSome

/-- A row that adds a new account. -/
def creates : Bool :=
  valid db contestId role w email && addable db contestId w email && (account db w email).isNone

/-- The addresses of the rows of a kind, without repetitions. -/
def addresses (kind : String → Bool) (emails : List String) : List String :=
  ((emails.filter kind).map (normalizeEmail db)).dedup

end Kinds

/-- **The import is right row by row**: those who take part are the former participants and
all addresses that can be served, and the counters tell which rows were added, which were
there already, and which have failed. -/
structure ImportedRows (db : Database) (contestId : ℕ) (dto : ImportParticipantsDTO)
    (w w' : AccountWorld) (result : ImportParticipantsResultDTO) : Prop where
  /-- Who takes part. -/
  participants : ∀ userId, userId ∈ participantIds contestId w'.participants ↔
    userId ∈ participantIds contestId w.participants ∨
      ∃ email ∈ dto.emails, valid db contestId dto.role w email = true ∧
        db.findByEmail w'.users (normalizeEmail db email) = some userId
  /-- The rows that have added a new account. -/
  newUsers : result.newUsersCreated =
    (addresses db (creates db contestId dto.role w) dto.emails).length
  /-- The rows that have added an account there was. -/
  existingUsers : result.existingUsersAdded =
    (addresses db (joins db contestId dto.role w) dto.emails).length
  /-- The other rows that could be served. -/
  alreadyParticipants :
    result.newUsersCreated + result.existingUsersAdded + result.alreadyParticipants =
      dto.emails.countP (valid db contestId dto.role w)
  /-- The rows that could not. -/
  failed : result.failedEmails = dto.emails.filter fun email => !valid db contestId dto.role w email

/-- A row that would add somebody comes after no row that is refused, and after none that adds
the same address. If the role is refused, it has no account, and comes after one that is
refused. -/
def ComesFirst (db : Database) (contestId : ℕ) (role : String) (w : AccountWorld)
    (pre : List String) (email : String) : Prop :=
  addable db contestId w email = true →
    if db.refusesRole role = true then
      account db w email = none ∧ ∃ a ∈ pre, refused db w a = true
    else ∀ a ∈ pre, refused db w a = false ∧
      (addable db contestId w a = true → normalizeEmail db a ≠ normalizeEmail db email)

/-- **The condition.** Every row that would add somebody comes before those that fail. -/
def EachFirst (db : Database) (contestId : ℕ) (role : String) (w : AccountWorld)
    (emails : List String) : Prop :=
  ∀ pre email post, emails = pre ++ email :: post → ComesFirst db contestId role w pre email

/-- Only users take part. -/
def Referenced (contestId : ℕ) (w : AccountWorld) : Prop :=
  ∀ userId ∈ participantIds contestId w.participants, userId < w.users.length

section Grown

variable {db : Database} {contestId : ℕ} {role : String} {w : AccountWorld} {st : ImportState}
  {email : String}

/-- The new account of an address. -/
def freshUser (db : Database) (email : String) : User :=
  Database.newUser (normalizeEmail db email) (emailPrefix (normalizeEmail db email)) .committed none

/-- What an import has told the tracker of an address. -/
def freshRow (db : Database) (email : String) : Tracked :=
  .user (normalizeEmail db email) (emailPrefix (normalizeEmail db email))

/-- The tables grow, and only by accounts that the database accepts. -/
structure Grown (db : Database) (w : AccountWorld) (st : ImportState) : Prop where
  /-- The users. -/
  users : ∃ us, st.users = w.users ++ us ∧ ∀ u ∈ us, ∃ a, u = freshUser db a ∧
    db.acceptsUser w.users (normalizeEmail db a) (emailPrefix (normalizeEmail db a)) = true
  /-- The participants. -/
  participants : ∃ ps, st.participants = w.participants ++ ps
  /-- The tracker. -/
  tracked : ∀ row ∈ st.tracked, ∀ u ∈ row.toUser, ∃ a, row = freshRow db a

theorem normalizeEmail_lower (db : Database) (email : String) :
    db.culture.lower (normalizeEmail db email) = normalizeEmail db email :=
  db.culture.lower_lower _

/-- Which new accounts an address names. -/
theorem sameText_freshUser {a : String} :
    db.culture.sameText (freshUser db a).email (normalizeEmail db email) = true ↔
      normalizeEmail db a = normalizeEmail db email := by
  rw [freshUser, Database.newUser, Culture.sameText, Option.any_some, decide_eq_true_iff,
    normalizeEmail_lower, normalizeEmail_lower]

/-- The account of an address among new users. -/
theorem findByEmail_append_fresh {users us : List User}
    (hnone : db.findByEmail users (normalizeEmail db email) = none)
    (hus : ∀ u ∈ us, ∃ a, u = freshUser db a ∧ normalizeEmail db a ≠ normalizeEmail db email) :
    db.findByEmail (users ++ us) (normalizeEmail db email) = none := by
  rw [Database.findByEmail, List.findIdx?_append, ← Database.findByEmail, hnone, Option.none_or,
    Option.map_eq_none_iff, List.findIdx?_eq_none_iff]
  intro u hu
  obtain ⟨a, rfl, hne⟩ := hus u hu
  rw [Bool.eq_false_iff.mpr fun h => hne (sameText_freshUser.mp h), Bool.and_false]

/-- The account of another address than the new one's. -/
theorem findByEmail_append_other {users : List User} {a : String}
    (hne : normalizeEmail db email ≠ normalizeEmail db a) :
    db.findByEmail (users ++ [freshUser db email]) (normalizeEmail db a) =
      db.findByEmail users (normalizeEmail db a) := by
  cases hfind : db.findByEmail users (normalizeEmail db a) with
  | none => exact findByEmail_append_fresh hfind (List.forall_mem_singleton.mpr ⟨email, rfl, hne⟩)
  | some userId => exact Database.findByEmail_append hfind

/-- The new account is the one of its address. -/
theorem findByEmail_append_self {users : List User}
    (hnone : db.findByEmail users (normalizeEmail db email) = none) :
    db.findByEmail (users ++ [freshUser db email]) (normalizeEmail db email) =
      some users.length := by
  have hself : db.culture.sameText (freshUser db email).email (normalizeEmail db email) = true :=
    sameText_freshUser.mpr rfl
  rw [Database.findByEmail, List.findIdx?_append, ← Database.findByEmail, hnone, Option.none_or,
    List.findIdx?_singleton, hself]
  exact congrArg some (Nat.zero_add _)

/-- Accounts of other addresses do not stand in the way. -/
theorem Database.Fits.append_fresh {users us : List User} {participants participants' :
    List Participant} (h : db.Fits users participants (freshRow db email))
    (hus : ∀ u ∈ us, ∃ a, u = freshUser db a ∧ normalizeEmail db a ≠ normalizeEmail db email) :
    db.Fits (users ++ us) participants' (freshRow db email) := by
  rw [freshRow, Database.Fits, Database.acceptsUser, Bool.and_eq_true] at h ⊢
  refine ⟨h.1, ?_⟩
  rw [List.all_append, Bool.and_eq_true]
  refine ⟨h.2, List.all_eq_true.mpr fun u hu => ?_⟩
  obtain ⟨a, rfl, hne⟩ := hus u hu
  rw [Bool.eq_false_iff.mpr fun hsame => hne (sameText_freshUser.mp hsame), Bool.and_false,
    Bool.not_false]

/-- To begin with. -/
theorem Grown.nil (db : Database) (w : AccountWorld) (result : ImportParticipantsResultDTO) :
    Grown db w ⟨w.users, w.participants, [], result⟩ :=
  ⟨⟨[], (List.append_nil _).symm, nofun⟩, ⟨[], (List.append_nil _).symm⟩, nofun⟩

/-- A save keeps to it. -/
theorem Grown.save (h : Grown db w st) {rows : List Tracked} {tables : List User × List Participant}
    {result : ImportParticipantsResultDTO}
    (hrows : ∀ row ∈ rows, ∀ u ∈ row.toUser, ∃ a, row = freshRow db a)
    (hsave : db.insertAll rows (st.users, st.participants) = some tables) :
    Grown db w ⟨tables.1, tables.2, [], result⟩ := by
  obtain ⟨us, hus, hall⟩ := h.users
  obtain ⟨ps, hps⟩ := h.participants
  obtain ⟨husers, hparticipants, hfits⟩ := Database.insertAll_eq_some hsave
  refine ⟨⟨us ++ rows.filterMap Tracked.toUser, ?_, ?_⟩,
    ⟨ps ++ rows.filterMap Tracked.toParticipant, ?_⟩, nofun⟩
  · rw [husers, hus, List.append_assoc]
  · refine List.forall_mem_append.mpr ⟨hall, fun u hu => ?_⟩
    obtain ⟨row, hrow, hu⟩ := List.mem_filterMap.mp hu
    obtain ⟨a, rfl⟩ := hrows row hrow u hu
    refine ⟨a, (Option.some.inj hu).symm, ?_⟩
    have haccepts := hfits _ hrow
    rw [hus] at haccepts
    exact Database.acceptsUser_of_append haccepts
  · rw [hparticipants, hps, List.append_assoc]

/-- More that is told to the tracker. -/
theorem forall_tracked_append (h : Grown db w st) (row : Tracked)
    (hrow : ∀ u ∈ row.toUser, ∃ a, row = freshRow db a) :
    ∀ r ∈ st.tracked ++ [row], ∀ u ∈ r.toUser, ∃ a, r = freshRow db a :=
  List.forall_mem_append.mpr ⟨h.tracked, List.forall_mem_singleton.mpr hrow⟩

theorem Grown.participantStep {existing : List ℕ} (h : Grown db w st) (targetUser : ℕ) :
    Grown db w (participantStep db contestId role existing email targetUser st) := by
  have hrows := forall_tracked_append h (.participant contestId targetUser role)
    fun _ hu => nomatch hu
  rw [Accounts.participantStep]
  split
  · exact ⟨h.users, h.participants, h.tracked⟩
  · split
    · exact ⟨h.users, h.participants, hrows⟩
    · next hsave => exact h.save hrows hsave

/-- **One row.** -/
theorem Grown.rowStep {existing : List ℕ} (h : Grown db w st) (email : String) :
    Grown db w (rowStep db contestId role existing st email) := by
  have hrows := forall_tracked_append h (freshRow db email) fun _ _ => ⟨email, rfl⟩
  rw [Accounts.rowStep]
  split
  · exact ⟨h.users, h.participants, h.tracked⟩
  · split
    · have hcount (result : ImportParticipantsResultDTO) :
          Grown db w { st with result := result } := ⟨h.users, h.participants, h.tracked⟩
      exact (hcount _).participantStep _
    · split
      · exact ⟨h.users, h.participants, hrows⟩
      · next hsave => exact Grown.participantStep (h.save hrows hsave) _

/-- **All rows.** -/
theorem Grown.foldl {existing : List ℕ} (h : Grown db w st) (emails : List String) :
    Grown db w (emails.foldl (Accounts.rowStep db contestId role existing) st) := by
  induction emails generalizing st with
  | nil => exact h
  | cons email emails ih =>
      have hstep : Grown db w (Accounts.rowStep db contestId role existing st email) :=
        h.rowStep email
      rw [List.foldl_cons]
      exact ih hstep

/-- An account there was is found. -/
theorem Grown.findByEmail_eq_some (h : Grown db w st) {userId : ℕ}
    (haccount : account db w email = some userId) :
    db.findByEmail st.users (normalizeEmail db email) = some userId := by
  obtain ⟨us, hus, -⟩ := h.users
  rw [hus]
  exact Database.findByEmail_append haccount

end Grown

/-! ### One row -/

section Row

variable {db : Database} {contestId : ℕ} {role : String} {w : AccountWorld} {st : ImportState}
  {email : String} {existing : List ℕ} {targetUser : ℕ}

theorem participantStep_of_mem (h : existing.contains targetUser = true) :
    participantStep db contestId role existing email targetUser st =
      { st with result := { st.result with
          alreadyParticipants := st.result.alreadyParticipants + 1
          existingUsersAdded := st.result.existingUsersAdded - 1 } } :=
  if_pos h

theorem participantStep_of_none (h : existing.contains targetUser = false)
    (hsave : db.insertAll (st.tracked ++ [.participant contestId targetUser role])
      (st.users, st.participants) = none) :
    participantStep db contestId role existing email targetUser st =
      { st with
        tracked := st.tracked ++ [.participant contestId targetUser role]
        result := st.result.fail email } := by
  rw [participantStep, h, hsave]
  rfl

theorem participantStep_of_some {users : List User} {participants : List Participant}
    (h : existing.contains targetUser = false)
    (hsave : db.insertAll (st.tracked ++ [.participant contestId targetUser role])
      (st.users, st.participants) = some (users, participants)) :
    participantStep db contestId role existing email targetUser st =
      ⟨users, participants, [], st.result⟩ := by
  rw [participantStep, h, hsave]
  rfl

theorem rowStep_of_blank (h : blank db email = true) :
    rowStep db contestId role existing st email = { st with result := st.result.fail email } :=
  if_pos h

theorem rowStep_of_some (h : blank db email = false)
    (hfind : db.findByEmail st.users (normalizeEmail db email) = some targetUser) :
    rowStep db contestId role existing st email =
      participantStep db contestId role existing email targetUser { st with result :=
        { st.result with existingUsersAdded := st.result.existingUsersAdded + 1 } } := by
  rw [rowStep, ← blank, h, hfind]
  rfl

theorem rowStep_of_none (h : blank db email = false)
    (hfind : db.findByEmail st.users (normalizeEmail db email) = none)
    (hsave : db.insertAll (st.tracked ++ [freshRow db email]) (st.users, st.participants) = none) :
    rowStep db contestId role existing st email =
      { st with tracked := st.tracked ++ [freshRow db email], result := st.result.fail email } := by
  rw [freshRow] at hsave
  rw [rowStep, ← blank, h, hfind, hsave]
  rfl

theorem rowStep_of_created {tables : List User × List Participant} (h : blank db email = false)
    (hfind : db.findByEmail st.users (normalizeEmail db email) = none)
    (hsave : db.insertAll (st.tracked ++ [freshRow db email]) (st.users, st.participants) =
      some tables) :
    rowStep db contestId role existing st email =
      participantStep db contestId role existing email (tables.1.length - 1)
        ⟨tables.1, tables.2, [],
          { st.result with newUsersCreated := st.result.newUsersCreated + 1 }⟩ := by
  rw [freshRow] at hsave
  rw [rowStep, ← blank, h, hfind, hsave]
  rfl

/-- What was saved of an address that is refused, is refused. -/
theorem Grown.insertAll_eq_none (h : Grown db w st) {rows : List Tracked} {row : Tracked}
    (hrow : row ∈ rows) (hfits : ¬db.Fits w.users w.participants row) :
    db.insertAll rows (st.users, st.participants) = none := by
  obtain ⟨us, hus, -⟩ := h.users
  obtain ⟨ps, hps⟩ := h.participants
  refine Database.insertAll_eq_none hrow fun hst => hfits ?_
  rw [hus, hps] at hst
  exact hst.of_append

/-- The tracker holds a row that can never be saved. -/
def Stuck (db : Database) (w : AccountWorld) (tracked : List Tracked) : Prop :=
  ∃ row ∈ tracked, ¬db.Fits w.users w.participants row

theorem Stuck.append {tracked : List Tracked} (h : Stuck db w tracked) (more : List Tracked) :
    Stuck db w (tracked ++ more) :=
  have ⟨row, hrow, hfits⟩ := h
  ⟨row, List.mem_append_left _ hrow, hfits⟩

/-- A row whose account takes part already. -/
theorem rowStep_of_already (h : Grown db w st) (halready : already db contestId w email = true) :
    rowStep db contestId role (participantIds contestId w.participants) st email =
      { st with result :=
          { st.result with alreadyParticipants := st.result.alreadyParticipants + 1 } } := by
  rw [already, Bool.and_eq_true, Bool.not_eq_true'] at halready
  obtain ⟨targetUser, haccount, hmem⟩ := (Option.any_eq_true _ _).mp halready.2
  rw [rowStep_of_some halready.1 (h.findByEmail_eq_some haccount), participantStep_of_mem hmem]
  simp only [Int.add_sub_cancel]

/-- What is known of a row that is refused. -/
theorem refused_iff : refused db w email = true ↔
    blank db email = false ∧ account db w email = none ∧
      ¬db.Fits w.users w.participants (freshRow db email) := by
  rw [refused, Bool.and_eq_true, Bool.and_eq_true, Bool.not_eq_true', Bool.not_eq_true',
    Option.isNone_iff_eq_none, and_assoc]
  exact and_congr_right fun _ => and_congr_right fun _ => Bool.eq_false_iff

/-- Nobody else makes an account of an address that is refused. -/
theorem Grown.findByEmail_refused (h : Grown db w st) (hrefused : refused db w email = true) :
    db.findByEmail st.users (normalizeEmail db email) = none := by
  obtain ⟨-, haccount, hfits⟩ := refused_iff.mp hrefused
  obtain ⟨us, hus, hall⟩ := h.users
  rw [hus]
  refine findByEmail_append_fresh haccount fun u hu => ?_
  obtain ⟨a, rfl, haccepts⟩ := hall u hu
  refine ⟨a, rfl, fun heq => hfits ?_⟩
  rw [heq] at haccepts
  exact haccepts

/-- A row that is refused. -/
theorem rowStep_of_refused (h : Grown db w st) (hrefused : refused db w email = true) :
    rowStep db contestId role existing st email =
      { st with tracked := st.tracked ++ [freshRow db email], result := st.result.fail email } := by
  obtain ⟨hblank, -, hfits⟩ := refused_iff.mp hrefused
  exact rowStep_of_none hblank (h.findByEmail_refused hrefused)
    (h.insertAll_eq_none (List.mem_append_right _ (List.mem_singleton_self _)) hfits)

/-- What is known of a row that would add somebody. -/
theorem addable_iff : addable db contestId w email = true ↔
    blank db email = false ∧
      (∀ userId, account db w email = some userId →
        userId ∉ participantIds contestId w.participants) ∧
      (account db w email = none → db.Fits w.users w.participants (freshRow db email)) := by
  rw [addable, Bool.and_eq_true, Bool.and_eq_true, Bool.not_eq_true', Bool.not_eq_true',
    Bool.not_eq_true', and_assoc]
  refine and_congr_right fun hblank => ?_
  rw [already, refused, hblank]
  cases account db w email with
  | none =>
      simp only [Option.any_none, Option.isNone_none]
      constructor
      · rintro ⟨-, h⟩
        refine ⟨nofun, fun _ => ?_⟩
        simpa [Database.Fits, freshRow] using h
      · rintro ⟨-, h⟩
        refine ⟨rfl, ?_⟩
        simpa [Database.Fits, freshRow] using h
  | some userId =>
      simp

/-- An account that an addable row finds does not take part. -/
theorem Grown.notMem_of_addable (h : Grown db w st) (hfk : Referenced contestId w)
    (haddable : addable db contestId w email = true)
    (hfind : db.findByEmail st.users (normalizeEmail db email) = some targetUser) :
    targetUser ∉ participantIds contestId w.participants := by
  obtain ⟨-, hnotMem, -⟩ := addable_iff.mp haddable
  cases haccount : account db w email with
  | some userId =>
      rw [h.findByEmail_eq_some haccount] at hfind
      exact Option.some.inj hfind ▸ hnotMem userId haccount
  | none =>
      -- it is one of the new accounts
      intro hmem
      obtain ⟨us, hus, -⟩ := h.users
      rw [account, Database.findByEmail] at haccount
      rw [hus, Database.findByEmail, List.findIdx?_append, haccount, Option.none_or,
        Option.map_eq_some_iff] at hfind
      obtain ⟨i, -, rfl⟩ := hfind
      exact absurd (hfk _ hmem) (by omega)

theorem contains_eq_false {l : List ℕ} {n : ℕ} (h : n ∉ l) : l.contains n = false :=
  Bool.eq_false_iff.mpr fun hmem => h (List.contains_iff_mem.mp hmem)

/-- **Once the tracker is stuck**, a row that would add somebody fails. -/
theorem rowStep_of_stuck (role : String) (h : Grown db w st) (hfk : Referenced contestId w)
    (hstuck : Stuck db w st.tracked) (haddable : addable db contestId w email = true) :
    ∃ tracked result,
      rowStep db contestId role (participantIds contestId w.participants) st email =
        { st with tracked := tracked, result := result } ∧
      Stuck db w tracked ∧ result.failedEmails = st.result.failedEmails ++ [email] ∧
      (db.findByEmail st.users (normalizeEmail db email) = none →
        result = st.result.fail email) := by
  obtain ⟨row, hrow, hfits⟩ := hstuck
  have hfail (more : List Tracked) :
      db.insertAll (st.tracked ++ more) (st.users, st.participants) = none :=
    h.insertAll_eq_none (List.mem_append_left _ hrow) hfits
  have hblank := (addable_iff.mp haddable).1
  cases hfind : db.findByEmail st.users (normalizeEmail db email) with
  | none =>
      exact ⟨_, _, rowStep_of_none hblank hfind (hfail _), Stuck.append ⟨row, hrow, hfits⟩ _, rfl,
        fun _ => rfl⟩
  | some targetUser =>
      have hnotMem := contains_eq_false (h.notMem_of_addable hfk haddable hfind)
      exact ⟨_, _, (rowStep_of_some hblank hfind).trans (participantStep_of_none hnotMem (hfail _)),
        Stuck.append ⟨row, hrow, hfits⟩ _, rfl, nofun⟩

end Row

/-! ### Rows that can be served -/

section Serve

variable {db : Database} {contestId : ℕ} {role : String} {w : AccountWorld} {st : ImportState}
  {email : String} {userId : ℕ} {users : List User} {participants : List Participant}

/-- What the account of an address is. -/
theorem Database.exists_of_findByEmail (h : db.findByEmail users email = some userId) :
    ∃ u, users[userId]? = some u ∧ u.visible = true ∧ db.culture.sameText u.email email = true := by
  obtain ⟨hlt, hu, -⟩ := List.findIdx?_eq_some_iff_getElem.mp h
  exact ⟨_, List.getElem?_eq_getElem hlt, Bool.and_eq_true_iff.mp hu⟩

/-- An account has one address. -/
theorem eq_of_findByEmail {email' : String}
    (h : db.findByEmail users (normalizeEmail db email) = some userId)
    (h' : db.findByEmail users (normalizeEmail db email') = some userId) :
    normalizeEmail db email = normalizeEmail db email' := by
  obtain ⟨u, hu, -, hemail⟩ := Database.exists_of_findByEmail h
  obtain ⟨u', hu', -, hemail'⟩ := Database.exists_of_findByEmail h'
  obtain rfl := Option.some.inj (hu.symm.trans hu')
  obtain ⟨t, ht, hsame⟩ := (Option.any_eq_true _ _).mp hemail
  obtain ⟨t', ht', hsame'⟩ := (Option.any_eq_true _ _).mp hemail'
  obtain rfl := Option.some.inj (ht.symm.trans ht')
  have heq := (of_decide_eq_true hsame).symm.trans (of_decide_eq_true hsame')
  rwa [normalizeEmail_lower, normalizeEmail_lower] at heq

theorem mem_participantIds : userId ∈ participantIds contestId participants ↔
    ∃ q ∈ participants, q.contestId = contestId ∧ q.userId = userId := by
  simp [participantIds, and_assoc]

theorem participantIds_append (ps : List Participant) :
    participantIds contestId (participants ++ ps) =
      participantIds contestId participants ++ participantIds contestId ps := by
  rw [participantIds, List.filter_append, List.map_append, participantIds, participantIds]

/-- A participant that is not there yet is inserted. -/
theorem Database.insert_participant (hrole : db.refusesRole role = false)
    (hvisible : users[userId]?.any User.visible = true)
    (hfree : userId ∉ participantIds contestId participants) :
    db.insertAll [.participant contestId userId role] (users, participants) =
      some (users, participants ++ [⟨contestId, userId, role⟩]) := by
  rw [Database.insertAll_singleton, Database.insert, if_pos]
  rw [Database.acceptsParticipant, hrole, hvisible, Bool.not_false, Bool.true_and, Bool.true_and,
    List.all_eq_true]
  intro q hq
  rw [Bool.not_eq_true', ← Bool.decide_and, decide_eq_false_iff_not]
  exact fun hboth => hfree (mem_participantIds.mpr ⟨q, hq, hboth⟩)

/-- **An account there is** gets into the contest. -/
theorem rowStep_joins (hblank : blank db email = false) (hrole : db.refusesRole role = false)
    (hclean : st.tracked = [])
    (hfind : db.findByEmail st.users (normalizeEmail db email) = some userId)
    (hnotMem : userId ∉ participantIds contestId w.participants)
    (hfree : userId ∉ participantIds contestId st.participants) :
    rowStep db contestId role (participantIds contestId w.participants) st email =
      ⟨st.users, st.participants ++ [⟨contestId, userId, role⟩], [],
        { st.result with existingUsersAdded := st.result.existingUsersAdded + 1 }⟩ := by
  obtain ⟨u, hu, hvisible, -⟩ := Database.exists_of_findByEmail hfind
  have hinsert : db.insertAll (st.tracked ++ [.participant contestId userId role])
      (st.users, st.participants) =
        some (st.users, st.participants ++ [⟨contestId, userId, role⟩]) := by
    rw [hclean, List.nil_append]
    exact Database.insert_participant hrole (by rw [hu]; exact hvisible) hfree
  rw [rowStep_of_some hblank hfind]
  exact participantStep_of_some (contains_eq_false hnotMem) hinsert

/-- **A new account** gets into the contest. -/
theorem rowStep_creates (hblank : blank db email = false) (hrole : db.refusesRole role = false)
    (hclean : st.tracked = [])
    (hfind : db.findByEmail st.users (normalizeEmail db email) = none)
    (hfits : db.Fits st.users st.participants (freshRow db email))
    (hnotMem : st.users.length ∉ participantIds contestId w.participants)
    (hfree : st.users.length ∉ participantIds contestId st.participants) :
    rowStep db contestId role (participantIds contestId w.participants) st email =
      ⟨st.users ++ [freshUser db email],
        st.participants ++ [⟨contestId, st.users.length, role⟩], [],
        { st.result with newUsersCreated := st.result.newUsersCreated + 1 }⟩ := by
  have hinsert : db.insertAll (st.tracked ++ [freshRow db email]) (st.users, st.participants) =
      some (st.users ++ [freshUser db email], st.participants) := by
    rw [hclean, List.nil_append, Database.insertAll_singleton]
    exact if_pos hfits
  have hlength : (st.users ++ [freshUser db email]).length - 1 = st.users.length := by
    rw [List.length_append, List.length_singleton, Nat.add_sub_cancel]
  have hjoin : db.insertAll ([] ++ [.participant contestId st.users.length role])
      (st.users ++ [freshUser db email], st.participants) = some (st.users ++ [freshUser db email],
        st.participants ++ [⟨contestId, st.users.length, role⟩]) := by
    refine Database.insert_participant hrole ?_ hfree
    rw [List.getElem?_append_right (Nat.le_refl _), Nat.sub_self]
    rfl
  rw [rowStep_of_created hblank hfind hinsert, hlength,
    participantStep_of_some (contains_eq_false hnotMem) hjoin]

end Serve

/-! ### Rows that come in the right order -/

/-- **What the rows so far have done.** -/
structure Done (db : Database) (contestId : ℕ) (role : String) (w : AccountWorld)
    (pre : List String) (st : ImportState) : Prop where
  /-- The tables have grown. -/
  grown : Grown db w st
  /-- The users. -/
  users : st.users = w.users ++ (pre.filter (creates db contestId role w)).map (freshUser db)
  /-- Who takes part. -/
  participants : ∀ userId, userId ∈ participantIds contestId st.participants ↔
    userId ∈ participantIds contestId w.participants ∨
      ∃ a ∈ pre, valid db contestId role w a = true ∧
        db.findByEmail st.users (normalizeEmail db a) = some userId
  /-- The tracker, as long as nothing was refused. -/
  clean : (∀ a ∈ pre, refused db w a = false) → st.tracked = []
  /-- The tracker, once something was. -/
  stuck : (∃ a ∈ pre, refused db w a = true) → Stuck db w st.tracked
  /-- The counters. -/
  newUsers : st.result.newUsersCreated = pre.countP (creates db contestId role w)
  existingUsers : st.result.existingUsersAdded = pre.countP (joins db contestId role w)
  alreadyParticipants : st.result.alreadyParticipants = pre.countP (already db contestId w)
  failed : st.result.failedEmails = pre.filter fun a => !valid db contestId role w a

section Done

variable {db : Database} {contestId : ℕ} {role : String} {w : AccountWorld} {st : ImportState}
  {email : String} {pre : List String}

/-- What is known of the kinds. -/
theorem kinds_of_not_addable (role : String) (h : addable db contestId w email = false) :
    creates db contestId role w email = false ∧ joins db contestId role w email = false ∧
      valid db contestId role w email = already db contestId w email := by
  simp [creates, joins, valid, h]

theorem already_eq_false_of_addable (h : addable db contestId w email = true) :
    already db contestId w email = false := by
  rw [addable, Bool.and_eq_true, Bool.and_eq_true, Bool.not_eq_true', Bool.not_eq_true'] at h
  exact h.1.2

theorem refused_eq_false_of_addable (h : addable db contestId w email = true) :
    refused db w email = false := by
  rw [addable, Bool.and_eq_true, Bool.not_eq_true'] at h
  exact h.2

theorem refused_eq_false_of_already (h : already db contestId w email = true) :
    refused db w email = false := by
  rw [already, Bool.and_eq_true] at h
  obtain ⟨userId, haccount, -⟩ := (Option.any_eq_true _ _).mp h.2
  simp [refused, haccount]

theorem already_eq_false_of_refused (h : refused db w email = true) :
    already db contestId w email = false := by
  by_contra halready
  rw [refused_eq_false_of_already (Bool.not_eq_false _ ▸ halready)] at h
  cases h

/-- Rows with the same address are of the same kinds. -/
theorem valid_congr {a : String} (h : normalizeEmail db a = normalizeEmail db email) :
    valid db contestId role w a = valid db contestId role w email := by
  simp only [valid, addable, already, refused, blank, account, h]

theorem addable_congr {a : String} (h : normalizeEmail db a = normalizeEmail db email) :
    addable db contestId w a = addable db contestId w email := by
  simp only [addable, already, refused, blank, account, h]

/-- A row that leaves the tables as they are. -/
theorem Done.quiet (h : Done db contestId role w pre st) (tracked : List Tracked)
    (hgrown : Grown db w { st with tracked := tracked })
    (hcreates : creates db contestId role w email = false)
    (hjoins : joins db contestId role w email = false)
    (hvalid : valid db contestId role w email = already db contestId w email)
    (hclean : refused db w email = false → (∀ a ∈ pre, refused db w a = false) → tracked = [])
    (hstuck : refused db w email = true ∨ (∃ a ∈ pre, refused db w a = true) →
      Stuck db w tracked) :
    Done db contestId role w (pre ++ [email]) { st with
      tracked := tracked
      result := if already db contestId w email = true then
          { st.result with alreadyParticipants := st.result.alreadyParticipants + 1 }
        else st.result.fail email } := by
  constructor
  case grown => exact ⟨hgrown.users, hgrown.participants, hgrown.tracked⟩
  case users =>
    rw [List.filter_append, List.filter_singleton, hcreates]
    exact h.users.trans (congrArg _ (congrArg _ (List.append_nil _).symm))
  case participants =>
    intro userId
    refine (h.participants userId).trans ?_
    constructor
    · rintro (hmem | ⟨a, ha, hrest⟩)
      · exact .inl hmem
      · exact .inr ⟨a, List.mem_append_left _ ha, hrest⟩
    · rintro (hmem | ⟨a, ha, hserved, hfind⟩)
      · exact .inl hmem
      · obtain ha | ha := List.mem_append.mp ha
        · exact .inr ⟨a, ha, hserved, hfind⟩
        · -- its account takes part already
          obtain rfl := List.mem_singleton.mp ha
          rw [hvalid, already, Bool.and_eq_true] at hserved
          obtain ⟨target, haccount, hmem⟩ := (Option.any_eq_true _ _).mp hserved.2
          change db.findByEmail st.users _ = some userId at hfind
          rw [h.grown.findByEmail_eq_some haccount] at hfind
          exact .inl (Option.some.inj hfind ▸ List.contains_iff_mem.mp hmem)
  case clean =>
    intro hnone
    exact hclean (hnone email (List.mem_append_right _ (List.mem_singleton_self _)))
      fun a ha => hnone a (List.mem_append_left _ ha)
  case stuck =>
    rintro ⟨a, ha, hrefused⟩
    obtain ha | ha := List.mem_append.mp ha
    · exact hstuck (.inr ⟨a, ha, hrefused⟩)
    · exact hstuck (.inl (List.mem_singleton.mp ha ▸ hrefused))
  case newUsers =>
    rw [List.countP_append, List.countP_singleton, hcreates, ← h.newUsers]
    split <;> rfl
  case existingUsers =>
    rw [List.countP_append, List.countP_singleton, hjoins]
    refine Eq.trans ?_ h.existingUsers
    split <;> rfl
  case alreadyParticipants =>
    rw [List.countP_append, List.countP_singleton, ← h.alreadyParticipants]
    split <;> rfl
  case failed =>
    rw [List.filter_append, List.filter_singleton, hvalid, ← h.failed]
    cases already db contestId w email with
    | true => exact (List.append_nil _).symm
    | false => rfl

/-- A row without an address. -/
theorem Done.rowStep_blank (h : Done db contestId role w pre st)
    (hblank : blank db email = true) :
    Done db contestId role w (pre ++ [email])
      (rowStep db contestId role (participantIds contestId w.participants) st email) := by
  have haddable : addable db contestId w email = false := by rw [addable, hblank]; rfl
  have halready : already db contestId w email = false := by rw [already, hblank]; rfl
  have hrefused : refused db w email = false := by rw [refused, hblank]; rfl
  obtain ⟨hcreates, hjoins, hvalid⟩ := kinds_of_not_addable role haddable
  have hquiet := h.quiet st.tracked h.grown hcreates hjoins hvalid
    (fun _ => h.clean) (fun hor => h.stuck (hor.resolve_left (by rw [hrefused]; nofun)))
  rw [halready] at hquiet
  rw [rowStep_of_blank hblank]
  exact hquiet

/-- A row whose account takes part already. -/
theorem Done.rowStep_already (h : Done db contestId role w pre st)
    (halready : already db contestId w email = true) :
    Done db contestId role w (pre ++ [email])
      (rowStep db contestId role (participantIds contestId w.participants) st email) := by
  have haddable : addable db contestId w email = false := by
    rw [addable, halready, Bool.not_true, Bool.and_false, Bool.false_and]
  have hrefused := refused_eq_false_of_already halready
  obtain ⟨hcreates, hjoins, hvalid⟩ := kinds_of_not_addable role haddable
  have hquiet := h.quiet st.tracked h.grown hcreates hjoins hvalid
    (fun _ => h.clean) (fun hor => h.stuck (hor.resolve_left (by rw [hrefused]; nofun)))
  rw [halready] at hquiet
  rw [rowStep_of_already h.grown halready]
  exact hquiet

/-- A row that is refused. -/
theorem Done.rowStep_refused (h : Done db contestId role w pre st)
    (hrefused : refused db w email = true) :
    Done db contestId role w (pre ++ [email])
      (rowStep db contestId role (participantIds contestId w.participants) st email) := by
  have haddable : addable db contestId w email = false := by
    rw [addable, hrefused, Bool.not_true, Bool.and_false]
  obtain ⟨hcreates, hjoins, hvalid⟩ := kinds_of_not_addable role haddable
  have hgrown : Grown db w { st with tracked := st.tracked ++ [freshRow db email] } :=
    ⟨h.grown.users, h.grown.participants,
      forall_tracked_append h.grown (freshRow db email) fun _ _ => ⟨email, rfl⟩⟩
  have hquiet := h.quiet _ hgrown hcreates hjoins hvalid (by rw [hrefused]; nofun)
    fun _ => ⟨_, List.mem_append_right _ (List.mem_singleton_self _),
      (refused_iff.mp hrefused).2.2⟩
  rw [already_eq_false_of_refused hrefused] at hquiet
  rw [rowStep_of_refused h.grown hrefused]
  exact hquiet

/-- A row whose role is refused, after one that is refused. -/
theorem Done.rowStep_stuck (h : Done db contestId role w pre st) (hfk : Referenced contestId w)
    (hrole : db.refusesRole role = true) (haddable : addable db contestId w email = true)
    (haccount : account db w email = none) (hstuck : ∃ a ∈ pre, refused db w a = true) :
    Done db contestId role w (pre ++ [email])
      (rowStep db contestId role (participantIds contestId w.participants) st email) := by
  have halready := already_eq_false_of_addable haddable
  have hvalid : valid db contestId role w email = false := by
    rw [valid, halready, haddable, hrole]
    rfl
  have hnone (a : String) : creates db contestId role w a = false := by
    cases ha : addable db contestId w a with
    | true => simp [creates, valid, already_eq_false_of_addable ha, hrole]
    | false => exact (kinds_of_not_addable role ha).1
  have husers : st.users = w.users := by
    rw [h.users, List.filter_eq_nil_iff.mpr fun a _ => Bool.not_eq_true _ ▸ hnone a]
    exact List.append_nil _
  obtain ⟨tracked, result, hstep, hstuck', -, hresult⟩ :=
    rowStep_of_stuck role h.grown hfk (h.stuck hstuck) haddable
  have hgrown : Grown db w { st with tracked := tracked, result := result } :=
    hstep ▸ h.grown.rowStep email
  have hquiet := h.quiet tracked ⟨hgrown.users, hgrown.participants, hgrown.tracked⟩
    (hnone email) (by rw [joins, hvalid]; rfl) (hvalid.trans halready.symm)
    (fun _ hclean => absurd hstuck fun ⟨a, ha, hrefused⟩ => by
      rw [hclean a ha] at hrefused
      cases hrefused)
    fun _ => hstuck'
  rw [halready] at hquiet
  rw [hstep, hresult (husers ▸ haccount)]
  exact hquiet

/-- A row that adds somebody. -/
theorem Done.adds {st' : ImportState} {userId : ℕ} (h : Done db contestId role w pre st)
    (hgrown : Grown db w st') (hserved : valid db contestId role w email = true)
    (haddable : addable db contestId w email = true)
    (hunrefused : ∀ a ∈ pre, refused db w a = false)
    (husers : st'.users =
      st.users ++ ([email].filter (creates db contestId role w)).map (freshUser db))
    (hparticipants : st'.participants = st.participants ++ [⟨contestId, userId, role⟩])
    (htracked : st'.tracked = [])
    (hfind : db.findByEmail st'.users (normalizeEmail db email) = some userId)
    (hothers : ∀ a ∈ pre, valid db contestId role w a = true →
      db.findByEmail st'.users (normalizeEmail db a) =
        db.findByEmail st.users (normalizeEmail db a))
    (hnew : st'.result.newUsersCreated =
      st.result.newUsersCreated + if creates db contestId role w email = true then 1 else 0)
    (hexisting : st'.result.existingUsersAdded =
      st.result.existingUsersAdded + if joins db contestId role w email = true then 1 else 0)
    (halready : st'.result.alreadyParticipants = st.result.alreadyParticipants)
    (hfailed : st'.result.failedEmails = st.result.failedEmails) :
    Done db contestId role w (pre ++ [email]) st' := by
  constructor
  case grown => exact hgrown
  case users => rw [husers, List.filter_append, List.map_append, ← List.append_assoc, ← h.users]
  case participants =>
    intro userId'
    have hone : participantIds contestId [⟨contestId, userId, role⟩] = [userId] := by
      simp [participantIds]
    rw [hparticipants, participantIds_append, hone, List.mem_append, h.participants, or_assoc]
    refine or_congr_right ?_
    constructor
    · rintro (⟨a, ha, hvalid, hfound⟩ | hmem)
      · exact ⟨a, List.mem_append_left _ ha, hvalid, (hothers a ha hvalid).trans hfound⟩
      · obtain rfl := List.mem_singleton.mp hmem
        exact ⟨email, List.mem_append_right _ (List.mem_singleton_self _), hserved, hfind⟩
    · rintro ⟨a, ha, hvalid, hfound⟩
      obtain ha | ha := List.mem_append.mp ha
      · exact .inl ⟨a, ha, hvalid, (hothers a ha hvalid).symm.trans hfound⟩
      · obtain rfl := List.mem_singleton.mp ha
        rw [hfind] at hfound
        exact .inr (List.mem_singleton.mpr (Option.some.inj hfound).symm)
  case clean => exact fun _ => htracked
  case stuck =>
    rintro ⟨a, ha, hrefused⟩
    obtain ha | ha := List.mem_append.mp ha
    · rw [hunrefused a ha] at hrefused
      cases hrefused
    · obtain rfl := List.mem_singleton.mp ha
      rw [refused_eq_false_of_addable haddable] at hrefused
      cases hrefused
  case newUsers => rw [List.countP_append, List.countP_singleton, ← h.newUsers, ← hnew]
  case existingUsers =>
    rw [List.countP_append, List.countP_singleton, hexisting, h.existingUsers]
    split <;> rfl
  case alreadyParticipants =>
    rw [List.countP_append, List.countP_singleton, already_eq_false_of_addable haddable,
      ← h.alreadyParticipants]
    exact halready
  case failed =>
    rw [List.filter_append, List.filter_singleton, hserved, ← h.failed]
    exact hfailed.trans (List.append_nil _).symm

/-- **A row that adds an account there is.** -/
theorem Done.rowStep_joins (h : Done db contestId role w pre st)
    (hrole : db.refusesRole role = false) (haddable : addable db contestId w email = true)
    (hunrefused : ∀ a ∈ pre, refused db w a = false)
    (hfirst : ∀ a ∈ pre, addable db contestId w a = true →
      normalizeEmail db a ≠ normalizeEmail db email)
    {userId : ℕ} (haccount : account db w email = some userId) :
    Done db contestId role w (pre ++ [email])
      (rowStep db contestId role (participantIds contestId w.participants) st email) := by
  obtain ⟨hblank, hnotMem, -⟩ := addable_iff.mp haddable
  have hfind := h.grown.findByEmail_eq_some haccount
  have hserved : valid db contestId role w email = true := by
    rw [valid, haddable, hrole]
    exact Bool.or_true _
  have hcreates : creates db contestId role w email = false := by
    rw [creates, haccount]
    exact Bool.and_false _
  have hjoins : joins db contestId role w email = true := by
    rw [joins, hserved, haddable, haccount]
    rfl
  have hfree : userId ∉ participantIds contestId st.participants := by
    rw [h.participants]
    rintro (hmem | ⟨a, ha, hvalid, hfound⟩)
    · exact hnotMem userId haccount hmem
    · have hsame := eq_of_findByEmail hfound hfind
      exact hfirst a ha ((addable_congr hsame).trans haddable) hsame
  have hstep :=
    Accounts.rowStep_joins hblank hrole (h.clean hunrefused) hfind (hnotMem userId haccount) hfree
  have hgrown : Grown db w
      (rowStep db contestId role (participantIds contestId w.participants) st email) :=
    h.grown.rowStep email
  rw [hstep] at hgrown ⊢
  refine h.adds hgrown hserved haddable hunrefused ?_ rfl rfl hfind (fun _ _ _ => rfl) ?_ ?_ rfl rfl
  · rw [List.filter_singleton, hcreates]
    exact (List.append_nil _).symm
  · rw [hcreates]
    rfl
  · rw [hjoins]
    rfl

/-- **A row that adds a new account.** -/
theorem Done.rowStep_creates (h : Done db contestId role w pre st) (hfk : Referenced contestId w)
    (hrole : db.refusesRole role = false) (haddable : addable db contestId w email = true)
    (hunrefused : ∀ a ∈ pre, refused db w a = false)
    (hfirst : ∀ a ∈ pre, addable db contestId w a = true →
      normalizeEmail db a ≠ normalizeEmail db email)
    (haccount : account db w email = none) :
    Done db contestId role w (pre ++ [email])
      (rowStep db contestId role (participantIds contestId w.participants) st email) := by
  obtain ⟨hblank, -, hfits⟩ := addable_iff.mp haddable
  have hserved : valid db contestId role w email = true := by
    rw [valid, haddable, hrole]
    exact Bool.or_true _
  have hcreates : creates db contestId role w email = true := by
    rw [creates, hserved, haddable, haccount]
    rfl
  have hjoins : joins db contestId role w email = false := by
    rw [joins, haccount]
    exact Bool.and_false _
  -- the accounts that were created have other addresses
  have hothers : ∀ u ∈ (pre.filter (creates db contestId role w)).map (freshUser db),
      ∃ a, u = freshUser db a ∧ normalizeEmail db a ≠ normalizeEmail db email := by
    intro u hu
    obtain ⟨a, ha, rfl⟩ := List.mem_map.mp hu
    obtain ⟨hmem, hcreated⟩ := List.mem_filter.mp ha
    rw [creates, Bool.and_eq_true, Bool.and_eq_true] at hcreated
    exact ⟨a, rfl, hfirst a hmem hcreated.1.2⟩
  have hfind : db.findByEmail st.users (normalizeEmail db email) = none := by
    rw [h.users]
    exact findByEmail_append_fresh haccount hothers
  have haccepts : db.Fits st.users st.participants (freshRow db email) := by
    rw [h.users]
    exact (hfits haccount).append_fresh hothers
  have hlength : w.users.length ≤ st.users.length := by
    rw [h.users, List.length_append]
    exact Nat.le_add_right _ _
  have hnotMem : st.users.length ∉ participantIds contestId w.participants := fun hmem =>
    absurd (hfk _ hmem) (Nat.not_lt.mpr hlength)
  have hfree : st.users.length ∉ participantIds contestId st.participants := by
    rw [h.participants]
    rintro (hmem | ⟨a, -, -, hfound⟩)
    · exact hnotMem hmem
    · exact absurd (Database.lt_of_findByEmail hfound) (Nat.lt_irrefl _)
  have hstep :=
    Accounts.rowStep_creates hblank hrole (h.clean hunrefused) hfind haccepts hnotMem hfree
  have hgrown : Grown db w
      (rowStep db contestId role (participantIds contestId w.participants) st email) :=
    h.grown.rowStep email
  rw [hstep] at hgrown ⊢
  refine h.adds hgrown hserved haddable hunrefused ?_ rfl rfl ?_ ?_ ?_ ?_ rfl rfl
  · rw [List.filter_singleton, hcreates]
    rfl
  · exact findByEmail_append_self hfind
  · intro a ha hvalid
    refine findByEmail_append_other fun hsame => ?_
    exact hfirst a ha ((addable_congr hsame.symm).trans haddable) hsame.symm
  · rw [hcreates]
    rfl
  · rw [hjoins]
    exact (Int.add_zero _).symm

/-- **One row** that comes in the right place. -/
theorem Done.rowStep (h : Done db contestId role w pre st) (hfk : Referenced contestId w)
    (hfirst : ComesFirst db contestId role w pre email) :
    Done db contestId role w (pre ++ [email])
      (rowStep db contestId role (participantIds contestId w.participants) st email) := by
  by_cases haddable : addable db contestId w email = true
  case pos =>
    have hfirst := hfirst haddable
    cases hrole : db.refusesRole role with
    | true =>
        rw [hrole, if_pos rfl] at hfirst
        exact h.rowStep_stuck hfk hrole haddable hfirst.1 hfirst.2
    | false =>
        rw [hrole, if_neg Bool.false_ne_true] at hfirst
        have hunrefused : ∀ a ∈ pre, refused db w a = false := fun a ha => (hfirst a ha).1
        have hdistinct : ∀ a ∈ pre, addable db contestId w a = true →
            normalizeEmail db a ≠ normalizeEmail db email := fun a ha => (hfirst a ha).2
        cases haccount : account db w email with
        | none => exact h.rowStep_creates hfk hrole haddable hunrefused hdistinct haccount
        | some userId => exact h.rowStep_joins hrole haddable hunrefused hdistinct haccount
  case neg =>
    cases hblank : blank db email with
    | true => exact h.rowStep_blank hblank
    | false =>
        cases halready : already db contestId w email with
        | true => exact h.rowStep_already halready
        | false =>
            refine h.rowStep_refused ?_
            rw [addable, hblank, halready] at haddable
            simpa using haddable

/-- Before the first row. -/
theorem Done.nil (totalEmails : ℕ) : Done db contestId role w []
    ⟨w.users, w.participants, [], noneImported totalEmails⟩ where
  grown := .nil db w _
  users := (List.append_nil _).symm
  participants userId := by simp
  clean _ := rfl
  stuck := by rintro ⟨a, ha, -⟩; cases ha
  newUsers := rfl
  existingUsers := rfl
  alreadyParticipants := rfl
  failed := rfl

theorem EachFirst.of_append {post : List String}
    (h : EachFirst db contestId role w (pre ++ post)) : EachFirst db contestId role w pre := by
  intro pre' email' post' heq
  refine h pre' email' (post' ++ post) ?_
  rw [heq, List.append_assoc, List.cons_append]

theorem EachFirst.last (h : EachFirst db contestId role w (pre ++ [email])) :
    ComesFirst db contestId role w pre email := h pre email [] rfl

/-- **All rows.** -/
theorem Done.foldl {emails : List String} (hfk : Referenced contestId w)
    (hfirst : EachFirst db contestId role w emails) (totalEmails : ℕ) :
    Done db contestId role w emails
      (emails.foldl (Accounts.rowStep db contestId role (participantIds contestId w.participants))
        ⟨w.users, w.participants, [], noneImported totalEmails⟩) := by
  induction emails using List.reverseRecOn with
  | nil => exact .nil totalEmails
  | append_singleton pre email ih =>
      rw [List.foldl_append, List.foldl_cons, List.foldl_nil]
      have ih := ih hfirst.of_append
      generalize List.foldl _ _ pre = st at ih ⊢
      exact ih.rowStep hfk hfirst.last

/-- Rows that add somebody have distinct addresses. -/
theorem EachFirst.nodup {emails : List String} (h : EachFirst db contestId role w emails)
    (hrole : db.refusesRole role = false) :
    ((emails.filter (addable db contestId w)).map (normalizeEmail db)).Nodup := by
  induction emails using List.reverseRecOn with
  | nil => exact List.nodup_nil
  | append_singleton pre email ih =>
      have ih := ih h.of_append
      rw [List.filter_append, List.filter_singleton]
      cases haddable : addable db contestId w email with
      | false =>
          simpa using ih
      | true =>
          have hfirst := h.last haddable
          rw [hrole, if_neg Bool.false_ne_true] at hfirst
          rw [List.map_append]
          refine ih.append (List.nodup_singleton _) fun address hpre hlast => ?_
          obtain ⟨a, ha, rfl⟩ := List.mem_map.mp hpre
          obtain ⟨hmem, ha⟩ := List.mem_filter.mp ha
          exact (hfirst a hmem).2 ha (List.mem_singleton.mp hlast)

/-- An addable row can be served, unless the role is refused. -/
theorem valid_of_addable (h : addable db contestId w email = true) :
    valid db contestId role w email = !db.refusesRole role := by
  rw [valid, already_eq_false_of_addable h, h, Bool.false_or, Bool.true_and]

/-- What a kind of rows has in common that adds somebody. -/
theorem addable_of_valid_and {b : Bool}
    (h : (valid db contestId role w email && addable db contestId w email && b) = true) :
    addable db contestId w email = true ∧ db.refusesRole role = false := by
  rw [Bool.and_eq_true, Bool.and_eq_true] at h
  obtain ⟨⟨hvalid, haddable⟩, -⟩ := h
  rw [valid_of_addable haddable, Bool.not_eq_true'] at hvalid
  exact ⟨haddable, hvalid⟩

/-- Nobody is added whose role is refused. -/
theorem addresses_eq_nil {kind : String → Bool} {emails : List String}
    (hrole : db.refusesRole role = true)
    (hkind : ∀ a, kind a = true → addable db contestId w a = true ∧ db.refusesRole role = false) :
    addresses db kind emails = [] := by
  have hnone : ∀ a ∈ emails, ¬kind a = true := fun a _ ha => by
    rw [(hkind a ha).2] at hrole
    cases hrole
  rw [addresses, List.filter_eq_nil_iff.mpr hnone]
  rfl

/-- Rows that add somebody are counted by their addresses. -/
theorem EachFirst.length_addresses {kind : String → Bool} {emails : List String}
    (h : EachFirst db contestId role w emails)
    (hkind : ∀ a, kind a = true → addable db contestId w a = true ∧ db.refusesRole role = false) :
    (addresses db kind emails).length = emails.countP kind := by
  cases hrole : db.refusesRole role with
  | true =>
      have hnone : ∀ a, ¬kind a = true := fun a ha => by
        rw [(hkind a ha).2] at hrole
        cases hrole
      rw [addresses_eq_nil hrole hkind, List.countP_eq_zero.mpr fun a _ => hnone a]
      rfl
  | false =>
      have hsublist : (emails.filter kind).Sublist (emails.filter (addable db contestId w)) :=
        List.monotone_filter_right _ fun a ha => (hkind a ha).1
      rw [addresses, ((h.nodup hrole).sublist (hsublist.map _)).dedup, List.length_map,
        List.countP_eq_length_filter]

/-- A row that can be served is of one kind. -/
theorem countP_valid (emails : List String) :
    emails.countP (creates db contestId role w) + emails.countP (joins db contestId role w) +
      emails.countP (already db contestId w) = emails.countP (valid db contestId role w) := by
  induction emails with
  | nil => rfl
  | cons email emails ih =>
      have hone : (if creates db contestId role w email = true then 1 else 0) +
          (if joins db contestId role w email = true then 1 else 0) +
          (if already db contestId w email = true then 1 else 0) =
            if valid db contestId role w email = true then 1 else 0 := by
        cases haddable : addable db contestId w email with
        | false =>
            obtain ⟨hcreates, hjoins, hvalid⟩ := kinds_of_not_addable role haddable
            rw [hcreates, hjoins, hvalid]
            exact Nat.zero_add _
        | true =>
            rw [creates, joins, already_eq_false_of_addable haddable, haddable]
            cases valid db contestId role w email <;> cases account db w email <;> rfl
      simp only [List.countP_cons]
      omega

/-- **Rows in the right order** are imported as they should be. -/
theorem Done.importedRows {dto : ImportParticipantsDTO}
    (h : Done db contestId dto.role w dto.emails st)
    (hfirst : EachFirst db contestId dto.role w dto.emails) :
    ImportedRows db contestId dto w (st.world w) st.result where
  participants := h.participants
  newUsers := h.newUsers.trans (hfirst.length_addresses fun _ => addable_of_valid_and).symm
  existingUsers := h.existingUsers.trans
    (congrArg _ (hfirst.length_addresses fun _ => addable_of_valid_and).symm)
  alreadyParticipants := by
    rw [h.newUsers, h.existingUsers, h.alreadyParticipants, ← countP_valid]
    push_cast
    rfl
  failed := h.failed

end Done

/-! ### Rows that come too late -/

section Toll

variable {db : Database} {contestId : ℕ} {role : String} {w : AccountWorld} {st : ImportState}
  {email : String} {pre : List String} {existing : List ℕ} {targetUser : ℕ}

/-- What cannot be taken back: the rows that have failed and, if nobody may be added, those
that are counted as added. -/
def toll (db : Database) (role : String) (result : ImportParticipantsResultDTO) : ℤ :=
  result.failedEmails.length +
    if db.refusesRole role = true then result.newUsersCreated + result.existingUsersAdded else 0

theorem toll_fail (result : ImportParticipantsResultDTO) :
    toll db role (result.fail email) = toll db role result + 1 := by
  rw [toll, toll, ImportParticipantsResultDTO.fail, List.length_append, List.length_singleton]
  push_cast
  ring

/-- What one row must take. -/
def fee (db : Database) (contestId : ℕ) (role : String) (w : AccountWorld) (email : String) : ℤ :=
  if valid db contestId role w email = true then 0 else 1

theorem fee_of_addable (h : addable db contestId w email = true) :
    fee db contestId role w email = if db.refusesRole role = true then 1 else 0 := by
  rw [fee, valid_of_addable h]
  cases db.refusesRole role <;> rfl

theorem toll_le_fail (result : ImportParticipantsResultDTO) :
    toll db role result ≤ toll db role (result.fail email) := by
  rw [toll_fail]
  exact Int.le_add_one (le_refl _)

/-- The second half of a row. -/
theorem toll_participantStep (hnotMem : existing.contains targetUser = false) :
    toll db role st.result ≤
      toll db role (participantStep db contestId role existing email targetUser st).result := by
  cases hsave : db.insertAll (st.tracked ++ [.participant contestId targetUser role])
      (st.users, st.participants) with
  | none =>
      rw [participantStep_of_none hnotMem hsave]
      exact toll_le_fail _
  | some tables => rw [participantStep_of_some hnotMem hsave]

/-- The account of an address was not among those that took part, if it was not there. -/
theorem notMem_of_created {tables : List User × List Participant} (h : Grown db w st)
    (hfk : Referenced contestId w)
    (hsave : db.insertAll (st.tracked ++ [freshRow db email]) (st.users, st.participants) =
      some tables) :
    (participantIds contestId w.participants).contains (tables.1.length - 1) = false := by
  obtain ⟨us, hus, -⟩ := h.users
  refine contains_eq_false fun hmem => absurd (hfk _ hmem) ?_
  rw [(Database.insertAll_eq_some hsave).1, hus, List.filterMap_append]
  simp only [List.length_append, freshRow, List.filterMap_cons, Tracked.toUser, List.filterMap_nil,
    List.length_cons, List.length_nil]
  omega

/-- **One row** takes what it must. -/
theorem toll_rowStep (h : Grown db w st) (hfk : Referenced contestId w) :
    toll db role st.result + fee db contestId role w email ≤ toll db role
      (rowStep db contestId role (participantIds contestId w.participants) st email).result := by
  cases haddable : addable db contestId w email with
  | false =>
      cases halready : already db contestId w email with
      | true =>
          rw [rowStep_of_already h halready, fee,
            if_pos ((kinds_of_not_addable role haddable).2.2.trans halready)]
          exact le_of_eq (Int.add_zero _)
      | false =>
          rw [fee, (kinds_of_not_addable role haddable).2.2, halready]
          cases hblank : blank db email with
          | true =>
              rw [rowStep_of_blank hblank, toll_fail]
              exact le_refl _
          | false =>
              have hrefused : refused db w email = true := by
                rw [addable, hblank, halready] at haddable
                simpa using haddable
              rw [rowStep_of_refused h hrefused, toll_fail]
              exact le_refl _
  | true =>
      have hblank := (addable_iff.mp haddable).1
      rw [fee_of_addable haddable]
      cases hfind : db.findByEmail st.users (normalizeEmail db email) with
      | some targetUser =>
          rw [rowStep_of_some hblank hfind]
          refine le_trans ?_ (toll_participantStep
            (contains_eq_false (h.notMem_of_addable hfk haddable hfind)))
          simp only [toll]
          split <;> omega
      | none =>
          cases hsave : db.insertAll (st.tracked ++ [freshRow db email])
              (st.users, st.participants) with
          | none =>
              rw [rowStep_of_none hblank hfind hsave, toll_fail]
              split <;> omega
          | some tables =>
              rw [rowStep_of_created hblank hfind hsave]
              refine le_trans ?_ (toll_participantStep (notMem_of_created h hfk hsave))
              simp only [toll]
              split <;> push_cast <;> omega

/-- **All rows.** -/
theorem toll_foldl (h : Grown db w st) (hfk : Referenced contestId w) (emails : List String) :
    toll db role st.result + emails.countP (fun a => !valid db contestId role w a) ≤ toll db role
      (emails.foldl (rowStep db contestId role (participantIds contestId w.participants))
        st).result := by
  induction emails generalizing st with
  | nil => exact le_of_eq (Int.add_zero _)
  | cons email emails ih =>
      have hstep : toll db role st.result + fee db contestId role w email ≤ _ := toll_rowStep h hfk
      have hgrown : Grown db w
          (rowStep db contestId role (participantIds contestId w.participants) st email) :=
        h.rowStep email
      rw [List.foldl_cons, List.countP_cons]
      generalize rowStep db contestId role _ st email = st' at hstep hgrown ⊢
      refine le_trans ?_ (ih hgrown)
      rw [fee] at hstep
      cases hvalid : valid db contestId role w email <;> simp [hvalid] at hstep ⊢ <;> omega

/-- What a right import takes. -/
theorem ImportedRows.toll_eq {dto : ImportParticipantsDTO} {w' : AccountWorld}
    {result : ImportParticipantsResultDTO} (h : ImportedRows db contestId dto w w' result) :
    toll db dto.role result =
      dto.emails.countP fun a => !valid db contestId dto.role w a := by
  rw [toll, h.failed, List.countP_eq_length_filter, h.newUsers, h.existingUsers]
  cases hrole : db.refusesRole dto.role with
  | false => exact Int.add_zero _
  | true =>
      have hcreates : addresses db (creates db contestId dto.role w) dto.emails = [] :=
        addresses_eq_nil hrole fun _ => addable_of_valid_and
      have hjoins : addresses db (joins db contestId dto.role w) dto.emails = [] :=
        addresses_eq_nil hrole fun _ => addable_of_valid_and
      rw [hcreates, hjoins]
      exact Int.add_zero _

/-- The participant is refused. -/
theorem toll_of_refused (hnotMem : existing.contains targetUser = false)
    (hfits : ¬db.Fits st.users st.participants (.participant contestId targetUser role)) :
    toll db role (participantStep db contestId role existing email targetUser st).result =
      toll db role st.result + 1 := by
  rw [participantStep_of_none hnotMem (Database.insertAll_eq_none
    (List.mem_append_right _ (List.mem_singleton_self _)) hfits), toll_fail]

/-- Who was added has an account, and takes part. -/
theorem Done.exists_participant (h : Done db contestId role w pre st) {a : String}
    (hmem : a ∈ pre) (haddable : addable db contestId w a = true)
    (hrole : db.refusesRole role = false) :
    ∃ userId ∈ participantIds contestId st.participants,
      db.findByEmail st.users (normalizeEmail db a) = some userId := by
  have hvalid : valid db contestId role w a = true := by rw [valid_of_addable haddable, hrole]; rfl
  have hsome : ∃ userId, db.findByEmail st.users (normalizeEmail db a) = some userId := by
    cases haccount : account db w a with
    | some userId => exact ⟨userId, h.grown.findByEmail_eq_some haccount⟩
    | none =>
        have hcreates : creates db contestId role w a = true := by
          rw [creates, hvalid, haddable, haccount]
          rfl
        rw [← Option.isSome_iff_exists, Database.findByEmail, List.findIdx?_isSome, List.any_eq_true]
        refine ⟨freshUser db a, ?_, ?_⟩
        · rw [h.users]
          exact List.mem_append_right _
            (List.mem_map.mpr ⟨a, List.mem_filter.mpr ⟨hmem, hcreates⟩, rfl⟩)
        · exact Bool.and_eq_true_iff.mpr ⟨rfl, sameText_freshUser.mpr rfl⟩
  obtain ⟨userId, hfind⟩ := hsome
  exact ⟨userId, (h.participants userId).mpr (.inr ⟨a, hmem, hvalid, hfind⟩), hfind⟩

/-- A row that comes too late, though its role is accepted. -/
theorem Done.toll_late (h : Done db contestId role w pre st) (hfk : Referenced contestId w)
    (hrole : db.refusesRole role = false) (haddable : addable db contestId w email = true)
    (hlate : ∃ a ∈ pre, refused db w a = true ∨
      addable db contestId w a = true ∧ normalizeEmail db a = normalizeEmail db email) :
    toll db role st.result < toll db role
      (Accounts.rowStep db contestId role (participantIds contestId w.participants) st
        email).result := by
  obtain ⟨a, hmem, hrefused | ⟨ha, hsame⟩⟩ := hlate
  · -- the tracker is stuck
    obtain ⟨tracked, result, hstep, -, hfailed, -⟩ :=
      rowStep_of_stuck role h.grown hfk (h.stuck ⟨a, hmem, hrefused⟩) haddable
    rw [hstep, toll, toll, hrole, hfailed, List.length_append, List.length_singleton]
    push_cast
    simp
  · -- it takes part since then
    obtain ⟨userId, hparticipant, hfind⟩ := h.exists_participant hmem ha hrole
    rw [hsame] at hfind
    have hnotMem := contains_eq_false (h.grown.notMem_of_addable hfk haddable hfind)
    obtain ⟨q, hq, hboth⟩ := mem_participantIds.mp hparticipant
    rw [rowStep_of_some (addable_iff.mp haddable).1 hfind]
    refine lt_of_lt_of_eq ?_ (toll_of_refused hnotMem ?_).symm
    · simp [toll, hrole]
    · exact fun hfits => hfits.2 q hq hboth

/-- A row that comes too early, if its role is refused. -/
theorem Done.toll_early (h : Done db contestId role w pre st) (hfk : Referenced contestId w)
    (hrole : db.refusesRole role = true) (haddable : addable db contestId w email = true)
    (hearly : ¬(account db w email = none ∧ ∃ a ∈ pre, refused db w a = true)) :
    toll db role st.result + 1 < toll db role
      (Accounts.rowStep db contestId role (participantIds contestId w.participants) st
        email).result := by
  have hrefusesRole (st : ImportState) (userId : ℕ) :
      ¬db.Fits st.users st.participants (.participant contestId userId role) := by
    rintro ⟨haccepts, -⟩
    rw [hrole] at haccepts
    cases haccepts
  obtain ⟨hblank, -, hfits⟩ := addable_iff.mp haddable
  cases haccount : account db w email with
  | some userId =>
      have hfind := h.grown.findByEmail_eq_some haccount
      rw [rowStep_of_some hblank hfind, toll_of_refused (contains_eq_false
        (h.grown.notMem_of_addable hfk haddable hfind)) (hrefusesRole _ _)]
      simp only [toll, hrole, if_true]
      omega
  | none =>
      have hunrefused : ∀ a ∈ pre, refused db w a = false := fun a ha =>
        Bool.eq_false_iff.mpr fun hrefused => hearly ⟨haccount, a, ha, hrefused⟩
      have hnone : pre.filter (creates db contestId role w) = [] :=
        List.filter_eq_nil_iff.mpr fun a _ hcreates => by
          rw [(addable_of_valid_and hcreates).2] at hrole
          cases hrole
      have husers : st.users = w.users := by rw [h.users, hnone]; exact List.append_nil _
      have hsave : db.insertAll (st.tracked ++ [freshRow db email]) (st.users, st.participants) =
          some (st.users ++ [freshUser db email], st.participants) := by
        rw [h.clean hunrefused, List.nil_append, Database.insertAll_singleton, husers]
        exact if_pos (hfits haccount)
      rw [rowStep_of_created hblank (husers ▸ haccount) hsave,
        toll_of_refused (notMem_of_created h.grown hfk hsave) (hrefusesRole _ _)]
      simp only [toll, hrole, if_true]
      push_cast
      omega

/-- **A row in the wrong place** takes more than it must. -/
theorem Done.toll_lt (h : Done db contestId role w pre st) (hfk : Referenced contestId w)
    (hwrong : ¬ComesFirst db contestId role w pre email) :
    toll db role st.result + fee db contestId role w email < toll db role
      (Accounts.rowStep db contestId role (participantIds contestId w.participants) st
        email).result := by
  rw [ComesFirst, not_forall] at hwrong
  obtain ⟨haddable, hwrong⟩ := hwrong
  rw [fee_of_addable haddable]
  cases hrole : db.refusesRole role with
  | true =>
      rw [hrole, if_pos rfl] at hwrong
      exact h.toll_early hfk hrole haddable hwrong
  | false =>
      rw [hrole, if_neg Bool.false_ne_true] at hwrong
      push Not at hwrong
      obtain ⟨a, hmem, ha⟩ := hwrong
      rw [if_neg Bool.false_ne_true, Int.add_zero]
      refine h.toll_late hfk hrole haddable ⟨a, hmem, ?_⟩
      cases hrefused : refused db w a with
      | true => exact .inl rfl
      | false => exact .inr (ha hrefused)

/-- One more row in the right place. -/
theorem EachFirst.concat (h : EachFirst db contestId role w pre)
    (hlast : ComesFirst db contestId role w pre email) :
    EachFirst db contestId role w (pre ++ [email]) := by
  intro pre' email' post' heq
  obtain rfl | ⟨post, last, rfl⟩ := List.eq_nil_or_concat post'
  · obtain ⟨rfl, hemail⟩ := List.append_inj' heq rfl
    obtain rfl := List.singleton_inj.mp hemail
    exact hlast
  · rw [List.concat_eq_append, ← List.cons_append, ← List.append_assoc] at heq
    exact h pre' email' post (List.append_inj' heq rfl).1

/-- **An import that takes no more than it must** has its rows in the right order. -/
theorem eachFirst_of_toll {emails : List String} (hfk : Referenced contestId w) (totalEmails : ℕ)
    (htoll : toll db role (emails.foldl
        (rowStep db contestId role (participantIds contestId w.participants))
        ⟨w.users, w.participants, [], noneImported totalEmails⟩).result =
      emails.countP fun a => !valid db contestId role w a) :
    EachFirst db contestId role w emails := by
  suffices hbefore : ∀ pre, (∃ post, emails = pre ++ post) → EachFirst db contestId role w pre from
    hbefore emails ⟨[], (List.append_nil _).symm⟩
  intro pre
  induction pre using List.reverseRecOn with
  | nil => exact fun _ pre email post heq => absurd heq (by simp)
  | append_singleton pre email ih =>
      rintro ⟨post, rfl⟩
      have hpre := ih ⟨email :: post, by rw [List.append_assoc]; rfl⟩
      have hdone := Done.foldl hfk hpre totalEmails
      refine hpre.concat (by_contra fun hwrong => ?_)
      -- what the rows before, this row, and those after it have taken
      have hbefore : _ ≤ toll db role _ :=
        toll_foldl (Grown.nil db w (noneImported totalEmails)) hfk pre
      have hrow := hdone.toll_lt hfk hwrong
      have hgrown : Grown db w (rowStep db contestId role (participantIds contestId w.participants)
          (pre.foldl (rowStep db contestId role (participantIds contestId w.participants))
            ⟨w.users, w.participants, [], noneImported totalEmails⟩) email) :=
        hdone.grown.rowStep email
      have hafter : _ ≤ toll db role _ := toll_foldl hgrown hfk post
      have hnone : toll db role (noneImported totalEmails) = 0 := by
        rw [toll, noneImported]
        split <;> rfl
      have hfee : fee db contestId role w email =
          ((if !valid db contestId role w email then 1 else 0 : ℕ) : ℤ) := by
        rw [fee]
        cases valid db contestId role w email <;> rfl
      rw [List.foldl_append, List.foldl_append, List.foldl_cons, List.foldl_nil,
        List.countP_append, List.countP_append, List.countP_singleton, Nat.cast_add, Nat.cast_add,
        ← hfee] at htoll
      rw [htoll] at hafter
      rw [hnone] at hbefore
      omega

end Toll

/-! ### The whole import -/

section Import

variable {db : Database} {contestId : ℕ} {dto : ImportParticipantsDTO} {w : AccountWorld}

/-- What the loop leaves behind. -/
def importedState (db : Database) (contestId : ℕ) (dto : ImportParticipantsDTO)
    (w : AccountWorld) : ImportState :=
  dto.emails.foldl (rowStep db contestId dto.role (participantIds contestId w.participants))
    ⟨w.users, w.participants, [], noneImported dto.emails.length⟩

/-- **The loop is right** if and only if its rows come in the right order. -/
theorem importedState_iff (hfk : Referenced contestId w) :
    ImportedRows db contestId dto w ((importedState db contestId dto w).world w)
        (importedState db contestId dto w).result ↔
      EachFirst db contestId dto.role w dto.emails := by
  constructor
  · exact fun h => eachFirst_of_toll hfk dto.emails.length h.toll_eq
  · exact fun h => (Done.foldl hfk h dto.emails.length).importedRows h

/-- What follows once the user and the contest are found. -/
theorem eval_importInto {userId : ℕ} {user : User} {contest : Contest}
    (hallowed : user.type = "admin" ∨ contest.ownerId = some userId) :
    (importInto db contestId dto userId user contest).eval (accountExec db calmAccounts) w =
      (.ok (.ok (importedState db contestId dto w).result),
        (importedState db contestId dto w).world w) := by
  have hparticipants : (request (.participantsOf contestId)).eval (accountExec db calmAccounts) w =
      (.ok (participantIds contestId w.participants), w) := rfl
  have hrows : (importRows db contestId dto.role (participantIds contestId w.participants)
      dto.emails [] (noneImported dto.emails.length)).eval (accountExec db calmAccounts) w =
      (.ok (importedState db contestId dto w).result,
        (importedState db contestId dto w).world w) :=
    eval_importRows w ⟨w.users, w.participants, [], noneImported dto.emails.length⟩ dto.emails
  have hforbidden : ¬(user.type ≠ "admin" ∧ contest.ownerId ≠ some userId) := by
    rw [not_and_or, not_not, not_not]
    exact hallowed
  rw [importInto, if_neg hforbidden]
  refine (Prog.eval_bind (request (.participantsOf contestId)) _ w).trans ?_
  rw [hparticipants]
  refine (Prog.eval_bind _ _ w).trans ?_
  rw [hrows]
  rfl

/-- What an import does that is allowed. -/
theorem eval_importParticipants {userId : ℕ} {user : User} {contest : Contest}
    (huser : w.users[userId]?.filter User.visible = some user)
    (hcontest : w.contests.find? (·.id = contestId) = some contest)
    (hallowed : user.type = "admin" ∨ contest.ownerId = some userId) :
    (importParticipants db contestId dto userId).eval (accountExec db calmAccounts) w =
      (.ok (.ok (importedState db contestId dto w).result),
        (importedState db contestId dto w).world w) := by
  have hfindUser : (request (.findUser userId)).eval (accountExec db calmAccounts) w =
      (.ok (some user), w) := congrArg (fun u => (Except.ok u, w)) huser
  have hfindContest : (request (.findContest contestId)).eval (accountExec db calmAccounts) w =
      (.ok (some contest), w) := congrArg (fun c => (Except.ok c, w)) hcontest
  have hbody : (importBody db contestId dto userId).eval (accountExec db calmAccounts) w =
      (.ok (.ok (importedState db contestId dto w).result),
        (importedState db contestId dto w).world w) := by
    refine (Prog.eval_bind (request (.findUser userId)) _ w).trans ?_
    rw [hfindUser]
    refine (Prog.eval_bind (request (.findContest contestId)) _ w).trans ?_
    rw [hfindContest]
    exact eval_importInto hallowed
  rw [importParticipants, Prog.eval_handle, hbody]

/-- **An import is right row by row** if and only if every row that adds somebody comes before
the rows that fail, and no two of them name one address. -/
theorem importedRows_iff {userId : ℕ} {user : User} {contest : Contest}
    (hfk : Referenced contestId w) (huser : w.users[userId]?.filter User.visible = some user)
    (hcontest : w.contests.find? (·.id = contestId) = some contest)
    (hallowed : user.type = "admin" ∨ contest.ownerId = some userId) :
    ∃ result w', (importParticipants db contestId dto userId).eval
        (accountExec db calmAccounts) w = (.ok (.ok result), w') ∧
      (ImportedRows db contestId dto w w' result ↔
        EachFirst db contestId dto.role w dto.emails) :=
  ⟨_, _, eval_importParticipants huser hcontest hallowed, importedState_iff hfk⟩

end Import

/-- An administrator and a contest. -/
def oneContest : AccountWorld where
  users := [⟨some "admin@fctf", some "admin", "admin", some true, some false, some false,
    .committed, none⟩]
  participants := []
  contests := [⟨1, some 0⟩]
  config _ := none
  fields := []
  transactions := 0
  lock := ⟨fun _ => none, 0⟩

/-- An import of two addresses. -/
theorem importedRows_example :
    ∃ result w', (importParticipants plainDatabase 1 ⟨["an@x", "bo@x"], "contestant"⟩ 0).eval
        (accountExec plainDatabase calmAccounts) oneContest = (.ok (.ok result), w') ∧
      (ImportedRows plainDatabase 1 ⟨["an@x", "bo@x"], "contestant"⟩ oneContest w' result ↔
        EachFirst plainDatabase 1 "contestant" oneContest ["an@x", "bo@x"]) :=
  importedRows_iff nofun rfl rfl (.inl rfl)

/-- **An address that is named twice** is counted as failed. -/
theorem not_importedRows :
    ¬∃ result w', (importParticipants plainDatabase 1 ⟨["an@x", "An@x"], "contestant"⟩ 0).eval
        (accountExec plainDatabase calmAccounts) oneContest = (.ok (.ok result), w') ∧
      ImportedRows plainDatabase 1 ⟨["an@x", "An@x"], "contestant"⟩ oneContest w' result := by
  rintro ⟨result, w', heval, himported⟩
  have hresult : ((importParticipants plainDatabase 1 ⟨["an@x", "An@x"], "contestant"⟩ 0).eval
      (accountExec plainDatabase calmAccounts) oneContest).1 =
        .ok (.ok ⟨2, 1, 1, 0, ["An@x"]⟩) := by
    decide +kernel
  rw [heval] at hresult
  have hfailed : result.failedEmails = ["An@x"] := by
    obtain rfl := ImportResponse.ok.inj (Except.ok.inj hresult)
    rfl
  have hvalid : result.failedEmails = [] := himported.failed.trans (by decide)
  rw [hfailed] at hvalid
  cases hvalid

end Accounts

end Fctf
