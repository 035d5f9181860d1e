import Fctf.Lib.Pool
import Fctf.RedisHelper

/-!
# The World of the Token Check

What the contestants' requests share when they are authenticated: the tables `tokens`,
`users`, `contest_participants`, `teams`, `users_teams` and `contests`, and Redis, where
the middleware keeps what it has read for a minute. A request is authenticated by a JSON
web token; of its claims the code reads those of `Claims`.

`AuthOp` lists every awaited operation of the middleware, of the login and of both ways to
select a contest, `AuthOp.exec` what one operation answers and does. An operation may be
lost, or its reply; it then raises.

## Main results

* `AuthOp.exec_cases`: everything an operation can do.
* `authKey_inj`: the key of a cached entry determines its contest and its user.
-/

open Concurrent RedisDb

namespace Fctf

namespace Auth

/-! ### Rows -/

/-- A user account. -/
structure User where
  /-- Its id. -/
  id : ℤ
  /-- The name to log in with. -/
  name : Option String
  /-- The hash of its password. -/
  password : Option String
  /-- `user` or `admin`. -/
  type : Option String
  /-- Is its address verified? -/
  verified : Option Bool
  /-- Is it banned? -/
  banned : Option Bool
  /-- Is it hidden? -/
  hidden : Option Bool
  deriving DecidableEq, Repr

/-- A row of `tokens`. -/
structure Token where
  /-- Its id. -/
  id : ℤ
  /-- Whose it is. -/
  userId : Option ℤ
  /-- `user` for the tokens of contestants. -/
  type : Option String
  /-- The uuid that the web token has to carry. -/
  value : Option String
  deriving DecidableEq, Repr

/-- A row of `contest_participants`. -/
structure ContestParticipant where
  /-- The contest. -/
  contestId : ℤ
  /-- The user. -/
  userId : ℤ
  /-- Their team there. -/
  teamId : Option ℤ
  deriving DecidableEq, Repr

/-- A team of a contest. -/
structure Team where
  /-- Its id. -/
  id : ℤ
  /-- Its name. -/
  name : Option String
  /-- The contest. -/
  contestId : Option ℤ
  /-- Is it banned? -/
  banned : Option Bool
  deriving DecidableEq, Repr

/-- A row of `users_teams`. -/
structure UserTeam where
  /-- The user. -/
  userId : ℤ
  /-- The team. -/
  teamId : ℤ
  deriving DecidableEq, Repr

/-- A contest. -/
structure Contest where
  /-- Its id. -/
  id : ℤ
  /-- Its name. -/
  name : String
  deriving DecidableEq, Repr

/-! ### Web tokens and cached entries -/

/-- The claims of a web token that the code reads, as `FindFirstValue` and `int.TryParse`
make them out; `none` is a claim that is missing or no number. -/
structure Claims where
  /-- `ClaimTypes.NameIdentifier`, the user. -/
  nameIdentifier : Option ℤ
  /-- `ClaimTypes.Role`. -/
  role : Option String
  /-- `teamId`. -/
  teamId : Option ℤ
  /-- `contestId`. -/
  contestId : Option ℤ
  /-- `tokenUuid`. -/
  tokenUuid : Option String
  deriving DecidableEq, Repr

/-- What the middleware keeps of a request it has let through. -/
structure AuthInfoCacheDTO where
  /-- The stored token. -/
  tokenValueFromDb : Option String
  /-- The contest. -/
  contestId : ℤ
  /-- Is the user verified? -/
  verified : Option Bool
  /-- Banned? -/
  banned : Option Bool
  /-- Hidden? -/
  hidden : Option Bool
  /-- Is a team of theirs banned? -/
  teamBanned : Option Bool
  deriving DecidableEq, Repr

/-- What the middleware selects of a user. -/
structure UserInfo where
  /-- Is the user verified? -/
  verified : Option Bool
  /-- Banned? -/
  banned : Option Bool
  /-- Hidden? -/
  hidden : Option Bool
  /-- Is a team of theirs banned? -/
  teamBanned : Bool
  deriving DecidableEq, Repr

/-- A `Guid` as text. -/
structure Guid where
  /-- The text. -/
  text : String
  /-- It has 36 characters. -/
  length_text : text.length = 36
  deriving DecidableEq

/-- The key of a cached entry, `contest:{contestId}:auth:user:{userId}`. -/
def authKey (contestId userId : ℤ) : String :=
  contestKey contestId ("auth:user:" ++ toString userId)

/-- The key a logout removes, `auth:user:{userId}`. -/
def logoutKey (userId : ℤ) : String := "auth:user:" ++ toString userId

/-! ### The shared state -/

/-- The tables. -/
structure AuthTables where
  /-- `users`. -/
  users : List User
  /-- `tokens`. -/
  tokens : List Token
  /-- `contest_participants`. -/
  contestParticipants : List ContestParticipant
  /-- `teams`. -/
  teams : List Team
  /-- `users_teams`. -/
  usersTeams : List UserTeam
  /-- `contests`. -/
  contests : List Contest
  deriving DecidableEq

namespace AuthTables

variable (tables : AuthTables)

/-- Is the row a token that `userId` logs in with? -/
def isUserToken (userId : ℤ) (t : Token) : Bool :=
  t.userId = some userId ∧ t.type = some "user"

/-- The tokens of a user. -/
def userTokens (userId : ℤ) : List Token := tables.tokens.filter (isUserToken userId)

/-- The first of them. -/
def userToken (userId : ℤ) : Option Token := tables.tokens.find? (isUserToken userId)

/-- The token a web token of the user has to carry. -/
def tokenValue (userId : ℤ) : Option String := (tables.userToken userId).bind (·.value)

/-- A user by id. -/
def user (userId : ℤ) : Option User := tables.users.find? fun u => u.id = userId

/-- Is the user on the team? -/
def isMember (userId teamId : ℤ) : Bool :=
  tables.usersTeams.any fun m => m.userId = userId ∧ m.teamId = teamId

/-- Is a team of the user banned? -/
def teamBanned (userId : ℤ) : Bool :=
  tables.teams.any fun t => tables.isMember userId t.id ∧ t.banned = some true

/-- What the middleware selects of a user. -/
def userInfo (userId : ℤ) : Option UserInfo :=
  (tables.user userId).map fun u =>
    ⟨u.verified, u.banned, u.hidden, tables.teamBanned userId⟩

/-- The participation of a user in a contest. -/
def participant (contestId userId : ℤ) : Option ContestParticipant :=
  tables.contestParticipants.find? fun p => p.contestId = contestId ∧ p.userId = userId

/-- Does the user take part in the contest? -/
def isParticipant (contestId userId : ℤ) : Bool :=
  tables.contestParticipants.any fun p => p.contestId = contestId ∧ p.userId = userId

/-- A team by id. -/
def team (teamId : ℤ) : Option Team := tables.teams.find? fun t => t.id = teamId

/-- The team of the contest that the user is on. -/
def memberTeam (contestId userId : ℤ) : Option Team :=
  tables.teams.find? fun t => t.contestId = some contestId ∧ tables.isMember userId t.id

/-- Give a token row a new value. -/
def setValue (id : ℤ) (value : String) : AuthTables :=
  { tables with
    tokens := tables.tokens.map fun t => if t.id = id then { t with value := some value } else t }

/-- Add a token row. -/
def addToken (id userId : ℤ) (value : String) : AuthTables :=
  { tables with tokens := tables.tokens ++ [⟨id, some userId, some "user", some value⟩] }

/-- Remove token rows by id. -/
def removeTokens (rows : List Token) : AuthTables :=
  { tables with tokens := tables.tokens.filter fun t => t.id ∉ rows.map (·.id) }

end AuthTables

/-- The shared state. -/
structure AuthWorld where
  /-- Redis. -/
  redis : Db AuthInfoCacheDTO ℤ
  /-- The tables. -/
  tables : AuthTables
  /-- The id of the next token row. -/
  nextTokenId : ℤ

namespace AuthWorld

/-- `SaveChangesAsync` with a changed token: the row has to be there, and its value may not
be in use. -/
def updateToken (id : ℤ) (value : String) (w : AuthWorld) : Except Exn Unit × AuthWorld :=
  if w.tables.tokens.all (·.id ≠ id) then (.error .database, w)
  else if w.tables.tokens.any fun t => t.id ≠ id ∧ t.value = some value then
    (.error .duplicateKey, w)
  else (.ok (), { w with tables := w.tables.setValue id value })

/-- `SaveChangesAsync` with a new token: the user has to be there, and the value may not be
in use. -/
def insertToken (userId : ℤ) (value : String) (w : AuthWorld) :
    Except Exn Unit × AuthWorld :=
  if (w.tables.user userId).isNone then (.error .database, w)
  else if w.tables.tokens.any fun t => t.value = some value then (.error .duplicateKey, w)
  else
    (.ok (),
      { w with
        tables := w.tables.addToken w.nextTokenId userId value
        nextTokenId := w.nextTokenId + 1 })

/-- `SaveChangesAsync` with removed tokens: all of them have to be there. -/
def removeTokens (rows : List Token) (w : AuthWorld) : Except Exn Unit × AuthWorld :=
  if rows.all fun r => w.tables.tokens.any fun t => t.id = r.id then
    (.ok (), { w with tables := w.tables.removeTokens rows })
  else (.error .database, w)

end AuthWorld

/-! ### Operations -/

/-- The awaited operations. `next` is the call of the rest of the pipeline. -/
inductive AuthOp where
  | redis (o : RedisOp AuthInfoCacheDTO)
  | findUser (userId : ℤ)
  | findUserByName (name : String)
  | findUserInfo (userId : ℤ)
  | findToken (userId : ℤ)
  | isParticipant (contestId userId : ℤ)
  | findContest (contestId : ℤ)
  | findParticipant (contestId userId : ℤ)
  | findTeam (contestId userId : ℤ)
  | listTokens (userId : ℤ)
  | removeTokens (rows : List Token)
  | updateToken (id : ℤ) (value : String)
  | insertToken (userId : ℤ) (value : String)
  | newGuid
  | validateCaptcha
  | findTracking (userId : ℤ)
  | saveTracking (userId : ℤ)
  | next

/-- Is it the call of the rest of the pipeline? -/
def AuthOp.isNext : AuthOp → Bool
  | next => true
  | _ => false

theorem AuthOp.eq_next_of_isNext {o : AuthOp} (h : o.isNext = true) : o = .next := by
  cases o with
  | next => rfl
  | _ => cases h

/-- The type of an operation's reply. -/
@[reducible] def AuthOp.Reply : AuthOp → Type
  | redis o => o.Reply
  | findUser _ => Option User
  | findUserByName _ => Option User
  | findUserInfo _ => Option UserInfo
  | findToken _ => Option Token
  | isParticipant _ _ => Bool
  | findContest _ => Option Contest
  | findParticipant _ _ => Option (ContestParticipant × Option Team)
  | findTeam _ _ => Option Team
  | listTokens _ => List Token
  | removeTokens _ => Unit
  | updateToken _ _ => Unit
  | insertToken _ _ => Unit
  | newGuid => Guid
  | validateCaptcha => Bool
  | findTracking _ => Bool
  | saveTracking _ => Unit
  | next => Unit

/-- The interface of these endpoints. -/
abbrev authI : Interface := ⟨AuthOp, AuthOp.Reply⟩

/-- An operation as a program. -/
def issue (o : AuthOp) : Prog authI Exn o.Reply :=
  Prog.perform (I := authI) o

instance : RedisAccess authI AuthInfoCacheDTO where
  request o := issue (.redis o)

/-- What the surroundings choose during one operation. -/
structure AuthEnv where
  /-- Is it lost, or its reply? -/
  fault : Fault
  /-- What a lost operation raises. -/
  exn : Exn
  /-- The next uuid. -/
  guid : Guid
  /-- Is the captcha solved? -/
  captcha : Bool
  /-- Is the user's address known? -/
  tracked : Bool
  deriving DecidableEq

/-- Read something of the state, unless a fault gets in the way. -/
def AuthEnv.read {α : Type} (e : AuthEnv) (f : AuthTables → α) (w : AuthWorld) :
    Except Exn α × AuthWorld :=
  e.fault.apply e.exn (fun w => (.ok (f w.tables), w)) w

/-- What one operation answers and does. -/
def AuthOp.exec (e : AuthEnv) : (o : AuthOp) → AuthWorld → Except Exn o.Reply × AuthWorld
  | redis o, w =>
      ((o.execFaulty e.fault w.redis).1, { w with redis := (o.execFaulty e.fault w.redis).2 })
  | findUser u, w => e.read (fun t => t.user u) w
  | findUserByName name, w => e.read (fun t => t.users.find? fun u => u.name = some name) w
  | findUserInfo u, w => e.read (fun t => t.userInfo u) w
  | findToken u, w => e.read (fun t => t.userToken u) w
  | isParticipant c u, w => e.read (fun t => t.isParticipant c u) w
  | findContest c, w => e.read (fun t => t.contests.find? fun x => x.id = c) w
  | findParticipant c u, w =>
      e.read (fun t => (t.participant c u).map fun p => (p, p.teamId.bind t.team)) w
  | findTeam c u, w => e.read (fun t => t.memberTeam c u) w
  | listTokens u, w => e.read (fun t => t.userTokens u) w
  | removeTokens rows, w => e.fault.apply e.exn (AuthWorld.removeTokens rows) w
  | updateToken id value, w => e.fault.apply e.exn (AuthWorld.updateToken id value) w
  | insertToken u value, w => e.fault.apply e.exn (AuthWorld.insertToken u value) w
  | newGuid, w => (.ok e.guid, w)
  | validateCaptcha, w => e.read (fun _ => e.captcha) w
  | findTracking _, w => e.read (fun _ => e.tracked) w
  | saveTracking _, w => e.read (fun _ => ()) w
  | next, w => (.ok (), w)

/-! ### What an operation answers and does -/

section Exec

variable {e : AuthEnv} {w : AuthWorld}

/-- What was read is what stands in the tables. -/
theorem AuthEnv.eq_of_read {α : Type} {f : AuthTables → α} {x : α}
    (h : (e.read f w).1 = .ok x) : x = f w.tables := by
  rw [AuthEnv.read] at h
  cases hf : e.fault <;> rw [hf] at h <;> cases h
  rfl

@[simp] theorem AuthEnv.read_snd {α : Type} (f : AuthTables → α) : (e.read f w).2 = w := by
  cases hf : e.fault <;> simp only [AuthEnv.read, Fault.apply, hf]

/-- What a call read of the cache was there. -/
theorem AuthOp.get_of_told {e : AuthEnv} {s : AuthWorld} {key : String} {cache : AuthInfoCacheDTO}
    (h : ((AuthOp.redis (.get key)).exec e s).1 = .ok (some cache)) :
    s.redis.get key = some cache := by
  cases hf : e.fault <;>
    simp only [AuthOp.exec, RedisOp.execFaulty, hf, Fault.apply, RedisOp.exec] at h
  · exact Except.ok.inj h
  · cases h
  · cases h

theorem AuthWorld.updateToken_snd (id : ℤ) (value : String) :
    (w.updateToken id value).2 = w ∨
      (w.updateToken id value).2 = { w with tables := w.tables.setValue id value } := by
  rw [AuthWorld.updateToken]
  split
  · exact .inl rfl
  · split
    · exact .inl rfl
    · exact .inr rfl

theorem AuthWorld.insertToken_snd (u : ℤ) (value : String) :
    (w.insertToken u value).2 = w ∨
      (w.insertToken u value).2 =
        { w with
          tables := w.tables.addToken w.nextTokenId u value
          nextTokenId := w.nextTokenId + 1 } := by
  rw [AuthWorld.insertToken]
  split
  · exact .inl rfl
  · split
    · exact .inl rfl
    · exact .inr rfl

theorem AuthWorld.removeTokens_snd (rows : List Token) :
    (w.removeTokens rows).2 = w ∨
      (w.removeTokens rows).2 = { w with tables := w.tables.removeTokens rows } := by
  rw [AuthWorld.removeTokens]
  split
  · exact .inr rfl
  · exact .inl rfl

/-- **Everything an operation can do**: nothing, a request to Redis, or one of the three
writes. -/
theorem AuthOp.exec_cases (e : AuthEnv) (o : AuthOp) (w : AuthWorld) :
    ((o.exec e w).2 = w) ∨
    (∃ r, o = .redis r ∧
      (o.exec e w).2 = { w with redis := (r.execFaulty e.fault w.redis).2 }) ∨
    (∃ id value, o = .updateToken id value ∧
      (o.exec e w).2 = { w with tables := w.tables.setValue id value }) ∨
    (∃ u value, o = .insertToken u value ∧
      (o.exec e w).2 =
        { w with
          tables := w.tables.addToken w.nextTokenId u value
          nextTokenId := w.nextTokenId + 1 }) ∨
    (∃ rows, o = .removeTokens rows ∧
      (o.exec e w).2 = { w with tables := w.tables.removeTokens rows }) := by
  cases o with
  | redis r => exact .inr (.inl ⟨r, rfl, rfl⟩)
  | updateToken id value =>
      rcases e.fault.apply_snd e.exn (AuthWorld.updateToken id value) w with h | h
      · exact .inl h
      · rcases w.updateToken_snd id value with h' | h'
        · exact .inl (h.trans h')
        · exact .inr (.inr (.inl ⟨id, value, rfl, h.trans h'⟩))
  | insertToken u value =>
      rcases e.fault.apply_snd e.exn (AuthWorld.insertToken u value) w with h | h
      · exact .inl h
      · rcases w.insertToken_snd u value with h' | h'
        · exact .inl (h.trans h')
        · exact .inr (.inr (.inr (.inl ⟨u, value, rfl, h.trans h'⟩)))
  | removeTokens rows =>
      rcases e.fault.apply_snd e.exn (AuthWorld.removeTokens rows) w with h | h
      · exact .inl h
      · rcases w.removeTokens_snd rows with h' | h'
        · exact .inl (h.trans h')
        · exact .inr (.inr (.inr (.inr ⟨rows, rfl, h.trans h'⟩)))
  | newGuid => exact .inl rfl
  | next => exact .inl rfl
  | _ => exact .inl (AuthEnv.read_snd _)

end Exec

/-! ### A user's tokens -/

section UserTokens

variable (tables : AuthTables) (u : ℤ)

theorem AuthTables.userToken_eq_head? : tables.userToken u = (tables.userTokens u).head? :=
  List.head?_filter.symm

/-- What is stored for a user depends on their token rows. -/
theorem AuthTables.tokenValue_congr {tables tables' : AuthTables} {u : ℤ}
    (h : tables'.userTokens u = tables.userTokens u) :
    tables'.tokenValue u = tables.tokenValue u := by
  rw [tokenValue, tokenValue, userToken_eq_head?, userToken_eq_head?, h]

theorem AuthTables.exists_of_tokenValue {tables : AuthTables} {u : ℤ} {value : String}
    (h : tables.tokenValue u = some value) :
    ∃ t ∈ tables.userTokens u, t.value = some value := by
  obtain ⟨t, ht, hvalue⟩ := Option.bind_eq_some_iff.mp h
  rw [tables.userToken_eq_head?] at ht
  exact ⟨t, List.mem_of_head? ht, hvalue⟩

/-- The value of the only row is what is stored. -/
theorem AuthTables.tokenValue_of_mem {tables : AuthTables} {u : ℤ} {value : String} {t : Token}
    (hone : (tables.userTokens u).length ≤ 1) (ht : t ∈ tables.userTokens u)
    (hvalue : t.value = some value) : tables.tokenValue u = some value := by
  rw [tokenValue, userToken_eq_head?]
  cases hrows : tables.userTokens u with
  | nil => exact absurd (hrows ▸ ht) List.not_mem_nil
  | cons r rows =>
      rw [hrows] at hone ht
      obtain rfl : rows = [] := List.length_eq_zero_iff.mp (by simpa using hone)
      rw [List.mem_singleton.mp ht] at hvalue
      exact hvalue

theorem AuthTables.userTokens_setValue (id : ℤ) (value : String) :
    (tables.setValue id value).userTokens u =
      (tables.userTokens u).map fun t => if t.id = id then { t with value := some value } else t := by
  rw [userTokens, setValue, List.filter_map]
  refine congrArg (List.map _) (List.filter_congr fun t _ => ?_)
  rw [Function.comp_apply]
  split <;> rfl

theorem AuthTables.userTokens_addToken (id u' : ℤ) (value : String) :
    (tables.addToken id u' value).userTokens u =
      tables.userTokens u ++ if u' = u then [⟨id, some u', some "user", some value⟩] else [] := by
  rw [userTokens, addToken, List.filter_append, userTokens]
  refine congrArg (List.append _) ?_
  by_cases h : u' = u <;> simp [isUserToken, h]

theorem AuthTables.userTokens_removeTokens (rows : List Token) :
    (tables.removeTokens rows).userTokens u =
      (tables.userTokens u).filter fun t => t.id ∉ rows.map (·.id) := by
  rw [userTokens, removeTokens, List.filter_comm, userTokens]

end UserTokens

/-! ### Keys -/

/-- A numeral can be told from what a colon separates from it. -/
theorem takeWhile_repr (n : ℤ) (l : List Char) :
    (n.repr.toList ++ ':' :: l).takeWhile (· ≠ ':') = n.repr.toList := by
  have hn : ∀ c ∈ n.repr.toList, decide (c ≠ ':') = true := by
    intro c hc
    refine decide_eq_true fun h => ?_
    exact colon_notMem_repr n (h ▸ hc)
  rw [List.takeWhile_append_of_pos hn, List.takeWhile_cons_of_neg (by decide),
    List.append_nil]

/-- The key of a cached entry determines its contest and its user. -/
theorem authKey_inj {c u c' u' : ℤ} (h : authKey c u = authKey c' u') : c = c' ∧ u = u' := by
  have hl := congrArg String.toList h
  simp only [authKey, contestKey, Int.toString_eq_repr, String.toList_append,
    List.append_assoc, List.append_cancel_left_eq] at hl
  have hcolon : ∀ l : List Char, ":".toList ++ l = ':' :: l := fun _ => rfl
  rw [hcolon, hcolon] at hl
  have hc := congrArg (List.takeWhile (· ≠ ':')) hl
  rw [takeWhile_repr, takeWhile_repr] at hc
  obtain rfl := toList_repr_inj hc
  rw [List.append_cancel_left_eq, List.cons_inj_right, List.append_cancel_left_eq] at hl
  exact ⟨rfl, toList_repr_inj hl⟩

end Auth

end Fctf
