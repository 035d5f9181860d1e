import Fctf.Lib.History
import Fctf.TokenAuthentication

/-!
# Why a Request Is Let Through

What the calls around the tokens do, they do because of what they have read before. A
request is let through because it found a cached entry that it passes, or because it passes
what it read in the tables; an entry is written for what was read; a token row is replaced
that was found; a logout removes the rows that it found.

The programs are walked through once, here. Everything later about runs rests on
`Reason`, `Answered` and the two results below.

## Main results

* `program_justified`: every call acts for these reasons, and answers for these reasons.
* `reasoned`, `answered_of_finished`: so it is in every run.
-/

open Concurrent RedisDb

namespace Fctf

namespace Auth

/-! ### What a call was told -/

/-- A call's history. -/
abbrev AuthHistory := List (Event authI Exn)

/-- The operation has answered `x`. -/
def Told (l : AuthHistory) (o : AuthOp) (x : o.Reply) : Prop :=
  (⟨o, .ok x⟩ : Event authI Exn) ∈ l

theorem Told.append {l : AuthHistory} {o : AuthOp} {x : o.Reply} (h : Told l o x)
    (l' : AuthHistory) : Told (l ++ l') o x :=
  List.mem_append_left l' h

theorem told_last (l : AuthHistory) (o : AuthOp) (x : o.Reply) :
    Told (l ++ [⟨o, .ok x⟩]) o x :=
  List.mem_append_right l (List.mem_singleton.mpr rfl)

/-! ### Reasons -/

/-- A request has passed all checks against the tables. -/
structure Cleared (claims : Claims) (c u : ℤ) (token : Option Token) (info : UserInfo)
    (l : AuthHistory) : Prop where
  /-- It is by the user. -/
  user : claims.nameIdentifier = some u
  /-- It is for the contest. -/
  contest : claims.contestId = some c
  /-- There is a contest. -/
  contest_ne : c ≠ 0
  /-- It has read the stored token. -/
  token_told : Told l (.findToken u) token
  /-- It has read the user. -/
  info_told : Told l (.findUserInfo u) (some info)
  /-- The user takes part. -/
  participant_told : Told l (.isParticipant c u) true
  /-- The claimed token is the stored one. -/
  token_ok : tokenVerdict (token.bind (·.value)) claims.tokenUuid = none
  /-- The account is in order. -/
  account_ok : accountVerdict info.verified info.banned info.hidden = none
  /-- No team of the user is banned. -/
  team_ok : teamVerdict (some info.teamBanned) = none

theorem Cleared.append {claims : Claims} {c u : ℤ} {token : Option Token} {info : UserInfo}
    {l : AuthHistory} (h : Cleared claims c u token info l) (l' : AuthHistory) :
    Cleared claims c u token info (l ++ l') :=
  { h with
    token_told := h.token_told.append l'
    info_told := h.info_told.append l'
    participant_told := h.participant_told.append l' }

/-- Why a request is let through. -/
inductive LetThrough (claims : Claims) (l : AuthHistory) : Prop where
  /-- It needs no contest, and has passed the checks without one. -/
  | basic (u : ℤ) (user : User) (token : Option Token)
      (hu : claims.nameIdentifier = some u) (hc : claims.contestId = some 0)
      (huser : Told l (.findUser u) (some user)) (htoken : Told l (.findToken u) token)
      (htoken_ok : tokenVerdict (token.bind (·.value)) claims.tokenUuid = none)
      (haccount_ok : accountVerdict user.verified user.banned user.hidden = none)
  /-- It has found a cached entry that it passes. -/
  | cached (c u : ℤ) (cache : AuthInfoCacheDTO) (hu : claims.nameIdentifier = some u)
      (hc : claims.contestId = some c) (hne : c ≠ 0)
      (hcache : Told l (.redis (.get (authKey c u))) (some cache))
      (hok : cachedVerdict claims c cache = none)
  /-- It has passed the checks against the tables. -/
  | database (c u : ℤ) (token : Option Token) (info : UserInfo)
      (h : Cleared claims c u token info l)

theorem LetThrough.append {claims : Claims} {l : AuthHistory} (h : LetThrough claims l)
    (l' : AuthHistory) : LetThrough claims (l ++ l') := by
  cases h with
  | basic u user token hu hc huser htoken htok hacc =>
      exact .basic u user token hu hc (huser.append l') (htoken.append l') htok hacc
  | cached c u cache hu hc hne hcache hok =>
      exact .cached c u cache hu hc hne (hcache.append l') hok
  | database c u token info h => exact .database c u token info (h.append l')

/-- The operation stores a token, in the row that was found or in a new one. -/
def StoresFound (u : ℤ) (value : String) (l : AuthHistory) (o : AuthOp) : Prop :=
  (∃ row : Token, Told l (.findToken u) (some row) ∧ o = .updateToken row.id value) ∨
    Told l (.findToken u) none ∧ o = .insertToken u value

/-- Why a call performs an operation. -/
def Reason (call : AuthCall) (l : AuthHistory) : AuthOp → Prop
  | .redis (.set key cache ttl) =>
      ∃ claims c u token info, call.claims = some claims ∧
        Cleared claims c u token info l ∧ key = authKey c u ∧
        cache = cacheEntry c (token.bind (·.value)) info ∧ ttl = 60
  | .redis (.get _) => True
  | .redis (.del _) => True
  | .redis _ => False
  | .updateToken id value => ∃ u, StoresFound u value l (.updateToken id value)
  | .insertToken u value => StoresFound u value l (.insertToken u value)
  | .removeTokens rows =>
      ∃ claims u, call = .logout claims ∧ claims.nameIdentifier = some u ∧
        Told l (.listTokens u) rows ∧ rows ≠ []
  | .next => ∃ claims, call.claims = some claims ∧ LetThrough claims l
  | _ => True

/-- Why a request is turned away. -/
inductive TurnedAway (claims : Claims) (path : String) (l : AuthHistory) : Prop where
  /-- A claim is missing. -/
  | malformed (h : claims.nameIdentifier = none ∨ claims.teamId = none ∨ claims.contestId = none)
  /-- The path needs a contest. -/
  | contest (c : ℤ) (hc : claims.contestId = some c) (hpath : requiresContest path)
      (hle : c ≤ 0)
  /-- It needs no contest, and fails a check or an operation. -/
  | basic (hc : claims.contestId = some 0)
  /-- It fails the checks against a cached entry. -/
  | cached (c u : ℤ) (cache : AuthInfoCacheDTO) (hu : claims.nameIdentifier = some u)
      (hc : claims.contestId = some c)
      (hcache : Told l (.redis (.get (authKey c u))) (some cache))
      (hfails : cachedVerdict claims c cache ≠ none)
  /-- There is no such user. -/
  | user (u : ℤ) (hu : claims.nameIdentifier = some u) (h : Told l (.findUserInfo u) none)
  /-- Another token is stored. -/
  | token (u : ℤ) (token : Option Token) (hu : claims.nameIdentifier = some u)
      (htoken : Told l (.findToken u) token)
      (hfails : tokenVerdict (token.bind (·.value)) claims.tokenUuid ≠ none)
  /-- The user does not take part. -/
  | participant (c u : ℤ) (hu : claims.nameIdentifier = some u)
      (hc : claims.contestId = some c) (h : Told l (.isParticipant c u) false)
  /-- The account is not in order, or a team is banned. -/
  | account (u : ℤ) (info : UserInfo) (hu : claims.nameIdentifier = some u)
      (hinfo : Told l (.findUserInfo u) (some info))
      (hfails : accountVerdict info.verified info.banned info.hidden ≠ none ∨
        teamVerdict (some info.teamBanned) ≠ none)
  /-- A query has failed. -/
  | failed (u c : ℤ) (o : AuthOp) (e : Exn) (h : (⟨o, .error e⟩ : Event authI Exn) ∈ l)
      (ho : o = .findToken u ∨ o = .findUserInfo u ∨ o = .isParticipant c u)

/-- The path of a call. -/
def AuthCall.path : AuthCall → String
  | login _ => "/api/auth/login-contestant"
  | request _ path => path
  | logout _ => "/api/auth/logout"
  | selectContest _ _ => "/api/auth/select-contest"
  | select _ _ => "/api/contest/select"

/-- The request was let through. -/
def Passed (l : AuthHistory) : Prop := ∃ x ∈ l, x.op = AuthOp.next

/-- Why a logout has succeeded: the rows it found are removed. -/
def LoggedOut (claims : Claims) (l : AuthHistory) : Prop :=
  ∃ u rows, claims.nameIdentifier = some u ∧ Told l (.listTokens u) rows ∧
    (rows = [] ∨ Told l (.removeTokens rows) ())

/-- Why `AuthService.SelectContest` has issued a token: the last it did was to store it and
to remove the entry of the contest. -/
def Selected (claims : Claims) (c : ℤ) (dto : SelectContestResponseDTO) (l : AuthHistory) :
    Prop :=
  ∃ u user participant team tokenUuid l₁ o x r, claims.nameIdentifier = some u ∧ 0 < c ∧
    Told l (.findUser u) (some user) ∧
    Told l (.findParticipant c u) (some (participant, team)) ∧
    dto.token = createToken user.id (participant.teamId.getD 0) c (Guid.text tokenUuid) ∧
    StoresFound user.id (Guid.text tokenUuid) l₁ o ∧
    l = l₁ ++ [⟨o, .ok x⟩, ⟨AuthOp.redis (.del (authKey c u)), r⟩]

/-- Why `ContestController.SelectContest` has issued a token: the last it did was to draw
the uuid. -/
def ContestController.Selected (claims : Claims) (c : ℤ) (dto : SelectContestResponseDTO)
    (l : AuthHistory) : Prop :=
  ∃ u user team tokenUuid l₁, claims.nameIdentifier = some u ∧
    Told l (.findUser u) (some user) ∧ Told l (.findTeam c u) team ∧
    dto.token =
      createToken user.id ((team.map (·.id)).getD 0) c (Guid.text tokenUuid) ∧
    l = l₁ ++ [⟨AuthOp.newGuid, .ok tokenUuid⟩]

/-- Why an endpoint gives its answer. -/
def Handled : AuthCall → AuthHistory → Except Exn Response → Prop
  | .logout claims, l, .ok (.text 200 _) => LoggedOut claims l
  | .selectContest claims c, l, .ok (.selected dto) => Selected claims c dto l
  | .select claims c, l, .ok (.selected dto) => ContestController.Selected claims c dto l
  | _, _, _ => True

/-- Why a call gives its answer. -/
def Answered (call : AuthCall) (l : AuthHistory) (r : Except Exn Response) : Prop :=
  (∀ claims, call.claims = some claims → Passed l ∨ TurnedAway claims call.path l) ∧
    Handled call l r

/-! ### The walk -/

section Walk

variable {call : AuthCall} {l : AuthHistory} {α β : Type}

/-- An operation whose failure is raised. -/
theorem justified_issue {A : AuthHistory → Except Exn β → Prop} {o : AuthOp}
    {f : o.Reply → Prog authI Exn β} (ho : Reason call l o)
    (hok : ∀ x, (f x).Justified (Reason call) A (l ++ [⟨o, .ok x⟩]))
    (herror : ∀ e, A (l ++ [⟨o, .error e⟩]) (.error e)) :
    (issue o >>= f).Justified (Reason call) A l := by
  refine ⟨ho, fun r => ?_⟩
  cases r with
  | ok x => exact hok x
  | error e => exact herror e

/-- An operation whose failure counts as a reply `d`. -/
theorem justified_cached {A : AuthHistory → Except Exn β → Prop} {o : AuthOp} {d : o.Reply}
    {f : o.Reply → Prog authI Exn β} (ho : Reason call l o)
    (hok : ∀ x r, r = .ok x ∨ x = d →
      (f x).Justified (Reason call) A (l ++ [⟨o, r⟩])) :
    (((issue o).handle fun _ => pure d) >>= f).Justified (Reason call) A l := by
  refine ⟨ho, fun r => ?_⟩
  cases r with
  | ok x => exact hok x _ (.inl rfl)
  | error e => exact hok d _ (.inr rfl)

/-! #### The checks -/

/-- A refusal by the middleware. -/
def Refusal (answer : Response) : Prop :=
  ∃ status message, answer = .text status message ∧ status ≠ 200

theorem refusal_text {status : ℕ} (message : String) (h : status ≠ 200) :
    Refusal (.text status message) :=
  ⟨status, message, rfl, h⟩

theorem refusal_of_tokenVerdict {stored claimed : Option String} {answer : Response}
    (h : tokenVerdict stored claimed = some answer) : Refusal answer := by
  simp only [tokenVerdict] at h
  split at h
  · exact Option.some.inj h ▸ refusal_text _ (by decide)
  · cases h

theorem refusal_of_accountVerdict {verified banned hidden : Option Bool} {answer : Response}
    (h : accountVerdict verified banned hidden = some answer) : Refusal answer := by
  simp only [accountVerdict] at h
  split at h
  · exact Option.some.inj h ▸ refusal_text _ (by decide)
  split at h
  · exact Option.some.inj h ▸ refusal_text _ (by decide)
  split at h
  · exact Option.some.inj h ▸ refusal_text _ (by decide)
  · cases h

theorem refusal_of_teamVerdict {teamBanned : Option Bool} {answer : Response}
    (h : teamVerdict teamBanned = some answer) : Refusal answer := by
  simp only [teamVerdict] at h
  split at h
  · exact Option.some.inj h ▸ refusal_text _ (by decide)
  · cases h

theorem refusal_of_cachedVerdict {claims : Claims} {c : ℤ} {cache : AuthInfoCacheDTO}
    {answer : Response} (h : cachedVerdict claims c cache = some answer) : Refusal answer := by
  simp only [cachedVerdict] at h
  split at h
  · next htoken => exact Option.some.inj h ▸ refusal_of_tokenVerdict htoken
  split at h
  · exact Option.some.inj h ▸ refusal_text _ (by decide)
  split at h
  · next haccount => exact Option.some.inj h ▸ refusal_of_accountVerdict haccount
  · exact refusal_of_teamVerdict h

/-- Where the checks end. -/
def CheckEnd (claims : Claims) (path : String) (l : AuthHistory) :
    Except Exn (Option Response) → Prop
  | .ok none => LetThrough claims l
  | .ok (some answer) => TurnedAway claims path l ∧ Refusal answer
  | .error _ => TurnedAway claims path l

theorem checkBasic_justified {claims : Claims} {path : String} {u : ℤ}
    (hu : claims.nameIdentifier = some u) (hc : claims.contestId = some 0) (l : AuthHistory) :
    (checkBasic claims u).Justified (Reason call) (CheckEnd claims path) l := by
  refine justified_issue trivial (fun user => ?_) fun e => .basic hc
  cases user with
  | none => exact ⟨.basic hc, refusal_text _ (by decide)⟩
  | some user =>
      refine justified_issue trivial (fun token => ?_) fun e => .basic hc
      split
      · next htoken => exact ⟨.basic hc, refusal_of_tokenVerdict htoken⟩
      · next htoken =>
          have huser : Told ((l ++ [⟨.findUser u, .ok (some user)⟩]) ++
              [⟨.findToken u, .ok token⟩]) (.findUser u) (some user) :=
            (told_last l _ _).append _
          cases haccount : accountVerdict user.verified user.banned user.hidden with
          | none => exact .basic u user token hu hc huser (told_last _ _ _) htoken haccount
          | some answer => exact ⟨.basic hc, refusal_of_accountVerdict haccount⟩

theorem checkParticipant_justified {claims : Claims} {path : String} {c u : ℤ} {token : Option Token}
    {info : UserInfo} (hcall : call.claims = some claims)
    (hu : claims.nameIdentifier = some u) (hc : claims.contestId = some c) (hne : c ≠ 0)
    (htoken : Told l (.findToken u) token) (hinfo : Told l (.findUserInfo u) (some info))
    (hpart : Told l (.isParticipant c u) true)
    (hok : tokenVerdict (token.bind (·.value)) claims.tokenUuid = none) :
    (checkParticipant c u (token.bind (·.value)) info).Justified (Reason call) (CheckEnd claims path)
      l := by
  rw [checkParticipant]
  split
  · next answer haccount =>
      refine ⟨.account u info hu hinfo (.inl ?_), refusal_of_accountVerdict haccount⟩
      rw [haccount]
      exact Option.some_ne_none _
  · next haccount =>
      split
      · next answer hteam =>
          refine ⟨.account u info hu hinfo (.inr ?_), refusal_of_teamVerdict hteam⟩
          rw [hteam]
          exact Option.some_ne_none _
      · next hteam =>
          have hcleared : Cleared claims c u token info l :=
            ⟨hu, hc, hne, htoken, hinfo, hpart, hok, haccount, hteam⟩
          refine justified_cached
            (o := .redis (.set (authKey c u) (cacheEntry c (token.bind (·.value)) info) 60))
            (d := false) ⟨claims, c, u, token, info, hcall, hcleared, rfl, rfl, rfl⟩
            fun _ _ _ => ?_
          exact .database c u token info (hcleared.append _)

theorem checkDatabase_justified {claims : Claims} {path : String} {c u : ℤ}
    (hcall : call.claims = some claims) (hu : claims.nameIdentifier = some u)
    (hc : claims.contestId = some c) (hne : c ≠ 0) (l : AuthHistory) :
    (checkDatabase claims c u).Justified (Reason call) (CheckEnd claims path) l := by
  have hfailed : ∀ l (o : AuthOp) e,
      o = .findToken u ∨ o = .findUserInfo u ∨ o = .isParticipant c u →
        TurnedAway claims path (l ++ [⟨o, .error e⟩]) := fun l o e ho =>
    .failed u c o e (List.mem_append_right l (List.mem_singleton.mpr rfl)) ho
  refine justified_issue trivial (fun token => ?_) fun e => hfailed _ _ e (.inl rfl)
  refine justified_issue trivial (fun info => ?_) fun e => hfailed _ _ e (.inr (.inl rfl))
  cases info with
  | none => exact ⟨.user u hu (told_last _ _ _), refusal_text _ (by decide)⟩
  | some info =>
      have htoken := (told_last l (.findToken u) token).append
        [⟨.findUserInfo u, .ok (some info)⟩]
      have hinfo := told_last (l ++ [⟨.findToken u, .ok token⟩]) (.findUserInfo u) (some info)
      dsimp only
      split
      · next answer hverdict =>
          refine ⟨.token u token hu htoken ?_, refusal_of_tokenVerdict hverdict⟩
          rw [hverdict]
          exact Option.some_ne_none _
      · next hverdict =>
          refine justified_issue trivial (fun participant => ?_)
            fun e => hfailed _ _ e (.inr (.inr rfl))
          cases participant with
          | false =>
              exact ⟨.participant c u hu hc (told_last _ _ _), refusal_text _ (by decide)⟩
          | true =>
              exact checkParticipant_justified hcall hu hc hne (htoken.append _) (hinfo.append _)
                (told_last _ _ _) hverdict

theorem checkContest_justified {claims : Claims} {path : String} {c u : ℤ}
    (hcall : call.claims = some claims) (hu : claims.nameIdentifier = some u)
    (hc : claims.contestId = some c) (hne : c ≠ 0) (l : AuthHistory) :
    (checkContest claims c u).Justified (Reason call) (CheckEnd claims path) l := by
  refine justified_cached (o := .redis (.get (authKey c u))) (d := none) trivial
    fun cache r hr => ?_
  cases cache with
  | none => exact checkDatabase_justified hcall hu hc hne _
  | some cache =>
      obtain rfl := hr.resolve_right (Option.some_ne_none cache)
      have hcache := told_last l (.redis (.get (authKey c u))) (some cache)
      dsimp only
      cases hverdict : cachedVerdict claims c cache with
      | none => exact .cached c u cache hu hc hne hcache hverdict
      | some answer =>
          refine ⟨.cached c u cache hu hc hcache ?_, refusal_of_cachedVerdict hverdict⟩
          rw [hverdict]
          exact Option.some_ne_none _

theorem check_justified {claims : Claims} (hcall : call.claims = some claims)
    (path : String) : (check claims path).Justified (Reason call) (CheckEnd claims path) [] := by
  rw [check]
  split
  · next u t c hu ht hc =>
      split
      · next hneeds =>
          exact ⟨.contest c hc hneeds.1 hneeds.2, refusal_text _ (by decide)⟩
      split
      · next hzero => exact checkBasic_justified hu (hzero ▸ hc) _
      · next hne => exact checkContest_justified hcall hu hc hne _
  · next hc => exact ⟨.malformed (.inr (.inr hc)), refusal_text _ (by decide)⟩
  · next hsome hnone =>
      refine ⟨.malformed ?_, refusal_text _ (by decide)⟩
      cases hu : claims.nameIdentifier with
      | none => exact .inl rfl
      | some u =>
          cases ht : claims.teamId with
          | none => exact .inr (.inl rfl)
          | some t =>
              cases hc : claims.contestId with
              | none => exact .inr (.inr rfl)
              | some c => exact absurd hc (hsome u t c hu ht)

/-! #### The endpoints -/

/-- Where a new token ends: it was stored last. -/
def TokenEnd (u c t : ℤ) (l l' : AuthHistory) : Except Exn Claims → Prop
  | .ok jwt =>
      ∃ tokenUuid l₁ o x, jwt = createToken u t c (Guid.text tokenUuid) ∧
        StoresFound u (Guid.text tokenUuid) l₁ o ∧ l' = l₁ ++ [⟨o, .ok x⟩] ∧ l <+: l₁
  | .error _ => True

theorem generateUserToken_justified (u c t : ℤ) (l : AuthHistory) :
    (generateUserToken u c t).Justified (Reason call) (TokenEnd u c t l) l := by
  refine justified_issue trivial (fun tokenUuid => ?_) fun _ => trivial
  refine justified_issue trivial (fun existing => ?_) fun _ => trivial
  have hpre : l <+: (l ++ [⟨AuthOp.newGuid, .ok tokenUuid⟩]) ++
      [⟨AuthOp.findToken u, .ok existing⟩] := by
    rw [List.append_assoc]
    exact List.prefix_append l _
  have htold := told_last (l ++ [⟨AuthOp.newGuid, .ok tokenUuid⟩]) (.findToken u) existing
  cases existing with
  | none =>
      have hreason : StoresFound u tokenUuid.text _ (.insertToken u tokenUuid.text) :=
        .inr ⟨htold, rfl⟩
      refine justified_issue hreason (fun x => ?_) fun _ => trivial
      exact ⟨tokenUuid, _, .insertToken u tokenUuid.text, x, rfl, hreason, rfl, hpre⟩
  | some row =>
      have hreason : StoresFound u tokenUuid.text _ (.updateToken row.id tokenUuid.text) :=
        .inl ⟨row, htold, rfl⟩
      refine justified_issue ⟨u, hreason⟩ (fun x => ?_) fun _ => trivial
      exact ⟨tokenUuid, _, .updateToken row.id tokenUuid.text, x, rfl, hreason, rfl, hpre⟩

/-- Where an endpoint behind the middleware ends. -/
def EndpointEnd (call : AuthCall) (l : AuthHistory) : Except Exn Response → Prop
  | .ok answer => Handled call l (.ok answer)
  | .error _ => True

theorem handled_text {status : ℕ} (message : String) (h : status ≠ 200) (l : AuthHistory) :
    Handled call l (.ok (.text status message)) := by
  unfold Handled
  split
  · next heq =>
      obtain ⟨rfl, -⟩ := Response.text.inj (Except.ok.inj heq)
      exact absurd rfl h
  · next heq => cases heq
  · next heq => cases heq
  · trivial

theorem logout_justified {claims : Claims} {u : ℤ} (hcall : call = .logout claims)
    (hu : claims.nameIdentifier = some u) (l : AuthHistory) :
    (logout u).Justified (Reason call) (EndpointEnd call) l := by
  subst hcall
  have hfails : ∀ l', Handled (.logout claims) l'
      (.ok (.text 400 "An error occurred during logout")) :=
    handled_text _ (by decide)
  refine Prog.Justified.handle ?_
  refine justified_issue trivial (fun (rows : List Token) => ?_)
    fun e => hfails (l ++ [⟨AuthOp.listTokens u, .error e⟩])
  have htold := told_last l (.listTokens u) rows
  split
  · next hrows =>
      refine justified_issue (o := .removeTokens rows) ⟨claims, u, rfl, hu, htold, hrows⟩
        (fun _ => ?_) fun e => hfails (l ++ [⟨AuthOp.listTokens u, .ok rows⟩] ++
          [⟨AuthOp.removeTokens rows, .error e⟩])
      refine justified_cached (o := .redis (.del (logoutKey u))) (d := false) trivial
        fun _ _ _ => ?_
      exact ⟨u, rows, hu, (htold.append _).append _, .inr ((told_last _ _ _).append _)⟩
  · next hrows =>
      obtain rfl := not_not.mp hrows
      refine justified_cached (o := .redis (.del (logoutKey u))) (d := false) trivial
        fun _ _ _ => ?_
      exact ⟨u, [], hu, htold.append _, .inl rfl⟩

theorem selectFor_justified {claims : Claims} {u c : ℤ} {user : User} {contest : Contest}
    {participant : ContestParticipant} {team : Option Team}
    (hcall : call = .selectContest claims c) (hu : claims.nameIdentifier = some u)
    (hpos : 0 < c) (huser : Told l (.findUser u) (some user))
    (hpart : Told l (.findParticipant c u) (some (participant, team))) :
    (selectFor u c user contest participant team).Justified (Reason call)
      (EndpointEnd call) l := by
  subst hcall
  have hbanned : Handled (.selectContest claims c) l
      (.ok (.text 400 "Your team has been banned from this contest")) :=
    handled_text _ (by decide) l
  simp only [selectFor]
  split
  · exact hbanned
  · refine Prog.Justified.bind ((generateUserToken_justified user.id c _ l).mono
      fun l' r hend => ?_)
    cases r with
    | error e => trivial
    | ok jwt =>
        obtain ⟨tokenUuid, l₁, o, x, rfl, hstores, rfl, l₀, rfl⟩ := hend
        refine justified_cached (o := .redis (.del (authKey c u))) (d := false) trivial
          fun _ r _ => ?_
        refine ⟨u, user, participant, team, tokenUuid, l ++ l₀, o, x, r, hu, hpos,
          (huser.append l₀).append _ |>.append _, (hpart.append l₀).append _ |>.append _, rfl,
          hstores, ?_⟩
        simp

theorem selectContest_justified {claims : Claims} {u c : ℤ}
    (hcall : call = .selectContest claims c) (hu : claims.nameIdentifier = some u)
    (l : AuthHistory) :
    (selectContest u c).Justified (Reason call) (EndpointEnd call) l := by
  have htext : ∀ message l', Handled call l' (.ok (.text 400 message)) :=
    fun message => handled_text message (by decide)
  have hfails : ∀ e l', (fun l r => match r with
      | .ok a => EndpointEnd call l (.ok a)
      | .error _ => Prog.Justified (Reason call) (EndpointEnd call) l
          (pure (.text 400 "Failed to select contest"))) l'
        (.error e : Except Exn Response) := fun e l' => htext _ l'
  refine Prog.Justified.handle ?_
  split
  · exact htext _ _
  next hpos =>
  refine justified_issue trivial (fun (user : Option User) => ?_) fun e => hfails e _
  cases user with
  | none => exact htext _ _
  | some user =>
      refine justified_issue trivial (fun (contest : Option Contest) => ?_)
        fun e => hfails e _
      cases contest with
      | none => exact htext _ _
      | some contest =>
          refine justified_issue trivial
            (fun (participant : Option (ContestParticipant × Option Team)) => ?_)
            fun e => hfails e _
          cases participant with
          | none => exact htext _ _
          | some p =>
              have huser := ((told_last l (.findUser u) (some user)).append
                [⟨.findContest c, .ok (some contest)⟩]).append
                [⟨.findParticipant c u, .ok (some p)⟩]
              refine (selectFor_justified hcall hu (not_le.mp hpos) huser
                (told_last _ _ _)).mono
                fun l' r hr => ?_
              cases r with
              | ok answer => exact hr
              | error e => exact hfails e l'

theorem maySelect_justified (role : Option String) (c u : ℤ) (l : AuthHistory) :
    (maySelect role c u).Justified (Reason call) (fun _ _ => True) l := by
  by_cases h : role = some "admin"
  · rw [maySelect, if_pos h]
    trivial
  · rw [maySelect, if_neg h]
    exact ⟨trivial, fun _ => trivial⟩

theorem select_justified {claims : Claims} {c : ℤ} (hcall : call = .select claims c)
    (l : AuthHistory) :
    (ContestController.selectContest claims c).Justified (Reason call) (EndpointEnd call)
      l := by
  have htext : ∀ status message l', status ≠ 200 →
      Handled call l' (.ok (.text status message)) :=
    fun _ message l' h => handled_text message h l'
  rw [ContestController.selectContest]
  split
  · exact htext _ _ _ (by decide)
  · next u hu =>
      refine justified_issue trivial (fun (contest : Option Contest) => ?_) fun _ => trivial
      cases contest with
      | none => exact htext _ _ _ (by decide)
      | some contest =>
          refine Prog.Justified.bind ((maySelect_justified claims.role c u _).mono
            fun l' r _ => ?_)
          cases r with
          | error e => trivial
          | ok may =>
              cases may with
              | false => exact htext _ _ _ (by decide)
              | true =>
                  refine justified_issue trivial (fun (user : Option User) => ?_)
                    fun _ => trivial
                  cases user with
                  | none => exact htext _ _ _ (by decide)
                  | some user =>
                      refine justified_issue trivial (fun (team : Option Team) => ?_)
                        fun _ => trivial
                      refine justified_issue trivial (fun (tokenUuid : Guid) => ?_)
                        fun _ => trivial
                      subst hcall
                      have huser := ((told_last l' (.findUser u) (some user)).append
                        [⟨.findTeam c u, .ok team⟩]).append [⟨.newGuid, .ok tokenUuid⟩]
                      exact ⟨u, user, team, tokenUuid, _, hu, huser,
                        (told_last _ _ _).append _, rfl, rfl⟩

theorem loginUser_justified (verifyPassword : VerifyPassword) (username password : String)
    (l : AuthHistory) :
    (loginUser verifyPassword username password).Justified (Reason call)
      (fun _ _ => True) l := by
  refine justified_issue trivial (fun (captchaValid : Bool) => ?_) fun _ => trivial
  cases captchaValid with
  | false => trivial
  | true =>
      refine justified_issue trivial (fun (user : Option User) => ?_) fun _ => trivial
      cases user with
      | none => trivial
      | some user =>
          simp only
          split
          · trivial
          · refine Prog.Justified.bind ((generateUserToken_justified user.id 0 0 _).mono
              fun l' r _ => ?_)
            cases r with
            | error e => trivial
            | ok jwt =>
                refine justified_issue trivial (fun _ => ?_) fun _ => trivial
                exact justified_issue trivial (fun _ => trivial) fun _ => trivial

theorem loginContestant_justified (verifyPassword : VerifyPassword) (dto : LoginDTO)
    (l : AuthHistory) :
    (loginContestant verifyPassword dto).Justified (Reason (.login dto))
      (Answered (.login dto)) l := by
  have hany : ∀ l' answer, Answered (.login dto) l' (.ok answer) := by
    intro l' answer
    refine ⟨fun claims h => (Option.some_ne_none claims h.symm).elim, ?_⟩
    cases answer <;> trivial
  refine Prog.Justified.handle ?_
  split
  · refine (loginUser_justified verifyPassword _ _ l).mono fun l' r _ => ?_
    cases r with
    | ok answer => exact hany l' answer
    | error e => exact hany l' _
  · exact hany l _

/-! #### The middleware and the calls -/

theorem invokeAsync_justified {claims : Claims} {next : Prog authI Exn Response}
    (hcall : call.claims = some claims)
    (hnext : ∀ l, next.Justified (Reason call) (EndpointEnd call) l) :
    (invokeAsync claims call.path next).Justified (Reason call) (Answered call) [] := by
  have hturned : ∀ {l}, TurnedAway claims call.path l → ∀ claims', call.claims = some claims' →
      Passed l ∨ TurnedAway claims' call.path l := by
    rintro l h claims' hclaims
    obtain rfl := Option.some.inj (hcall.symm.trans hclaims)
    exact .inr h
  have hraised : ∀ l, Handled call l (.ok (.text 500
      "An error occurred while processing your request.")) := handled_text _ (by decide)
  refine Prog.Justified.handle (Prog.Justified.bind ((check_justified hcall call.path).mono
    fun l r hend => ?_))
  cases r with
  | error e => exact ⟨hturned hend, hraised l⟩
  | ok verdict =>
      cases verdict with
      | some answer =>
          obtain ⟨haway, status, message, rfl, hne⟩ := hend
          exact ⟨hturned haway, handled_text message hne l⟩
      | none =>
          refine ⟨⟨claims, hcall, hend⟩, fun r => ?_⟩
          have hpassed : ∀ l', l ++ [⟨AuthOp.next, r⟩] <+: l' → Passed l' := fun l' hl' =>
            ⟨_, hl'.subset (List.mem_append_right l (List.mem_singleton.mpr rfl)), rfl⟩
          cases r with
          | error e =>
              exact ⟨fun _ _ => .inl (hpassed _ (List.prefix_refl _)), hraised _⟩
          | ok _ =>
              refine ((hnext _).extends).mono fun l' r' hr => ?_
              cases r' with
              | ok answer => exact ⟨fun _ _ => .inl (hpassed l' hr.1), hr.2⟩
              | error e => exact ⟨fun _ _ => .inl (hpassed l' hr.1), hraised l'⟩

theorem withUserId_justified {claims : Claims} {endpoint : ℤ → Prog authI Exn Response}
    (h : ∀ u, claims.nameIdentifier = some u →
      (endpoint u).Justified (Reason call) (EndpointEnd call) l) :
    (withUserId claims endpoint).Justified (Reason call) (EndpointEnd call) l := by
  rw [withUserId]
  split
  · next u hu => exact h u hu
  · trivial

/-- **Every call acts and answers for its reasons.** -/
theorem program_justified (verifyPassword : VerifyPassword) (call : AuthCall) :
    (call.program verifyPassword).Justified (Reason call) (Answered call) [] := by
  cases call with
  | login dto => exact loginContestant_justified verifyPassword dto []
  | request claims path =>
      exact invokeAsync_justified (show (AuthCall.request claims path).claims = some claims from rfl) fun l => trivial
  | logout claims =>
      exact invokeAsync_justified (show (AuthCall.logout claims).claims = some claims from rfl) fun l =>
        withUserId_justified fun u hu => logout_justified rfl hu l
  | selectContest claims c =>
      exact invokeAsync_justified
        (show (AuthCall.selectContest claims c).claims = some claims from rfl) fun l =>
        withUserId_justified fun u hu => selectContest_justified rfl hu l
  | select claims c =>
      exact invokeAsync_justified (show (AuthCall.select claims c).claims = some claims from rfl) fun l =>
        select_justified rfl l

end Walk

/-! ### Runs -/

section Runs

variable {verifyPassword : VerifyPassword}
  {G : List (auths verifyPassword).Entry → (auths verifyPassword).Pool →
    (auths verifyPassword).Move → Prop}
  {s₀ : AuthWorld} {log : List (auths verifyPassword).Entry} {w : (auths verifyPassword).Pool}

/-- In a run, every operation has its reason. -/
theorem reasoned (h : Service.Records G ((auths verifyPassword).start s₀) log w)
    {pre post : List (auths verifyPassword).Entry} {n : (auths verifyPassword).Entry}
    (hlog : log = pre ++ n :: post) : Reason n.call (Service.past pre n.pid) n.op :=
  (h.justified (J := Reason) (A := Answered) fun c => program_justified verifyPassword c).1
    pre n post hlog

/-- The last operation of a run has its reason. -/
theorem reasoned_last {n : (auths verifyPassword).Entry}
    (h : Service.Records G ((auths verifyPassword).start s₀) (log ++ [n]) w) :
    Reason n.call (Service.past log n.pid) n.op :=
  reasoned h (show log ++ [n] = log ++ n :: [] from rfl)

/-- In a run, every answer has its reason. -/
theorem answered_of_finished (h : Service.Records G ((auths verifyPassword).start s₀) log w)
    {pid : ℕ} {call : AuthCall} {r : Except Exn Response}
    (hf : Service.Finished w pid call r) : Answered call (Service.past log pid) r :=
  (h.justified (J := Reason) (A := Answered) fun c => program_justified verifyPassword c).2
    pid call r hf

/-- What a call was told, it was told by an entry of the log. -/
theorem exists_entry_of_told {pid : ℕ} {o : AuthOp} {x : o.Reply}
    (h : Told (Service.past log pid) o x) :
    ∃ n ∈ log, n.pid = pid ∧ n.op = o ∧ (o.exec n.env n.before).1 = .ok x := by
  obtain ⟨⟨pid, call, env, op, before⟩, hn, hpid, hx⟩ := Service.mem_past h
  simp only [Service.Entry.event, Service.Entry.reply, Event.mk.injEq] at hx
  obtain ⟨rfl, hx⟩ := hx
  exact ⟨_, hn, hpid, rfl, eq_of_heq hx⟩

end Runs

end Auth

end Fctf
