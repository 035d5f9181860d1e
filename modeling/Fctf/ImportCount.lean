import Fctf.Lib.Table
import Fctf.PullChallenges

/-!
# The Import Counter

A challenge of the bank counts the contests it was imported into. The management platform
writes the counter when it imports a challenge into a contest and when it takes one out; it
writes what it has read, plus or minus one. A pull of the contestant backend adds challenges to
a contest and leaves the counters alone, and a contest is deleted with its challenges.

## Main results

* `importCounts_iff`: the counters of a run are right all the time exactly if every one of its
  steps is accounted for.
* `not_importCounts`: a pull, the deletion of a contest, and two imports that overlap.
-/

open Concurrent

namespace Fctf

namespace ImportCount

open PullChallenges

export PullChallenges (ContestsChallenge User)

/-! ### The tables -/

/-- A challenge of the bank, with its counter. -/
structure Bank extends BankChallenge where
  importCount : ℤ
  deriving DecidableEq, Repr

/-- The tables. -/
structure World where
  users : List User
  contests : List Contest
  challenges : List Bank
  contestsChallenges : Table ContestsChallenge
  deriving DecidableEq

/-- What a pull sees of them. -/
def World.forPull (w : World) : PullWorld where
  users := w.users
  contests := w.contests
  challenges := w.challenges.map (·.toBankChallenge)
  contestsChallenges := w.contestsChallenges.rows.map Prod.snd

/-- May the row be stored? Its contest is there, and its state is not null. -/
def World.accepts (w : World) (cc : ContestsChallenge) : Bool :=
  w.contests.any (·.id = cc.contestId) && cc.properties.state.isSome

/-- A new row. -/
def World.addChallenge (w : World) (cc : ContestsChallenge) : World :=
  { w with contestsChallenges := w.contestsChallenges.insert cc }

/-- `UPDATE challenges SET import_count = ... WHERE id = ...`. -/
def World.setImportCount (w : World) (bankId : Option ℕ) (importCount : ℤ) : World :=
  { w with challenges := w.challenges.map fun b =>
      if some b.id = bankId then { b with importCount := importCount } else b }

/-- A contest is deleted, and its challenges with it. -/
def World.removeContest (w : World) (contestId : ℕ) : World :=
  { w with
    contests := w.contests.filter (·.id ≠ contestId)
    contestsChallenges := w.contestsChallenges.delete (·.2.contestId = contestId) }

@[simp] theorem World.contestsChallenges_setImportCount (w : World) (bankId : Option ℕ)
    (importCount : ℤ) :
    (w.setImportCount bankId importCount).contestsChallenges = w.contestsChallenges := rfl

/-! ### Requests of the management platform -/

/-- A request to import a challenge of the bank. A field is given, or given as null, or left
out. -/
structure ImportRequest where
  caller : User
  contestId : ℕ
  bankId : Option ℕ
  (state connectionProtocol : Option (Option String))
  (value maxAttempts cooldown maxDeployCount : Option (Option ℤ))
  timeLimit : Option ℤ
  requireDeploy : Option Bool
  deriving DecidableEq, Repr

/-- `bank.connection_protocol or "http"`. -/
def protocolOrHttp (p : Properties) : String :=
  match p.connectionProtocol with
  | none | some "" => "http"
  | some protocol => protocol

/-- The new challenge of the contest. -/
def importedChallenge (r : ImportRequest) (bankId : ℕ) (bank : Bank) : ContestsChallenge where
  contestId := r.contestId
  bankId := some bankId
  userId := none
  properties := { noProperties with
    state := r.state.getD (some "visible")
    value := r.value.getD (some 100)
    maxAttempts := r.maxAttempts.getD (some 0)
    timeLimit := r.timeLimit
    cooldown := r.cooldown.getD (some 0)
    requireDeploy := some (r.requireDeploy.getD bank.properties.imageLink.isSome)
    maxDeployCount := r.maxDeployCount.getD (some (bank.properties.maxDeployCount.getD 0))
    connectionProtocol := r.connectionProtocol.getD (some (protocolOrHttp bank.properties)) }
  importCount := 0
  deployStatus := "CREATED"

/-- What the platform writes for the bank when a challenge is taken out of a contest. -/
def decremented (bank : Option Bank) : Option ℤ :=
  (bank.filter (0 < ·.importCount)).map (·.importCount - 1)

/-- The queries and commits of the platform, and of the backend's deletion of a contest. -/
inductive ContestOp where
  | getContest (contestId : ℕ)
  | getBank (bankId : ℕ)
  | findImported (contestId bankId : ℕ)
  | findChallenge (contestId ccId : ℕ)
  | commitImport (r : ImportRequest) (bankId : ℕ) (bank : Bank)
  | commitRemoval (ccId : ℕ) (cc : ContestsChallenge) (bank : Option Bank)
  | commitDeletion (contestId : ℕ)

/-- The type of a reply. -/
def ContestOp.Reply : ContestOp → Type
  | getContest _ => Option Contest
  | getBank _ => Option Bank
  | findImported _ _ => Option (ℕ × ContestsChallenge)
  | findChallenge _ _ => Option (ℕ × ContestsChallenge)
  | commitImport _ _ _ => ℕ
  | commitRemoval _ _ _ => Unit
  | commitDeletion _ => Unit

/-- The interface. -/
def contestI : Interface := ⟨ContestOp, ContestOp.Reply⟩

/-- The commit of a removal: the counter is written, and the row deleted. -/
def World.removeChallenge (w : World) (ccId : ℕ) (cc : ContestsChallenge) (bank : Option Bank) :
    World :=
  let written := match decremented bank with
    | some importCount => w.setImportCount cc.bankId importCount
    | none => w
  { written with contestsChallenges := w.contestsChallenges.deleteId ccId }

/-- What a request of the platform answers and does. -/
def ContestOp.exec (f : Fault) : (o : ContestOp) → World → Except Exn o.Reply × World
  | getContest contestId, w =>
      f.apply .database (fun w => (.ok (w.contests.find? (·.id = contestId)), w)) w
  | getBank bankId, w =>
      f.apply .database (fun w => (.ok (w.challenges.find? (·.id = bankId)), w)) w
  | findImported contestId bankId, w =>
      f.apply .database (fun w => (.ok (w.contestsChallenges.rows.find? fun r =>
        r.2.contestId = contestId ∧ r.2.bankId = some bankId), w)) w
  | findChallenge contestId ccId, w =>
      f.apply .database (fun w => (.ok (w.contestsChallenges.rows.find? fun r =>
        r.1 = ccId ∧ r.2.contestId = contestId), w)) w
  | commitImport r bankId bank, w =>
      f.apply .database (fun w =>
        if w.accepts (importedChallenge r bankId bank) then
          (.ok w.contestsChallenges.nextId,
            (w.setImportCount (some bankId) (bank.importCount + 1)).addChallenge
              (importedChallenge r bankId bank))
        else (.error .database, w)) w
  | commitRemoval ccId cc bank, w =>
      f.apply .database (fun w => (.ok (), w.removeChallenge ccId cc bank)) w
  | commitDeletion contestId, w =>
      f.apply .database (fun w => (.ok (), w.removeContest contestId)) w

/-- What a request of a pull answers and does. -/
def execPull (f : Fault) : (o : PullOp) → World → Except Exn o.Reply × World
  | .save cc, w =>
      f.apply .database (fun w =>
        if w.accepts cc then (.ok w.contestsChallenges.nextId, w.addChallenge cc)
        else (.error .database, w)) w
  | o, w => ((o.exec f w.forPull).1, w)

/-! ### The services -/

/-- What is answered. -/
inductive ImportResponse where
  | forbidden
  | abort (status : ℕ) (message : String)
  | imported (ccId : ℕ)
  | removed
  | deleted
  | pulled (r : PullResponse)
  deriving DecidableEq, Repr

/-- The requests of both services. -/
abbrev importI : Interface := pullI.plus contestI

/-- A request of the platform. -/
def platform (o : ContestOp) : Prog importI Exn o.Reply := Prog.perform (I := importI) (.inr o)

/-- `is_admin() or is_challenge_writer()`. -/
def isAdminOrChallengeWriter (caller : User) : Bool :=
  caller.type = "admin" || caller.type = "challenge_writer"

/-- `_contest_or_404` and `_check_contest_access`, behind the decorator of the routes. -/
def withContest (caller : User) (contestId : ℕ) (body : Prog importI Exn ImportResponse) :
    Prog importI Exn ImportResponse :=
  if isAdminOrChallengeWriter caller then do
    let contest : Option Contest ← platform (.getContest contestId)
    match contest with
    | none => return .abort 404 "Contest not found"
    | some contest =>
        if caller.type = "admin" ∨ contest.ownerId = some caller.id then body
        else return .abort 403 "You do not have permission to access this contest"
  else pure .forbidden

/-- `ContestChallengeList.post`. -/
def importChallenge (r : ImportRequest) : Prog importI Exn ImportResponse :=
  withContest r.caller r.contestId <|
    match r.bankId with
    | none | some 0 => pure (.abort 400 "bank_id is required")
    | some bankId => do
        let bank : Option Bank ← platform (.getBank bankId)
        match bank with
        | none => return .abort 404 ("Bank challenge " ++ toString bankId ++ " not found")
        | some bank =>
            let existing : Option (ℕ × ContestsChallenge) ←
              platform (.findImported r.contestId bankId)
            match existing with
            | some (ccId, _) =>
                return .abort 400 ("Bank challenge " ++ toString bankId ++
                  " is already in contest " ++ toString r.contestId ++ " (cc_id=" ++
                  toString ccId ++ ")")
            | none =>
                let ccId : ℕ ← platform (.commitImport r bankId bank)
                return .imported ccId

/-- The commit of `ContestChallengeDetail.delete`. -/
def commitRemoval (ccId : ℕ) (cc : ContestsChallenge) (bank : Option Bank) :
    Prog importI Exn ImportResponse := do
  let _ : Unit ← platform (.commitRemoval ccId cc bank)
  return .removed

/-- The challenge is taken out of the contest, and its bank's counter decremented. -/
def removeFound (ccId : ℕ) (cc : ContestsChallenge) : Prog importI Exn ImportResponse :=
  match cc.bankId with
  | none | some 0 => commitRemoval ccId cc none
  | some bankId => do
      let bank : Option Bank ← platform (.getBank bankId)
      commitRemoval ccId cc bank

/-- `ContestChallengeDetail.delete`. -/
def removeChallenge (caller : User) (contestId ccId : ℕ) : Prog importI Exn ImportResponse :=
  withContest caller contestId do
    let found : Option (ℕ × ContestsChallenge) ← platform (.findChallenge contestId ccId)
    match found with
    | none => return .abort 404 "Contest challenge not found"
    | some (_, cc) => removeFound ccId cc

/-- `ContestDetail.delete`, and `DeleteContest` of the backend. -/
def deleteContest (denied notFound : ImportResponse) (admin : Bool) (contestId : ℕ) :
    Prog importI Exn ImportResponse :=
  if admin then do
    let contest : Option Contest ← platform (.getContest contestId)
    match contest with
    | none => return notFound
    | some _ =>
        let _ : Unit ← platform (.commitDeletion contestId)
        return .deleted
  else pure denied

/-- The calls of both services. -/
inductive Call where
  | pull (c : PullCall)
  | importChallenge (r : ImportRequest)
  | removeChallenge (caller : User) (contestId ccId : ℕ)
  | deleteContest (caller : User) (contestId : ℕ)
  | backendDeleteContest (role : Option String) (contestId : ℕ)
  deriving DecidableEq, Repr

/-- The program of a call. -/
def Call.program : Call → Prog importI Exn ImportResponse
  | pull c => (pullChallengesToContest c).onFirst >>= fun r => pure (.pulled r)
  | importChallenge r => ImportCount.importChallenge r
  | removeChallenge caller contestId ccId => ImportCount.removeChallenge caller contestId ccId
  | deleteContest caller contestId =>
      if isAdminOrChallengeWriter caller then
        ImportCount.deleteContest (.abort 403 "Only admins can delete contests")
          (.abort 404 "Contest not found") (caller.type = "admin") contestId
      else pure .forbidden
  | backendDeleteContest role contestId =>
      ImportCount.deleteContest .forbidden (.abort 404 "Contest not found")
        (role = some "admin") contestId

/-- What an operation answers and does. -/
def exec (f : Fault) : (o : importI.Op) → World → Except Exn (importI.Reply o) × World
  | .inl o, w => execPull f o w
  | .inr o, w => o.exec f w

/-- Both services on one database. -/
def services : Service importI Exn ImportResponse World where
  Call := Call
  Env := Fault
  Ext := Empty
  program := Call.program
  exec := exec
  ambient x _ := nomatch x

/-! ### What is promised -/

/-- How many challenges of contests reference the challenge of the bank? -/
def references (t : Table ContestsChallenge) (bankId : ℕ) : ℕ :=
  t.count fun r => r.2.bankId = some bankId

/-- **The counters are right**: each is the number of references. -/
def Exact (w : World) : Prop :=
  ∀ b ∈ w.challenges, b.importCount = references w.contestsChallenges b.id

/-- Is there such a challenge in the bank? -/
def World.known (w : World) (bankId : Option ℕ) : Bool :=
  w.challenges.any fun b => some b.id = bankId

/-- **The condition.** A pull adds no reference, an import writes over the counter that it has
read, and so does a removal, whose row is still there, or else it writes what is there. A
contest that is deleted has no references. A statement that is lost is no matter. -/
def accounted (e : Fault) : importI.Op → World → Bool
  | .inl (.save cc), w => e = .before || !w.accepts cc || !w.known cc.bankId
  | .inr (.commitImport r bankId bank), w =>
      e = .before || !w.accepts (importedChallenge r bankId bank) ||
        w.challenges.all fun b => b.id ≠ bankId || b.importCount = bank.importCount
  | .inr (.commitRemoval ccId cc bank), w =>
      e = .before || w.challenges.all fun b => some b.id ≠ cc.bankId ||
        if w.contestsChallenges.rows.any (·.1 = ccId) then
          bank.map (·.importCount) = some b.importCount
        else (decremented bank).all (· = b.importCount)
  | .inr (.commitDeletion contestId), w =>
      e = .before || w.contestsChallenges.rows.all fun r =>
        r.2.contestId ≠ contestId || !w.known r.2.bankId
  | _, _ => true

/-! ### One operation -/

/-- What an operation does unless it is lost. -/
def effect : importI.Op → World → World
  | .inl (.save cc), w => if w.accepts cc then w.addChallenge cc else w
  | .inr (.commitImport r bankId bank), w =>
      if w.accepts (importedChallenge r bankId bank) then
        (w.setImportCount (some bankId) (bank.importCount + 1)).addChallenge
          (importedChallenge r bankId bank)
      else w
  | .inr (.commitRemoval ccId cc bank), w => w.removeChallenge ccId cc bank
  | .inr (.commitDeletion contestId), w => w.removeContest contestId
  | _, w => w

theorem exec_snd (f : Fault) (o : importI.Op) (w : World) :
    (exec f o w).2 = if f = .before then w else effect o w := by
  rcases o with o | o
  · cases o with
    | save cc => cases f <;> simp only [exec, execPull, Fault.apply, effect] <;> split <;> simp_all
    | _ => simp only [exec, execPull, effect, ite_self]
  · cases o <;> cases f <;> simp only [exec, ContestOp.exec, Fault.apply, effect] <;>
      first | rfl | (split <;> simp_all)

section Step

variable {w : World}

theorem references_insert (t : Table ContestsChallenge) (cc : ContestsChallenge) (bankId : ℕ) :
    references (t.insert cc) bankId =
      references t bankId + (decide (cc.bankId = some bankId)).toNat :=
  Table.count_insert

/-- The counters after one of them was written and the rows have changed. -/
theorem exact_setImportCount_iff {bankId : Option ℕ} {importCount : ℤ}
    {t : Table ContestsChallenge} :
    Exact { w.setImportCount bankId importCount with contestsChallenges := t } ↔
      ∀ b ∈ w.challenges,
        (if some b.id = bankId then importCount else b.importCount) = references t b.id := by
  simp only [Exact, World.setImportCount, List.forall_mem_map]
  refine forall₂_congr fun b _ => ?_
  split <;> rfl

/-- A pull that adds a challenge. -/
theorem exact_addChallenge_iff (h : Exact w) (cc : ContestsChallenge) :
    Exact (w.addChallenge cc) ↔ w.known cc.bankId = false := by
  rw [World.known, List.any_eq_false]
  refine forall₂_congr fun b hb => ?_
  have hb := h b hb
  change b.importCount = (references (w.contestsChallenges.insert cc) b.id : ℕ) ↔ _
  rw [references_insert, decide_eq_true_iff]
  by_cases hid : some b.id = cc.bankId
  · simp [hid, hb]
  · simp [hid, Ne.symm hid, hb]

/-- An import. -/
theorem exact_import_iff (h : Exact w) (bankId : ℕ) (importCount : ℤ) (cc : ContestsChallenge)
    (hcc : cc.bankId = some bankId) :
    Exact ((w.setImportCount (some bankId) (importCount + 1)).addChallenge cc) ↔
      ∀ b ∈ w.challenges, b.id = bankId → b.importCount = importCount := by
  refine exact_setImportCount_iff.trans (forall₂_congr fun b hb => ?_)
  have hb := h b hb
  rw [references_insert, World.contestsChallenges_setImportCount, hcc]
  by_cases hid : b.id = bankId
  · simp only [hid, if_true, decide_true, Bool.toNat_true, true_imp_iff]
    rw [hid] at hb
    omega
  · simp [hid, Ne.symm hid, hb]

/-- What a removal leaves of a counter. -/
theorem exact_removeChallenge_iff' {ccId : ℕ} {cc : ContestsChallenge} {bank : Option Bank} :
    Exact (w.removeChallenge ccId cc bank) ↔ ∀ b ∈ w.challenges,
      (if some b.id = cc.bankId then (decremented bank).getD b.importCount else b.importCount) =
        references (w.contestsChallenges.deleteId ccId) b.id := by
  rw [World.removeChallenge]
  cases decremented bank with
  | some importCount => exact exact_setImportCount_iff
  | none =>
      refine forall₂_congr fun b _ => ?_
      rw [Option.getD_none, ite_self]

/-- The counter of a challenge whose row is taken out. -/
theorem decremented_eq_iff {bank : Option Bank} {importCount : ℤ} (hpos : 0 < importCount) :
    (decremented bank).getD importCount = importCount - 1 ↔
      bank.map (·.importCount) = some importCount := by
  cases bank with
  | none =>
      simp only [decremented, Option.filter_none, Option.map_none, Option.getD_none,
        reduceCtorEq, iff_false]
      omega
  | some bank =>
      by_cases hbank : 0 < bank.importCount
      · simp [decremented, Option.filter, hbank]
      · simp only [decremented, Option.filter, hbank, decide_false, Bool.false_eq_true, if_false,
          Option.map_none, Option.getD_none, Option.map_some, Option.some.injEq]
        omega

/-- A removal of a row that was read. -/
theorem exact_removeChallenge_iff (h : Exact w) {ccId : ℕ} {cc : ContestsChallenge}
    (hwas : w.contestsChallenges.Was ccId cc) (bank : Option Bank) :
    Exact (w.removeChallenge ccId cc bank) ↔ ∀ b ∈ w.challenges, some b.id = cc.bankId →
      if w.contestsChallenges.rows.any (·.1 = ccId) then
        bank.map (·.importCount) = some b.importCount
      else (decremented bank).all (· = b.importCount) := by
  refine exact_removeChallenge_iff'.trans (forall₂_congr fun b hb => ?_)
  have hb := h b hb
  by_cases hthere : w.contestsChallenges.rows.any (·.1 = ccId)
  · obtain ⟨⟨_, cc'⟩, hmem, hid⟩ := List.any_eq_true.mp hthere
    obtain rfl := of_decide_eq_true hid
    obtain rfl : cc' = cc := hwas.2 _ hmem rfl
    have hcount : references (w.contestsChallenges.deleteId _) b.id +
        (decide (cc'.bankId = some b.id)).toNat = references w.contestsChallenges b.id :=
      Table.count_deleteId hmem
    by_cases hbank : some b.id = cc'.bankId
    · rw [if_pos hbank, if_pos hthere]
      rw [← hbank, decide_eq_true rfl, Bool.toNat_true] at hcount
      simp only [hbank, true_imp_iff]
      rw [← decremented_eq_iff (by omega)]
      omega
    · rw [decide_eq_false (Ne.symm hbank), Bool.toNat_false] at hcount
      simp only [hbank, if_false, false_imp_iff, iff_true]
      omega
  · have hrows : references (w.contestsChallenges.deleteId ccId) b.id =
        references w.contestsChallenges b.id := by
      have hgone : ∀ r ∈ w.contestsChallenges.rows, r.1 ≠ ccId :=
        fun r hr hid => hthere (List.any_eq_true.mpr ⟨r, hr, decide_eq_true hid⟩)
      rw [references, Table.count, Table.deleteId_eq_self hgone]
      rfl
    rw [hrows, if_neg hthere, ← hb]
    by_cases hbank : some b.id = cc.bankId
    · cases decremented bank <;> simp [hbank]
    · simp [hbank]

/-- The deletion of a contest. -/
theorem exact_removeContest_iff (h : Exact w) (contestId : ℕ) :
    Exact (w.removeContest contestId) ↔ ∀ r ∈ w.contestsChallenges.rows,
      r.2.contestId = contestId → w.known r.2.bankId = false := by
  have hcount (b : Bank) : references (w.contestsChallenges.delete (·.2.contestId = contestId)) b.id
      + w.contestsChallenges.count
        (fun r => decide (r.2.bankId = some b.id) && decide (r.2.contestId = contestId)) =
      references w.contestsChallenges b.id := Table.count_delete
  have hgone : Exact (w.removeContest contestId) ↔ ∀ b ∈ w.challenges, w.contestsChallenges.count
      (fun r => decide (r.2.bankId = some b.id) && decide (r.2.contestId = contestId)) = 0 := by
    refine forall₂_congr fun b hb => ?_
    have hb := h b hb
    have hb' := hcount b
    change b.importCount = (references (w.contestsChallenges.delete _) b.id : ℕ) ↔ _
    omega
  rw [hgone]
  simp only [Table.count, List.countP_eq_zero, World.known, List.any_eq_false, Bool.and_eq_true,
    decide_eq_true_iff]
  constructor
  · exact fun hall r hr hcontest b hb hid => hall b hb r hr ⟨hid.symm, hcontest⟩
  · exact fun hall b hb r hr hboth => hall r hr hboth.2 b hb hboth.1.symm

/-- **One operation** leaves the counters right exactly if it is accounted for. -/
theorem exact_exec_iff (h : Exact w) (f : Fault) (o : importI.Op)
    (hwas : ∀ ccId cc bank, o = .inr (.commitRemoval ccId cc bank) →
      w.contestsChallenges.Was ccId cc) :
    Exact (exec f o w).2 ↔ accounted f o w = true := by
  rw [exec_snd]
  by_cases hf : f = .before
  · rw [if_pos hf]
    refine iff_of_true h ?_
    rcases o with o | o <;> cases o <;> simp [accounted, hf]
  rw [if_neg hf]
  rcases o with o | o
  · cases o with
    | save cc =>
        simp only [effect, accounted, hf, decide_false, Bool.false_or, Bool.or_eq_true,
          Bool.not_eq_true']
        by_cases haccepts : w.accepts cc = true
        · simp only [haccepts, if_true, Bool.true_eq_false, false_or]
          exact exact_addChallenge_iff h cc
        · simp only [haccepts, Bool.false_eq_true, if_false, true_or, iff_true]
          exact h
    | _ => exact iff_of_true h rfl
  · cases o with
    | commitImport r bankId bank =>
        simp only [effect, accounted, hf, decide_false, Bool.false_or, Bool.or_eq_true,
          Bool.not_eq_true', List.all_eq_true, decide_eq_true_iff, decide_not]
        by_cases haccepts : w.accepts (importedChallenge r bankId bank) = true
        · simp only [haccepts, if_true, Bool.true_eq_false, false_or, decide_eq_false_iff_not,
            ← imp_iff_not_or]
          exact exact_import_iff h bankId bank.importCount _ rfl
        · simp only [haccepts, Bool.false_eq_true, if_false, true_or, iff_true]
          exact h
    | commitRemoval ccId cc bank =>
        simp only [effect, accounted, hf, decide_false, Bool.false_or, List.all_eq_true,
          Bool.or_eq_true, decide_not, Bool.not_eq_true', decide_eq_false_iff_not,
          ← imp_iff_not_or]
        refine (exact_removeChallenge_iff h (hwas _ _ _ rfl) bank).trans ?_
        refine forall₂_congr fun b _ => imp_congr_right fun _ => ?_
        split <;> simp
    | commitDeletion contestId =>
        simp only [effect, accounted, hf, decide_false, Bool.false_or, List.all_eq_true,
          Bool.or_eq_true, decide_not, Bool.not_eq_true', decide_eq_false_iff_not,
          ← imp_iff_not_or]
        exact exact_removeContest_iff h contestId
    | _ => exact iff_of_true h rfl

end Step

/-! ### What a removal has read -/

/-- A removal is of a row that was read. -/
def grounded (t : Table ContestsChallenge) : importI.Op → Prop
  | .inr (.commitRemoval ccId cc _) => t.Was ccId cc
  | _ => True

/-- What a reply tells of a row. -/
def learned (t : Table ContestsChallenge) :
    (o : importI.Op) → Except Exn (importI.Reply o) → Prop
  | .inr (.findChallenge _ ccId), .ok (found : Option (ℕ × ContestsChallenge)) =>
      ∀ r ∈ found, t.Was ccId r.2
  | _, _ => True

/-- Not a removal. -/
def isRemoval : importI.Op → Bool
  | .inr (.commitRemoval _ _ _) => true
  | _ => false

theorem grounded_of_not_removal (t : Table ContestsChallenge) (o : importI.Op)
    (h : isRemoval o = false) : grounded t o := by
  rcases o with o | o
  · trivial
  · cases o with
    | commitRemoval ccId cc bank => cases h
    | _ => trivial

/-- A program that removes nothing. -/
theorem guarded_of_throughout {α : Type} {p : Prog importI Exn α}
    (h : p.Throughout fun o => isRemoval o = false) (t : Table ContestsChallenge) :
    p.Guarded grounded learned t :=
  h.guarded grounded_of_not_removal t

/-- A request of the platform that is no removal. -/
theorem guarded_platform {o : ContestOp} (h : isRemoval (.inr o) = false)
    (t : Table ContestsChallenge) : (platform o).Guarded grounded learned t :=
  guarded_of_throughout ((Prog.throughout_perform (I := importI) (.inr o)).mpr h) t

theorem guarded_withContest {caller : User} {contestId : ℕ}
    {body : Prog importI Exn ImportResponse} (h : ∀ t, body.Guarded grounded learned t)
    (t : Table ContestsChallenge) :
    (withContest caller contestId body).Guarded grounded learned t := by
  rw [withContest]
  split
  · refine Prog.Guarded.bind (guarded_platform rfl t) fun contest t' _ => ?_
    cases contest with
    | none => trivial
    | some contest =>
        dsimp only
        split
        · exact h t'
        · trivial
  · trivial

theorem guarded_importChallenge (r : ImportRequest) (t : Table ContestsChallenge) :
    (importChallenge r).Guarded grounded learned t := by
  refine guarded_withContest (fun t => ?_) t
  split
  · trivial
  · trivial
  · refine Prog.Guarded.bind (guarded_platform rfl t) fun bank t _ => ?_
    cases bank with
    | none => trivial
    | some bank =>
        refine Prog.Guarded.bind (guarded_platform rfl t) fun existing t _ => ?_
        cases existing with
        | some found => trivial
        | none => exact Prog.Guarded.bind (guarded_platform rfl t) fun _ _ _ => trivial

theorem guarded_commitRemoval {ccId : ℕ} {cc : ContestsChallenge} {bank : Option Bank}
    {t : Table ContestsChallenge} (h : t.Was ccId cc) :
    (commitRemoval ccId cc bank).Guarded grounded learned t := by
  refine fun t' hle => ⟨h.later hle, fun r _ => ?_⟩
  cases r <;> trivial

theorem guarded_removeFound {ccId : ℕ} {cc : ContestsChallenge} {t : Table ContestsChallenge}
    (h : t.Was ccId cc) : (removeFound ccId cc).Guarded grounded learned t := by
  rw [removeFound]
  split
  · exact guarded_commitRemoval h
  · exact guarded_commitRemoval h
  · next bankId _ =>
      exact Prog.Guarded.bind (guarded_platform rfl t) fun bank t' hle =>
        guarded_commitRemoval (h.later hle)

/-- **A removal** is of a row that was read. -/
theorem guarded_removeChallenge (caller : User) (contestId ccId : ℕ)
    (t : Table ContestsChallenge) :
    (removeChallenge caller contestId ccId).Guarded grounded learned t := by
  refine guarded_withContest (fun t => ?_) t
  rintro t₁ -
  refine ⟨trivial, fun found hfound => ?_⟩
  rcases found with e | _ | ⟨_, cc⟩
  · trivial
  · trivial
  · exact guarded_removeFound (hfound _ rfl)

theorem guarded_deleteContest (denied notFound : ImportResponse) (admin : Bool) (contestId : ℕ)
    (t : Table ContestsChallenge) :
    (deleteContest denied notFound admin contestId).Guarded grounded learned t := by
  rw [deleteContest]
  split
  · refine Prog.Guarded.bind (guarded_platform rfl t) fun contest t _ => ?_
    cases contest with
    | none => trivial
    | some _ => exact Prog.Guarded.bind (guarded_platform rfl t) fun _ _ _ => trivial
  · trivial

theorem guarded_program (c : Call) (t : Table ContestsChallenge) :
    c.program.Guarded grounded learned t := by
  cases c with
  | pull c =>
      exact Prog.Guarded.bind
        (guarded_of_throughout (Prog.throughout_onFirst (fun _ => rfl) _) t) fun _ _ _ => trivial
  | importChallenge r => exact guarded_importChallenge r t
  | removeChallenge caller contestId ccId => exact guarded_removeChallenge caller contestId ccId t
  | deleteContest caller contestId =>
      rw [Call.program]
      split
      · exact guarded_deleteContest _ _ _ _ t
      · trivial
  | backendDeleteContest role contestId => exact guarded_deleteContest _ _ _ _ t

/-- A reply tells what is there. -/
theorem learned_exec (f : Fault) (o : importI.Op) (w : World) :
    learned w.contestsChallenges o (exec f o w).1 := by
  rcases o with o | o
  · trivial
  · cases o with
    | findChallenge contestId ccId =>
        cases f with
        | none =>
            intro r hr
            have hdecide := List.find?_some hr
            obtain ⟨rfl, -⟩ := of_decide_eq_true hdecide
            exact Table.was_of_mem (List.mem_of_find?_eq_some hr)
        | _ => trivial
    | _ => trivial

/-- Rows are added and deleted. -/
theorem contestsChallenges_le_effect (o : importI.Op) (w : World) :
    w.contestsChallenges ≤ (effect o w).contestsChallenges := by
  rcases o with o | o
  · cases o with
    | save cc =>
        rw [effect]
        split
        · exact Table.le_insert
        · exact le_refl _
    | _ => exact le_refl _
  · cases o with
    | commitImport r bankId bank =>
        rw [effect]
        split
        · exact Table.le_insert
        · exact le_refl _
    | commitRemoval ccId cc bank => exact Table.delete_le
    | commitDeletion contestId => exact Table.delete_le
    | _ => exact le_refl _

theorem contestsChallenges_le_exec (f : Fault) (o : importI.Op) (w : World) :
    w.contestsChallenges ≤ (exec f o w).2.contestsChallenges := by
  rw [exec_snd]
  split
  · exact le_refl _
  · exact contestsChallenges_le_effect o w

/-! ### Runs -/

/-- In a run a removal is of a row that was read. -/
theorem was_of_pending {w₀ : World} {w : services.Pool}
    (h : Service.Reaches Service.anyMove (services.start w₀) w) {pid : ℕ} {c : services.Call}
    {o : importI.Op} {k : Except Exn (importI.Reply o) → Prog importI Exn ImportResponse}
    (hp : Service.Pending w pid c o k) (ccId : ℕ) (cc : ContestsChallenge) (bank : Option Bank)
    (ho : o = .inr (.commitRemoval ccId cc bank)) : w.shared.contestsChallenges.Was ccId cc := by
  have hgrounded := Service.Reaches.guarded (S := services) (τ := World.contestsChallenges)
    (φ := fun _ => grounded) (ρ := learned) h guarded_program learned_exec
    contestsChallenges_le_exec (fun x => nomatch x) hp
  rw [ho] at hgrounded
  exact hgrounded

/-- **The counters are right all the time** exactly if every step of the run is accounted
for. -/
theorem importCounts_iff (w₀ : World) (h₀ : Exact w₀) (log : List services.Entry)
    (w : services.Pool)
    (h : Service.Records Service.anyLogged (services.start w₀) log w) :
    ((∀ n ∈ log, Exact n.before) ∧ Exact w.shared) ↔
      ∀ n ∈ log, accounted n.env n.op n.before = true := by
  induction h with
  | refl =>
      exact iff_of_true ⟨List.forall_mem_nil _, h₀⟩ (List.forall_mem_nil _)
  | spawn _ _ ih => exact ih
  | @ambient _ _ x _ _ _ => exact nomatch x
  | @act log w pid e c o k hr hp _ ih =>
      have hstep (hbefore : Exact w.shared) :
          Exact (exec e o w.shared).2 ↔ accounted e o w.shared = true :=
        exact_exec_iff hbefore e o (was_of_pending hr.reaches hp)
      simp only [List.forall_mem_append, List.forall_mem_singleton, ← ih]
      constructor
      · rintro ⟨⟨hlog, hbefore⟩, hafter⟩
        exact ⟨⟨hlog, hbefore⟩, (hstep hbefore).mp hafter⟩
      · rintro ⟨⟨hlog, hbefore⟩, hacc⟩
        exact ⟨⟨hlog, hbefore⟩, (hstep hbefore).mpr hacc⟩

/-! ### What goes wrong -/

/-- Two contests, and a bank of two challenges; one contest holds one of them. -/
def twoContests : World where
  users := [⟨1, "admin"⟩]
  contests := [⟨1, some 1⟩, ⟨2, some 1⟩]
  challenges := [⟨⟨7, noProperties⟩, 1⟩, ⟨⟨8, noProperties⟩, 0⟩]
  contestsChallenges := Table.empty.insert ⟨1, some 7, none, noProperties, 0, "CREATED"⟩

instance (w : World) : Decidable (Exact w) :=
  inferInstanceAs (Decidable (∀ b ∈ w.challenges, _))

/-- An administrator imports a challenge of the bank, with nothing overridden. -/
def importRequest (contestId bankId : ℕ) : ImportRequest :=
  ⟨⟨1, "admin"⟩, contestId, some bankId, none, none, none, none, none, none, none, none⟩

/-- A challenge is imported, and another one taken out. -/
theorem importCounts_example :
    ∃ log w, Service.runLogged Service.anyLogged [] (services.start twoContests)
        (Service.callNow 0 (Call.importChallenge (importRequest 2 7)) Fault.none 4 ++
          Service.callNow 1 (Call.removeChallenge ⟨1, "admin"⟩ 1 1) Fault.none 4) =
          some (log, w) ∧
      (((∀ n ∈ log, Exact n.before) ∧ Exact w.shared) ↔
        ∀ n ∈ log, accounted n.env n.op n.before = true) ∧
      w.shared.contestsChallenges.rows.map (fun r => (r.1, r.2.contestId)) = [(2, 2)] ∧
      Exact w.shared := by
  have hrun : (Service.runLogged Service.anyLogged [] (services.start twoContests)
      (Service.callNow 0 (Call.importChallenge (importRequest 2 7)) Fault.none 4 ++
        Service.callNow 1 (Call.removeChallenge ⟨1, "admin"⟩ 1 1) Fault.none 4)).any
      (fun p => decide (p.2.shared.contestsChallenges.rows.map
        (fun r => (r.1, r.2.contestId)) = [(2, 2)] ∧ Exact p.2.shared)) = true := by
    decide +kernel
  obtain ⟨⟨log, w⟩, hw, hboth⟩ := (Option.any_eq_true _ _).mp hrun
  have hboth := of_decide_eq_true hboth
  exact ⟨log, w, hw, importCounts_iff twoContests (by decide) log w
    (Service.records_of_runLogged .refl hw), hboth⟩

/-- The calls are over, and a counter is wrong. -/
def Spoils (ms : List services.Move) : Prop :=
  ∃ w, Service.run (services.start twoContests) ms = some w ∧ Service.Quiescent w ∧
    ¬Exact w.shared

theorem spoils_of_run {ms : List services.Move}
    (h : (Service.run (services.start twoContests) ms).any
      (fun w => Service.atRest w && decide (¬Exact w.shared)) = true) : Spoils ms := by
  obtain ⟨w, hw, hboth⟩ := (Option.any_eq_true _ _).mp h
  obtain ⟨hrest, hwrong⟩ := Bool.and_eq_true_iff.mp hboth
  exact ⟨w, hw, Service.quiescent_of_atRest hrest, of_decide_eq_true hwrong⟩

/-- **What goes wrong.** A pull adds a challenge that its counter does not know of, a contest
that is deleted leaves the counters of its challenges, and of two imports that overlap one is
not counted. -/
theorem not_importCounts :
    ¬(Exact twoContests → ∀ w, Service.Reaches Service.anyMove (services.start twoContests) w →
        Service.Quiescent w → Exact w.shared) ∧
      Spoils (Service.callNow 0 (Call.pull ⟨2, [⟨7, noProperties⟩], 1⟩) Fault.none 4) ∧
      Spoils (Service.callNow 0 (Call.deleteContest ⟨1, "admin"⟩ 1) Fault.none 2) ∧
      Spoils (Service.callNow 0 (Call.importChallenge (importRequest 1 8)) Fault.none 3 ++
        Service.callNow 1 (Call.importChallenge (importRequest 2 8)) Fault.none 4 ++
          [.act 0 Fault.none]) := by
  have hpull : Spoils
      (Service.callNow 0 (Call.pull ⟨2, [⟨7, noProperties⟩], 1⟩) Fault.none 4) :=
    spoils_of_run (by decide +kernel)
  refine ⟨fun h => ?_, hpull, spoils_of_run (by decide +kernel),
    spoils_of_run (by decide +kernel)⟩
  obtain ⟨w, hw, hrest, hwrong⟩ := hpull
  exact hwrong (h (by decide) w (Service.reaches_of_run hw) hrest)

end ImportCount

end Fctf
