import Fctf.ChallengeUpload

/-!
# The Versions of a Challenge

An upload stores a version of its challenge with the next number and makes it the active one.
A rollback makes another version active, and copies to the challenge what that version has
recorded; where it has recorded nothing the challenge keeps what it has.

## Main results

* `versionsConsistent`: in every run of uploads and rollbacks, at most one version is active
  and the numbers increase, and a rollback restores what its version has recorded.
* `not_versionsRestored`: a limit the version does not have stays.
-/

open Concurrent

namespace Fctf

namespace Bank

/-! ### The history -/

/-- **A consistent history**, in the order of creation. -/
structure Consistent (w : World) : Prop where
  created : w.versions.Pairwise fun v v' => v.id < v'.id
  fresh : ∀ v ∈ w.versions, v.id < w.nextId
  /-- The numbers increase. -/
  numbered : w.versions.Pairwise fun v v' =>
    v.challengeId = v'.challengeId → v.versionNumber < v'.versionNumber
  /-- At most one version is active. -/
  active : w.versions.Pairwise fun v v' =>
    v.challengeId = v'.challengeId → ¬(v.isActive = true ∧ v'.isActive = true)

section History

variable {w w' : World} {id challengeId : ℤ} {v : ChallengeVersion} {challenge : BankChallenge}

/-- The challenges do not matter. -/
theorem Consistent.congr (h : Consistent w) (hversions : w'.versions = w.versions)
    (hnext : w'.nextId = w.nextId) : Consistent w' :=
  ⟨hversions ▸ h.created, by rw [hversions, hnext]; exact h.fresh, hversions ▸ h.numbered,
    hversions ▸ h.active⟩

/-- The active flags are changed. -/
theorem Consistent.flagged (h : Consistent w) {f : ChallengeVersion → Bool}
    (hversions : w'.versions = w.versions.map fun v => { v with isActive := f v })
    (hnext : w'.nextId = w.nextId)
    (hactive : w.versions.Pairwise fun v v' =>
      v.challengeId = v'.challengeId → ¬(f v = true ∧ f v' = true)) : Consistent w' := by
  refine ⟨?_, ?_, ?_, ?_⟩
  · rw [hversions, List.pairwise_map]
    exact h.created
  · rw [hversions, hnext]
    exact List.forall_mem_map.mpr h.fresh
  · rw [hversions, List.pairwise_map]
    exact h.numbered
  · rw [hversions, List.pairwise_map]
    exact hactive

/-- What the flags are without those of a challenge. -/
def activeElsewhere (challengeId : ℤ) (v : ChallengeVersion) : Bool :=
  v.isActive && decide (v.challengeId ≠ challengeId)

theorem versions_deactivate (challengeId : ℤ) (w : World) :
    (w.deactivate challengeId).versions =
      w.versions.map fun v => { v with isActive := activeElsewhere challengeId v } := by
  refine List.map_congr_left fun v _ => ?_
  rw [activeElsewhere]
  split
  · next h =>
      rw [decide_eq_false (not_not_intro h), Bool.and_false]
  · next h =>
      rw [decide_eq_true h, Bool.and_true]

theorem Consistent.deactivate (h : Consistent w) (challengeId : ℤ) :
    Consistent (w.deactivate challengeId) := by
  refine h.flagged (versions_deactivate challengeId w) rfl (h.active.imp fun hnot heq hboth => ?_)
  exact hnot heq ⟨Bool.and_elim_left hboth.1, Bool.and_elim_left hboth.2⟩

/-- The next number is greater than all before. -/
theorem lt_nextVersion (hv : v ∈ w.versions) (hid : v.challengeId = challengeId) :
    v.versionNumber < w.nextVersion challengeId := by
  have hmem : v.versionNumber ∈
      (w.versions.filter (·.challengeId = challengeId)).map (·.versionNumber) :=
    List.mem_map.mpr ⟨v, List.mem_filter.mpr ⟨hv, decide_eq_true hid⟩, rfl⟩
  rw [World.nextVersion]
  split
  · next latest hmax => exact Int.lt_add_one_of_le ((List.max?_eq_some_iff.mp hmax).2 _ hmem)
  · next hmax =>
      rw [List.max?_eq_none_iff.mp hmax] at hmem
      cases hmem

/-- **An upload** adds the latest version, the only active one. -/
theorem Consistent.addVersion (h : Consistent w)
    (hnone : ∀ v ∈ w.versions, v.challengeId = challenge.id → v.isActive = false) :
    Consistent (w.addVersion challenge) := by
  have hpair {p : ChallengeVersion → ChallengeVersion → Prop} {new : ChallengeVersion}
      (hold : w.versions.Pairwise p) (hnew : ∀ v ∈ w.versions, p v new) :
      (w.versions ++ [new]).Pairwise p := by
    rw [List.pairwise_append]
    refine ⟨hold, List.pairwise_singleton _ _, fun v hv v' hv' => ?_⟩
    rw [List.mem_singleton.mp hv']
    exact hnew v hv
  refine ⟨hpair h.created h.fresh, ?_, hpair h.numbered fun v hv heq => lt_nextVersion hv heq,
    hpair h.active fun v hv heq hboth => ?_⟩
  · refine List.forall_mem_append.mpr ⟨fun v hv => ?_, fun v hv => ?_⟩
    · exact (h.fresh v hv).trans (Int.lt_add_one_of_le (le_refl _))
    · rw [List.mem_singleton.mp hv]
      exact Int.lt_add_one_of_le (le_refl _)
  · rw [hnone v hv heq] at hboth
    cases hboth.1

/-- **A rollback** makes one version of its challenge active, and no other. -/
theorem Consistent.activate (h : Consistent w) {versionId : ℤ}
    (hversion : ∀ v ∈ w.versions, v.id = versionId → v.challengeId = challengeId) :
    Consistent ((w.deactivate challengeId).activate versionId) := by
  refine h.flagged (f := fun v => decide (v.id = versionId) || activeElsewhere challengeId v)
    ?_ rfl ((h.created.and h.active).imp_of_mem fun {v v'} hv hv' hboth heq hactive => ?_)
  · rw [World.activate, versions_deactivate, List.map_map]
    refine List.map_congr_left fun v _ => ?_
    rw [Function.comp_apply]
    split
    · next hid => rw [decide_eq_true hid, Bool.true_or]
    · next hid => rw [decide_eq_false hid, Bool.false_or]
  · obtain ⟨hlt, hnot⟩ := hboth
    obtain ⟨hact, hact'⟩ := hactive
    -- the version is not active already, and nothing else of its challenge is
    have helsewhere {u u' : ChallengeVersion} (hu : u ∈ w.versions) (hid : u.id = versionId)
        (hsame : u.challengeId = u'.challengeId)
        (hact : activeElsewhere challengeId u' = true) : False := by
      have hne : u'.challengeId ≠ challengeId :=
        of_decide_eq_true (Bool.and_elim_right hact)
      exact hne (hsame.symm.trans (hversion u hu hid))
    obtain hid | hold := (Bool.or_eq_true _ _).mp hact
    · obtain hid' | hold' := (Bool.or_eq_true _ _).mp hact'
      · exact absurd ((of_decide_eq_true hid).trans (of_decide_eq_true hid').symm) hlt.ne
      · exact helsewhere hv (of_decide_eq_true hid) heq hold'
    · obtain hid' | hold' := (Bool.or_eq_true _ _).mp hact'
      · exact helsewhere hv' (of_decide_eq_true hid') heq.symm hold
      · exact hnot heq ⟨Bool.and_elim_left hold, Bool.and_elim_left hold'⟩

end History

/-! ### Requests one after the other -/

/-- The requests, and changes of a challenge by others. -/
inductive VersionRequest where
  | upload (challengeId : ℤ) (filename : String) (exposePort : Option String)
  | rollback (challengeId versionId : ℤ)
  | edit (challenge : BankChallenge)

/-- What the surroundings choose in view of each operation. -/
abbrev Surroundings := BankOp → World → BankEnv

/-- A request, served alone. -/
def serve {α : Type} (cfg : UploadConfig) (surroundings : Surroundings) (p : Prog bankI Exn α)
    (w : World) : Except Exn α × World :=
  p.eval (fun o w => BankOp.exec cfg (surroundings o w) o w) w

/-- The state after a request. -/
def VersionRequest.after (cfg : UploadConfig) (surroundings : Surroundings) :
    VersionRequest → World → World
  | .upload challengeId filename exposePort, w =>
      (serve cfg surroundings (uploadFile cfg challengeId filename exposePort) w).2
  | .rollback challengeId versionId, w =>
      (serve cfg surroundings (Bank.rollback challengeId versionId) w).2
  | .edit challenge, w => w.updateChallenge challenge.id fun _ => challenge

/-- The state after some requests. -/
def afterAll (cfg : UploadConfig) (requests : List (VersionRequest × Surroundings)) (w : World) :
    World :=
  requests.foldl (fun w r => r.1.after cfg r.2 w) w

section Requests

variable {cfg : UploadConfig} {surroundings : Surroundings} {w : World} {e : BankEnv}

/-- **Uploads** keep a history consistent. -/
theorem Consistent.ofUpload {o : BankOp} (h : Consistent w) (ho : OfUpload o) :
    Consistent (o.exec cfg e w).2 := by
  obtain hsame | heffect := o.exec_snd cfg e w
  · rw [hsame]
    exact h
  · rw [heffect]
    cases o with
    | submit id path tag => exact h.congr rfl rfl
    | commit loaded challenge => exact h.congr rfl rfl
    | commitUpload loaded challenge =>
        have hupdated : Consistent (w.updateChallenge challenge.id (flush cfg loaded challenge)) :=
          h.congr rfl rfl
        rw [effect_commitUpload]
        split
        · refine (hupdated.deactivate challenge.id).addVersion fun v hv hid => ?_
          rw [versions_deactivate] at hv
          obtain ⟨u, -, rfl⟩ := List.mem_map.mp hv
          exact Bool.and_eq_false_imp.mpr fun _ => decide_eq_false (not_not_intro hid)
        · exact hupdated
    | commitRollback versionId loaded challenge => exact ho.elim
    | saveChallenge challenge => exact ho.elim
    | _ => exact h

/-- A read answers what it finds, unless a fault gets in the way. -/
theorem fault_reply {α : Type} {f : Fault} {exn : Exn} {g : World → α} {a : α}
    (h : (f.apply exn (fun w => (.ok (g w), w)) w).1 = .ok a) : g w = a := by
  cases f with
  | none => exact Except.ok.inj h
  | before => cases h
  | after => cases h

/-- The request was answered with success. -/
def Succeeded (r : Except Exn Response) : Prop := ∃ a, r = .ok a ∧ a.success = true

/-- What a rollback that gets to its end does. -/
structure RollsBack (cfg : UploadConfig) (challengeId versionId : ℤ) (w w' : World)
    (challenge : BankChallenge) (version : ChallengeVersion) : Prop where
  found : w.challenge challengeId = some challenge
  stored : version ∈ w.versions
  ofId : version.id = versionId
  ofChallenge : version.challengeId = challengeId
  /-- It has an image. -/
  image : version.imageLink.all (· = "") = false
  after : w' = ((w.deactivate challenge.id).activate version.id).updateChallenge challenge.id
    (flush cfg challenge (version.applyTo challenge))

/-- How a rollback ends: nothing is changed, or the version is restored. -/
def Ends (cfg : UploadConfig) (challengeId versionId : ℤ) (w : World)
    (out : Except Exn Response × World) : Prop :=
  (out.2 = w ∧ ¬Succeeded out.1) ∨
    ∃ challenge version, RollsBack cfg challengeId versionId w out.2 challenge version

theorem ends_refused {challengeId versionId : ℤ} {status : ℕ} {message : String} :
    Ends cfg challengeId versionId w (.ok (.plain status false message), w) :=
  .inl ⟨rfl, fun ⟨_, ha, hsuccess⟩ => by
    obtain rfl := Except.ok.inj ha
    cases hsuccess⟩

theorem ends_raised {challengeId versionId : ℤ} {exn : Exn} :
    Ends cfg challengeId versionId w (.error exn, w) :=
  .inl ⟨rfl, fun ⟨_, ha, _⟩ => by cases ha⟩

theorem ends_bind {α : Type} {challengeId versionId : ℤ} {r : Except Exn α} {w' : World}
    {f : α → Prog bankI Exn Response} (hw : w' = w)
    (h : ∀ a, r = .ok a → Ends cfg challengeId versionId w (serve cfg surroundings (f a) w)) :
    Ends cfg challengeId versionId w (serve cfg surroundings (Prog.bind (.ret r) f) w') := by
  subst hw
  cases r with
  | error exn => exact ends_raised
  | ok a => exact h a rfl

/-- What a rollback does once it has read both rows. -/
theorem ends_commit {challengeId versionId : ℤ} {challenge : BankChallenge}
    {version : ChallengeVersion} (hfound : w.challenge challengeId = some challenge)
    (hstored : version ∈ w.versions) (hid : version.id = versionId)
    (hof : version.challengeId = challengeId)
    (himage : version.imageLink.all (· = "") = false) {a b : Response} (hb : b.success = false) :
    Ends cfg challengeId versionId w (serve cfg surroundings
      (Prog.handle (do
        let _ : Unit ← query (.commitRollback version.id challenge (version.applyTo challenge))
        return a) fun _ => pure b) w) := by
  have hlast (r : Except Exn Unit) (w' : World)
      (h : w' = w ∧ (∃ exn, r = .error exn) ∨ w' = ((w.deactivate challenge.id).activate
        version.id).updateChallenge challenge.id
          (flush cfg challenge (version.applyTo challenge))) :
      Ends cfg challengeId versionId w (serve cfg surroundings
        (((Prog.ret r : Prog bankI Exn Unit).bind fun _ => .ret (.ok a)).handle fun _ =>
          .ret (.ok b)) w') := by
    obtain ⟨rfl, exn, rfl⟩ | hafter := h
    · refine .inl ⟨rfl, fun ⟨_, ha, hsuccess⟩ => ?_⟩
      obtain rfl := Except.ok.inj ha
      rw [hb] at hsuccess
      cases hsuccess
    · refine .inr ⟨challenge, version, hfound, hstored, hid, hof, himage, ?_⟩
      cases r <;> exact hafter
  refine hlast (BankOp.exec cfg _ (.commitRollback version.id challenge
    (version.applyTo challenge)) w).1 (BankOp.exec cfg _ (.commitRollback version.id challenge
    (version.applyTo challenge)) w).2 ?_
  obtain ⟨fault, _, _, _, _, _, _, _⟩ := surroundings
    (.commitRollback version.id challenge (version.applyTo challenge)) w
  cases fault with
  | before => exact .inl ⟨rfl, _, rfl⟩
  | _ => exact .inr rfl

/-- **Everything a rollback can do.** -/
theorem ends_rollback (cfg : UploadConfig) (surroundings : Surroundings)
    (challengeId versionId : ℤ) (w : World) :
    Ends cfg challengeId versionId w
      (serve cfg surroundings (rollback challengeId versionId) w) := by
  refine @ends_bind _ _ _ _ _ _ (BankOp.exec cfg _ (.findChallenge (some challengeId)) w).1
    (BankOp.exec cfg _ (.findChallenge (some challengeId)) w).2 _
    (((BankOp.findChallenge (some challengeId)).exec_snd cfg _ w).elim id id)
    fun challenge hchallenge => ?_
  have hfound := fault_reply hchallenge
  cases challenge with
  | none => exact ends_refused
  | some challenge =>
      refine @ends_bind _ _ _ _ _ _ (BankOp.exec cfg _ (.findVersion versionId challengeId) w).1
        (BankOp.exec cfg _ (.findVersion versionId challengeId) w).2 _
        (((BankOp.findVersion versionId challengeId).exec_snd cfg _ w).elim id id)
        fun version hversion => ?_
      have hstored := fault_reply hversion
      cases version with
      | none => exact ends_refused
      | some version =>
          change Ends cfg challengeId versionId w (serve cfg surroundings (ite _ _ _) w)
          split
          · exact ends_refused
          split
          · exact ends_refused
          · next himage =>
              have hdecide := List.find?_some hstored
              obtain ⟨hid, hof⟩ := of_decide_eq_true hdecide
              exact ends_commit hfound (List.mem_of_find?_eq_some hstored) hid hof
                (Bool.eq_false_iff.mpr himage) rfl

/-- **A rollback** keeps a history consistent. -/
theorem Consistent.ofEnds {challengeId versionId : ℤ} {out : Except Exn Response × World}
    (h : Consistent w) (hends : Ends cfg challengeId versionId w out) : Consistent out.2 := by
  obtain ⟨hsame, -⟩ | ⟨challenge, version, hback⟩ := hends
  · rw [hsame]
    exact h
  · have hid := World.id_of_challenge hback.found
    have hkeys : (w.versions.map (·.id)).Nodup :=
      List.pairwise_map.mpr (h.created.imp fun hlt => hlt.ne)
    have hactivate : Consistent ((w.deactivate challenge.id).activate version.id) := by
      refine h.activate fun v hv heq => ?_
      rw [List.inj_on_of_nodup_map hkeys hv hback.stored heq, hback.ofChallenge, hid]
    rw [hback.after]
    exact hactivate.congr rfl rfl

/-- **Every request** keeps a history consistent. -/
theorem Consistent.after (h : Consistent w) (r : VersionRequest) (surroundings : Surroundings) :
    Consistent (r.after cfg surroundings w) := by
  cases r with
  | upload challengeId filename exposePort =>
      exact throughout_uploadFile.eval h fun o w ho hw => hw.ofUpload ho
  | rollback challengeId versionId =>
      exact h.ofEnds (ends_rollback cfg surroundings challengeId versionId w)
  | edit challenge => exact h.congr rfl rfl

/-- **So does every run.** -/
theorem Consistent.afterAll (h : Consistent w) (requests : List (VersionRequest × Surroundings)) :
    Consistent (afterAll cfg requests w) := by
  induction requests generalizing w with
  | nil => exact h
  | cons r requests ih => exact ih (h.after r.1 r.2)

end Requests

/-! ### What is restored -/

/-- What a version records of its challenge. -/
structure Recorded where
  imageLink : Option String
  deployFile : Option String
  cpuLimit : Option ℤ
  cpuRequest : Option ℤ
  memoryLimit : Option ℤ
  memoryRequest : Option ℤ
  useGvisor : Option Bool
  hardenContainer : Option Bool
  maxDeployCount : Option ℤ
  deriving DecidableEq, Repr

/-- The fields of a challenge that are recorded. -/
def BankChallenge.recorded (c : BankChallenge) : Recorded :=
  ⟨c.imageLink, c.deployFile, c.cpuLimit, c.cpuRequest, c.memoryLimit, c.memoryRequest,
    c.useGvisor, c.hardenContainer, c.maxDeployCount⟩

/-- What a version has recorded. -/
def ChallengeVersion.recorded (v : ChallengeVersion) : Recorded :=
  ⟨v.imageLink, v.deployFile, v.cpuLimit, v.cpuRequest, v.memoryLimit, v.memoryRequest,
    v.useGvisor, v.hardenContainer, v.maxDeployCount⟩

/-- What is recorded, and where nothing is, what there was. -/
def Recorded.over (new old : Recorded) : Recorded where
  imageLink := new.imageLink
  deployFile := if new.deployFile.any (· ≠ "") then new.deployFile else old.deployFile
  cpuLimit := new.cpuLimit.or old.cpuLimit
  cpuRequest := new.cpuRequest.or old.cpuRequest
  memoryLimit := new.memoryLimit.or old.memoryLimit
  memoryRequest := new.memoryRequest.or old.memoryRequest
  useGvisor := new.useGvisor.or old.useGvisor
  hardenContainer := new.hardenContainer.or old.hardenContainer
  maxDeployCount := new.maxDeployCount.or old.maxDeployCount

/-- A rollback restores what its version has recorded. -/
theorem recorded_flush (cfg : UploadConfig) (challenge : BankChallenge)
    (version : ChallengeVersion) :
    (flush cfg challenge (version.applyTo challenge) challenge).recorded =
      version.recorded.over challenge.recorded := by
  simp only [flush, written_loaded]
  rfl

section Restored

variable {cfg : UploadConfig} {surroundings : Surroundings} {w : World}

/-- **What a rollback leaves**: its version active, and the challenge with what the version
has recorded by the rule `restore`. -/
def Restores (restore : Recorded → Recorded → Recorded) (challengeId versionId : ℤ)
    (w w' : World) : Prop :=
  ∃ version ∈ w.versions, version.id = versionId ∧ version.challengeId = challengeId ∧
    { version with isActive := true } ∈ w'.versions ∧
    ∃ challenge ∈ w.challenge challengeId, ∃ challenge' ∈ w'.challenge challengeId,
      challenge'.recorded = restore version.recorded challenge.recorded

theorem mem_activate {version : ChallengeVersion} (h : version ∈ w.versions) (challengeId : ℤ) :
    { version with isActive := true } ∈
      ((w.deactivate challengeId).activate version.id).versions := by
  refine List.mem_map.mpr ⟨_, List.mem_map.mpr ⟨version, h, rfl⟩, ?_⟩
  split <;> exact if_pos rfl

theorem restores_of_succeeded {challengeId versionId : ℤ} {out : Except Exn Response × World}
    (hends : Ends cfg challengeId versionId w out) (hsucceeded : Succeeded out.1) :
    Restores Recorded.over challengeId versionId w out.2 := by
  obtain ⟨-, hnot⟩ | ⟨challenge, version, hback⟩ := hends
  · exact absurd hsucceeded hnot
  obtain rfl := World.id_of_challenge hback.found
  refine ⟨version, hback.stored, hback.ofId, hback.ofChallenge, ?_, challenge, hback.found,
    flush cfg challenge (version.applyTo challenge) challenge, ?_,
    recorded_flush cfg challenge version⟩
  · rw [hback.after]
    exact mem_activate hback.stored challenge.id
  · rw [hback.after]
    have hfound : ((w.deactivate challenge.id).activate version.id).challenge challenge.id =
        some challenge := hback.found
    exact World.challenge_updateChallenge_same
      (f := flush cfg challenge (version.applyTo challenge)) (fun _ h => h) hfound

instance (r : Except Exn Response) : Decidable (Succeeded r) :=
  match r with
  | .ok a => decidable_of_iff (a.success = true)
      ⟨fun h => ⟨a, rfl, h⟩, fun ⟨_, ha, h⟩ => Except.ok.inj ha ▸ h⟩
  | .error _ => .isFalse nofun

instance (restore : Recorded → Recorded → Recorded) (challengeId versionId : ℤ) (w w' : World) :
    Decidable (Restores restore challengeId versionId w w') :=
  inferInstanceAs (Decidable (∃ version ∈ w.versions, _))

/-- **The versions of every challenge** in every run. -/
theorem versionsConsistent (cfg : UploadConfig) (w₀ : World) (h₀ : Consistent w₀)
    (requests : List (VersionRequest × Surroundings)) :
    Consistent (afterAll cfg requests w₀) ∧
      ∀ surroundings challengeId versionId,
        Succeeded (serve cfg surroundings (rollback challengeId versionId)
          (afterAll cfg requests w₀)).1 →
        Restores Recorded.over challengeId versionId (afterAll cfg requests w₀)
          (serve cfg surroundings (rollback challengeId versionId)
            (afterAll cfg requests w₀)).2 :=
  ⟨h₀.afterAll requests, fun surroundings challengeId versionId hsucceeded =>
    restores_of_succeeded (ends_rollback cfg surroundings challengeId versionId _) hsucceeded⟩

/-- The platform as it is. -/
def versionConfig : UploadConfig := ⟨false, "/mnt/nfs", "fctf", "challenges"⟩

/-- Surroundings in which nothing is lost. -/
def calmSurroundings : Surroundings := fun _ _ =>
  ⟨.none, .redis, true, .copied (some "challenges/web-1"), 1000, some "up-1", some "Running", true⟩

/-- A challenge with a CPU limit. -/
def limitedChallenge : BankChallenge where
  id := 1
  imageLink := some "web:2"
  deployFile := some "/mnt/nfs/challenges/web-1"
  cpuLimit := some 500
  cpuRequest := none
  memoryLimit := none
  memoryRequest := none
  useGvisor := none
  hardenContainer := some true
  maxDeployCount := some 0
  state := "visible"
  requireDeploy := true
  deployStatus := some "DEPLOY_SUCCEEDED"

/-- A version of the challenge. -/
def webVersion (id versionNumber : ℤ) (imageLink : String) (cpuLimit : Option ℤ)
    (isActive : Bool) : ChallengeVersion where
  id := id
  challengeId := 1
  versionNumber := versionNumber
  imageLink := some imageLink
  deployFile := some "/mnt/nfs/challenges/web-1"
  cpuLimit := cpuLimit
  cpuRequest := none
  memoryLimit := none
  memoryRequest := none
  useGvisor := none
  hardenContainer := some true
  maxDeployCount := some 0
  isActive := isActive

/-- Its first version has no CPU limit, its second one has. -/
def twoVersions : World :=
  ⟨[limitedChallenge], [webVersion 1 1 "web:1" none false, webVersion 2 2 "web:2" (some 500) true],
    3, []⟩

theorem consistent_twoVersions : Consistent twoVersions :=
  ⟨by decide, by decide, by decide, by decide⟩

/-- After an upload, a rollback to the first version. -/
theorem versionsConsistent_example :
    Consistent (afterAll versionConfig [(.upload 1 "web.zip" (some "80"), calmSurroundings)]
        twoVersions) ∧
      Restores Recorded.over 1 1
        (afterAll versionConfig [(.upload 1 "web.zip" (some "80"), calmSurroundings)] twoVersions)
        (serve versionConfig calmSurroundings (rollback 1 1)
          (afterAll versionConfig [(.upload 1 "web.zip" (some "80"), calmSurroundings)]
            twoVersions)).2 := by
  obtain ⟨hconsistent, hrestores⟩ := versionsConsistent versionConfig twoVersions
    consistent_twoVersions [(.upload 1 "web.zip" (some "80"), calmSurroundings)]
  exact ⟨hconsistent, hrestores calmSurroundings 1 1 (by decide +kernel)⟩

/-- Two uploads of a challenge, that gets its CPU limit in between. -/
def twoUploads : List (VersionRequest × Surroundings) :=
  [(.upload 1 "web.zip" (some "80"), calmSurroundings), (.edit limitedChallenge, calmSurroundings),
    (.upload 1 "web.zip" (some "80"), calmSurroundings)]

/-- The platform, if its classes had all columns. -/
def mappedConfig : UploadConfig := { versionConfig with mapsRuntime := true }

/-- The state after the uploads. -/
def afterUploads : World :=
  afterAll mappedConfig twoUploads
    ⟨[{ limitedChallenge with cpuLimit := none }], [], 1, []⟩

/-- **A limit that stays.** The first version has none, and after the rollback to it the
challenge has the second one's; and so it would be with versions from two uploads. -/
theorem not_versionsRestored :
    (Consistent twoVersions ∧
      Succeeded (serve versionConfig calmSurroundings (rollback 1 1) twoVersions).1 ∧
      ¬Restores (fun recorded _ => recorded) 1 1 twoVersions
        (serve versionConfig calmSurroundings (rollback 1 1) twoVersions).2) ∧
    Succeeded (serve mappedConfig calmSurroundings (rollback 1 1) afterUploads).1 ∧
      ¬Restores (fun recorded _ => recorded) 1 1 afterUploads
        (serve mappedConfig calmSurroundings (rollback 1 1) afterUploads).2 :=
  ⟨⟨consistent_twoVersions, by decide +kernel, by decide +kernel⟩, by decide +kernel,
    by decide +kernel⟩

end Restored

end Bank

end Fctf
