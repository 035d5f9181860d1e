import Fctf.Lib.Custody
import Fctf.Listener
import Fctf.Platform

/-!
# Deletions that were Missed

While its watch is down the listener sees no event. When it comes up again it lists the
pods, and `ReconcileOrphanedCachesAsync` is to make up for the deletions it has missed: the
row of every open deployment whose namespace is gone is closed. A deletion that is seen
removes the cached entry and the slot as well, and so the comment at the call has it.

## Main results

* `repaired_iff`: the reconciliation repairs what was missed if and only if nothing of it
  was left in Redis, and the database answers.
* `not_repaired`: a deployment that is gone keeps its entry and its slot.
-/

open Concurrent RedisDb

namespace Fctf

namespace Reconcile

/-! ### The program -/

/-- The operations on the table of the deployments. -/
inductive TrackingOp where
  | findOrphaned (activeNamespaces : List String)
  | saveStopped (stopped : List (ℕ × ℤ))

/-- The type of an operation's reply. -/
def TrackingOp.Reply : TrackingOp → Type
  | findOrphaned _ => List ℕ
  | saveStopped _ => Unit

/-- The interface: these operations, and those of the deployment services. -/
def reconcileI : Interface := deployI.plus ⟨TrackingOp, TrackingOp.Reply⟩

/-- The query for the rows, by their place. -/
def findOrphaned (activeNamespaces : List String) : Prog reconcileI Exn (List ℕ) :=
  Prog.perform (I := reconcileI) (.inr (.findOrphaned activeNamespaces))

/-- `SaveChangesAsync`. -/
def saveStopped (stopped : List (ℕ × ℤ)) : Prog reconcileI Exn Unit :=
  Prog.perform (I := reconcileI) (.inr (.saveStopped stopped))

/-- Is the row open, and its namespace not among those given? -/
def orphaned (activeNamespaces : List String) (ct : ChallengeStartTracking) : Bool :=
  ct.stoppedAt.isNone && !activeNamespaces.contains ct.label

/-- The row of a deployment that is gone. -/
def stop (t : ℤ) (ct : ChallengeStartTracking) : ChallengeStartTracking :=
  { ct with stoppedAt := some t }

/-- Rows are stopped, one after the other. -/
def stopRows (stopped : List (ℕ × ℤ)) (rows : List ChallengeStartTracking) :
    List ChallengeStartTracking :=
  stopped.foldl (fun rows x => rows.modify x.1 (stop x.2)) rows

/-- Which of the two operations are lost, or their replies. -/
structure Faults where
  /-- The query. -/
  find : Fault
  /-- `SaveChangesAsync`. -/
  save : Fault
  deriving DecidableEq, Repr

/-- What one operation answers and does. -/
def exec (e : Faults) : (o : reconcileI.Op) → World → Except Exn (reconcileI.Reply o) × World
  | .inl o, w => o.exec calm w
  | .inr (.findOrphaned activeNamespaces), w =>
      e.find.apply .database (fun w =>
        (.ok ((List.range w.challengeStartTrackings.length).filter fun i =>
          w.challengeStartTrackings[i]?.any (orphaned activeNamespaces)), w)) w
  | .inr (.saveStopped stopped), w =>
      e.save.apply .database (fun w =>
        (.ok (), { w with
          challengeStartTrackings := stopRows stopped w.challengeStartTrackings })) w

/-- The namespaces of the pods. -/
def activeNamespaces (currentPods : List V1Pod) : List String :=
  (currentPods.map (·.ns)).filter (· ≠ "")

/-- The rows are closed, each at the time of its turn. -/
def closeRows : List ℕ → Prog reconcileI Exn (List (ℕ × ℤ))
  | [] => pure []
  | row :: rows => do
      let now : ℤ ← (utcNow : Prog deployI Exn ℤ).onFirst
      let stopped ← closeRows rows
      pure ((row, now) :: stopped)

/-- The loop over the rows that were found, and the one save after it. -/
def closeOrphaned (orphaned : List ℕ) : Prog reconcileI Exn Unit :=
  if orphaned.isEmpty then pure ()
  else do
    let stopped ← closeRows orphaned
    saveStopped stopped

/-- `ReconcileOrphanedCachesAsync`. -/
def reconcileOrphanedCaches (currentPods : List V1Pod) : Prog reconcileI Exn Unit :=
  try
    let orphaned ← findOrphaned (activeNamespaces currentPods)
    closeOrphaned orphaned
  catch _ => pure ()

/-- The state after it. -/
def reconciled (e : Faults) (currentPods : List V1Pod) (w : World) : World :=
  ((reconcileOrphanedCaches currentPods).eval (exec e) w).2

/-! ### What is left of a deployment -/

/-- The key of the entry of a deployment. -/
def key (ct : ChallengeStartTracking) : String :=
  getCacheKey ct.contestId ct.contestChallengeId ct.teamId

/-- Its entry is in Redis. -/
def HasEntry (w : World) (ct : ChallengeStartTracking) : Prop :=
  ∃ d, w.redis.get (key ct) = some d ∧ d._namespace = ct.label

/-- Its slot is in Redis: the one of its challenge and team, unless the entry there is that
of another deployment. -/
def HasSlot (w : World) (ct : ChallengeStartTracking) : Prop :=
  (w.redis.zscore (getZSetKKey ct.contestId ct.teamId) ct.contestChallengeId).isSome = true ∧
    ∀ d, w.redis.get (key ct) = some d → d._namespace = ct.label

/-- **The missed deletions are repaired**: open deployments whose namespace is gone are
closed and leave nothing in Redis, the others keep what they have. -/
structure Repaired (currentPods : List V1Pod) (w w' : World) : Prop where
  /-- Those that are gone. -/
  gone : ∀ (i : ℕ) ct, w.challengeStartTrackings[i]? = some ct → ct.stoppedAt = none →
    ct.label ∉ activeNamespaces currentPods →
      (∃ t, w'.challengeStartTrackings[i]? = some (stop t ct)) ∧
        ¬HasEntry w' ct ∧ ¬HasSlot w' ct
  /-- Those that are there. -/
  present : ∀ (i : ℕ) ct, w.challengeStartTrackings[i]? = some ct → ct.stoppedAt = none →
    ct.label ∈ activeNamespaces currentPods →
      w'.challengeStartTrackings[i]? = some ct ∧
        (HasEntry w ct → HasEntry w' ct) ∧ (HasSlot w ct → HasSlot w' ct)

/-- What can be repaired: a deployment that is gone has left nothing in Redis, and if there is
one, the query is answered and the rows are stored. -/
def Repairable (e : Faults) (currentPods : List V1Pod) (w : World) : Prop :=
  ∀ ct ∈ w.challengeStartTrackings, ct.stoppedAt = none →
    ct.label ∉ activeNamespaces currentPods →
      e.find = .none ∧ e.save ≠ .before ∧ ¬HasEntry w ct ∧ ¬HasSlot w ct

/-! ### What the reconciliation does -/

section Exec

variable {e : Faults} {w : World}

theorem eval_closeRows (rows : List ℕ) :
    (closeRows rows).eval (exec e) w = (.ok (rows.map fun i => (i, w.redis.clock)), w) := by
  induction rows with
  | nil => rfl
  | cons row rows ih =>
      have hrest : (closeRows (row :: rows)).eval (exec e) w =
          (closeRows rows >>= fun stopped => pure ((row, w.redis.clock) :: stopped)).eval
            (exec e) w := rfl
      rw [hrest, Prog.eval_bind, ih]
      rfl

/-- Rows that are stopped at one time. -/
theorem getElem?_stopRows (rows : List ℕ) (t : ℤ) (l : List ChallengeStartTracking) (i : ℕ) :
    (stopRows (rows.map fun i => (i, t)) l)[i]? =
      if i ∈ rows then l[i]?.map (stop t) else l[i]? := by
  induction rows generalizing l with
  | nil => rfl
  | cons row rows ih =>
      rw [List.map_cons, stopRows, List.foldl_cons, ← stopRows, ih, List.getElem?_modify]
      by_cases hrow : row = i
      · subst hrow
        have hstop : (stop t ∘ stop t) = stop t := rfl
        simp [hstop]
      · simp [hrow, Ne.symm hrow]

/-- The rows that are found. -/
theorem mem_found {w : World} {namespaces : List String} {i : ℕ} :
    i ∈ (List.range w.challengeStartTrackings.length).filter (fun i =>
        w.challengeStartTrackings[i]?.any (orphaned namespaces)) ↔
      w.challengeStartTrackings[i]?.any (orphaned namespaces) = true := by
  rw [List.mem_filter, List.mem_range, and_iff_right_iff_imp]
  intro h
  obtain ⟨ct, hct, -⟩ := (Option.any_eq_true _ _).mp h
  exact (List.getElem?_eq_some_iff.mp hct).1

theorem eval_saveStopped (stopped : List (ℕ × ℤ)) :
    ((saveStopped stopped).eval (exec e) w).2 =
      if e.save = .before then w
      else { w with challengeStartTrackings := stopRows stopped w.challengeStartTrackings } := by
  change (exec e (.inr (.saveStopped stopped)) w).2 = _
  cases hf : e.save <;> simp [exec, Fault.apply, hf]

/-- The rows that were found are closed, unless the save is lost. -/
theorem eval_closeOrphaned (rows : List ℕ) :
    ((closeOrphaned rows).eval (exec e) w).2 =
      if e.save = .before then w
      else { w with
        challengeStartTrackings :=
          stopRows (rows.map fun i => (i, w.redis.clock)) w.challengeStartTrackings } := by
  rcases rows with _ | ⟨row, rows⟩
  · change w = if e.save = .before then w else w
    rw [ite_self]
  · change ((closeRows (row :: rows) >>= saveStopped).eval (exec e) w).2 = _
    rw [Prog.eval_bind, eval_closeRows]
    exact eval_saveStopped _

theorem eval_findOrphaned (namespaces : List String) :
    (findOrphaned namespaces).eval (exec e) w =
      (if e.find = .none then
        .ok ((List.range w.challengeStartTrackings.length).filter fun i =>
          w.challengeStartTrackings[i]?.any (orphaned namespaces))
      else .error .database, w) := by
  change exec e (.inr (.findOrphaned namespaces)) w = _
  cases hf : e.find <;> simp only [exec, Fault.apply, hf] <;> rfl

/-- A failure is caught. -/
theorem reconciled_of_error (currentPods : List V1Pod) {exn : Exn}
    (hfound : (findOrphaned (activeNamespaces currentPods)).eval (exec e) w = (.error exn, w)) :
    reconciled e currentPods w = w := by
  change (((findOrphaned (activeNamespaces currentPods) >>= closeOrphaned).handle
    fun _ => pure ()).eval (exec e) w).2 = _
  rw [Prog.eval_handle, Prog.eval_bind, hfound]
  rfl

theorem reconciled_of_ok (currentPods : List V1Pod) {rows : List ℕ}
    (hfound : (findOrphaned (activeNamespaces currentPods)).eval (exec e) w = (.ok rows, w)) :
    reconciled e currentPods w = ((closeOrphaned rows).eval (exec e) w).2 := by
  change (((findOrphaned (activeNamespaces currentPods) >>= closeOrphaned).handle
    fun _ => pure ()).eval (exec e) w).2 = _
  rw [Prog.eval_handle, Prog.eval_bind, hfound]
  dsimp only
  generalize (closeOrphaned rows).eval (exec e) w = out
  obtain ⟨_ | a, w'⟩ := out
  · rfl
  · rfl

/-- **The tables after it.** -/
theorem reconciled_eq (e : Faults) (currentPods : List V1Pod) (w : World) :
    (reconciled e currentPods w).redis = w.redis ∧
      ∀ i : ℕ, (reconciled e currentPods w).challengeStartTrackings[i]? =
        if e.find = .none ∧ e.save ≠ .before ∧ w.challengeStartTrackings[i]?.any
            (orphaned (activeNamespaces currentPods)) = true then
          w.challengeStartTrackings[i]?.map (stop w.redis.clock)
        else w.challengeStartTrackings[i]? := by
  have hfound := eval_findOrphaned (e := e) (w := w) (activeNamespaces currentPods)
  by_cases hfind : e.find = .none
  · rw [if_pos hfind] at hfound
    rw [reconciled_of_ok currentPods hfound, eval_closeOrphaned]
    by_cases hsave : e.save = .before
    · rw [if_pos hsave]
      exact ⟨rfl, fun i => (if_neg fun h => h.2.1 hsave).symm⟩
    · rw [if_neg hsave]
      refine ⟨rfl, fun i => (getElem?_stopRows _ _ _ _).trans ?_⟩
      simp only [mem_found, hfind, hsave, true_and, ne_eq, not_false_eq_true]
  · rw [if_neg hfind] at hfound
    rw [reconciled_of_error currentPods hfound]
    exact ⟨rfl, fun i => (if_neg fun h => hfind h.1).symm⟩

end Exec

/-! ### What it repairs -/

theorem hasEntry_congr {w w' : World} (h : w'.redis = w.redis) (ct : ChallengeStartTracking) :
    HasEntry w' ct ↔ HasEntry w ct := by
  rw [HasEntry, HasEntry, h]

theorem hasSlot_congr {w w' : World} (h : w'.redis = w.redis) (ct : ChallengeStartTracking) :
    HasSlot w' ct ↔ HasSlot w ct := by
  rw [HasSlot, HasSlot, h]

theorem stop_ne_self {ct : ChallengeStartTracking} (h : ct.stoppedAt = none) (t : ℤ) :
    stop t ct ≠ ct := by
  intro heq
  have hstopped := congrArg ChallengeStartTracking.stoppedAt heq
  rw [h] at hstopped
  cases hstopped

/-- **When missed deletions are repaired.** After the reconciliation every open deployment
whose namespace is gone is closed and has left nothing in Redis, and all others are as they
were, if and only if those that are gone had left nothing there before and the database answers. -/
theorem repaired_iff (e : Faults) (currentPods : List V1Pod) (w : World) :
    Repaired currentPods w (reconciled e currentPods w) ↔ Repairable e currentPods w := by
  obtain ⟨hredis, hrows⟩ := reconciled_eq e currentPods w
  constructor
  · intro h ct hct hopen hgone
    obtain ⟨i, hi⟩ := List.getElem?_of_mem hct
    obtain ⟨⟨t, hstopped⟩, hentry, hslot⟩ := h.gone i ct hi hopen hgone
    rw [hasEntry_congr hredis] at hentry
    rw [hasSlot_congr hredis] at hslot
    rw [hrows, hi] at hstopped
    split at hstopped
    · next hsaved => exact ⟨hsaved.1, hsaved.2.1, hentry, hslot⟩
    · exact absurd (Option.some.inj hstopped).symm (stop_ne_self hopen t)
  · intro h
    refine ⟨fun i ct hi hopen hgone => ?_, fun i ct hi hopen hpresent => ?_⟩
    · obtain ⟨hfind, hsave, hentry, hslot⟩ := h ct (List.mem_of_getElem? hi) hopen hgone
      rw [hasEntry_congr hredis, hasSlot_congr hredis]
      refine ⟨⟨w.redis.clock, ?_⟩, hentry, hslot⟩
      rw [hrows, hi, if_pos, Option.map_some]
      refine ⟨hfind, hsave, ?_⟩
      rw [Option.any_some, orphaned, hopen]
      simpa using hgone
    · rw [hasEntry_congr hredis, hasSlot_congr hredis]
      refine ⟨?_, id, id⟩
      rw [hrows, hi, if_neg]
      rintro ⟨-, -, horphaned⟩
      rw [Option.any_some, orphaned, Bool.and_eq_true_iff] at horphaned
      simp [hpresent] at horphaned

/-! ### A deletion that was missed -/

/-- Whatever the deployments and the pods: once the database answers, what was missed is
repaired. -/
def AlwaysRepaired : Prop :=
  ∀ (currentPods : List V1Pod) (w : World),
    Repaired currentPods w (reconciled ⟨.none, .none⟩ currentPods w)

/-- The deployment of team 5 was reported running at time 1000. -/
def runningRow : ChallengeStartTracking := ⟨7, 1, 5, 1000, none, "team-5-1-7-web-1000"⟩

/-- Its entry. -/
def runningEntry : ChallengeDeploymentCacheDTO where
  challengeId := 7
  contestId := 1
  userId := 9
  teamId := 5
  _namespace := "team-5-1-7-web-1000"
  podId := "a"
  workflowName := "wf"
  challengeUrl := ""
  timeFinished := 2800
  status := .runing
  ready := true

/-- The state in which it runs. -/
def runningWorld : World where
  redis := ((RedisOp.set (key runningRow) runningEntry 1800).exec (Db.empty 1000)).2
  challengeStartTrackings := [runningRow]
  queue := []
  nextTag := 0
  tables := webTables

/-- **What is left.** The pod is gone, and the entry still says that it is running. -/
theorem not_repaired : HasEntry (reconciled ⟨.none, .none⟩ [] runningWorld) runningRow ∧
    ¬AlwaysRepaired := by
  have hentry : HasEntry (reconciled ⟨.none, .none⟩ [] runningWorld) runningRow := by
    refine (hasEntry_congr (reconciled_eq _ _ _).1 _).mpr ⟨runningEntry, ?_, rfl⟩
    decide +kernel
  refine ⟨hentry, fun h => ?_⟩
  exact ((h [] runningWorld).gone 0 runningRow rfl rfl List.not_mem_nil).2.1 hentry

end Reconcile

end Fctf
