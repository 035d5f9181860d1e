import Fctf.Registration

/-!
# Accounts by Name

Who logs in is looked up by name, and the table has no unique index on it. A registration
looks its name up before it writes its row, but not in one step; an import derives names
from addresses and looks nothing up.

## Main results

* `loginNames`: names stay distinct as long as no name is looked up while another
  registration is about to write it, and no import makes an account of a name that is taken.
* `not_loginNames`: two visitors register the same name at the same time.
-/

open Concurrent

namespace Fctf

namespace Accounts

/-- The accounts of a name. -/
def accountsNamed (db : Database) (users : List User) (username : String) : List User :=
  users.filter fun u => u.visible && db.culture.sameText u.name username

/-- `FirstOrDefaultAsync(u => u.Name == loginDto.username)`, in `LoginContestant`. -/
def loginAccount (db : Database) (users : List User) (username : String) : Option User :=
  (accountsNamed db users username).head?

/-- **No two accounts have the same name.** -/
def NamesDistinct (db : Database) (users : List User) : Prop :=
  ∀ username, (accountsNamed db users username).length ≤ 1

/-- The name that a row holds, as it is compared. -/
def heldName (db : Database) (u : User) : Option String :=
  if u.live then u.name.map db.culture.lower else none

/-- The names that the rows hold. -/
def heldNames (db : Database) (users : List User) : List String := users.filterMap (heldName db)

section Names

variable {db : Database} {users : List User} {u : User} {username : String}

theorem live_of_visible (h : u.visible = true) : u.live = true := by
  rw [User.visible, decide_eq_true_iff] at h
  rw [User.live, h]
  rfl

theorem visible_of_live (h : u.live = true) (hsettled : u.state ≠ .pending) : u.visible = true := by
  rw [User.live, decide_eq_true_iff] at h
  rw [User.visible, decide_eq_true_iff]
  cases hstate : u.state with
  | committed => rfl
  | pending => exact absurd hstate hsettled
  | discarded => exact absurd hstate h

/-- An account holds its name. -/
theorem heldName_of_mem (h : u ∈ accountsNamed db users username) :
    u ∈ users ∧ heldName db u = some (db.culture.lower username) := by
  obtain ⟨hmem, hu⟩ := List.mem_filter.mp h
  rw [Bool.and_eq_true] at hu
  obtain ⟨name, hname, hsame⟩ := (Option.any_eq_true _ _).mp hu.2
  refine ⟨hmem, ?_⟩
  rw [heldName, if_pos (live_of_visible hu.1), hname, Option.map_some, of_decide_eq_true hsame]

/-- A name that is held, and by no row that is pending, is the name of an account. -/
theorem mem_of_heldName {name : String} (hmem : u ∈ users) (hsettled : u.state ≠ .pending)
    (h : heldName db u = some (db.culture.lower name)) : u ∈ accountsNamed db users name := by
  rw [heldName] at h
  split at h
  · next hlive =>
      obtain ⟨name', hname', hlower⟩ := Option.map_eq_some_iff.mp h
      refine List.mem_filter.mpr ⟨hmem, ?_⟩
      rw [visible_of_live hlive hsettled, hname', Culture.sameText, Option.any_some]
      exact decide_eq_true hlower
  · cases h

theorem length_accountsNamed_le (users : List User) :
    (accountsNamed db users username).length ≤
      (heldNames db users).count (db.culture.lower username) := by
  induction users with
  | nil => exact Nat.le_refl _
  | cons u users ih =>
      rw [accountsNamed, List.filter_cons, heldNames, List.filterMap_cons]
      split
      · next hu =>
          have hmem : u ∈ accountsNamed db [u] username :=
            List.mem_filter.mpr ⟨List.mem_singleton_self _, hu⟩
          rw [(heldName_of_mem hmem).2, List.length_cons, List.count_cons_self]
          exact Nat.succ_le_succ ih
      · refine Nat.le_trans ih ?_
        cases heldName db u with
        | none => exact Nat.le_refl _
        | some name => exact List.count_le_count_cons

/-- **Names that are held once** are the names of one account each. -/
theorem namesDistinct_of_nodup (h : (heldNames db users).Nodup) : NamesDistinct db users :=
  fun username => Nat.le_trans (length_accountsNamed_le users) (List.nodup_iff_count_le_one.mp h _)

theorem count_heldNames_le (hsettled : ∀ u ∈ users, u.state ≠ .pending) :
    (heldNames db users).count (db.culture.lower username) ≤
      (accountsNamed db users username).length := by
  induction users with
  | nil => exact Nat.le_refl _
  | cons u users ih =>
      have ih := ih fun u hu => hsettled u (List.mem_cons_of_mem _ hu)
      rw [accountsNamed, List.filter_cons, heldNames, List.filterMap_cons]
      cases hname : heldName db u with
      | none =>
          refine Nat.le_trans ih ?_
          split
          · exact Nat.le_succ _
          · exact Nat.le_refl _
      | some name =>
          by_cases heq : name = db.culture.lower username
          · have hmem : u ∈ accountsNamed db [u] username :=
              mem_of_heldName (List.mem_singleton_self _) (hsettled u List.mem_cons_self)
                (heq ▸ hname)
            rw [if_pos (List.mem_filter.mp hmem).2, heq]
            simp only [List.count_cons_self, List.length_cons]
            exact Nat.succ_le_succ ih
          · simp only [List.count_cons_of_ne heq]
            refine Nat.le_trans ih ?_
            split
            · exact Nat.le_succ _
            · exact Nat.le_refl _

/-- Names are held as they are compared. -/
theorem lower_of_mem_heldNames {name : String} (h : name ∈ heldNames db users) :
    db.culture.lower name = name := by
  obtain ⟨u, -, hname⟩ := List.mem_filterMap.mp h
  rw [heldName] at hname
  split at hname
  · obtain ⟨name', -, rfl⟩ := Option.map_eq_some_iff.mp hname
    exact db.culture.lower_lower name'
  · cases hname

/-- To begin with. -/
theorem nodup_of_namesDistinct (h : NamesDistinct db users)
    (hsettled : ∀ u ∈ users, u.state ≠ .pending) : (heldNames db users).Nodup := by
  refine List.nodup_iff_count_le_one.mpr fun name => ?_
  by_cases hmem : name ∈ heldNames db users
  · rw [← lower_of_mem_heldNames hmem]
    exact Nat.le_trans (count_heldNames_le hsettled) (h name)
  · rw [List.count_eq_zero_of_not_mem hmem]
    exact Nat.zero_le _

end Names

/-! ### Rows and claims -/

/-- **Names that are claimed.** `f` tells of every call how far it is with its row. -/
structure Claimed (db : Database) (users : List User) (f : ℕ → RowStage) : Prop where
  /-- No two rows hold the same name. -/
  nodup : (heldNames db users).Nodup
  /-- A name that is going to be written is free. -/
  free : ∀ pid name, (f pid = .checked name ∨ ∃ tx, f pid = .begun name tx) →
    db.culture.lower name ∉ heldNames db users
  /-- A row that is pending belongs to the call that has written it. -/
  pending : ∀ u ∈ users, u.state = .pending →
    ∃ pid name tx, f pid = .inserted name tx ∧ u.tx = some tx ∧ u.name = some name
  /-- No two calls claim the same name. -/
  apart : ∀ pid pid' name name', pid ≠ pid' → name ∈ (f pid).name → name' ∈ (f pid').name →
    db.culture.lower name ≠ db.culture.lower name'

section Claimed

variable {db : Database} {users us : List User} {f : ℕ → RowStage} {pid : ℕ} {row : RowStage}

/-- The rows that are pending, when a call moves on that has written none. -/
theorem Claimed.pending_update (h : Claimed db users f)
    (hpid : ∀ name tx, f pid ≠ .inserted name tx) (row : RowStage) (u : User) (hu : u ∈ users)
    (hstate : u.state = .pending) : ∃ pid' name tx,
      Function.update f pid row pid' = .inserted name tx ∧ u.tx = some tx ∧ u.name = some name := by
  obtain ⟨pid', name, tx, hf, hu⟩ := h.pending u hu hstate
  have hne : pid' ≠ pid := by
    rintro rfl
    exact hpid name tx hf
  exact ⟨pid', name, tx, (Function.update_of_ne hne _ _).trans hf, hu⟩

/-- A call that has nothing pending lets its name go. -/
theorem Claimed.drop (h : Claimed db users f) (hrow : row.name = none)
    (hpid : ∀ name tx, f pid ≠ .inserted name tx) :
    Claimed db users (Function.update f pid row) where
  nodup := h.nodup
  free pid' name hname := by
    by_cases hne : pid' = pid
    · subst hne
      rw [Function.update_self] at hname
      obtain rfl | ⟨tx, rfl⟩ := hname <;> cases hrow
    · rw [Function.update_of_ne hne] at hname
      exact h.free pid' name hname
  pending := h.pending_update hpid row
  apart pid₁ pid₂ name₁ name₂ hne h₁ h₂ := by
    have hother {pid' : ℕ} {name : String} (hname : name ∈ (Function.update f pid row pid').name) :
        name ∈ (f pid').name := by
      by_cases heq : pid' = pid
      · rw [heq, Function.update_self, hrow] at hname
        cases hname
      · rwa [Function.update_of_ne heq] at hname
    exact h.apart pid₁ pid₂ name₁ name₂ hne (hother h₁) (hother h₂)

/-- The claims when a call moves on, its name being apart from the others'. -/
theorem Claimed.apart_update (h : Claimed db users f) {name : String} (hrow : row.name = some name)
    (hname : ∀ pid' name', pid' ≠ pid → name' ∈ (f pid').name →
      db.culture.lower name' ≠ db.culture.lower name) (pid₁ pid₂ : ℕ) (name₁ name₂ : String)
    (hne : pid₁ ≠ pid₂) (h₁ : name₁ ∈ (Function.update f pid row pid₁).name)
    (h₂ : name₂ ∈ (Function.update f pid row pid₂).name) :
    db.culture.lower name₁ ≠ db.culture.lower name₂ := by
  by_cases heq₁ : pid₁ = pid
  · subst heq₁
    rw [Function.update_self, hrow] at h₁
    rw [Function.update_of_ne hne.symm] at h₂
    exact Option.some.inj h₁ ▸ (hname pid₂ name₂ hne.symm h₂).symm
  · rw [Function.update_of_ne heq₁] at h₁
    by_cases heq₂ : pid₂ = pid
    · subst heq₂
      rw [Function.update_self, hrow] at h₂
      exact Option.some.inj h₂ ▸ hname pid₁ name₁ hne h₁
    · rw [Function.update_of_ne heq₂] at h₂
      exact h.apart pid₁ pid₂ name₁ name₂ hne h₁ h₂

/-- A name that no account has, and no row that is pending, is free. -/
theorem Claimed.notMem (h : Claimed db users f) {name : String}
    (hvisible : accountsNamed db users name = [])
    (hpending : ∀ pid name' tx, f pid = .inserted name' tx →
      db.culture.lower name' ≠ db.culture.lower name) :
    db.culture.lower name ∉ heldNames db users := by
  intro hmem
  obtain ⟨u, hu, hheld⟩ := List.mem_filterMap.mp hmem
  by_cases hstate : u.state = .pending
  · obtain ⟨pid, name', tx, hf, -, hname'⟩ := h.pending u hu hstate
    refine hpending pid name' tx hf ?_
    rw [heldName, hname'] at hheld
    split at hheld
    · exact Option.some.inj hheld
    · cases hheld
  · have hmem := mem_of_heldName hu hstate hheld
    rw [hvisible] at hmem
    cases hmem

/-- **A name is looked up**, and is free. -/
theorem Claimed.check (h : Claimed db users f) {name : String} (hpid : f pid = .unchecked)
    (hvisible : accountsNamed db users name = [])
    (hname : ∀ pid' name', pid' ≠ pid → name' ∈ (f pid').name →
      db.culture.lower name' ≠ db.culture.lower name) :
    Claimed db users (Function.update f pid (.checked name)) where
  nodup := h.nodup
  free pid' name' hname' := by
    by_cases hne : pid' = pid
    · subst hne
      rw [Function.update_self] at hname'
      obtain rfl : name = name' := by
        obtain hname' | ⟨tx, hname'⟩ := hname'
        · exact RowStage.checked.inj hname'
        · cases hname'
      refine h.notMem hvisible fun pid'' name'' tx hf => hname pid'' name'' ?_ (by rw [hf]; rfl)
      rintro rfl
      rw [hpid] at hf
      cases hf
    · rw [Function.update_of_ne hne] at hname'
      exact h.free pid' name' hname'
  pending := h.pending_update (by rw [hpid]; exact nofun) _
  apart := h.apart_update rfl hname

/-- The claim of a name is the call's own. -/
theorem Claimed.others (h : Claimed db users f) {name : String} (hname : name ∈ (f pid).name)
    (pid' : ℕ) (name' : String) (hne : pid' ≠ pid) (hname' : name' ∈ (f pid').name) :
    db.culture.lower name' ≠ db.culture.lower name :=
  h.apart pid' pid name' name hne hname' hname

/-- A transaction begins. -/
theorem Claimed.begin (h : Claimed db users f) {name : String} {tx : ℕ}
    (hpid : f pid = .checked name) :
    Claimed db users (Function.update f pid (.begun name tx)) where
  nodup := h.nodup
  free pid' name' hname' := by
    by_cases hne : pid' = pid
    · subst hne
      rw [Function.update_self] at hname'
      obtain rfl : name = name' := by
        obtain hname' | ⟨tx', hname'⟩ := hname'
        · cases hname'
        · exact (RowStage.begun.inj hname').1
      exact h.free pid' name (.inl hpid)
    · rw [Function.update_of_ne hne] at hname'
      exact h.free pid' name' hname'
  pending := h.pending_update (by rw [hpid]; exact nofun) _
  apart := h.apart_update rfl (h.others (by rw [hpid]; rfl))

theorem heldNames_append : heldNames db (users ++ us) = heldNames db users ++ heldNames db us :=
  List.filterMap_append

/-- **The row is written.** -/
theorem Claimed.insert (h : Claimed db users f) {name email : String} {tx : ℕ}
    (hpid : f pid = .begun name tx)
    (hus : us = [] ∨ us = [Database.newUser email name .pending (some tx)]) :
    Claimed db (users ++ us) (Function.update f pid (.inserted name tx)) where
  nodup := by
    obtain rfl | rfl := hus
    · rw [List.append_nil]
      exact h.nodup
    · rw [heldNames_append]
      refine h.nodup.append (List.nodup_singleton _) fun held hmem hname => ?_
      obtain rfl := List.mem_singleton.mp hname
      exact h.free pid name (.inr ⟨tx, hpid⟩) hmem
  free pid' name' hname' := by
    have hne : pid' ≠ pid := by
      rintro rfl
      rw [Function.update_self] at hname'
      obtain hname' | ⟨tx', hname'⟩ := hname' <;> cases hname'
    rw [Function.update_of_ne hne] at hname'
    rw [heldNames_append, List.mem_append, not_or]
    refine ⟨h.free pid' name' hname', ?_⟩
    obtain rfl | rfl := hus
    · exact List.not_mem_nil
    · have hclaimed : name' ∈ (f pid').name := by
        obtain hname' | ⟨tx', hname'⟩ := hname' <;> rw [hname'] <;> rfl
      intro hmem
      exact h.others (by rw [hpid]; rfl) pid' name' hne hclaimed (List.mem_singleton.mp hmem)
  pending u hu hstate := by
    obtain hu | hu := List.mem_append.mp hu
    · exact h.pending_update (by rw [hpid]; exact nofun) _ u hu hstate
    · obtain rfl | rfl := hus
      · cases hu
      · obtain rfl := List.mem_singleton.mp hu
        exact ⟨pid, name, tx, Function.update_self .., rfl, rfl⟩
  apart := h.apart_update rfl (h.others (by rw [hpid]; rfl))

/-- A row that is settled holds its name, or nothing. -/
theorem heldName_settled {state : RowState} (hstate : state ≠ .pending) {u : User}
    (hpending : u.state = .pending) :
    heldName db { u with state := state } = heldName db u ∨
      heldName db { u with state := state } = none := by
  cases state with
  | pending => exact absurd rfl hstate
  | discarded => exact .inr rfl
  | committed =>
      refine .inl ?_
      rw [heldName, heldName, User.live, User.live, hpending]
      rfl

theorem heldNames_settle (tx : ℕ) {state : RowState} (hstate : state ≠ .pending)
    (users : List User) : (heldNames db (settle tx state users)).Sublist (heldNames db users) := by
  induction users with
  | nil => exact .slnil
  | cons u users ih =>
      have hu : heldName db (if u.tx = some tx ∧ u.state = .pending then { u with state := state }
            else u) = heldName db u ∨
          heldName db (if u.tx = some tx ∧ u.state = .pending then { u with state := state }
            else u) = none := by
        split
        · next hsettled => exact heldName_settled hstate hsettled.2
        · exact .inl rfl
      rw [settle, List.map_cons, ← settle, heldNames, heldNames, List.filterMap_cons,
        List.filterMap_cons]
      obtain hu | hu := hu <;> rw [hu] <;> cases heldName db u
      · exact ih
      · exact ih.cons_cons _
      · exact ih
      · exact ih.cons _

/-- **The transaction ends.** -/
theorem Claimed.settle (h : Claimed db users f) {tx : ℕ} {state : RowState}
    (hstate : state ≠ .pending) (hrow : row = f pid ∨ row.name = none)
    (hpid : ∀ name tx', f pid = .inserted name tx' → tx' = tx) :
    Claimed db (settle tx state users) (Function.update f pid row) where
  nodup := h.nodup.sublist (heldNames_settle tx hstate users)
  free pid' name' hname' hmem := by
    refine h.free pid' name' ?_ ((heldNames_settle tx hstate users).subset hmem)
    by_cases hne : pid' = pid
    · subst hne
      rw [Function.update_self] at hname'
      obtain rfl | hrow := hrow
      · exact hname'
      · obtain rfl | ⟨tx', rfl⟩ := hname' <;> cases hrow
    · rwa [Function.update_of_ne hne] at hname'
  pending u hu hpending := by
    obtain ⟨u₀, hu₀, rfl⟩ := List.mem_map.mp hu
    split at hpending
    · exact absurd hpending hstate
    · next hother =>
        rw [if_neg hother]
        obtain ⟨pid', name', tx', hf, htx, hname⟩ := h.pending u₀ hu₀ hpending
        have hne : pid' ≠ pid := by
          rintro rfl
          exact hother ⟨htx.trans (congrArg some (hpid name' tx' hf)), hpending⟩
        exact ⟨pid', name', tx', (Function.update_of_ne hne _ _).trans hf, htx, hname⟩
  apart pid₁ pid₂ name₁ name₂ hne h₁ h₂ := by
    have hother {pid' : ℕ} {name : String} (hname : name ∈ (Function.update f pid row pid').name) :
        name ∈ (f pid').name := by
      by_cases heq : pid' = pid
      · subst heq
        rw [Function.update_self] at hname
        obtain rfl | hrow := hrow
        · exact hname
        · rw [hrow] at hname
          cases hname
      · rwa [Function.update_of_ne heq] at hname
    exact h.apart pid₁ pid₂ name₁ name₂ hne (hother h₁) (hother h₂)

/-- **An import saves accounts** whose names are free. -/
theorem Claimed.save (h : Claimed db users f) (hnodup : (heldNames db us).Nodup)
    (hsettled : ∀ u ∈ us, u.state ≠ .pending)
    (hfree : ∀ name ∈ heldNames db us, name ∉ heldNames db users)
    (hapart : ∀ name ∈ heldNames db us, ∀ pid name', name' ∈ (f pid).name →
      db.culture.lower name' ≠ name) : Claimed db (users ++ us) f where
  nodup := by
    rw [heldNames_append]
    exact h.nodup.append hnodup fun name hmem hname => hfree name hname hmem
  free pid name hname := by
    have hclaimed : name ∈ (f pid).name := by
      obtain hname | ⟨tx, hname⟩ := hname <;> rw [hname] <;> rfl
    rw [heldNames_append, List.mem_append, not_or]
    exact ⟨h.free pid name hname, fun hmem => hapart _ hmem pid name hclaimed rfl⟩
  pending u hu hstate := by
    obtain hu | hu := List.mem_append.mp hu
    · exact h.pending u hu hstate
    · exact absurd hstate (hsettled u hu)
  apart := h.apart

theorem heldNames_congr {users' : List User}
    (hcore : users'.map claimedPart = users.map claimedPart) :
    heldNames db users' = heldNames db users := by
  have hheld : heldName db = (fun p : Option String × RowState × Option ℕ =>
      if decide (p.2.1 ≠ .discarded) = true then p.1.map db.culture.lower else none) ∘
        claimedPart := rfl
  rw [heldNames, heldNames, hheld, ← List.filterMap_map, hcore, List.filterMap_map]

/-- A user is banned or hidden. -/
theorem Claimed.congr (h : Claimed db users f) {users' : List User}
    (hcore : users'.map claimedPart = users.map claimedPart) : Claimed db users' f where
  nodup := heldNames_congr hcore ▸ h.nodup
  free := heldNames_congr hcore ▸ h.free
  pending u hu hstate := by
    obtain ⟨u₀, hu₀, hname, hstate₀, htx⟩ := exists_claimedPart hcore hu
    rw [← hname, ← htx]
    exact h.pending u₀ hu₀ (hstate₀.trans hstate)
  apart := h.apart

end Claimed

/-! ### The condition -/

section Run

variable {db : Database} {turnstileEnabled : Bool}

/-- How far a call is with its row, as long as it runs. -/
def rowOf (log : List (accountService db turnstileEnabled).Entry)
    (w : (accountService db turnstileEnabled).Pool) (pid : ℕ) : RowStage :=
  match w.procs[pid]? with
  | some (c, .call _ _) => (stands log pid c).row
  | _ => .unchecked

/-- Is another call going to write the name, or is its row pending? -/
def busy (log : List (accountService db turnstileEnabled).Entry)
    (w : (accountService db turnstileEnabled).Pool) (pid : ℕ) (name : String) : Bool :=
  (List.range w.procs.length).any fun pid' => decide (pid' ≠ pid) &&
    (rowOf log w pid').name.any fun name' => db.culture.lower name' = db.culture.lower name

/-- The names of the accounts that are saved. -/
def newNames (db : Database) (rows : List Tracked) : List String :=
  heldNames db (rows.filterMap Tracked.toUser)

/-- **The condition.** A name that no account has is looked up while no other registration is
about to write it. Accounts that an import makes have distinct names, which no account has and
no registration is about to write. -/
def unraced (log : List (accountService db turnstileEnabled).Entry)
    (w : (accountService db turnstileEnabled).Pool) :
    (accountService db turnstileEnabled).Move → Bool
  | .act pid _ =>
      match w.procs[pid]? with
      | some (_, .call (.nameExists name) _) =>
          !(accountsNamed db w.shared.users name).isEmpty || !busy log w pid name
      | some (_, .call (.saveChanges rows) _) =>
          (db.insertAll rows (w.shared.users, w.shared.participants)).isNone ||
            decide (newNames db rows).Nodup && (newNames db rows).all fun name =>
              (accountsNamed db w.shared.users name).isEmpty && !busy log w pid name
      | _ => true
  | _ => true

/-- The same, as a condition on a run. -/
def Unraced (log : List (accountService db turnstileEnabled).Entry)
    (w : (accountService db turnstileEnabled).Pool)
    (m : (accountService db turnstileEnabled).Move) : Prop := unraced log w m = true

instance (log : List (accountService db turnstileEnabled).Entry)
    (w : (accountService db turnstileEnabled).Pool)
    (m : (accountService db turnstileEnabled).Move) : Decidable (Unraced log w m) :=
  inferInstanceAs (Decidable (_ = true))

variable {log : List (accountService db turnstileEnabled).Entry}
  {w : (accountService db turnstileEnabled).Pool} {pid : ℕ}

theorem apart_of_not_busy {name : String} (h : busy log w pid name = false) (pid' : ℕ)
    (name' : String) (hne : pid' ≠ pid) (hname' : name' ∈ (rowOf log w pid').name) :
    db.culture.lower name' ≠ db.culture.lower name := by
  intro hsame
  rw [← Bool.not_eq_true, busy, List.any_eq_true] at h
  refine h ⟨pid', List.mem_range.mpr ?_, ?_⟩
  · by_contra hlt
    have hnone : w.procs[pid']? = none := List.getElem?_eq_none (Nat.le_of_not_lt hlt)
    rw [rowOf, hnone] at hname'
    cases hname'
  · rw [Bool.and_eq_true]
    exact ⟨decide_eq_true hne, (Option.any_eq_true _ _).mpr ⟨name', hname', decide_eq_true hsame⟩⟩

/-! ### One operation -/

/-- No account has the name. -/
theorem accountsNamed_eq_nil {users : List User} {name : String}
    (h : (users.any fun u => u.visible && db.culture.sameText u.name name) = false) :
    accountsNamed db users name = [] := by
  rw [← Bool.not_eq_true, List.any_eq_true] at h
  refine List.filter_eq_nil_iff.mpr fun u hu hboth => h ⟨u, hu, hboth⟩

/-- **One operation of a registration** keeps the claims. -/
theorem Claimed.act {s : AccountWorld} {f : ℕ → RowStage} {token : String} {q : Standing}
    {o : AccountOp} {e : AccountEnv} (h : Claimed db s.users f) (hpid : f pid = q.row)
    (hallowed : registerAllows token q o)
    (hcheck : ∀ name, o = .nameExists name → accountsNamed db s.users name = [] →
      ∀ pid' name', pid' ≠ pid → name' ∈ (f pid').name →
        db.culture.lower name' ≠ db.culture.lower name) :
    Claimed db (accountExec db e o s).2.users
      (Function.update f pid (registerNext q o (accountExec db e o s).1).row) := by
  have hself : Claimed db s.users (Function.update f pid q.row) := by
    rwa [← hpid, Function.update_eq_self]
  by_cases hquiet : o.quiet = true
  · have hrow := registerNext_row hquiet q (accountExec db e o s).1
    rw [exec_users hquiet, hrow]
    exact hself
  cases o with
  | nameExists name =>
      have hread : (accountExec db e (.nameExists name) s).2 = s := read_snd _
      rw [hread]
      match hr : (accountExec db e (.nameExists name) s).1 with
      | .error exn => exact hself
      | .ok true => exact hself
      | .ok false =>
          have hnone := accountsNamed_eq_nil (read_eq_ok hr)
          exact h.check (hpid.trans hallowed.2) hnone (hcheck name rfl hnone)
  | beginTransaction =>
      obtain ⟨name, hrow⟩ := hallowed.2
      have husers : (accountExec db e .beginTransaction s).2.users = s.users := by
        change (e.fault.apply _ _ s).2.users = _
        cases e.fault <;> rfl
      rw [husers]
      match (accountExec db e .beginTransaction s).1 with
      | .error exn => exact hself
      | .ok (tx : ℕ) =>
          change Claimed db s.users (Function.update f pid (q.row.begin tx))
          rw [hrow]
          exact h.begin (hpid.trans hrow)
  | insertUser tx email name =>
      have hnext (r : Except Exn (AccountOp.insertUser tx email name).Reply) :
          (registerNext q (.insertUser tx email name) r).row = .inserted name tx := by
        cases r <;> rfl
      obtain ⟨us, hus, hcases⟩ := insertUser_users db e s tx email name
      have hrow := hnext (accountExec db e (.insertUser tx email name) s).1
      rw [hrow, hus]
      exact h.insert (hpid.trans hallowed.2) hcases
  | commit tx =>
      obtain ⟨name, hrow⟩ := hallowed.2
      have htx : ∀ name' tx', f pid = .inserted name' tx' → tx' = tx := fun name' tx' hf =>
        (RowStage.inserted.inj ((hf.symm.trans hpid).trans hrow)).2
      change Claimed db (e.fault.apply _ _ s).2.users
        (Function.update f pid (registerNext q _ (e.fault.apply _ _ s).1).row)
      cases e.fault with
      | none => exact h.settle nofun (.inr rfl) htx
      | before => exact hself
      | after => exact h.settle nofun (.inl hpid.symm) htx
  | rollback tx =>
      obtain ⟨name, hrow⟩ := hallowed.2
      have hnext (r : Except Exn (AccountOp.rollback tx).Reply) :
          (registerNext q (.rollback tx) r).row = .rolledBack tx := by cases r <;> rfl
      have hrolled := hnext (accountExec db e (.rollback tx) s).1
      rw [hrolled]
      refine Claimed.settle h nofun (.inr rfl) fun name' tx' hf => ?_
      obtain hrow | hrow := hrow
      · rw [hpid, hrow] at hf
        cases hf
      · exact (RowStage.inserted.inj ((hf.symm.trans hpid).trans hrow)).2
  | saveChanges rows => exact hallowed.elim
  | getConfig _ | verifyCaptcha _ | lock _ | countUsers | emailExists _ | userFields
  | insertEntries _ _ _ | findUser _ | findContest _ | participantsOf _ | findByEmail _ =>
      exact absurd rfl hquiet

/-- **A save** keeps the claims, if its names are free. -/
theorem Claimed.saveChanges {s : AccountWorld} {f : ℕ → RowStage} {rows : List Tracked}
    {e : AccountEnv} (h : Claimed db s.users f)
    (hfree : (db.insertAll rows (s.users, s.participants)).isSome → (newNames db rows).Nodup ∧
      ∀ name ∈ newNames db rows, accountsNamed db s.users name = [] ∧
        ∀ pid' name', name' ∈ (f pid').name → db.culture.lower name' ≠ db.culture.lower name) :
    Claimed db (accountExec db e (.saveChanges rows) s).2.users f := by
  have hsave : Claimed db (db.saveChanges rows s).2.users f := by
    rw [Database.saveChanges]
    cases hinsert : db.insertAll rows (s.users, s.participants) with
    | none => exact h
    | some tables =>
        obtain ⟨hnodup, hnames⟩ := hfree (by rw [hinsert]; rfl)
        change Claimed db tables.1 f
        rw [(Database.insertAll_eq_some hinsert).1]
        refine h.save hnodup (fun u hu => ?_) (fun name hname => ?_)
          fun name hname pid' name' hname' => ?_
        · obtain ⟨row, -, hrow⟩ := List.mem_filterMap.mp hu
          cases row with
          | user email name =>
              obtain rfl := Option.some.inj hrow
              exact nofun
          | participant contestId userId role => cases hrow
        · rw [← lower_of_mem_heldNames hname]
          exact h.notMem (hnames name hname).1 fun pid' name' tx hf =>
            (hnames name hname).2 pid' name' (by rw [hf]; rfl)
        · rw [← lower_of_mem_heldNames hname]
          exact (hnames name hname).2 pid' name' hname'
  change Claimed db (e.fault.apply _ _ s).2.users f
  cases e.fault with
  | none => exact hsave
  | before => exact h
  | after => exact hsave

/-! ### The run -/

/-- An import never gets anywhere with a row. -/
theorem stands_import (log : List (accountService db turnstileEnabled).Entry) (pid : ℕ)
    (contestId : ℕ) (dto : ImportParticipantsDTO) (userId : ℕ) :
    stands log pid (.importParticipants contestId dto userId) = arrived := by
  change (Service.past log pid).foldl
    (fun q x => (accountProtocol (.importParticipants contestId dto userId)).next q x.op x.reply)
    arrived = arrived
  generalize Service.past log pid = l
  induction l with
  | nil => rfl
  | cons x l ih => exact ih

/-- How far the calls are after a call has taken a step. -/
theorem rowOf_act {c : (accountService db turnstileEnabled).Call} {o : accountI.Op}
    {e : (accountService db turnstileEnabled).Env} {s' : AccountWorld}
    {k : Except Exn (accountI.Reply o) → Prog accountI Exn Answer} {p : Prog accountI Exn Answer}
    (hp : Service.Pending w pid c o k) :
    rowOf (log ++ [⟨pid, c, e, o, w.shared⟩]) ⟨s', w.procs.set pid (c, p)⟩ =
      Function.update (rowOf log w) pid (match p with
        | .call _ _ => (stands (log ++ [⟨pid, c, e, o, w.shared⟩]) pid c).row
        | .ret _ => .unchecked) := by
  funext pid'
  by_cases hne : pid' = pid
  · subst hne
    rw [Function.update_self, rowOf, List.getElem?_set_self (List.getElem?_eq_some_iff.mp hp).1]
    cases p <;> rfl
  · rw [Function.update_of_ne hne, rowOf, rowOf]
    change (match (w.procs.set pid (c, p))[pid']? with | some (c, .call _ _) => _ | _ => _) = _
    rw [List.getElem?_set_ne (Ne.symm hne)]
    split
    · next c' _ _ _ =>
        exact congrArg Standing.row (Service.standing_append_of_ne (Ne.symm hne) c')
    · rfl

/-- Before the first call. -/
theorem Claimed.nil {users : List User} (h : NamesDistinct db users)
    (hsettled : ∀ u ∈ users, u.state ≠ .pending) : Claimed db users fun _ => .unchecked where
  nodup := nodup_of_namesDistinct h hsettled
  free pid name hname := by obtain hname | ⟨tx, hname⟩ := hname <;> cases hname
  pending u hu hstate := absurd hstate (hsettled u hu)
  apart pid pid' name name' _ hname _ := nomatch hname

/-- A call has arrived. -/
theorem rowOf_spawn {c : (accountService db turnstileEnabled).Call}
    (hlog : ∀ n ∈ log, n.pid < w.procs.length) :
    rowOf log ⟨w.shared, w.procs ++ [(c, (accountService db turnstileEnabled).program c)]⟩ =
      rowOf log w := by
  funext pid
  rw [rowOf, rowOf]
  change (match (w.procs ++ [(c, (accountService db turnstileEnabled).program c)])[pid]? with
    | some (c, .call _ _) => _
    | _ => _) = _
  by_cases hlt : pid < w.procs.length
  · rw [List.getElem?_append_left hlt]
  · have hstands : stands log pid c = arrived :=
      Service.standing_of_forall_ne (fun n hn (heq : n.pid = pid) => hlt (heq ▸ hlog n hn)) c
    rw [List.getElem?_append_right (Nat.le_of_not_lt hlt), List.getElem?_singleton,
      List.getElem?_eq_none (Nat.le_of_not_lt hlt)]
    split
    · next heq =>
        split at heq
        · obtain ⟨rfl, -⟩ := Prod.mk.inj (Option.some.inj heq)
          rw [hstands]
          rfl
        · cases heq
    · rfl

theorem rowOf_of_pending {c : (accountService db turnstileEnabled).Call} {o : accountI.Op}
    {k : Except Exn (accountI.Reply o) → Prog accountI Exn Answer}
    (hp : Service.Pending w pid c o k) : rowOf log w pid = (stands log pid c).row := by
  rw [rowOf, show w.procs[pid]? = some (c, .call o k) from hp]

/-- **A registration takes a step.** -/
theorem claimed_register {dto : RegisterContestantDTO} {token : String} {o : accountI.Op}
    {e : AccountEnv} {k : Except Exn (accountI.Reply o) → Prog accountI Exn Answer}
    (h : Claimed db w.shared.users (rowOf log w))
    (hp : Service.Pending w pid (.register dto token) o k)
    (hg : Unraced log w (.act pid e))
    (hfollows : (Prog.call o k).Follows (registration token) (ends (.register dto token))
      (stands log pid (.register dto token))) :
    Claimed db (accountExec db e o w.shared).2.users
      (Function.update (rowOf log w) pid (match k (accountExec db e o w.shared).1 with
        | .call _ _ => (registerNext (stands log pid (.register dto token)) o
            (accountExec db e o w.shared).1).row
        | .ret _ => .unchecked)) := by
  have hact := h.act (e := e) (rowOf_of_pending hp) hfollows.1 fun name ho hnone pid' name' => by
    subst ho
    have hbusy : (!(accountsNamed db w.shared.users name).isEmpty ||
        !busy log w pid name) = true := by
      simpa only [Unraced, unraced, show w.procs[pid]? = some _ from hp] using hg
    rw [hnone, List.isEmpty_nil, Bool.not_true, Bool.false_or, Bool.not_eq_true'] at hbusy
    exact apart_of_not_busy hbusy pid' name'
  have hends := hfollows.2 (accountExec db e o w.shared).1
  cases hk : k (accountExec db e o w.shared).1 with
  | call o' k' => exact hact
  | ret x =>
      rw [hk] at hends
      have hdrop := @Claimed.drop _ _ _ pid .unchecked hact rfl fun name tx hf => by
        rw [Function.update_self] at hf
        exact (hends.1.2 tx name).2 hf
      rwa [Function.update_idem] at hdrop

/-- **An import takes a step.** -/
theorem claimed_import {contestId userId : ℕ} {dto : ImportParticipantsDTO} {o : accountI.Op}
    {e : AccountEnv} {k : Except Exn (accountI.Reply o) → Prog accountI Exn Answer}
    (h : Claimed db w.shared.users (rowOf log w))
    (hp : Service.Pending w pid (.importParticipants contestId dto userId) o k)
    (hg : Unraced log w (.act pid e)) (hallowed : importAllows o) :
    Claimed db (accountExec db e o w.shared).2.users (rowOf log w) := by
  have hself : rowOf log w pid = .unchecked := by
    rw [rowOf_of_pending hp, stands_import]
    rfl
  by_cases hquiet : AccountOp.quiet o = true
  · rw [exec_users hquiet]
    exact h
  · cases o with
    | saveChanges rows =>
        have hfree : ((db.insertAll rows (w.shared.users, w.shared.participants)).isNone ||
            decide (newNames db rows).Nodup && (newNames db rows).all fun name =>
              (accountsNamed db w.shared.users name).isEmpty && !busy log w pid name) = true := by
          simpa only [Unraced, unraced, show w.procs[pid]? = some _ from hp] using hg
        refine h.saveChanges fun hsome => ?_
        rw [Option.isNone_eq_false_iff.mpr hsome, Bool.false_or, Bool.and_eq_true,
          decide_eq_true_iff, List.all_eq_true] at hfree
        refine ⟨hfree.1, fun name hname => ?_⟩
        have hboth := hfree.2 name hname
        rw [Bool.and_eq_true, List.isEmpty_iff, Bool.not_eq_true'] at hboth
        refine ⟨hboth.1, fun pid' name' hname' => apart_of_not_busy hboth.2 pid' name' ?_ hname'⟩
        rintro rfl
        rw [hself] at hname'
        cases hname'
    | nameExists _ | beginTransaction | insertUser _ _ _ | commit _ | rollback _ =>
        exact hallowed.elim
    | getConfig _ | verifyCaptcha _ | lock _ | countUsers | emailExists _ | userFields
    | insertEntries _ _ _ | findUser _ | findContest _ | participantsOf _ | findByEmail _ =>
        exact absurd rfl hquiet

/-- **The claims hold all along.** -/
theorem claimed_of_records {s₀ : AccountWorld} (hstart : NamesDistinct db s₀.users)
    (hsettled : ∀ u ∈ s₀.users, u.state ≠ .pending)
    (h : Service.Records Unraced ((accountService db turnstileEnabled).start s₀) log w) :
    Claimed db w.shared.users (rowOf log w) := by
  induction h with
  | refl => exact .nil hstart hsettled
  | spawn hr _ ih => exact (rowOf_spawn hr.pid_lt).symm ▸ ih
  | @ambient log w x hr _ ih =>
      refine Claimed.congr (f := rowOf log w) ih ?_
      cases x with
      | tick d => rfl
      | hide userId =>
          exact map_modify_claimedPart (g := fun u => { u with hidden := some true })
            (fun _ => rfl) w.shared.users userId
      | ban userId =>
          exact map_modify_claimedPart (g := fun u => { u with banned := some true })
            (fun _ => rfl) w.shared.users userId
      | configure key value => rfl
  | @act log w pid e c o k hr hp hg ih =>
      have hfollows := hr.follows (program_follows db turnstileEnabled) hp
      rw [rowOf_act hp]
      cases c with
      | register dto token =>
          have hnext : stands (log ++ [⟨pid, AccountCall.register dto token, e, o, w.shared⟩]) pid
              (.register dto token) = registerNext (stands log pid (.register dto token)) o
                (accountExec db e o w.shared).1 := stands_register
          rw [hnext]
          exact claimed_register ih hp hg hfollows
      | importParticipants contestId dto userId =>
          have hself : rowOf log w pid = .unchecked := by
            rw [rowOf_of_pending hp, stands_import]
            rfl
          rw [stands_import]
          have hclaimed : Claimed db (accountExec db e o w.shared).2.users
              (Function.update (rowOf log w) pid .unchecked) := by
            rw [← hself, Function.update_eq_self]
            exact claimed_import ih hp hg hfollows.1
          generalize k (((accountService db turnstileEnabled).exec e o w.shared).1) = p
          cases p <;> exact hclaimed

/-- **Names stay distinct**, in every run in which no name is looked up while another
registration is about to write it, and imports make accounts of free names only. Then
`LoginContestant` finds, for every name, the one account that has it. -/
theorem loginNames {s₀ : AccountWorld} (hstart : NamesDistinct db s₀.users)
    (hsettled : ∀ u ∈ s₀.users, u.state ≠ .pending)
    (h : Service.Records Unraced ((accountService db turnstileEnabled).start s₀) log w) :
    NamesDistinct db w.shared.users ∧ ∀ username, ∀ u ∈ accountsNamed db w.shared.users username,
      loginAccount db w.shared.users username = some u := by
  have hdistinct := namesDistinct_of_nodup (claimed_of_records hstart hsettled h).nodup
  refine ⟨hdistinct, fun username u hu => ?_⟩
  obtain ⟨u', hu'⟩ := List.length_eq_one_iff.mp
    (Nat.le_antisymm (hdistinct username) (List.length_pos_of_mem hu))
  rw [hu'] at hu
  rw [loginAccount, hu', List.mem_singleton.mp hu]
  rfl

end Run

/-- One visitor after the other. -/
def oneByOne : List (accountService plainDatabase false).Move :=
  Service.callNow 0 (visitor "an" "an@x" "a") calmAccounts 8 ++
    Service.callNow 1 (visitor "bo" "bo@x" "b") calmAccounts 8

theorem loginNames_example :
    ∃ log w, Service.runLogged Unraced [] ((accountService plainDatabase false).start openForm)
        oneByOne = some (log, w) ∧ w.shared.countUsers = 2 ∧
      NamesDistinct plainDatabase w.shared.users ∧
        ∀ username, ∀ u ∈ accountsNamed plainDatabase w.shared.users username,
          loginAccount plainDatabase w.shared.users username = some u := by
  have hrun : (Service.runLogged Unraced [] ((accountService plainDatabase false).start openForm)
      oneByOne).any (fun p => decide (p.2.shared.countUsers = 2)) = true := by
    decide +kernel
  obtain ⟨⟨log, w⟩, hw, hcount⟩ := (Option.any_eq_true _ _).mp hrun
  exact ⟨log, w, hw, of_decide_eq_true hcount,
    loginNames (fun _ => Nat.zero_le _) (List.forall_mem_nil _)
      (Service.records_of_runLogged .refl hw)⟩

/-- Two visitors look the same name up, and then both write it. -/
def sameName : List (accountService plainDatabase false).Move :=
  Service.callNow 0 (visitor "an" "an@x" "a") calmAccounts 3 ++
    Service.callNow 1 (visitor "an" "an@y" "b") calmAccounts 8 ++
      List.replicate 5 (.act 0 calmAccounts)

/-- **Two accounts of one name.** -/
theorem not_loginNames :
    NamesDistinct plainDatabase openForm.users ∧
      ∃ w, Service.Reaches Service.anyMove
          ((accountService plainDatabase false).start openForm) w ∧
        ¬NamesDistinct plainDatabase w.shared.users := by
  have hrun : (Service.run ((accountService plainDatabase false).start openForm) sameName).any
      (fun w => decide ((accountsNamed plainDatabase w.shared.users "an").length = 2)) = true := by
    decide +kernel
  obtain ⟨w, hw, hcount⟩ := (Option.any_eq_true _ _).mp hrun
  refine ⟨fun _ => Nat.zero_le _, w, Service.reaches_of_run hw, fun hdistinct => ?_⟩
  have hle := hdistinct "an"
  rw [of_decide_eq_true hcount] at hle
  exact absurd hle (by decide)

end Accounts

end Fctf
