import Fctf.ContestBoard

/-!
# The Place of a Team

`GetTeamPlace` ranks all teams of the bracket, of whatever contest, hidden or banned or
without any points, by what their members have, and leaves ties as they stand in the table.
The scoreboard ranks the visible teams that have points by what is recorded for them, and
breaks ties by the last date and the last id.

## Main results

* `getTeamPlace_eq`: the place as the place in the order of the members' points.
* `placeAgrees_iff`: exactly when the places are those of the scoreboard.
* `not_placeAgrees`: a team of another contest takes the first place.
-/

open Ranking

namespace Fctf

namespace ScoreHelper

/-! ### The two rankings -/

/-- The order of the standings, as an order of teams. -/
def rankLe (db : ScoreDb) (freezeUtc : Option ℤ) (t u : ScoreAccount) : Prop :=
  standingLe (standing (teamEntries db freezeUtc) (bracketName db) t)
    (standing (teamEntries db freezeUtc) (bracketName db) u)

instance (db : ScoreDb) (freezeUtc : Option ℤ) : DecidableRel (rankLe db freezeUtc) :=
  fun _ _ => inferInstanceAs (Decidable (standingLe _ _))

instance (db : ScoreDb) (freezeUtc : Option ℤ) : Std.Total (rankLe db freezeUtc) :=
  ⟨fun _ _ => Std.Total.total (r := standingLe) _ _⟩

instance (db : ScoreDb) (freezeUtc : Option ℤ) : IsTrans ScoreAccount (rankLe db freezeUtc) :=
  ⟨fun _ _ _ => IsTrans.trans (r := standingLe) _ _ _⟩

/-- The teams of the standings, in their order. -/
def ranked (db : ScoreDb) (bracketId : Option ℤ) (freezeUtc : Option ℤ) : List ScoreAccount :=
  (db.teams.filter (listed (teamEntries db freezeUtc) bracketId false)).insertionSort
    (rankLe db freezeUtc)

/-- **The public standings** are the rows of the teams ranked. -/
theorem getTeamStandings_eq_map (db : ScoreDb) (bracketId freezeUtc : Option ℤ) :
    getTeamStandings db none bracketId false freezeUtc =
      (ranked db bracketId freezeUtc).map
        (standing (teamEntries db freezeUtc) (bracketName db)) := by
  rw [ranked, List.map_insertionSort (rankLe db freezeUtc) standingLe _ _
    fun _ _ _ _ => Iff.rfl]
  rfl

/-- How many listed teams of the contest are before a team. -/
def listedBefore (c : ℤ) (db : ScoreDb) (bracketId freezeUtc : Option ℤ) (team : ScoreAccount) :
    ℕ :=
  ((getTeamStandings db none bracketId false freezeUtc).takeWhile fun row =>
    row.accountId ≠ team.id).countP fun row =>
      db.teams.any fun t => t.id = row.accountId && t.contestId = some c

end ScoreHelper

open ScoreHelper

/-- The place of every listed team of contest `c` is one more than the number of listed
teams of the contest before it. -/
def PlaceAgrees (c : ℤ) (cfg : ScoreConfig) (db : ScoreDb) (admin : Bool)
    (bracketId freezeUtc : Option ℤ) : Prop :=
  ∀ t ∈ db.teams, t.contestId = some c →
    t.id ∈ (getTeamStandings db none bracketId false freezeUtc).map (·.accountId) →
      getTeamPlace cfg db t admin bracketId =
        some (1 + listedBefore c db bracketId freezeUtc t)

/-! ### Who is before whom -/

section Order

variable (db : ScoreDb)

/-- The members of `u` have more than those of `t`, or `u` is earlier in the table. -/
def AheadByMembers (freeze : Option ℤ) (u t : ScoreAccount) : Prop :=
  memberPoints db freeze t.id < memberPoints db freeze u.id ∨
    memberPoints db freeze t.id = memberPoints db freeze u.id ∧ Precedes db.teams u t

/-- What is recorded for `u` comes before what is recorded for `t`, or `u` is earlier in the
table. -/
def AheadByRecord (freezeUtc : Option ℤ) (u t : ScoreAccount) : Prop :=
  rankLe db freezeUtc u t ∧ (Precedes db.teams u t ∨ ¬rankLe db freezeUtc t u)

/-- A team of contest `c` that the public scoreboard lists. -/
def ListedIn (c : ℤ) (bracketId freezeUtc : Option ℤ) (t : ScoreAccount) : Prop :=
  listed (teamEntries db freezeUtc) bracketId false t = true ∧ t.contestId = some c

instance (freeze : Option ℤ) (u t : ScoreAccount) : Decidable (AheadByMembers db freeze u t) :=
  inferInstanceAs (Decidable (_ < _ ∨ _ = _ ∧ [u, t].Sublist db.teams))

instance (freezeUtc : Option ℤ) (u t : ScoreAccount) :
    Decidable (AheadByRecord db freezeUtc u t) :=
  inferInstanceAs (Decidable (rankLe db freezeUtc u t ∧
    ([u, t].Sublist db.teams ∨ ¬rankLe db freezeUtc t u)))

instance (c : ℤ) (bracketId freezeUtc : Option ℤ) (t : ScoreAccount) :
    Decidable (ListedIn db c bracketId freezeUtc t) :=
  inferInstanceAs (Decidable (_ ∧ _))

end Order

/-- Before a listed team of the contest stand, by the points of the members, the listed teams
of the contest that stand before it by what is recorded, and nobody else. -/
def SameAhead (c : ℤ) (cfg : ScoreConfig) (db : ScoreDb) (admin : Bool)
    (bracketId freezeUtc : Option ℤ) : Prop :=
  ∀ t ∈ db.teams, ListedIn db c bracketId freezeUtc t →
    ∀ u ∈ db.teams, inBracket bracketId u = true → u ≠ t →
      (AheadByMembers db (freezeOf cfg admin) u t ↔
        ListedIn db c bracketId freezeUtc u ∧ AheadByRecord db freezeUtc u t)

instance (c : ℤ) (cfg : ScoreConfig) (db : ScoreDb) (admin : Bool)
    (bracketId freezeUtc : Option ℤ) :
    Decidable (SameAhead c cfg db admin bracketId freezeUtc) :=
  inferInstanceAs (Decidable (∀ t ∈ db.teams, _ → ∀ u ∈ db.teams, _ → _ → (_ ↔ _)))

theorem findIdx_congr {α : Type} {p q : α → Bool} {l : List α} (h : ∀ x ∈ l, p x = q x) :
    l.findIdx p = l.findIdx q := by
  induction l with
  | nil => rfl
  | cons x l ih =>
      rw [List.findIdx_cons, List.findIdx_cons, h x List.mem_cons_self,
        ih fun y hy => h y (List.mem_cons_of_mem x hy)]

theorem takeWhile_congr {α : Type} {p q : α → Bool} {l : List α} (h : ∀ x ∈ l, p x = q x) :
    l.takeWhile p = l.takeWhile q := by
  induction l with
  | nil => rfl
  | cons x l ih =>
      rw [List.takeWhile_cons, List.takeWhile_cons, h x List.mem_cons_self,
        ih fun y hy => h y (List.mem_cons_of_mem x hy)]

section Places

variable {c : ℤ} {cfg : ScoreConfig} {db : ScoreDb} {admin : Bool} {bracketId freezeUtc : Option ℤ}

theorem ScoreDb.Keyed.id_eq_iff (h : db.Keyed) {t u : ScoreAccount} (ht : t ∈ db.teams)
    (hu : u ∈ db.teams) : t.id = u.id ↔ t = u :=
  ⟨fun hid => List.inj_on_of_nodup_map h.teams ht hu hid, fun heq => heq ▸ rfl⟩

theorem mem_placed {t : ScoreAccount} :
    t ∈ placed cfg db admin bracketId ↔ t ∈ db.teams ∧ inBracket bracketId t = true := by
  rw [placed, List.mem_insertionSort, List.mem_filter]

theorem mem_ranked {t : ScoreAccount} :
    t ∈ ranked db bracketId freezeUtc ↔
      t ∈ db.teams ∧ listed (teamEntries db freezeUtc) bracketId false t = true := by
  rw [ranked, List.mem_insertionSort, List.mem_filter]

theorem inBracket_of_listed {entries : ℤ → Option Entry} {t : ScoreAccount}
    (h : listed entries bracketId admin t = true) : inBracket bracketId t = true := by
  rw [listed, Bool.and_eq_true] at h
  exact h.2

theorem nodup_placed (h : db.Keyed) : (placed cfg db admin bracketId).Nodup :=
  (List.perm_insertionSort _ _).nodup_iff.mpr ((h.teams.of_map _).filter _)

theorem nodup_ranked (h : db.Keyed) : (ranked db bracketId freezeUtc).Nodup :=
  (List.perm_insertionSort _ _).nodup_iff.mpr ((h.teams.of_map _).filter _)

/-- **The place of a team** is its place in the order of the members' points. -/
theorem getTeamPlace_eq (h : db.Keyed) {t : ScoreAccount}
    (ht : t ∈ placed cfg db admin bracketId) :
    getTeamPlace cfg db t admin bracketId =
      some (1 + (placed cfg db admin bracketId).idxOf t) := by
  have hcongr : ∀ u ∈ placed cfg db admin bracketId, decide (u.id = t.id) = (u == t) := by
    intro u hu
    refine Bool.eq_iff_iff.mpr ?_
    rw [decide_eq_true_eq, beq_iff_eq]
    exact h.id_eq_iff (mem_placed.mp hu).1 (mem_placed.mp ht).1
  have hfind : (placed cfg db admin bracketId).findIdx (fun u => decide (u.id = t.id)) =
      (placed cfg db admin bracketId).idxOf t := by
    rw [List.idxOf]
    exact findIdx_congr hcongr
  rw [getTeamPlace, List.findIdx?_eq_some_of_exists ⟨t, ht, by simp⟩, hfind, Option.map_some,
    add_comm]

/-- The number of listed teams of the contest before a team is its place among them. -/
theorem listedBefore_eq (h : db.Keyed) {t : ScoreAccount}
    (ht : t ∈ ranked db bracketId freezeUtc) (hc : t.contestId = some c) :
    listedBefore c db bracketId freezeUtc t =
      ((ranked db bracketId freezeUtc).filter fun u => u.contestId = some c).idxOf t := by
  have hother : ∀ u ∈ ranked db bracketId freezeUtc, decide (u.id ≠ t.id) = decide (u ≠ t) :=
    fun u hu => decide_eq_decide.mpr
      (not_congr (h.id_eq_iff (mem_ranked.mp hu).1 (mem_ranked.mp ht).1))
  have hcontest : ∀ u ∈ ranked db bracketId freezeUtc,
      db.teams.any (fun v => decide (v.id = u.id) && decide (v.contestId = some c)) =
        decide (u.contestId = some c) := by
    intro u hu
    have hmem := (mem_ranked.mp hu).1
    rw [Bool.eq_iff_iff, List.any_eq_true, decide_eq_true_eq]
    constructor
    · rintro ⟨v, hv, hand⟩
      rw [Bool.and_eq_true, decide_eq_true_eq, decide_eq_true_eq] at hand
      exact (h.id_eq_iff hv hmem).mp hand.1 ▸ hand.2
    · exact fun hu' => ⟨u, hmem, by simp [hu']⟩
  rw [idxOf_filter ht (by simpa using hc), listedBefore, getTeamStandings_eq_map,
    List.takeWhile_map, List.countP_map]
  calc ((ranked db bracketId freezeUtc).takeWhile _).countP _
      = ((ranked db bracketId freezeUtc).takeWhile fun u => decide (u ≠ t)).countP
          fun u => db.teams.any fun v => v.id = u.id && v.contestId = some c :=
        congrArg (List.countP _) (takeWhile_congr hother)
    _ = _ := List.countP_congr fun u hu => by
        rw [hcontest u (List.takeWhile_subset _ hu)]

instance (freeze : Option ℤ) : Std.Total (placeLe db freeze) := ⟨fun _ _ => le_total _ _⟩

instance (freeze : Option ℤ) : IsTrans ScoreAccount (placeLe db freeze) :=
  ⟨fun _ _ _ h h' => le_trans h' h⟩

theorem precedes_placed (h : db.Keyed) {t u : ScoreAccount}
    (ht : t ∈ placed cfg db admin bracketId) (hu : u ∈ placed cfg db admin bracketId)
    (hne : u ≠ t) :
    Precedes (placed cfg db admin bracketId) u t ↔
      AheadByMembers db (freezeOf cfg admin) u t := by
  have hu' := List.mem_filter.mpr (mem_placed.mp hu)
  have ht' := List.mem_filter.mpr (mem_placed.mp ht)
  rw [placed, precedes_insertionSort ((h.teams.of_map _).filter _) hu' ht' hne, precedes_filter,
    AheadByMembers, placeLe, placeLe]
  have hpair : (Precedes db.teams u t ∧ inBracket bracketId u = true ∧
      inBracket bracketId t = true) ↔ Precedes db.teams u t :=
    and_iff_left ⟨(mem_placed.mp hu).2, (mem_placed.mp ht).2⟩
  rw [hpair, not_le]
  constructor
  · rintro ⟨hle, hprec | hlt⟩
    · exact hle.lt_or_eq.imp id fun heq => ⟨heq, hprec⟩
    · exact .inl hlt
  · rintro (hlt | ⟨heq, hprec⟩)
    · exact ⟨hlt.le, .inr hlt⟩
    · exact ⟨heq.le, .inl hprec⟩

theorem precedes_ranked (h : db.Keyed) {t u : ScoreAccount}
    (ht : t ∈ ranked db bracketId freezeUtc) (hu : u ∈ ranked db bracketId freezeUtc)
    (hne : u ≠ t) :
    Precedes (ranked db bracketId freezeUtc) u t ↔ AheadByRecord db freezeUtc u t := by
  have hu' := List.mem_filter.mpr (mem_ranked.mp hu)
  have ht' := List.mem_filter.mpr (mem_ranked.mp ht)
  have hpair : (Precedes db.teams u t ∧
      listed (teamEntries db freezeUtc) bracketId false u = true ∧
        listed (teamEntries db freezeUtc) bracketId false t = true) ↔ Precedes db.teams u t :=
    and_iff_left ⟨(mem_ranked.mp hu).2, (mem_ranked.mp ht).2⟩
  rw [ranked, precedes_insertionSort ((h.teams.of_map _).filter _) hu' ht' hne, precedes_filter,
    hpair, AheadByRecord]

/-- The listed teams of the contest, in the order of the standings. -/
theorem mem_contest {t : ScoreAccount} :
    t ∈ (ranked db bracketId freezeUtc).filter (fun u => u.contestId = some c) ↔
      t ∈ db.teams ∧ ListedIn db c bracketId freezeUtc t := by
  rw [List.mem_filter, mem_ranked, and_assoc, decide_eq_true_eq, ListedIn]

/-- Who is before a listed team of the contest among them. -/
theorem precedes_contest (h : db.Keyed) {t u : ScoreAccount} (ht : t ∈ db.teams)
    (hlisted : ListedIn db c bracketId freezeUtc t) (hu : u ∈ db.teams) (hne : u ≠ t) :
    Precedes ((ranked db bracketId freezeUtc).filter fun v => v.contestId = some c) u t ↔
      ListedIn db c bracketId freezeUtc u ∧ AheadByRecord db freezeUtc u t := by
  constructor
  · intro hprec
    obtain ⟨-, hlisted'⟩ := mem_contest.mp hprec.mem_left
    exact ⟨hlisted', (precedes_ranked h (mem_ranked.mpr ⟨ht, hlisted.1⟩)
      (mem_ranked.mpr ⟨hu, hlisted'.1⟩) hne).mp (precedes_filter.mp hprec).1⟩
  · rintro ⟨hlisted', hahead⟩
    have hprec := (precedes_ranked h (mem_ranked.mpr ⟨ht, hlisted.1⟩)
      (mem_ranked.mpr ⟨hu, hlisted'.1⟩) hne).mpr hahead
    exact precedes_filter.mpr ⟨hprec, by simpa using hlisted'.2, by simpa using hlisted.2⟩

theorem mem_rows {t : ScoreAccount} (h : db.Keyed) (ht : t ∈ db.teams) :
    t.id ∈ (getTeamStandings db none bracketId false freezeUtc).map (·.accountId) ↔
      listed (teamEntries db freezeUtc) bracketId false t = true := by
  rw [getTeamStandings_eq_map, List.map_map, List.mem_map]
  constructor
  · rintro ⟨u, hu, hid⟩
    obtain ⟨humem, hlisted⟩ := mem_ranked.mp hu
    exact (h.id_eq_iff humem ht).mp hid ▸ hlisted
  · exact fun hlisted => ⟨t, mem_ranked.mpr ⟨ht, hlisted⟩, rfl⟩

end Places

/-- **The places are those of the scoreboard** if and only if the same teams are ahead of
every listed team, by the points of the members and by what is recorded. -/
theorem placeAgrees_iff (c : ℤ) (cfg : ScoreConfig) (db : ScoreDb) (admin : Bool)
    (bracketId freezeUtc : Option ℤ) (h : db.Keyed) :
    PlaceAgrees c cfg db admin bracketId freezeUtc ↔
      SameAhead c cfg db admin bracketId freezeUtc := by
  have hl := @nodup_placed cfg db admin bracketId h
  have hm : ((ranked db bracketId freezeUtc).filter fun u => u.contestId = some c).Nodup :=
    (nodup_ranked h).filter _
  have hplaced : ∀ t, t ∈ db.teams → ListedIn db c bracketId freezeUtc t →
      t ∈ placed cfg db admin bracketId := fun t ht hlisted =>
    mem_placed.mpr ⟨ht, inBracket_of_listed hlisted.1⟩
  have hplaces : PlaceAgrees c cfg db admin bracketId freezeUtc ↔
      ∀ t ∈ (ranked db bracketId freezeUtc).filter fun u => u.contestId = some c,
        (placed cfg db admin bracketId).idxOf t =
          ((ranked db bracketId freezeUtc).filter fun u => u.contestId = some c).idxOf t := by
    constructor
    · intro hagrees t ht
      obtain ⟨hmem, hlisted⟩ := mem_contest.mp ht
      have hplace := hagrees t hmem hlisted.2 ((mem_rows h hmem).mpr hlisted.1)
      rw [getTeamPlace_eq h (hplaced t hmem hlisted),
        listedBefore_eq h (mem_ranked.mpr ⟨hmem, hlisted.1⟩) hlisted.2] at hplace
      exact Nat.add_left_cancel (Option.some.inj hplace)
    · intro hidx t hmem hc hrow
      have hlisted : ListedIn db c bracketId freezeUtc t := ⟨(mem_rows h hmem).mp hrow, hc⟩
      rw [getTeamPlace_eq h (hplaced t hmem hlisted),
        listedBefore_eq h (mem_ranked.mpr ⟨hmem, hlisted.1⟩) hc,
        hidx t (mem_contest.mpr ⟨hmem, hlisted⟩)]
  rw [hplaces, idxOf_eq_iff hl hm fun t ht =>
    hplaced t (mem_contest.mp ht).1 (mem_contest.mp ht).2]
  constructor
  · intro hprec t ht hlisted u hu hbracket hne
    have hul : u ∈ placed cfg db admin bracketId := mem_placed.mpr ⟨hu, hbracket⟩
    rw [← precedes_placed h (hplaced t ht hlisted) hul hne,
      hprec t (mem_contest.mpr ⟨ht, hlisted⟩) u hul, precedes_contest h ht hlisted hu hne]
  · intro hahead t htm u hul
    obtain ⟨ht, hlisted⟩ := mem_contest.mp htm
    obtain ⟨hu, hbracket⟩ := mem_placed.mp hul
    by_cases hne : u = t
    · subst hne
      exact iff_of_false (fun hprec => hprec.ne hl rfl) fun hprec => hprec.ne hm rfl
    · rw [precedes_placed h (hplaced t ht hlisted) hul hne,
        precedes_contest h ht hlisted hu hne]
      exact hahead t ht hlisted u hu hbracket hne

/-- A team of contest 1 and one of contest 2, each with one member and one award. -/
def rivalDb (value : ℤ) : ScoreDb where
  teams :=
    [⟨5, none, some "five", none, some false, some false, some 1⟩,
      ⟨6, none, some "six", none, some false, some false, some 2⟩]
  users := []
  userTeams := [(9, 5), (8, 6)]
  contestsChallenges := []
  submissions := []
  solves := []
  awards :=
    [⟨1, some 1, some 9, some 5, some 10, some 50⟩, ⟨2, some 2, some 8, some 6, some 10, some value⟩]
  brackets := []
  participants := []

theorem rivalDb_keyed (value : ℤ) : (rivalDb value).Keyed := by
  constructor <;> simp [rivalDb]

/-- The places agree while the other contest's team has less. -/
theorem placeAgrees_example : PlaceAgrees 1 ⟨none, none⟩ (rivalDb 40) true none none :=
  (placeAgrees_iff 1 ⟨none, none⟩ (rivalDb 40) true none none (rivalDb_keyed 40)).mpr (by decide)

/-- **Another contest takes the first place.** -/
theorem not_placeAgrees : ¬PlaceAgrees 1 ⟨none, none⟩ (rivalDb 60) true none none := by
  intro h
  have hplace := h _ List.mem_cons_self rfl (by decide)
  revert hplace
  decide

end Fctf
