import Mathlib.Data.Finset.Card
import Mathlib.Data.Finset.Image
import Mathlib.Logic.Function.Basic
import Mathlib.Order.Basic

/-!
# A Key-Value Database with Expiry

The part of a Redis database that scripts and clients of the usual kind rely on: string
values, sorted sets and integer counters, each under a key, each key with an optional
time to live. Time is counted in whole seconds; a key whose time to live has elapsed is
absent for every command, whether or not it has been reclaimed.

Keys of the three kinds live in three stores. A program whose keys name the kind of
their value cannot tell this from one keyspace, and has no wrong-type replies to handle.

## Main definitions

* `Slot`, `Store`: a value with its expiry, and the stored values of one kind.
* `SortedSet`: members with integer scores; `SortedSet.add`, `remove`, `removeUpTo`.
* `Db`: the clock and the stores, with the commands `get`, `setex`, `del`, `expire`,
  `zscore`, `zcard`, `zadd`, `zrem`, `zremrangebyscore`, `zexpire`, `getNum`, `setNum`,
  `incrby`, `delNum`, `expireNum`, and the passage of time `tick`.

## Main results

* `Db.zset_*` and `Db.zexpireAt_*`: what each command does to the sorted set at a key and
  to its expiry, and that it leaves the other keys alone.
* `Db.lookup_*`, `Db.getNum_*`: the same for strings and counters.
* `Db.zset_tick_of_lt`: a sorted set survives the passage of time up to its expiry.
-/

namespace RedisDb

/-! ### Values with expiry -/

/-- A stored value and the time from which it is gone (`none`: never). -/
structure Slot (α : Type) where
  /-- The value. -/
  value : α
  /-- The expiry, in seconds. -/
  expireAt : Option ℤ

/-- Is the value still there at time `now`? -/
def Slot.live {α : Type} (now : ℤ) (e : Slot α) : Bool :=
  match e.expireAt with
  | none => true
  | some t => decide (now < t)

/-- The stored values of one kind. -/
abbrev Store (α : Type) := String → Option (Slot α)

namespace Store

variable {α : Type}

/-- The value under a key at time `now`, with its expiry. -/
def find (s : Store α) (now : ℤ) (key : String) : Option (Slot α) :=
  (s key).filter (·.live now)

/-- Store a value. -/
def put (s : Store α) (key : String) (e : Slot α) : Store α :=
  Function.update s key (some e)

/-- Remove a key. -/
def erase (s : Store α) (key : String) : Store α :=
  Function.update s key none

/-- Give the key a new time to live; one that is not positive removes it. A missing key
stays missing. -/
def expire (s : Store α) (now : ℤ) (key : String) (ttl : ℤ) : Store α :=
  match s.find now key with
  | none => s
  | some e =>
      if ttl ≤ 0 then s.erase key else s.put key { e with expireAt := some (now + ttl) }

@[simp] theorem find_put_same (s : Store α) (now : ℤ) (key : String) (e : Slot α) :
    (s.put key e).find now key = if e.live now then some e else none := by
  simp [find, put, Option.filter]

@[simp] theorem find_put_of_ne (s : Store α) (now : ℤ) {key key' : String} (e : Slot α)
    (h : key' ≠ key) : (s.put key e).find now key' = s.find now key' := by
  simp [find, put, h]

@[simp] theorem find_erase_same (s : Store α) (now : ℤ) (key : String) :
    (s.erase key).find now key = none := by
  simp [find, erase]

@[simp] theorem find_erase_of_ne (s : Store α) (now : ℤ) {key key' : String}
    (h : key' ≠ key) : (s.erase key).find now key' = s.find now key' := by
  simp [find, erase, h]

@[simp] theorem find_expire_of_ne (s : Store α) (now ttl : ℤ) {key key' : String}
    (h : key' ≠ key) : (s.expire now key ttl).find now key' = s.find now key' := by
  unfold expire
  cases s.find now key with
  | none => rfl
  | some e => by_cases ht : ttl ≤ 0 <;> simp [ht, h]

/-- A positive new time to live replaces the expiry of a key that is there. -/
theorem find_expire_same {s : Store α} {now ttl : ℤ} {key : String} (h : 0 < ttl) :
    (s.expire now key ttl).find now key =
      (s.find now key).map fun e => { e with expireAt := some (now + ttl) } := by
  unfold expire
  cases hf : s.find now key with
  | none => simpa using hf
  | some e =>
      have hl : now < now + ttl := by omega
      simp [not_le.mpr h, Slot.live, hl]

/-- What is found is live. -/
theorem live_of_find {s : Store α} {now : ℤ} {key : String} {e : Slot α}
    (h : s.find now key = some e) : e.live now := by
  simp only [find, Option.filter_eq_some_iff] at h
  exact h.2

/-- What is found later was there before, unchanged. -/
theorem find_of_find_le {s : Store α} {now now' : ℤ} {key : String} {e : Slot α}
    (hle : now ≤ now') (h : s.find now' key = some e) : s.find now key = some e := by
  simp only [find, Option.filter_eq_some_iff] at h ⊢
  refine ⟨h.1, ?_⟩
  have hl := h.2
  unfold Slot.live at hl ⊢
  cases he : e.expireAt with
  | none => rfl
  | some t =>
      simp only [he, decide_eq_true_eq] at hl ⊢
      omega

/-- What is found now is found until its expiry. -/
theorem find_later {s : Store α} {now now' : ℤ} {key : String} {e : Slot α}
    (h : s.find now key = some e) (ht : ∀ t, e.expireAt = some t → now' < t) :
    s.find now' key = some e := by
  simp only [find, Option.filter_eq_some_iff] at h ⊢
  refine ⟨h.1, ?_⟩
  unfold Slot.live
  cases he : e.expireAt with
  | none => rfl
  | some t => simpa using ht t he

end Store

/-! ### Sorted sets -/

/-- A **sorted set**: its members and their scores. Scores of non-members are of no
account. -/
structure SortedSet (μ : Type) where
  /-- The members. -/
  members : Finset μ
  /-- The scores. -/
  score : μ → ℤ

namespace SortedSet

variable {μ : Type} [DecidableEq μ]

/-- The set without members. -/
def empty : SortedSet μ := ⟨∅, fun _ => 0⟩

/-- Add a member, or give it a new score. -/
def add (z : SortedSet μ) (m : μ) (s : ℤ) : SortedSet μ :=
  ⟨insert m z.members, Function.update z.score m s⟩

/-- Remove a member. -/
def remove (z : SortedSet μ) (m : μ) : SortedSet μ :=
  { z with members := z.members.erase m }

/-- Remove the members whose score is at most `bound`. -/
def removeUpTo (z : SortedSet μ) (bound : ℤ) : SortedSet μ :=
  { z with members := z.members.filter fun m => bound < z.score m }

/-- The score of a member. -/
def find (z : SortedSet μ) (m : μ) : Option ℤ :=
  if m ∈ z.members then some (z.score m) else none

@[simp] theorem find_eq_some_iff {z : SortedSet μ} {m : μ} {s : ℤ} :
    z.find m = some s ↔ m ∈ z.members ∧ z.score m = s := by
  unfold find
  split <;> simp_all

@[simp] theorem find_isSome_iff {z : SortedSet μ} {m : μ} :
    (z.find m).isSome = true ↔ m ∈ z.members := by
  unfold find
  split <;> simp_all

@[simp] theorem find_eq_none_iff {z : SortedSet μ} {m : μ} :
    z.find m = none ↔ m ∉ z.members := by
  unfold find
  split <;> simp_all

@[simp] theorem find_empty (m : μ) : (empty : SortedSet μ).find m = none := by
  simp [empty]

theorem find_add_same (z : SortedSet μ) (m : μ) (s : ℤ) : (z.add m s).find m = some s := by
  simp [add]

theorem find_add_of_ne (z : SortedSet μ) {m m' : μ} (s : ℤ) (h : m' ≠ m) :
    (z.add m s).find m' = z.find m' := by
  simp [find, add, h]

theorem find_remove_same (z : SortedSet μ) (m : μ) : (z.remove m).find m = none := by
  simp [remove]

theorem find_remove_of_ne (z : SortedSet μ) {m m' : μ} (h : m' ≠ m) :
    (z.remove m).find m' = z.find m' := by
  simp [find, remove, h]

/-- Members above the bound stay, with their scores. -/
theorem find_removeUpTo {z : SortedSet μ} {bound s : ℤ} {m : μ} :
    (z.removeUpTo bound).find m = some s ↔ z.find m = some s ∧ bound < s := by
  simp only [find_eq_some_iff, removeUpTo, Finset.mem_filter]
  constructor
  · rintro ⟨⟨hm, hb⟩, rfl⟩
    exact ⟨⟨hm, rfl⟩, hb⟩
  · rintro ⟨⟨hm, rfl⟩, hb⟩
    exact ⟨⟨hm, hb⟩, rfl⟩

omit [DecidableEq μ] in
theorem card_removeUpTo_le (z : SortedSet μ) (bound : ℤ) :
    (z.removeUpTo bound).members.card ≤ z.members.card :=
  Finset.card_filter_le _ _

theorem card_remove_le (z : SortedSet μ) (m : μ) :
    (z.remove m).members.card ≤ z.members.card :=
  Finset.card_erase_le

theorem card_add_of_mem {z : SortedSet μ} {m : μ} (s : ℤ) (h : m ∈ z.members) :
    (z.add m s).members.card = z.members.card := by
  simp [add, h]

theorem card_add_le (z : SortedSet μ) (m : μ) (s : ℤ) :
    (z.add m s).members.card ≤ z.members.card + 1 :=
  Finset.card_insert_le _ _

end SortedSet

/-! ### The database -/

/-- A **database** with string values of type `P` and sorted-set members of type `μ`. -/
structure Db (P μ : Type) where
  /-- The time. -/
  clock : ℤ
  /-- Keys holding strings. -/
  strings : Store P
  /-- Keys holding sorted sets. -/
  zsets : Store (SortedSet μ)
  /-- Keys holding integers. -/
  counters : Store ℤ

namespace Db

variable {P μ : Type}

/-- The database without keys. -/
def empty (clock : ℤ) : Db P μ :=
  ⟨clock, fun _ => none, fun _ => none, fun _ => none⟩

/-- The passage of `d` seconds. -/
def tick (db : Db P μ) (d : ℕ) : Db P μ :=
  { db with clock := db.clock + d }

theorem clock_le_tick (db : Db P μ) (d : ℕ) : db.clock ≤ (db.tick d).clock := by
  simp only [tick]
  omega

/-! #### Strings -/

/-- A string key that is there, with its expiry. -/
def lookup (db : Db P μ) (key : String) : Option (Slot P) :=
  db.strings.find db.clock key

/-- `GET key`. -/
def get (db : Db P μ) (key : String) : Option P :=
  (db.lookup key).map (·.value)

/-- `SETEX key ttl value`: refused unless the time to live is positive. -/
def setex (db : Db P μ) (key : String) (ttl : ℤ) (v : P) : Option (Db P μ) :=
  if ttl ≤ 0 then none
  else some { db with strings := db.strings.put key ⟨v, some (db.clock + ttl)⟩ }

/-- `DEL key`. -/
def del (db : Db P μ) (key : String) : Db P μ :=
  { db with strings := db.strings.erase key }

/-- `EXPIRE key ttl`. -/
def expire (db : Db P μ) (key : String) (ttl : ℤ) : Db P μ :=
  { db with strings := db.strings.expire db.clock key ttl }

/-! #### Sorted sets -/

/-- The sorted set at a key; a missing key is an empty set. -/
def zset (db : Db P μ) (key : String) : SortedSet μ :=
  ((db.zsets.find db.clock key).map (·.value)).getD ⟨∅, fun _ => 0⟩

/-- The expiry of a sorted-set key that is there (`none`: missing, or never). -/
def zexpireAt (db : Db P μ) (key : String) : Option ℤ :=
  (db.zsets.find db.clock key).bind (·.expireAt)

/-- `ZSCORE key m`. -/
def zscore [DecidableEq μ] (db : Db P μ) (key : String) (m : μ) : Option ℤ :=
  (db.zset key).find m

/-- `ZCARD key`. -/
def zcard (db : Db P μ) (key : String) : ℕ :=
  (db.zset key).members.card

/-- Write back a set after a removal; the key goes with its last member. -/
def restoreZset [DecidableEq μ] (db : Db P μ) (key : String) (z : SortedSet μ) : Db P μ :=
  { db with
    zsets :=
      if z.members = ∅ then db.zsets.erase key
      else db.zsets.put key ⟨z, db.zexpireAt key⟩ }

/-- `ZREM key m`. -/
def zrem [DecidableEq μ] (db : Db P μ) (key : String) (m : μ) : Db P μ :=
  db.restoreZset key ((db.zset key).remove m)

/-- `ZREMRANGEBYSCORE key -inf bound`. -/
def zremrangebyscore [DecidableEq μ] (db : Db P μ) (key : String) (bound : ℤ) : Db P μ :=
  db.restoreZset key ((db.zset key).removeUpTo bound)

/-- `ZADD key s m`: the key keeps its expiry, and a new key has none. -/
def zadd [DecidableEq μ] (db : Db P μ) (key : String) (s : ℤ) (m : μ) : Db P μ :=
  { db with zsets := db.zsets.put key ⟨(db.zset key).add m s, db.zexpireAt key⟩ }

/-- `EXPIRE key ttl` of a sorted set. -/
def zexpire (db : Db P μ) (key : String) (ttl : ℤ) : Db P μ :=
  { db with zsets := db.zsets.expire db.clock key ttl }

/-! #### Counters -/

/-- A counter that is there, with its expiry. -/
def lookupNum (db : Db P μ) (key : String) : Option (Slot ℤ) :=
  db.counters.find db.clock key

/-- `GET key` of a counter. -/
def getNum (db : Db P μ) (key : String) : Option ℤ :=
  (db.lookupNum key).map (·.value)

/-- `SET key n`: the key loses its expiry. -/
def setNum (db : Db P μ) (key : String) (n : ℤ) : Db P μ :=
  { db with counters := db.counters.put key ⟨n, none⟩ }

/-- `EXPIRE key ttl` of a counter. -/
def expireNum (db : Db P μ) (key : String) (ttl : ℤ) : Db P μ :=
  { db with counters := db.counters.expire db.clock key ttl }

/-- `INCRBY key n`: a missing key counts from zero, and the expiry is kept. -/
def incrby (db : Db P μ) (key : String) (n : ℤ) : Db P μ :=
  { db with
    counters :=
      db.counters.put key
        ⟨(db.getNum key).getD 0 + n, (db.lookupNum key).bind (·.expireAt)⟩ }

/-- `DEL key` of a counter. -/
def delNum (db : Db P μ) (key : String) : Db P μ :=
  { db with counters := db.counters.erase key }

/-! ### Strings under the commands -/

section Strings

variable (db : Db P μ)

theorem get_eq_some_iff {key : String} {v : P} :
    db.get key = some v ↔ ∃ e, db.lookup key = some e ∧ e.value = v := by
  simp [get]

@[simp] theorem lookup_del_same (key : String) : (db.del key).lookup key = none :=
  Store.find_erase_same _ _ _

@[simp] theorem lookup_del_of_ne {key key' : String} (h : key' ≠ key) :
    (db.del key).lookup key' = db.lookup key' :=
  Store.find_erase_of_ne _ _ h

/-- Removing a key adds no entry. -/
theorem get_of_del {key key' : String} {v : P} (h : (db.del key').get key = some v) :
    db.get key = some v := by
  rw [get] at h ⊢
  by_cases hk : key = key'
  · rw [hk, lookup_del_same] at h
    cases h
  · rwa [lookup_del_of_ne db hk] at h

@[simp] theorem lookup_expire_of_ne {key key' : String} (ttl : ℤ) (h : key' ≠ key) :
    (db.expire key ttl).lookup key' = db.lookup key' :=
  Store.find_expire_of_ne _ _ _ h

/-- Everything `SETEX` can do. -/
theorem setex_eq_some_iff {key : String} {ttl : ℤ} {v : P} {db' : Db P μ} :
    db.setex key ttl v = some db' ↔
      0 < ttl ∧
        db' = { db with strings := db.strings.put key ⟨v, some (db.clock + ttl)⟩ } := by
  unfold setex
  split
  · simp only [reduceCtorEq, false_iff, not_and]
    omega
  · simp only [Option.some.injEq]
    constructor
    · rintro rfl
      exact ⟨by omega, rfl⟩
    · rintro ⟨-, rfl⟩
      rfl

/-- After a `SETEX` the key holds the value up to the end of its time to live. -/
theorem lookup_setex_same {key : String} {ttl : ℤ} {v : P} {db' : Db P μ}
    (h : db.setex key ttl v = some db') :
    db'.lookup key = some ⟨v, some (db.clock + ttl)⟩ := by
  obtain ⟨ht, rfl⟩ := db.setex_eq_some_iff.mp h
  have hl : db.clock < db.clock + ttl := by omega
  simp [lookup, Slot.live, hl]

theorem lookup_setex_of_ne {key key' : String} {ttl : ℤ} {v : P} {db' : Db P μ}
    (hne : key' ≠ key) (h : db.setex key ttl v = some db') :
    db'.lookup key' = db.lookup key' := by
  obtain ⟨-, rfl⟩ := db.setex_eq_some_iff.mp h
  simp [lookup, hne]

/-- An `EXPIRE` leaves the value or removes the key. -/
theorem lookup_of_expire {key : String} {ttl : ℤ} {e : Slot P}
    (h : (db.expire key ttl).lookup key = some e) :
    0 < ttl ∧ e.expireAt = some (db.clock + ttl) ∧ db.get key = some e.value := by
  by_cases ht : 0 < ttl
  · simp only [lookup, expire, Store.find_expire_same ht, Option.map_eq_some_iff] at h
    obtain ⟨e₀, h₀, rfl⟩ := h
    exact ⟨ht, rfl, db.get_eq_some_iff.mpr ⟨e₀, h₀, rfl⟩⟩
  · simp only [lookup, expire, Store.expire] at h
    cases hf : db.strings.find db.clock key with
    | none => simp [hf] at h
    | some e₀ => simp [hf, not_lt.mp ht] at h

/-- What is there later was there before. -/
theorem lookup_of_tick {key : String} {d : ℕ} {e : Slot P}
    (h : (db.tick d).lookup key = some e) : db.lookup key = some e :=
  Store.find_of_find_le (db.clock_le_tick d) h

theorem get_of_tick {key : String} {d : ℕ} {v : P} (h : (db.tick d).get key = some v) :
    db.get key = some v := by
  obtain ⟨e, he, hv⟩ := (db.tick d).get_eq_some_iff.mp h
  exact db.get_eq_some_iff.mpr ⟨e, db.lookup_of_tick he, hv⟩

/-- What is there has not reached its expiry. -/
theorem clock_lt_of_lookup {key : String} {e : Slot P} {t : ℤ}
    (h : db.lookup key = some e) (ht : e.expireAt = some t) : db.clock < t := by
  have hl := Store.live_of_find h
  simpa [Slot.live, ht] using hl

end Strings

/-! ### Counters under the commands -/

section Counters

variable (db : Db P μ)

theorem getNum_eq_some_iff {key : String} {n : ℤ} :
    db.getNum key = some n ↔ ∃ e, db.lookupNum key = some e ∧ e.value = n := by
  simp [getNum]

@[simp] theorem getNum_setNum_same (key : String) (n : ℤ) :
    (db.setNum key n).getNum key = some n := by
  simp [getNum, lookupNum, setNum, Slot.live]

@[simp] theorem lookupNum_setNum_of_ne {key key' : String} (n : ℤ) (h : key' ≠ key) :
    (db.setNum key n).lookupNum key' = db.lookupNum key' := by
  simp [lookupNum, setNum, h]

@[simp] theorem lookupNum_expireNum_of_ne {key key' : String} (ttl : ℤ) (h : key' ≠ key) :
    (db.expireNum key ttl).lookupNum key' = db.lookupNum key' := by
  simp [lookupNum, expireNum, h]

@[simp] theorem lookupNum_incrby_of_ne {key key' : String} (n : ℤ) (h : key' ≠ key) :
    (db.incrby key n).lookupNum key' = db.lookupNum key' := by
  simp [lookupNum, incrby, h]

/-- A positive new time to live replaces the expiry of a counter that is there. -/
theorem lookupNum_expireNum_same {key : String} {ttl : ℤ} (h : 0 < ttl) :
    (db.expireNum key ttl).lookupNum key =
      (db.lookupNum key).map fun e => { e with expireAt := some (db.clock + ttl) } :=
  Store.find_expire_same h

/-- A counter is there until its expiry. -/
theorem lookupNum_tick {key : String} {d : ℕ} {e : Slot ℤ} (h : db.lookupNum key = some e)
    (ht : ∀ t, e.expireAt = some t → (db.tick d).clock < t) :
    (db.tick d).lookupNum key = some e :=
  Store.find_later h ht

@[simp] theorem getNum_setNum_of_ne {key key' : String} (n : ℤ) (h : key' ≠ key) :
    (db.setNum key n).getNum key' = db.getNum key' := by
  rw [getNum, db.lookupNum_setNum_of_ne n h, getNum]

@[simp] theorem getNum_delNum_same (key : String) : (db.delNum key).getNum key = none := by
  simp [getNum, lookupNum, delNum]

@[simp] theorem getNum_delNum_of_ne {key key' : String} (h : key' ≠ key) :
    (db.delNum key).getNum key' = db.getNum key' := by
  simp [getNum, lookupNum, delNum, h]

@[simp] theorem lookupNum_delNum_of_ne {key key' : String} (h : key' ≠ key) :
    (db.delNum key).lookupNum key' = db.lookupNum key' := by
  simp [lookupNum, delNum, h]

/-- A positive time to live leaves the count. -/
theorem getNum_expireNum {key : String} (key' : String) {ttl : ℤ} (h : 0 < ttl) :
    (db.expireNum key ttl).getNum key' = db.getNum key' := by
  by_cases hk : key' = key
  · subst hk
    simp only [getNum, lookupNum, expireNum, Store.find_expire_same h, Option.map_map]
    rfl
  · simp [getNum, lookupNum, expireNum, hk]

/-- An `INCRBY` keeps the expiry. -/
theorem lookupNum_incrby_same (key : String) (n : ℤ) :
    (db.incrby key n).lookupNum key =
      some ⟨(db.getNum key).getD 0 + n, (db.lookupNum key).bind (·.expireAt)⟩ := by
  have hlive : Slot.live db.clock
      ⟨(db.getNum key).getD 0 + n, (db.lookupNum key).bind (·.expireAt)⟩ = true := by
    unfold Slot.live lookupNum
    cases hf : db.counters.find db.clock key with
    | none => rfl
    | some e =>
        have hl := Store.live_of_find hf
        simpa [Slot.live] using hl
  have hfind : (db.incrby key n).lookupNum key = Option.filter (Slot.live db.clock)
      (some ⟨(db.getNum key).getD 0 + n, (db.lookupNum key).bind (·.expireAt)⟩) :=
    Store.find_put_same _ _ _ _
  rw [hfind, Option.filter_some, if_pos hlive]

@[simp] theorem getNum_incrby_same (key : String) (n : ℤ) :
    (db.incrby key n).getNum key = some ((db.getNum key).getD 0 + n) := by
  rw [getNum, db.lookupNum_incrby_same key n]
  rfl

@[simp] theorem getNum_incrby_of_ne {key key' : String} (n : ℤ) (h : key' ≠ key) :
    (db.incrby key n).getNum key' = db.getNum key' := by
  rw [getNum, db.lookupNum_incrby_of_ne n h, getNum]

/-- A count there later was there before. -/
theorem getNum_of_tick {key : String} {d : ℕ} {n : ℤ}
    (h : (db.tick d).getNum key = some n) : db.getNum key = some n := by
  obtain ⟨e, he, rfl⟩ := (db.tick d).getNum_eq_some_iff.mp h
  exact db.getNum_eq_some_iff.mpr
    ⟨e, Store.find_of_find_le (db.clock_le_tick d) he, rfl⟩

end Counters

/-! ### Sorted sets under the commands -/

section Zset

variable [DecidableEq μ] (db : Db P μ)

omit [DecidableEq μ] in
/-- What is written back at the current time is there: its expiry was that of a live
key, or none. -/
theorem live_zexpireAt (key : String) (z : SortedSet μ) :
    Slot.live db.clock ⟨z, db.zexpireAt key⟩ = true := by
  unfold zexpireAt Slot.live
  cases hf : db.zsets.find db.clock key with
  | none => rfl
  | some e =>
      have hl := Store.live_of_find hf
      simpa [Slot.live] using hl

@[simp] theorem zset_restoreZset_of_ne {key key' : String} (z : SortedSet μ)
    (h : key' ≠ key) : (db.restoreZset key z).zset key' = db.zset key' := by
  unfold restoreZset zset
  split <;> simp [h]

@[simp] theorem zexpireAt_restoreZset_of_ne {key key' : String} (z : SortedSet μ)
    (h : key' ≠ key) : (db.restoreZset key z).zexpireAt key' = db.zexpireAt key' := by
  unfold restoreZset
  split <;> simp [zexpireAt, h]

@[simp] theorem members_restoreZset (key : String) (z : SortedSet μ) :
    ((db.restoreZset key z).zset key).members = z.members := by
  have hlive := db.live_zexpireAt key z
  unfold restoreZset
  split
  · rename_i hz
    simp [zset, hz]
  · simp [zset, hlive]

@[simp] theorem zscore_restoreZset (key : String) (z : SortedSet μ) (m : μ) :
    (db.restoreZset key z).zscore key m = z.find m := by
  have hlive := db.live_zexpireAt key z
  unfold restoreZset
  split
  · rename_i hz
    simp [zscore, zset, SortedSet.find, hz]
  · simp [zscore, zset, hlive]

/-- Removing members does not give a key a later expiry. -/
theorem zexpireAt_of_restoreZset {key : String} {z : SortedSet μ} {t : ℤ}
    (h : (db.restoreZset key z).zexpireAt key = some t) : db.zexpireAt key = some t := by
  have hlive := db.live_zexpireAt key z
  unfold restoreZset at h
  generalize hd : db.zexpireAt key = d at hlive h
  split at h
  · simp [zexpireAt] at h
  · simpa [zexpireAt, hlive] using h

@[simp] theorem zset_zrem_of_ne {key key' : String} (m : μ) (h : key' ≠ key) :
    (db.zrem key m).zset key' = db.zset key' :=
  db.zset_restoreZset_of_ne _ h

@[simp] theorem zexpireAt_zrem_of_ne {key key' : String} (m : μ) (h : key' ≠ key) :
    (db.zrem key m).zexpireAt key' = db.zexpireAt key' :=
  db.zexpireAt_restoreZset_of_ne _ h

@[simp] theorem zset_zremrangebyscore_of_ne {key key' : String} (bound : ℤ)
    (h : key' ≠ key) : (db.zremrangebyscore key bound).zset key' = db.zset key' :=
  db.zset_restoreZset_of_ne _ h

@[simp] theorem zexpireAt_zremrangebyscore_of_ne {key key' : String} (bound : ℤ)
    (h : key' ≠ key) : (db.zremrangebyscore key bound).zexpireAt key' = db.zexpireAt key' :=
  db.zexpireAt_restoreZset_of_ne _ h

@[simp] theorem zset_zadd_same (key : String) (s : ℤ) (m : μ) :
    (db.zadd key s m).zset key = (db.zset key).add m s := by
  have hlive := db.live_zexpireAt key ((db.zset key).add m s)
  simp [zadd, zset] at hlive ⊢
  simp [hlive]

/-- A new member or score does not change the life of the key. -/
@[simp] theorem zexpireAt_zadd_same (key : String) (s : ℤ) (m : μ) :
    (db.zadd key s m).zexpireAt key = db.zexpireAt key := by
  have hlive := db.live_zexpireAt key ((db.zset key).add m s)
  generalize hd : db.zexpireAt key = d at hlive ⊢
  simp [zadd, zexpireAt] at hd hlive ⊢
  simp [hd, hlive]

@[simp] theorem zset_zadd_of_ne {key key' : String} (s : ℤ) (m : μ) (h : key' ≠ key) :
    (db.zadd key s m).zset key' = db.zset key' := by
  simp [zadd, zset, h]

@[simp] theorem zexpireAt_zadd_of_ne {key key' : String} (s : ℤ) (m : μ)
    (h : key' ≠ key) : (db.zadd key s m).zexpireAt key' = db.zexpireAt key' := by
  simp [zadd, zexpireAt, h]

omit [DecidableEq μ] in
@[simp] theorem zset_zexpire_of_ne {key key' : String} (ttl : ℤ) (h : key' ≠ key) :
    (db.zexpire key ttl).zset key' = db.zset key' := by
  simp [zexpire, zset, h]

omit [DecidableEq μ] in
@[simp] theorem zexpireAt_zexpire_of_ne {key key' : String} (ttl : ℤ) (h : key' ≠ key) :
    (db.zexpire key ttl).zexpireAt key' = db.zexpireAt key' := by
  simp [zexpire, zexpireAt, h]

omit [DecidableEq μ] in
/-- A positive new time to live keeps the members. -/
theorem zset_zexpire_same {key : String} {ttl : ℤ} (h : 0 < ttl) :
    (db.zexpire key ttl).zset key = db.zset key := by
  simp only [zset, zexpire, Store.find_expire_same h, Option.map_map]
  rfl

omit [DecidableEq μ] in
/-- A new time to live, which must be positive, is the expiry of a key that is there. -/
theorem zexpireAt_of_zexpire {key : String} {ttl t : ℤ}
    (ht : (db.zexpire key ttl).zexpireAt key = some t) : 0 < ttl ∧ t = db.clock + ttl := by
  by_cases h : 0 < ttl
  · simp only [zexpireAt, zexpire, Store.find_expire_same h] at ht
    cases hf : db.zsets.find db.clock key with
    | none => simp [hf] at ht
    | some e => exact ⟨h, by simpa [hf] using ht.symm⟩
  · simp only [zexpireAt, zexpire, Store.expire] at ht
    cases hf : db.zsets.find db.clock key with
    | none => simp [hf] at ht
    | some e => simp [hf, not_lt.mp h] at ht

omit [DecidableEq μ] in
/-- No time to live adds members. -/
theorem members_zexpire_subset (key : String) (ttl : ℤ) :
    ((db.zexpire key ttl).zset key).members ⊆ (db.zset key).members := by
  by_cases h : 0 < ttl
  · rw [db.zset_zexpire_same h]
  · simp only [zexpire, zset, Store.expire]
    cases hf : db.zsets.find db.clock key with
    | none => simp [hf]
    | some e => simp [not_lt.mp h]

/-! #### Scores and cardinalities -/

theorem mem_zset_iff {key : String} {m : μ} :
    m ∈ (db.zset key).members ↔ ∃ s, db.zscore key m = some s := by
  rw [zscore, ← SortedSet.find_isSome_iff, Option.isSome_iff_exists]

theorem zscore_congr {db db' : Db P μ} {key : String} (h : db'.zset key = db.zset key)
    (m : μ) : db'.zscore key m = db.zscore key m := by
  rw [zscore, zscore, h]

theorem zscore_zadd (key : String) (s : ℤ) (m m' : μ) :
    (db.zadd key s m).zscore key m' = if m' = m then some s else db.zscore key m' := by
  rw [zscore, zset_zadd_same]
  split
  · next h => rw [h, SortedSet.find_add_same]
  · next h => rw [SortedSet.find_add_of_ne _ _ h, zscore]

/-- A new time to live of a list that is not empty. -/
theorem zexpireAt_zexpire_same {key : String} {ttl s : ℤ} {m : μ} (h : 0 < ttl)
    (hmem : db.zscore key m = some s) :
    (db.zexpire key ttl).zexpireAt key = some (db.clock + ttl) := by
  rw [zexpireAt, zexpire, Store.find_expire_same h]
  cases hf : db.zsets.find db.clock key with
  | none =>
      rw [zscore, zset, hf] at hmem
      simp at hmem
  | some e => rfl

/-- A time to live that is over removes the list. -/
theorem zscore_zexpire_of_le {key : String} {ttl : ℤ} (h : ttl ≤ 0) (m : μ) :
    (db.zexpire key ttl).zscore key m = none := by
  simp only [zscore, zexpire, zset, Store.expire]
  cases hf : db.zsets.find db.clock key with
  | none => simp [hf]
  | some e => simp [h]

theorem zscore_zrem (key : String) (m m' : μ) :
    (db.zrem key m).zscore key m' = if m' = m then none else db.zscore key m' := by
  rw [zrem, zscore_restoreZset]
  split
  · next h => rw [h, SortedSet.find_remove_same]
  · next h => rw [SortedSet.find_remove_of_ne _ h, zscore]

theorem zscore_zremrangebyscore {key : String} {bound s : ℤ} {m : μ} :
    (db.zremrangebyscore key bound).zscore key m = some s ↔
      db.zscore key m = some s ∧ bound < s := by
  rw [zremrangebyscore, zscore_restoreZset, SortedSet.find_removeUpTo, zscore]

theorem zcard_zadd_le (key : String) (s : ℤ) (m : μ) :
    (db.zadd key s m).zcard key ≤ db.zcard key + 1 := by
  rw [zcard, zset_zadd_same]
  exact SortedSet.card_add_le _ _ _

theorem zcard_zadd_of_mem {key : String} {s s' : ℤ} {m : μ} (h : db.zscore key m = some s') :
    (db.zadd key s m).zcard key = db.zcard key := by
  rw [zcard, zset_zadd_same]
  exact SortedSet.card_add_of_mem _ (db.mem_zset_iff.mpr ⟨s', h⟩)

theorem zcard_zrem_le (key : String) (m : μ) : (db.zrem key m).zcard key ≤ db.zcard key := by
  rw [zcard, zrem, members_restoreZset]
  exact SortedSet.card_remove_le _ _

theorem zcard_zremrangebyscore_le (key : String) (bound : ℤ) :
    (db.zremrangebyscore key bound).zcard key ≤ db.zcard key := by
  rw [zcard, zremrangebyscore, members_restoreZset]
  exact SortedSet.card_removeUpTo_le _ _

omit [DecidableEq μ] in
theorem zcard_zexpire_le (key : String) (ttl : ℤ) :
    (db.zexpire key ttl).zcard key ≤ db.zcard key :=
  Finset.card_le_card (db.members_zexpire_subset key ttl)

/-- Members are counted by the cardinality. -/
theorem card_le_zcard {key : String} {t : Finset μ}
    (h : ∀ m ∈ t, ∃ s, db.zscore key m = some s) : t.card ≤ db.zcard key :=
  Finset.card_le_card fun m hm => db.mem_zset_iff.mpr (h m hm)

/-! #### Time -/

omit [DecidableEq μ] in
/-- A sorted set is as it was, or it is gone. -/
theorem zset_of_tick {key : String} {d : ℕ} :
    (db.tick d).zset key = db.zset key ∨ ((db.tick d).zset key).members = ∅ := by
  unfold zset
  cases hf : (db.tick d).zsets.find (db.tick d).clock key with
  | none => exact .inr rfl
  | some e =>
      have hle := db.clock_le_tick d
      have hb : db.zsets.find db.clock key = some e := Store.find_of_find_le hle hf
      left
      rw [hb]

omit [DecidableEq μ] in
/-- A sorted set survives the passage of time up to its expiry. -/
theorem zset_tick_of_lt {key : String} {d : ℕ}
    (h : ∀ t, db.zexpireAt key = some t → db.clock + d < t) :
    (db.tick d).zset key = db.zset key := by
  unfold zset
  cases hf : db.zsets.find db.clock key with
  | some e =>
      have ht : ∀ t, e.expireAt = some t → (db.tick d).clock < t := by
        intro t he
        exact h t (by simp [zexpireAt, hf, he])
      have hl : (db.tick d).zsets.find (db.tick d).clock key = some e :=
        Store.find_later hf ht
      rw [hl]
  | none =>
      have hn : (db.tick d).zsets.find (db.tick d).clock key = none := by
        by_contra hc
        obtain ⟨e, he⟩ := Option.ne_none_iff_exists'.mp hc
        have hle := db.clock_le_tick d
        have hb : db.zsets.find db.clock key = some e := Store.find_of_find_le hle he
        simp [hf] at hb
      rw [hn]

omit [DecidableEq μ] in
/-- The passage of time gives no key an expiry. -/
theorem zexpireAt_of_tick {key : String} {d : ℕ} {t : ℤ}
    (h : (db.tick d).zexpireAt key = some t) : db.zexpireAt key = some t := by
  unfold zexpireAt at h ⊢
  cases hf : (db.tick d).zsets.find (db.tick d).clock key with
  | none => simp [hf] at h
  | some e =>
      have hle := db.clock_le_tick d
      have hb : db.zsets.find db.clock key = some e := Store.find_of_find_le hle hf
      rw [hf] at h
      rw [hb]
      exact h

omit [DecidableEq μ] in
theorem zcard_tick_le (key : String) (d : ℕ) : (db.tick d).zcard key ≤ db.zcard key := by
  have hzset : (db.tick d).zset key = db.zset key ∨ ((db.tick d).zset key).members = ∅ :=
    db.zset_of_tick
  rcases hzset with h | h
  · rw [zcard, zcard, h]
  · rw [zcard, h, Finset.card_empty]
    exact Nat.zero_le _

end Zset

end Db

end RedisDb
