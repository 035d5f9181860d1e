import Fctf.TcpSession

/-!
# A Copy that Fails

`proxyCopyWithSample` where reads and writes may fail. A chunk is counted when it was read, before
it is written; so the count is not what was delivered if the write that ends the copy delivers only
a part of its chunk.

## Main results

* `Copying.tracks_copyLoop`: what is counted and kept is what was read.
* `copyLoop_delivered_iff`: when everything that was read is delivered.
* `faithful_iff`: when the copy reports what it delivered.
-/

namespace Fctf.ProxyCopy

open Gateway (Copied)

variable {E : Type}

/-! ### Readers and writers -/

/-- The error of a read. -/
inductive ReadError (E : Type) where
  /-- `io.EOF`. -/
  | eof
  | other (e : E)

/-- What one read returns: the bytes in the buffer, and an error beside them. -/
structure Reading (E : Type) where
  chunk : List UInt8
  readErr : Option (ReadError E)

/-- How many bytes of its argument a write delivers, by the writes before, and with what error. -/
structure Writer (E : Type) where
  write : ℕ → List UInt8 → ℕ × Option E
  write_le : ∀ i chunk, (write i chunk).1 ≤ chunk.length

/-! ### The loop -/

/-- A copy under way: what it has counted and kept, what the destination has got, and the error.
The chunks that were read are those handed to a write. -/
structure Copying (E : Type) where
  copied : Copied
  delivered : List UInt8
  err : Option E

/-- The bytes that were read. -/
def Copying.read (c : Copying E) : List UInt8 := c.copied.writes.flatten

/-- A chunk is counted, kept for the log and written. -/
def Copying.write (dst : Writer E) (sampleLimit : ℕ) (chunk : List UInt8) (c : Copying E) :
    Copying E :=
  let written := dst.write c.copied.writes.length chunk
  { copied := c.copied.write sampleLimit chunk
    delivered := c.delivered ++ chunk.take written.1
    err := written.2 }

/-- The loop. Behind the readings given the stream has its end. -/
def copyLoop (dst : Writer E) (sampleLimit : ℕ) : List (Reading E) → Copying E → Copying E
  | [], c => c
  | r :: rest, c =>
    let c := if r.chunk = [] then c else c.write dst sampleLimit r.chunk
    if c.err.isSome then c
    else
      match r.readErr with
      | none => copyLoop dst sampleLimit rest c
      | some .eof => c
      | some (.other e) => { c with err := some e }

/-- `base64.RawStdEncoding`: the other alphabet for the last two letters. -/
def rawStdEncoding (bs : List UInt8) : List UInt8 :=
  (Base64.encode bs).map fun c => if c = 0x2D then 0x2B else if c = 0x5F then 0x2F else c

/-- What the copy returns, what it has read, and what the destination has got. -/
structure Outcome (E : Type) where
  bytesCopied : ℕ
  sampleB64 : List UInt8
  err : Option E
  read : List UInt8
  delivered : List UInt8

/-- `proxyCopyWithSample`. -/
def proxyCopyWithSample (dst : Writer E) (src : List (Reading E)) (sampleLimit : ℤ) : Outcome E :=
  let c := copyLoop dst sampleLimit.toNat src ⟨⟨[], 0, []⟩, [], none⟩
  { bytesCopied := c.copied.bytesCopied
    sampleB64 := rawStdEncoding c.copied.sample
    err := c.err
    read := c.read
    delivered := c.delivered }

/-! ### What is asked of a copy -/

/-- The destination has the front of what was read, the count is of what it has, and the sample is
of what was read. -/
def Outcome.Faithful (sampleLimit : ℤ) (o : Outcome E) : Prop :=
  o.delivered <+: o.read ∧ o.bytesCopied = o.delivered.length ∧
    o.sampleB64 = rawStdEncoding (o.read.take sampleLimit.toNat)

/-- Each write that is made delivers the whole of its chunk. -/
def DeliversAll (dst : Writer E) : ℕ → List (Reading E) → Prop
  | _, [] => True
  | i, r :: rest =>
    if r.chunk = [] then r.readErr.isNone → DeliversAll dst i rest
    else
      (dst.write i r.chunk).1 = r.chunk.length ∧
        ((dst.write i r.chunk).2.isNone → r.readErr.isNone → DeliversAll dst (i + 1) rest)

/-! ### What is counted and kept -/

/-- The count and the sample are those of what was read, and no more was delivered. -/
structure Copying.Tracks (sampleLimit : ℕ) (c : Copying E) : Prop where
  count : c.copied.bytesCopied = c.read.length
  sample : c.copied.sample = c.read.take sampleLimit
  delivered : c.delivered.length ≤ c.read.length

section Step

variable {dst : Writer E} {n : ℕ} {chunk : List UInt8} {c : Copying E}

@[simp] theorem Copying.read_write : (c.write dst n chunk).read = c.read ++ chunk := by
  simp [Copying.read, Copying.write, Copied.write]

@[simp] theorem Copying.length_writes_write :
    (c.write dst n chunk).copied.writes.length = c.copied.writes.length + 1 := by
  simp [Copying.write, Copied.write]

theorem Copying.length_delivered_write :
    (c.write dst n chunk).delivered.length =
      c.delivered.length + (dst.write c.copied.writes.length chunk).1 := by
  have hle := dst.write_le c.copied.writes.length chunk
  rw [Copying.write, List.length_append, List.length_take, min_eq_left hle]

theorem Copying.Tracks.write (h : c.Tracks n) : (c.write dst n chunk).Tracks n where
  count := by
    rw [Copying.read_write, List.length_append, ← h.count]
    rfl
  sample := Copied.sample_write chunk h.sample
  delivered := by
    have hle := dst.write_le c.copied.writes.length chunk
    have hbefore := h.delivered
    rw [Copying.read_write, Copying.length_delivered_write, List.length_append]
    omega

/-- What a round of the loop keeps, if a write keeps it. -/
theorem copyLoop_keeps {P : Copying E → Prop}
    (hwrite : ∀ c chunk, P c → P (c.write dst n chunk))
    (herr : ∀ (c : Copying E) (e : E), P c → P { c with err := some e })
    (src : List (Reading E)) (h : P c) : P (copyLoop dst n src c) := by
  induction src generalizing c with
  | nil => exact h
  | cons r rest ih =>
      have hround : P (if r.chunk = [] then c else c.write dst n r.chunk) := by
        split
        · exact h
        · exact hwrite c r.chunk h
      rw [copyLoop]
      generalize (if r.chunk = [] then c else c.write dst n r.chunk) = after at hround
      split
      · exact hround
      · split
        · exact ih hround
        · exact hround
        · exact herr _ _ hround

end Step

section Loop

variable {dst : Writer E} {n : ℕ} {c : Copying E}

/-- **What is counted and kept is what was read.** -/
theorem Copying.tracks_copyLoop (src : List (Reading E)) (h : c.Tracks n) :
    (copyLoop dst n src c).Tracks n :=
  copyLoop_keeps (fun _ _ hc => hc.write) (fun _ _ hc => ⟨hc.count, hc.sample, hc.delivered⟩) src h

/-- A byte that is not delivered is missing to the end. -/
theorem length_delivered_copyLoop_lt (src : List (Reading E))
    (h : c.delivered.length < c.read.length) :
    (copyLoop dst n src c).delivered.length < (copyLoop dst n src c).read.length := by
  refine copyLoop_keeps (P := fun c => c.delivered.length < c.read.length)
    (fun c chunk hc => ?_) (fun _ _ hc => hc) src h
  have hle := dst.write_le c.copied.writes.length chunk
  rw [Copying.read_write, Copying.length_delivered_write, List.length_append]
  omega

/-- The write of a whole chunk. -/
theorem Copying.delivered_write {chunk : List UInt8} (h : c.delivered = c.read)
    (hwhole : (dst.write c.copied.writes.length chunk).1 = chunk.length) :
    (c.write dst n chunk).delivered = (c.write dst n chunk).read := by
  rw [Copying.read_write, ← h]
  simp [Copying.write, hwhole]

/-- **When everything that was read is delivered.** -/
theorem copyLoop_delivered_iff (src : List (Reading E)) (h : c.delivered = c.read)
    (herr : c.err = none) :
    (copyLoop dst n src c).delivered = (copyLoop dst n src c).read ↔
      DeliversAll dst c.copied.writes.length src := by
  induction src generalizing c with
  | nil => exact iff_of_true h trivial
  | cons r rest ih =>
      rw [copyLoop, DeliversAll]
      by_cases hchunk : r.chunk = []
      · rw [if_pos hchunk, if_pos hchunk, herr, if_neg (by simp)]
        cases hread : r.readErr with
        | none => simpa using ih h herr
        | some e => cases e <;> exact iff_of_true h nofun
      · rw [if_neg hchunk, if_neg hchunk]
        by_cases hwhole : (dst.write c.copied.writes.length r.chunk).1 = r.chunk.length
        · have hdelivered := Copying.delivered_write (n := n) h hwhole
          rw [and_iff_right hwhole]
          cases hwritten : (dst.write c.copied.writes.length r.chunk).2 with
          | some e => simpa [Copying.write, hwritten] using hdelivered
          | none =>
              have hgoes : (c.write dst n r.chunk).err = none := hwritten
              rw [hgoes, if_neg (by simp)]
              cases hread : r.readErr with
              | none => simpa using ih hdelivered hgoes
              | some e => cases e <;> exact iff_of_true hdelivered nofun
        · -- A byte is missing behind this write, and behind every later one.
          have hmissing : (c.write dst n r.chunk).delivered.length <
              (c.write dst n r.chunk).read.length := by
            have hle := dst.write_le c.copied.writes.length r.chunk
            rw [Copying.read_write, Copying.length_delivered_write, List.length_append, h]
            omega
          have hend : ∀ c' : Copying E, c'.delivered.length < c'.read.length →
              c'.delivered ≠ c'.read := fun c' hlt heq => hlt.ne (congrArg List.length heq)
          refine iff_of_false ?_ (fun hboth => hwhole hboth.1)
          split
          · exact hend _ hmissing
          · split
            · exact hend _ (length_delivered_copyLoop_lt rest hmissing)
            · exact hend _ hmissing
            · exact hend _ hmissing

end Loop

/-! ### The copy -/

section Copy

variable {dst : Writer E}

theorem tracks_nil (n : ℕ) : (⟨⟨[], 0, []⟩, [], none⟩ : Copying E).Tracks n :=
  ⟨rfl, List.take_nil.symm, le_rfl⟩

/-- **The copy is faithful if each of its writes is whole**, and only then. -/
theorem faithful_iff (dst : Writer E) (src : List (Reading E)) (sampleLimit : ℤ) :
    (proxyCopyWithSample dst src sampleLimit).Faithful sampleLimit ↔ DeliversAll dst 0 src := by
  have htracks := @Copying.tracks_copyLoop _ dst _ _ src (tracks_nil sampleLimit.toNat)
  have hdelivered := @copyLoop_delivered_iff _ dst sampleLimit.toNat ⟨⟨[], 0, []⟩, [], none⟩
    src rfl rfl
  refine Iff.trans ?_ hdelivered
  dsimp only [Outcome.Faithful, proxyCopyWithSample]
  constructor
  · rintro ⟨hfront, hcount, -⟩
    exact hfront.eq_of_length (hcount.symm.trans htracks.count)
  · intro hall
    exact ⟨hall ▸ List.prefix_refl _, by rw [htracks.count, hall], by rw [htracks.sample]⟩

/-- A writer that delivers one byte of what it is given, and fails. -/
def oneByte : Writer Unit where
  write _ chunk := (min 1 chunk.length, some ())
  write_le _ chunk := min_le_right 1 chunk.length

/-- Two bytes are counted, and one is delivered. -/
theorem not_faithful_oneByte :
    ¬ ∀ (src : List (Reading Unit)) (dst : Writer Unit) (sampleLimit : ℤ),
      (proxyCopyWithSample dst src sampleLimit).Faithful sampleLimit := by
  intro hall
  exact absurd (hall [⟨[1, 2], none⟩] oneByte 0).2.1 (by decide)

end Copy

/-! ### Where nothing fails -/

/-- A writer that takes everything. -/
def Writer.whole (E : Type) : Writer E where
  write _ chunk := (chunk.length, none)
  write_le _ _ := le_rfl

theorem copyLoop_whole (n : ℕ) (chunks : List (List UInt8)) (hchunks : [] ∉ chunks)
    {c : Copying E} (herr : c.err = none) :
    copyLoop (.whole E) n (chunks.map fun chunk => ⟨chunk, none⟩) c =
      ⟨chunks.foldl (Copied.write n) c.copied, c.delivered ++ chunks.flatten, none⟩ := by
  induction chunks generalizing c with
  | nil =>
      rw [List.flatten_nil, List.append_nil, ← herr]
      rfl
  | cons chunk chunks ih =>
      rw [List.mem_cons, not_or] at hchunks
      obtain ⟨hchunk, hrest⟩ := hchunks
      rw [List.map_cons, copyLoop]
      rw [if_neg (Ne.symm hchunk), if_neg (by simp [Copying.write, Writer.whole])]
      rw [ih hrest rfl]
      simp [Copying.write, Writer.whole]

/-- Where no read and no write fails, the destination gets the writes of the session's copy. -/
theorem proxyCopyWithSample_whole (size : ℕ+) (src : List (List UInt8))
    (hsrc : [] ∉ Segments.copy size src) (sampleLimit : ℤ) :
    let o := proxyCopyWithSample (.whole E)
      ((Segments.copy size src).map fun chunk => ⟨chunk, none⟩) sampleLimit
    let c := Gateway.proxyCopyWithSample size src sampleLimit
    o.delivered = c.writes.flatten ∧ o.bytesCopied = c.bytesCopied ∧
      o.sampleB64 = rawStdEncoding c.sample := by
  dsimp only [proxyCopyWithSample]
  rw [copyLoop_whole sampleLimit.toNat _ hsrc rfl, Gateway.proxyCopyWithSample_eq]
  exact ⟨rfl, congrArg Copied.bytesCopied (Gateway.proxyCopyWithSample_eq size src sampleLimit),
    congrArg (fun c => rawStdEncoding c.sample)
      (Gateway.proxyCopyWithSample_eq size src sampleLimit)⟩

end Fctf.ProxyCopy
