import Mathlib.Data.List.TakeWhile
import Mathlib.Data.PNat.Basic

/-!
# Streams that Arrive in Segments

A connection delivers a stream in segments: a read returns the next one, or as much of it as
there is room for. A buffered and bounded reader asks for more than it needs; what it has read
behind the line that it was asked for stays in its buffer.

## Main results

* `copy_flatten`: what is copied is the stream, whatever its segments.
* `readUntil_line`: the line that is read is a matter of the stream alone.
* `readUntil_append`: nothing of the stream is lost between line, buffer and connection.
* `readUntil_buffered_eq_nil_iff`: when nothing is left in the buffer.
-/

namespace Segments

variable {α : Type}

/-- A read: the next segment, as far as there is room for it. -/
def read (size : ℕ) : List (List α) → Option (List α × List (List α))
  | [] => none
  | segment :: rest =>
      if segment.length ≤ size then some (segment, rest)
      else some (segment.take size, segment.drop size :: rest)

section Read

variable {size : ℕ} {segs rest : List (List α)} {chunk : List α}

/-- What was read comes before what is still to be read. -/
theorem read_append (h : read size segs = some (chunk, rest)) :
    chunk ++ rest.flatten = segs.flatten := by
  cases segs with
  | nil => cases h
  | cons segment segs =>
      rw [read] at h
      split at h <;> cases h
      · rw [List.flatten_cons]
      · rw [List.flatten_cons, List.flatten_cons, ← List.append_assoc, List.take_append_drop]

theorem length_read (h : read size segs = some (chunk, rest)) : chunk.length ≤ size := by
  cases segs with
  | nil => cases h
  | cons segment segs =>
      rw [read] at h
      split at h <;> cases h
      next hlength => exact hlength
      next => exact List.length_take_le size segment

/-- A stream ends where there are no more segments. -/
theorem read_eq_none_iff : read size segs = none ↔ segs = [] := by
  cases segs with
  | nil => simp [read]
  | cons segment segs =>
      rw [read]
      split <;> simp

/-- What there is to be read: segments and their content. -/
def weight (segs : List (List α)) : ℕ := segs.length + segs.flatten.length

/-- A read with room gets on. -/
theorem weight_read (hsize : 0 < size) (h : read size segs = some (chunk, rest)) :
    weight rest < weight segs := by
  cases segs with
  | nil => cases h
  | cons segment segs =>
      rw [read] at h
      split at h <;> cases h
      · simp only [weight, List.length_cons, List.flatten_cons, List.length_append]
        omega
      · simp only [weight, List.length_cons, List.flatten_cons, List.length_append,
          List.length_drop]
        omega

end Read

/-- A copy of all that arrives, read by read. -/
def copy (size : ℕ+) (segs : List (List α)) : List (List α) :=
  match h : read size segs with
  | none => []
  | some (chunk, rest) => chunk :: copy size rest
termination_by weight segs
decreasing_by exact weight_read size.pos h

/-- **What is copied is the stream.** -/
theorem copy_flatten (size : ℕ+) (segs : List (List α)) :
    (copy size segs).flatten = segs.flatten := by
  fun_induction copy size segs with
  | case1 segs h =>
      rw [read_eq_none_iff.mp h]
  | case2 segs chunk rest h ih => rw [List.flatten_cons, ih, read_append h]

/-! ### A line, read through a buffer -/

/-- What a reader has when it has read a line. -/
structure Reading (α : Type) where
  /-- The line, or all that there was. -/
  line : List α
  /-- Whether the line has its end. -/
  complete : Bool
  /-- What is in the buffer, behind the line. -/
  buffered : List α
  /-- What is still to arrive. -/
  rest : List (List α)

/-- A read that gets no more than `limit`. -/
def limitedRead (limit size : ℕ) (segs : List (List α)) : Option (List α × List (List α)) :=
  if limit = 0 then none else read (min limit size) segs

theorem limitedRead_some {limit size : ℕ} {segs rest : List (List α)} {chunk : List α}
    (h : limitedRead limit size segs = some (chunk, rest)) :
    0 < limit ∧ read (min limit size) segs = some (chunk, rest) := by
  rw [limitedRead] at h
  split at h
  next => cases h
  next hlimit => exact ⟨Nat.pos_of_ne_zero hlimit, h⟩

/-- Nothing is left of a stream of which a reader may have no more. -/
theorem take_flatten_of_limitedRead {limit size : ℕ} {segs : List (List α)}
    (h : limitedRead limit size segs = none) :
    segs.flatten.take limit = [] := by
  rw [limitedRead] at h
  split at h
  next hlimit => rw [hlimit, List.take_zero]
  next => rw [read_eq_none_iff.mp h, List.flatten_nil, List.take_nil]

theorem take_flatten_of_read {limit size : ℕ} {segs rest : List (List α)} {chunk : List α}
    (h : read (min limit size) segs = some (chunk, rest)) :
    segs.flatten.take limit = chunk ++ rest.flatten.take (limit - chunk.length) := by
  have hlength := length_read h
  rw [← read_append h, List.take_append, List.take_of_length_le (by omega)]

/-- Segments that can be cut behind `front`: none reaches over its end. -/
def CutAfter (front : List α) (segs : List (List α)) : Prop :=
  ∃ l l', segs = l ++ l' ∧ l.flatten = front

/-- A segment that is part of what comes first is passed over. -/
theorem cutAfter_cons_iff {segment front : List α} {segs : List (List α)} (hfront : front ≠ []) :
    CutAfter front (segment :: segs) ↔ ∃ back, front = segment ++ back ∧ CutAfter back segs := by
  constructor
  · rintro ⟨l, l', hsegs, hflatten⟩
    cases l with
    | nil => exact absurd hflatten.symm hfront
    | cons segment' l =>
        obtain ⟨rfl, hrest⟩ := List.cons.inj hsegs
        exact ⟨l.flatten, hflatten.symm, l, l', hrest, rfl⟩
  · rintro ⟨back, rfl, l, l', rfl, rfl⟩
    exact ⟨segment :: l, l', rfl, rfl⟩

variable [DecidableEq α]

/-- The first line of a text, its end included. -/
def upTo (delim : α) (l : List α) : List α :=
  l.takeWhile (· ≠ delim) ++ if delim ∈ l then [delim] else []

/-- What is behind the first line. -/
def after (delim : α) (l : List α) : List α := (l.dropWhile (· ≠ delim)).tail

/-- A line, read through a buffer: from the buffer if it is there; a buffer that is full is put
aside; else the buffer is filled by one read. -/
def readUntil (delim : α) (capacity : ℕ+) (aside buffer : List α) (limit : ℕ)
    (segs : List (List α)) : Reading α :=
  if delim ∈ buffer then ⟨aside ++ upTo delim buffer, true, after delim buffer, segs⟩
  else if hfull : (capacity : ℕ) ≤ buffer.length then
    readUntil delim capacity (aside ++ buffer) [] limit segs
  else
    match h : limitedRead limit (capacity - buffer.length) segs with
    | none => ⟨aside ++ buffer, false, [], segs⟩
    | some (chunk, rest) =>
        readUntil delim capacity aside (buffer ++ chunk) (limit - chunk.length) rest
termination_by (weight segs, buffer.length)
decreasing_by
  · exact Prod.Lex.right _ (lt_of_lt_of_le capacity.pos hfull)
  · have hread := limitedRead_some h
    exact Prod.Lex.left _ _ (weight_read (by omega) hread.2)

section ReadUntil

variable {delim : α} {capacity : ℕ+} {aside buffer : List α} {limit : ℕ} {segs : List (List α)}

theorem upTo_append_after (h : delim ∈ buffer) :
    upTo delim buffer ++ after delim buffer = buffer := by
  obtain ⟨l, l', rfl, hl⟩ := List.eq_append_cons_of_mem h
  have hne : ∀ a ∈ l, decide (a ≠ delim) = true := by
    intro a ha
    exact decide_eq_true fun heq => hl (heq ▸ ha)
  rw [upTo, after, if_pos h, List.takeWhile_append_of_pos hne, List.dropWhile_append_of_pos hne]
  simp

/-- A line that is there is not made longer. -/
theorem upTo_append_of_mem (h : delim ∈ buffer) (l : List α) :
    upTo delim (buffer ++ l) = upTo delim buffer := by
  obtain ⟨front, back, rfl, hfront⟩ := List.eq_append_cons_of_mem h
  have hne : ∀ a ∈ front, decide (a ≠ delim) = true := by
    intro a ha
    exact decide_eq_true fun heq => hfront (heq ▸ ha)
  rw [List.append_assoc, upTo, upTo, List.takeWhile_append_of_pos hne,
    List.takeWhile_append_of_pos hne]
  simp

theorem upTo_of_notMem (h : delim ∉ buffer) : upTo delim buffer = buffer := by
  rw [upTo, if_neg h, List.append_nil, List.takeWhile_eq_self_iff]
  exact fun a ha => decide_eq_true fun heq => h (heq ▸ ha)

/-- What is not the end of a line is part of it. -/
theorem upTo_append_of_notMem (h : delim ∉ buffer) (l : List α) :
    upTo delim (buffer ++ l) = buffer ++ upTo delim l := by
  have hne : ∀ a ∈ buffer, decide (a ≠ delim) = true := by
    intro a ha
    exact decide_eq_true fun heq => h (heq ▸ ha)
  rw [upTo, upTo, List.takeWhile_append_of_pos hne, List.append_assoc]
  simp [h]

/-- The first line is what comes up to its end. -/
theorem upTo_append_cons {word : List α} (h : delim ∉ word) (l : List α) :
    upTo delim (word ++ delim :: l) = word ++ [delim] := by
  rw [upTo_append_of_notMem h]
  simp [upTo]

/-- **The line is a matter of the stream alone**: the first of what the reader may have. -/
theorem readUntil_line (delim : α) (capacity : ℕ+) (aside buffer : List α) (limit : ℕ)
    (segs : List (List α)) :
    (readUntil delim capacity aside buffer limit segs).line =
        aside ++ upTo delim (buffer ++ segs.flatten.take limit) ∧
      ((readUntil delim capacity aside buffer limit segs).complete = true ↔
        delim ∈ buffer ++ segs.flatten.take limit) := by
  fun_induction readUntil delim capacity aside buffer limit segs with
  | case1 aside buffer limit segs hmem =>
      simp [upTo_append_of_mem hmem, hmem]
  | case2 aside buffer limit segs hmem hfull ih =>
      rw [upTo_append_of_notMem hmem, ← List.append_assoc]
      simpa [hmem] using ih
  | case3 aside buffer limit segs hmem hfull h =>
      rw [take_flatten_of_limitedRead h, List.append_nil, upTo_of_notMem hmem]
      simp [hmem]
  | case4 aside buffer limit segs hmem hfull chunk rest h ih =>
      rw [take_flatten_of_read (limitedRead_some h).2, ← List.append_assoc]
      exact ih

/-- **Nothing of the stream is lost** between the line, the buffer and the connection. -/
theorem readUntil_append (delim : α) (capacity : ℕ+) (aside buffer : List α) (limit : ℕ)
    (segs : List (List α)) :
    (readUntil delim capacity aside buffer limit segs).line ++
        (readUntil delim capacity aside buffer limit segs).buffered ++
        (readUntil delim capacity aside buffer limit segs).rest.flatten =
      aside ++ buffer ++ segs.flatten := by
  fun_induction readUntil delim capacity aside buffer limit segs with
  | case1 aside buffer limit segs hmem =>
      rw [List.append_assoc aside, upTo_append_after hmem]
  | case2 aside buffer limit segs hmem hfull ih => rw [ih, List.append_nil]
  | case3 aside buffer limit segs hmem hfull h => rw [List.append_nil]
  | case4 aside buffer limit segs hmem hfull chunk rest h ih =>
      rw [ih, ← read_append (limitedRead_some h).2]
      simp only [List.append_assoc]

/-- What has been read of a line without its end is part of it. -/
theorem exists_of_notMem {word tail l : List α} (hbuffer : delim ∉ buffer)
    (h : buffer ++ l = word ++ delim :: tail) :
    ∃ back, word = buffer ++ back ∧ l = back ++ delim :: tail := by
  rcases List.append_eq_append_iff.mp h with ⟨back, hword, hl⟩ | ⟨back, hbuf, hback⟩
  · exact ⟨back, hword, hl⟩
  · cases back with
    | nil => exact ⟨[], by simpa using hbuf.symm, by simpa using hback.symm⟩
    | cons a back =>
        obtain ⟨rfl, -⟩ := List.cons.inj hback
        exact absurd (hbuf ▸ List.mem_append_right word List.mem_cons_self) hbuffer

/-- A line that is in the buffer, with what is behind it. -/
theorem exists_of_mem {word tail l : List α} (hword : delim ∉ word) (hbuffer : delim ∈ buffer)
    (h : buffer ++ l = word ++ delim :: tail) :
    ∃ back, buffer = word ++ delim :: back ∧ after delim buffer = back := by
  rcases List.append_eq_append_iff.mp h with ⟨back, rfl, -⟩ | ⟨back, rfl, hback⟩
  · exact absurd (List.mem_append_left back hbuffer) hword
  · cases back with
    | nil => exact absurd (by simpa using hbuffer) hword
    | cons a back =>
        obtain ⟨rfl, -⟩ := List.cons.inj hback
        have hne : ∀ b ∈ word, decide (b ≠ delim) = true := by
          intro b hb
          exact decide_eq_true fun heq => hword (heq ▸ hb)
        refine ⟨back, rfl, ?_⟩
        rw [after, List.dropWhile_append_of_pos hne]
        simp

/-- **When nothing is left in the buffer**: when no segment reaches over the end of the line,
for a reader that has room for the line and one more. -/
theorem readUntil_buffered_eq_nil_iff (aside : List α) {word tail : List α}
    (hword : delim ∉ word) (hstream : buffer ++ segs.flatten = word ++ delim :: tail)
    (hlimit : word.length + 1 < buffer.length + limit)
    (hcapacity : buffer.length + limit ≤ capacity) :
    (readUntil delim capacity aside buffer limit segs).buffered = [] ↔
      ∃ back, word ++ [delim] = buffer ++ back ∧ CutAfter back segs := by
  fun_induction readUntil delim capacity aside buffer limit segs with
  | case1 aside buffer limit segs hmem =>
      obtain ⟨back, rfl, hafter⟩ := exists_of_mem hword hmem hstream
      rw [show (⟨_, _, after delim (word ++ delim :: back), _⟩ : Reading α).buffered = back from
        hafter]
      constructor
      · rintro rfl
        exact ⟨[], (List.append_nil _).symm, [], segs, rfl, rfl⟩
      · rintro ⟨back', heq, -⟩
        have hlength := congrArg List.length heq
        simp only [List.length_append, List.length_cons, List.length_nil] at hlength
        exact List.length_eq_zero_iff.mp (by omega)
  | case2 aside buffer limit segs hmem hfull ih =>
      obtain ⟨back, rfl, -⟩ := exists_of_notMem hmem hstream
      rw [List.length_append] at hlimit
      omega
  | case3 aside buffer limit segs hmem hfull h =>
      obtain ⟨back, rfl, hflatten⟩ := exists_of_notMem hmem hstream
      have hnone := take_flatten_of_limitedRead h
      rw [hflatten] at hnone
      rw [List.length_append] at hlimit
      have hlength := congrArg List.length hnone
      simp only [List.length_take, List.length_append, List.length_cons, List.length_nil]
        at hlength
      omega
  | case4 aside buffer limit segs hmem hfull chunk rest h ih =>
      have hread := (limitedRead_some h).2
      have hlength := length_read hread
      rw [ih (by rw [List.append_assoc, read_append hread, hstream])
        (by rw [List.length_append]; omega) (by rw [List.length_append]; omega)]
      obtain ⟨front, rfl, -⟩ := exists_of_notMem hmem hstream
      rw [List.length_append] at hlimit
      simp only [List.append_assoc, List.append_cancel_left_eq, exists_eq_left']
      cases segs with
      | nil => cases hread
      | cons segment segs =>
          rw [cutAfter_cons_iff (by simp)]
          rw [read] at hread
          split at hread <;> obtain ⟨rfl, rfl⟩ := Prod.mk.inj (Option.some.inj hread)
          next => rfl
          next hlong =>
            -- the reader has had all that it may have, and more than the line
            have hroom : front.length + 1 < min limit (capacity - buffer.length) := by omega
            constructor
            · rintro ⟨back, heq, -⟩
              have hlength := congrArg List.length heq
              simp only [List.length_append, List.length_take, List.length_cons,
                List.length_nil] at hlength
              omega
            · rintro ⟨back, heq, -⟩
              have hlength := congrArg List.length heq
              simp only [List.length_append, List.length_cons, List.length_nil] at hlength
              omega

end ReadUntil

end Segments
