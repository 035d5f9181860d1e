import Fctf.Lib.Segments
import Fctf.ProxyRequest
import Fctf.RouteNames

/-!
# A TCP Session

The TCP gateway reads a line with a token, and then copies what the client sends to the
challenge. The line is read through a buffered reader that is dropped with what it has read
ahead; and a token that is accepted in its last second ends the session before the copy.

## Main results

* `authenticateTCPClient_congr`: whether a client is let in is a matter of its stream alone.
* `proxyCopyWithSample_eq`: what the copy writes, counts and keeps for the log.
* `losesNothing_iff`: when the challenge gets what the client sent.
-/

open Segments

namespace Fctf.Gateway

/-! ### The token -/

/-- The end of a line. -/
def lineFeed : UInt8 := 0x0A

/-- `tcpMaxAuthTokenBytes`. -/
def tcpMaxAuthTokenBytes : ℕ := 1024

/-- `defaultBufSize` of `bufio`. -/
def defaultBufSize : ℕ+ := 4096

/-- The encodings of the characters that are spaces. -/
def spaceEncodings : List (List UInt8) :=
  ([0x09, 0x0A, 0x0B, 0x0C, 0x0D, 0x20, 0x85, 0xA0, 0x1680, 0x2000, 0x2001, 0x2002, 0x2003, 0x2004,
    0x2005, 0x2006, 0x2007, 0x2008, 0x2009, 0x200A, 0x2028, 0x2029, 0x202F, 0x205F, 0x3000].map
      fun n => utf8 (String.singleton (Char.ofNat n)))

/-- A text without the given words at its front. Every round takes off a byte at least. -/
def stripFront (words : List (List UInt8)) : ℕ → List UInt8 → List UInt8
  | 0, s => s
  | n + 1, s =>
      match words.find? (·.isPrefixOf s) with
      | some word => stripFront words n (s.drop word.length)
      | none => s

/-- `strings.TrimSpace`, on bytes. -/
def trimSpaceBytes (s : List UInt8) : List UInt8 :=
  let s := stripFront spaceEncodings s.length s
  (stripFront (spaceEncodings.map List.reverse) s.length s.reverse).reverse

/-- Why a client is not let in. -/
inductive AuthError where
  /-- `token too long`. -/
  | tokenTooLong
  /-- The stream ends before the line does. -/
  | eof
  /-- `empty token`. -/
  | emptyToken
  | invalid (err : VerifyError)
  deriving DecidableEq, Repr

/-- What the reader has of the first line. -/
def readToken (conn : List (List UInt8)) : Reading UInt8 :=
  readUntil lineFeed defaultBufSize [] [] (tcpMaxAuthTokenBytes + 1) conn

/-- What is made of the first line. -/
def verifyLine (secret : String) (now : ℤ) (line : List UInt8) (complete : Bool) :
    Except AuthError (Payload × List UInt8) :=
  if !complete then .error (if tcpMaxAuthTokenBytes < line.length then .tokenTooLong else .eof)
  else if tcpMaxAuthTokenBytes < line.length then .error .tokenTooLong
  else
    let tok := trimSpaceBytes line
    if tok = [] then .error .emptyToken
    else
      match verify secret now tok with
      | .error err => .error (.invalid err)
      | .ok payload => .ok (payload, tok)

/-- `authenticateTCPClient`: the answer, and the connection behind it. The reader is dropped,
and its buffer with it. -/
def authenticateTCPClient (secret : String) (now : ℤ) (conn : List (List UInt8)) :
    Except AuthError (Payload × List UInt8) × List (List UInt8) :=
  let reading := readToken conn
  (verifyLine secret now reading.line reading.complete, reading.rest)

/-! ### The copy -/

/-- What a copy has written, counted and kept. -/
structure Copied where
  writes : List (List UInt8)
  bytesCopied : ℕ
  sample : List UInt8
  deriving DecidableEq, Repr

/-- A chunk is kept as far as the sample has room for it, and written. -/
def Copied.write (sampleLimit : ℕ) (c : Copied) (chunk : List UInt8) : Copied where
  writes := c.writes ++ [chunk]
  bytesCopied := c.bytesCopied + chunk.length
  sample :=
    if c.sample.length < sampleLimit then
      c.sample ++
        if chunk.length < sampleLimit - c.sample.length then chunk
        else chunk.take (sampleLimit - c.sample.length)
    else c.sample

/-- `proxyCopyWithSample`, where no read and no write fails. -/
def proxyCopyWithSample (size : ℕ+) (src : List (List UInt8)) (sampleLimit : ℤ) : Copied :=
  (copy size src).foldl (Copied.write sampleLimit.toNat) ⟨[], 0, []⟩

/-- The size of the buffer of a copy. -/
def copyBufBytes (configured : ℤ) : ℕ+ :=
  if h : 0 < configured then ⟨configured.toNat, by omega⟩ else 32 * 1024

/-! ### The session -/

/-- The seconds from the first year to 1970. -/
def unixToInternal : ℤ := 62135596800

/-- Nanoseconds in a second. -/
def second : ℤ := 10 ^ 9

/-- Whether `time.Until` of the expiry is not positive. The seconds of a time are of 64 bits. -/
def isOver (exp now : ℤ) : Bool :=
  Int.bmod (exp + unixToInternal) (2 ^ 64) * second ≤ now + unixToInternal * second

/-- What a session depends on besides its client. Times are in nanoseconds. -/
structure TcpWorld where
  secret : String
  verifiedAt : ℤ
  startedAt : ℤ
  /-- `TCPRate.Allow`, for a token. -/
  allows : List UInt8 → Bool
  /-- `TCPTokenConn.Acquire`. -/
  acquires : List UInt8 → Bool
  /-- Whether a host answers. -/
  dials : List Char → Bool
  tcpCopyBufBytes : ℤ

/-- How a session ends. -/
inductive Session where
  | authFailed (err : AuthError)
  | rateLimitExceeded
  | tooManyConnections
  | dialFailed
  | tokenExpired
  | relayed (payload : Payload) (copied : Copied)
  deriving DecidableEq, Repr

/-- `handleTCPConnection`: what the client sends, to its end. -/
def handleTCPConnection (w : TcpWorld) (conn : List (List UInt8)) : Session :=
  match authenticateTCPClient w.secret (w.verifiedAt / second) conn with
  | (.error err, _) => .authFailed err
  | (.ok (payload, tok), rest) =>
      if !w.allows tok then .rateLimitExceeded
      else if tok ≠ [] && !w.acquires tok then .tooManyConnections
      else if !w.dials (expandRoute payload.route.toList) then .dialFailed
      else if isOver payload.exp w.startedAt then .tokenExpired
      else .relayed payload (proxyCopyWithSample (copyBufBytes w.tcpCopyBufBytes) rest 32768)

/-- What a session has written to the challenge. -/
def Session.written : Session → List UInt8
  | .relayed _ copied => copied.writes.flatten
  | _ => []

/-- **A session loses nothing**: the challenge gets what is behind the line, and another
segmentation of the stream would have been answered in the same way. -/
structure LosesNothing (w : TcpWorld) (conn : List (List UInt8)) (rest : List UInt8) : Prop where
  written : (handleTCPConnection w conn).written = rest
  accepted : ∀ conn', conn'.flatten = conn.flatten →
    (authenticateTCPClient w.secret (w.verifiedAt / second) conn').1 =
      (authenticateTCPClient w.secret (w.verifiedAt / second) conn).1

/-! ### The answer -/

section Answer

variable {secret : String} {now : ℤ} {conn conn' : List (List UInt8)}

/-- **Whether a client is let in is a matter of its stream alone.** -/
theorem authenticateTCPClient_congr (h : conn'.flatten = conn.flatten) :
    (authenticateTCPClient secret now conn').1 = (authenticateTCPClient secret now conn).1 := by
  obtain ⟨hline, hcomplete⟩ := readUntil_line lineFeed defaultBufSize [] []
    (tcpMaxAuthTokenBytes + 1) conn
  obtain ⟨hline', hcomplete'⟩ := readUntil_line lineFeed defaultBufSize [] []
    (tcpMaxAuthTokenBytes + 1) conn'
  rw [h] at hline' hcomplete'
  have hsame := Bool.eq_iff_iff.mpr (hcomplete'.trans hcomplete.symm)
  simp only [authenticateTCPClient, readToken, hline, hline', hsame]

end Answer

/-! ### What is written -/

section Copy

variable {size : ℕ+} {src : List (List UInt8)} {sampleLimit : ℤ}

/-- A sample is a front of what was written. -/
theorem Copied.sample_write {n : ℕ} {c : Copied} (chunk : List UInt8)
    (h : c.sample = c.writes.flatten.take n) :
    (c.write n chunk).sample = (c.write n chunk).writes.flatten.take n := by
  have hwrites : (c.write n chunk).writes.flatten = c.writes.flatten ++ chunk := by
    rw [Copied.write, List.flatten_append, List.flatten_singleton]
  rw [hwrites, List.take_append]
  simp only [Copied.write, h, List.length_take]
  split
  next hroom =>
    rw [min_eq_right (by omega)]
    split
    next hshort => rw [List.take_of_length_le (l := chunk) (by omega)]
    next => rfl
  next hfull => rw [show n - c.writes.flatten.length = 0 by omega, List.take_zero, List.append_nil]

/-- A copy writes chunk after chunk, and counts and keeps what it writes. -/
theorem Copied.foldl_write {n : ℕ} (chunks : List (List UInt8)) {c : Copied}
    (hcopied : c.bytesCopied = c.writes.flatten.length)
    (hsample : c.sample = c.writes.flatten.take n) :
    chunks.foldl (Copied.write n) c =
      ⟨c.writes ++ chunks, (c.writes ++ chunks).flatten.length,
        (c.writes ++ chunks).flatten.take n⟩ := by
  induction chunks generalizing c with
  | nil =>
      rw [List.append_nil, ← hcopied, ← hsample]
      rfl
  | cons chunk chunks ih =>
      have hcount : (c.write n chunk).bytesCopied = (c.write n chunk).writes.flatten.length := by
        simp [Copied.write, hcopied]
      rw [List.foldl_cons, ih hcount (Copied.sample_write chunk hsample)]
      simp only [Copied.write, List.append_assoc, List.singleton_append]

/-- **What the copy writes, counts and keeps for the log.** -/
theorem proxyCopyWithSample_eq (size : ℕ+) (src : List (List UInt8)) (sampleLimit : ℤ) :
    proxyCopyWithSample size src sampleLimit =
      ⟨copy size src, src.flatten.length, src.flatten.take sampleLimit.toNat⟩ := by
  rw [proxyCopyWithSample, Copied.foldl_write _ rfl List.take_nil.symm, List.nil_append,
    copy_flatten]

end Copy

/-! ### What is lost -/

section Session

variable {w : TcpWorld} {conn : List (List UInt8)} {word rest : List UInt8} {payload : Payload}

/-- A line that is short enough is read, whatever its segments. -/
theorem readToken_eq (hword : lineFeed ∉ word) (hstream : conn.flatten = word ++ lineFeed :: rest)
    (hlength : word.length + 1 ≤ tcpMaxAuthTokenBytes) :
    (readToken conn).line = word ++ [lineFeed] ∧ (readToken conn).complete = true ∧
      (readToken conn).buffered ++ (readToken conn).rest.flatten = rest := by
  obtain ⟨hline, hcomplete⟩ := readUntil_line lineFeed defaultBufSize [] []
    (tcpMaxAuthTokenBytes + 1) conn
  have happend := readUntil_append lineFeed defaultBufSize [] [] (tcpMaxAuthTokenBytes + 1) conn
  have htake : ([] ++ conn.flatten.take (tcpMaxAuthTokenBytes + 1) : List UInt8) =
      word ++ lineFeed :: rest.take (tcpMaxAuthTokenBytes - word.length) := by
    rw [hstream, List.nil_append, List.take_append, List.take_of_length_le (by omega),
      show tcpMaxAuthTokenBytes + 1 - word.length = tcpMaxAuthTokenBytes - word.length + 1 by omega,
      List.take_succ_cons]
  rw [htake] at hline hcomplete
  rw [upTo_append_cons hword, List.nil_append] at hline
  refine ⟨hline, hcomplete.mpr (by simp), ?_⟩
  rw [hline, hstream, List.nil_append, List.nil_append, List.append_assoc, List.append_assoc,
    List.append_cancel_left_eq, List.singleton_append, List.cons.injEq] at happend
  exact happend.2

/-- **What a client that is let in gets written.** -/
theorem written_eq (hword : lineFeed ∉ word) (hstream : conn.flatten = word ++ lineFeed :: rest)
    (hlength : word.length + 1 ≤ tcpMaxAuthTokenBytes)
    (hverify : verify w.secret (w.verifiedAt / second) (trimSpaceBytes (word ++ [lineFeed])) =
      .ok payload)
    (hallows : w.allows (trimSpaceBytes (word ++ [lineFeed])) = true)
    (hacquires : w.acquires (trimSpaceBytes (word ++ [lineFeed])) = true)
    (hdials : w.dials (expandRoute payload.route.toList) = true) :
    (handleTCPConnection w conn).written =
      if isOver payload.exp w.startedAt then [] else (readToken conn).rest.flatten := by
  obtain ⟨hline, hcomplete, -⟩ := readToken_eq hword hstream hlength
  have hshort : ¬tcpMaxAuthTokenBytes < (word ++ [lineFeed]).length := by
    rw [List.length_append, List.length_singleton]
    omega
  have htoken : trimSpaceBytes (word ++ [lineFeed]) ≠ [] := by
    intro hnil
    rw [hnil] at hverify
    exact not_isToken_nil ⟨_, _, hverify⟩
  have hanswer : authenticateTCPClient w.secret (w.verifiedAt / second) conn =
      (.ok (payload, trimSpaceBytes (word ++ [lineFeed])), (readToken conn).rest) := by
    simp only [authenticateTCPClient, verifyLine, hline, hcomplete, Bool.not_true,
      Bool.false_eq_true, if_false, if_neg hshort, if_neg htoken, hverify]
  simp only [handleTCPConnection, hanswer, hallows, hacquires, hdials, Bool.not_true,
    Bool.and_false, Bool.false_eq_true, if_false]
  split
  next => rfl
  next => rw [Session.written, proxyCopyWithSample_eq, copy_flatten]

/-- Nothing is read ahead if no segment reaches over the end of the line. -/
theorem readToken_buffered_eq_nil_iff (hword : lineFeed ∉ word)
    (hstream : conn.flatten = word ++ lineFeed :: rest)
    (hlength : word.length + 1 ≤ tcpMaxAuthTokenBytes) :
    (readToken conn).buffered = [] ↔ CutAfter (word ++ [lineFeed]) conn := by
  have hlimit : word.length + 1 < ([] : List UInt8).length + (tcpMaxAuthTokenBytes + 1) := by
    simpa using Nat.lt_succ_of_le hlength
  rw [readToken, readUntil_buffered_eq_nil_iff [] hword (by simpa using hstream) hlimit (by decide)]
  simp

/-- When the challenge gets what is behind the line. -/
theorem written_eq_rest_iff (hword : lineFeed ∉ word)
    (hstream : conn.flatten = word ++ lineFeed :: rest)
    (hlength : word.length + 1 ≤ tcpMaxAuthTokenBytes)
    (hverify : verify w.secret (w.verifiedAt / second) (trimSpaceBytes (word ++ [lineFeed])) =
      .ok payload)
    (hallows : w.allows (trimSpaceBytes (word ++ [lineFeed])) = true)
    (hacquires : w.acquires (trimSpaceBytes (word ++ [lineFeed])) = true)
    (hdials : w.dials (expandRoute payload.route.toList) = true) :
    (handleTCPConnection w conn).written = rest ↔
      rest = [] ∨
        CutAfter (word ++ [lineFeed]) conn ∧ isOver payload.exp w.startedAt = false := by
  obtain ⟨-, -, hrest⟩ := readToken_eq hword hstream hlength
  rw [written_eq hword hstream hlength hverify hallows hacquires hdials,
    ← readToken_buffered_eq_nil_iff hword hstream hlength]
  cases hover : isOver payload.exp w.startedAt with
  | true =>
      simp only [if_true, Bool.true_eq_false, and_false, or_false]
      exact eq_comm
  | false =>
      simp only [Bool.false_eq_true, if_false, and_true]
      constructor
      · intro h
        rw [← h, List.append_left_eq_self] at hrest
        exact .inr hrest
      · rintro (rfl | hnil)
        · exact (List.append_eq_nil_iff.mp hrest).2
        · rwa [hnil, List.nil_append] at hrest

/-- **When the challenge gets what the client sent**: if no segment reaches over the end of the
token's line, and the token is not over when the session starts; or if nothing was sent. -/
theorem losesNothing_iff (hword : lineFeed ∉ word)
    (hstream : conn.flatten = word ++ lineFeed :: rest)
    (hlength : word.length + 1 ≤ tcpMaxAuthTokenBytes)
    (hverify : verify w.secret (w.verifiedAt / second) (trimSpaceBytes (word ++ [lineFeed])) =
      .ok payload)
    (hallows : w.allows (trimSpaceBytes (word ++ [lineFeed])) = true)
    (hacquires : w.acquires (trimSpaceBytes (word ++ [lineFeed])) = true)
    (hdials : w.dials (expandRoute payload.route.toList) = true) :
    LosesNothing w conn rest ↔
      rest = [] ∨
        CutAfter (word ++ [lineFeed]) conn ∧ isOver payload.exp w.startedAt = false := by
  rw [← written_eq_rest_iff hword hstream hlength hverify hallows hacquires hdials]
  exact ⟨LosesNothing.written,
    fun hwritten => ⟨hwritten, fun _ hconn => authenticateTCPClient_congr hconn⟩⟩

/-- A gateway that lets everyone in, at second 8. -/
def openGateway : TcpWorld where
  secret := "k"
  verifiedAt := 8 * second
  startedAt := 8 * second
  allows := fun _ => true
  acquires := fun _ => true
  dials := fun _ => true
  tcpCopyBufBytes := 0

theorem verifyLine_issued :
    verify openGateway.secret (openGateway.verifiedAt / second)
      (trimSpaceBytes (issued ++ [lineFeed])) = .ok ⟨9, "r"⟩ := by
  decide +kernel

theorem losesNothing_issued :
    LosesNothing openGateway [issued ++ [lineFeed], utf8 "ls"] (utf8 "ls") ↔
      utf8 "ls" = [] ∨
        CutAfter (issued ++ [lineFeed]) [issued ++ [lineFeed], utf8 "ls"] ∧
          isOver 9 openGateway.startedAt = false :=
  losesNothing_iff (by decide +kernel) (by decide +kernel) (by decide +kernel) verifyLine_issued
    rfl rfl rfl

theorem not_losesNothing :
    ¬LosesNothing openGateway [issued ++ lineFeed :: utf8 "ls"] (utf8 "ls") := by
  intro h
  have hcut := (written_eq_rest_iff (w := openGateway) (by decide +kernel)
    List.flatten_singleton (by decide +kernel) verifyLine_issued rfl rfl rfl).mp h.written
  rcases hcut with hnil | ⟨hcut, -⟩
  · exact absurd hnil (by decide +kernel)
  · obtain ⟨back, heq, -⟩ := (cutAfter_cons_iff (by simp)).mp hcut
    have hlength := congrArg List.length heq
    simp only [List.length_append, List.length_cons, List.length_nil] at hlength
    have hls : (utf8 "ls").length = 2 := by decide +kernel
    omega

end Session

end Fctf.Gateway
