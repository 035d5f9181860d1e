import Fctf.Keys
import Fctf.Lib.Md5

/-!
# Secret Keys

The services sign their requests to the deployment centre with `SecretKeyHelper`: the MD5
hash of the time, the private key and the values of some fields, written one after the other
in the order of the fields' names. `RequireSecretKeyAttribute` computes the key again, from
the body it gets, and refuses the request if it is not the one in the header.

## Main results

* `tryParseLong_repr`: a number that is sent as text is read back.
* `sortedValues_json`: what the attribute hashes of a request to start or stop.
* `requireSecretKey_json`: when the attribute lets a request with a JSON body through.
-/

namespace Fctf

/-! ### The key -/

/-- `MD5Helper.GenerateMD5Hash`. -/
def generateMD5Hash (input : String) : String :=
  Md5.hex (Md5.md5 (input.toList.flatMap String.utf8EncodeChar))

/-- The order of parameters by key. -/
def keyLe (x y : String × Option String) : Prop := x.1 ≤ y.1

instance : DecidableRel keyLe := fun x y => inferInstanceAs (Decidable (x.1 ≤ y.1))

/-- The values of the parameters, sorted by key; a missing one is "1". -/
def sortedValues (data : List (String × Option String)) : String :=
  String.join ((data.insertionSort keyLe).map fun x => x.2.getD "1")

theorem toList_foldl_append (l : List String) (s : String) :
    (l.foldl (fun r s => r ++ s) s).toList = s.toList ++ l.flatMap String.toList := by
  induction l generalizing s with
  | nil => exact (List.append_nil _).symm
  | cons x l ih =>
      rw [List.foldl_cons, ih, String.toList_append, List.flatMap_cons, List.append_assoc]

theorem toList_join (l : List String) : (String.join l).toList = l.flatMap String.toList :=
  toList_foldl_append l ""

/-- What is hashed. -/
def secretText (privateKey : String) (unixTime : ℤ) (data : List (String × Option String)) :
    String :=
  unixTime.repr ++ privateKey ++ sortedValues data

/-- `SecretKeyHelper.CreateSecretKey` with a hash function. -/
def createSecretKey (md5 : String → String) (privateKey : Option String) (unixTime : ℤ)
    (data : List (String × Option String)) : Except String String :=
  match privateKey with
  | none => .error "Missing PRIVATE_KEY"
  | some privateKey => .ok (md5 (secretText privateKey unixTime data))

/-! ### Numbers as text -/

/-- Is it white space to `long.TryParse`? -/
def isBlank (c : Char) : Bool := c = ' ' || ('\t' ≤ c && c ≤ '\r')

/-- The number that some digits are. -/
def digitsToInt (digits : List Char) : Option ℤ :=
  if digits ≠ [] ∧ digits.all Char.isDigit then some (Nat.ofDigitChars 10 digits 0) else none

/-- A number with a sign, if it has one. -/
def signedValue : List Char → Option ℤ
  | '-' :: digits => (digitsToInt digits).map (- ·)
  | '+' :: digits => digitsToInt digits
  | digits => digitsToInt digits

/-- `long.TryParse`. -/
def tryParseLong (text : String) : Option ℤ :=
  (signedValue ((text.toList.dropWhile isBlank).rdropWhile isBlank)).filter fun n =>
    -2 ^ 63 ≤ n ∧ n < 2 ^ 63

theorem digitsToInt_repr (n : ℕ) : digitsToInt (Nat.toDigits 10 n) = some (n : ℤ) := by
  have hne : Nat.toDigits 10 n ≠ [] := Nat.toDigits_ne_nil
  have hdigits : (Nat.toDigits 10 n).all Char.isDigit = true :=
    List.all_eq_true.mpr fun c hc => Nat.isDigit_of_mem_toDigits (by omega) (by omega) hc
  rw [digitsToInt, if_pos ⟨hne, hdigits⟩, Nat.ofDigitChars_ten_toDigits]

theorem not_isBlank_of_isDigit {c : Char} (h : c.isDigit = true) : isBlank c = false := by
  rw [Char.isDigit, Bool.and_eq_true, decide_eq_true_eq, decide_eq_true_eq, ge_iff_le,
    UInt32.le_iff_toNat_le, UInt32.le_iff_toNat_le] at h
  have hspace : c ≠ ' ' := by
    rintro rfl
    exact absurd h.1 (by decide)
  have hcontrol : ¬c ≤ '\r' := by
    rw [Char.le_def, UInt32.le_iff_toNat_le]
    have hcr : ('\r' : Char).val.toNat = 13 := rfl
    have hzero : ('0' : Char).val.toNat = 48 := rfl
    omega
  rw [isBlank, decide_eq_false hspace, decide_eq_false hcontrol, Bool.and_false, Bool.or_false]

theorem not_isBlank_of_mem_repr {n : ℤ} {c : Char} (h : c ∈ n.repr.toList) :
    isBlank c = false := by
  obtain h | rfl := mem_repr h
  · exact not_isBlank_of_isDigit h
  · rfl

/-- Digits have no sign. -/
theorem signedValue_toDigits (n : ℕ) : signedValue (Nat.toDigits 10 n) = some (n : ℤ) := by
  rw [← digitsToInt_repr]
  rw [signedValue.eq_def]
  split
  · next digits heq =>
      have hdigit : ('-').isDigit = true :=
        Nat.isDigit_of_mem_toDigits (by omega) (by omega) (heq ▸ List.mem_cons_self)
      cases hdigit
  · next digits heq =>
      have hdigit : ('+').isDigit = true :=
        Nat.isDigit_of_mem_toDigits (by omega) (by omega) (heq ▸ List.mem_cons_self)
      cases hdigit
  · rfl

theorem signedValue_repr (n : ℤ) : signedValue n.repr.toList = some n := by
  rw [Int.repr_eq_if]
  split
  · rw [Nat.toList_repr, signedValue_toDigits]
    congr 1
    omega
  · have hlist : ("-" ++ (-n).toNat.repr).toList = '-' :: Nat.toDigits 10 (-n).toNat := by
      rw [String.toList_append, Nat.toList_repr]
      rfl
    rw [hlist, signedValue, digitsToInt_repr, Option.map_some]
    congr 1
    omega

/-- **A number is read back** from its text, if it has 64 bits. -/
theorem tryParseLong_repr {n : ℤ} (h : -2 ^ 63 ≤ n ∧ n < 2 ^ 63) :
    tryParseLong n.repr = some n := by
  have hblank : ∀ c ∈ n.repr.toList, ¬isBlank c = true := fun c hc => by
    rw [not_isBlank_of_mem_repr hc]
    exact Bool.false_ne_true
  have hfront : n.repr.toList.dropWhile isBlank = n.repr.toList :=
    List.dropWhile_eq_self_iff.mpr fun hl => hblank _ (List.getElem_mem hl)
  have hback : n.repr.toList.rdropWhile isBlank = n.repr.toList :=
    List.rdropWhile_eq_self_iff.mpr fun hl => hblank _ (List.getLast_mem hl)
  rw [tryParseLong, hfront, hback, signedValue_repr, Option.filter_some, if_pos (by simpa using h)]

/-! ### The attribute -/

/-- A value of a JSON object. -/
inductive JsonElement where
  | null
  | true
  | false
  /-- A number, as it is written. -/
  | number (raw : String)
  | string (value : String)
  /-- An object or an array, as it is written. -/
  | nested (raw : String)
  deriving DecidableEq, Repr

/-- `Value?.ToString() ?? string.Empty`. -/
def JsonElement.text : JsonElement → String
  | .null => ""
  | .true => "True"
  | .false => "False"
  | .number raw => raw
  | .string value => value
  | .nested raw => raw

/-- A request's body. -/
inductive RequestBody where
  /-- A form: its fields, and the names of its files. -/
  | form (fields : List (String × String)) (files : List String)
  /-- Nothing but white space. -/
  | blank
  /-- No JSON object. -/
  | malformed
  /-- The JSON value `null`. -/
  | nullObject
  /-- A JSON object; a name stands in it once. -/
  | json (fields : List (String × JsonElement))
  deriving DecidableEq, Repr

/-- What becomes of a request. -/
inductive KeyVerdict where
  /-- It is let through. -/
  | next
  /-- 400. -/
  | badRequest (content : String)
  /-- An exception. -/
  | exception (message : String)
  deriving DecidableEq, Repr

/-- The time a JSON body names: 0 unless it is a number of 64 bits; a number that is none
raises. -/
def jsonUnixTime : Option JsonElement → Except String ℤ
  | none => .ok 0
  | some (.string value) => .ok ((tryParseLong value).getD 0)
  | some (.number raw) =>
      match tryParseLong raw with
      | some n => .ok n
      | none => .error "FormatException"
  | some (.null) => .ok 0
  | some _ => .ok 0

/-- The time and the parameters of a body. -/
def signedData (now : ℤ) : RequestBody → Except KeyVerdict (ℤ × List (String × Option String))
  | .form fields files =>
      let data := fields.filter fun x => !files.contains x.1
      match fields.find? fun x => x.1 = "unixTime" with
      | some x =>
          .ok ((tryParseLong x.2).getD now,
            (data.filter fun x => x.1 ≠ "unixTime").map fun x => (x.1, some x.2))
      | none => .ok (0, data.map fun x => (x.1, some x.2))
  | .blank => .error (.badRequest "[Middlewares] Request body is empty")
  | .malformed => .error (.exception "JsonException")
  | .nullObject => .error (.badRequest "[Middlewares] Invalid Json data")
  | .json fields =>
      match jsonUnixTime ((fields.find? fun x => x.1 = "unixTime").map (·.2)) with
      | .error message => .error (.exception message)
      | .ok unixTime =>
          .ok (unixTime,
            (fields.filter fun x => x.1 ≠ "unixTime").map fun x => (x.1, some x.2.text))

/-- `RequireSecretKeyAttribute.OnResourceExecutionAsync`. -/
def requireSecretKey (md5 : String → String) (privateKey : Option String) (now : ℤ)
    (header : Option String) (body : RequestBody) : KeyVerdict :=
  match header with
  | none => .badRequest "[Middlewares] Invalid Secret Key"
  | some receivedSecretKey =>
      if receivedSecretKey = "" then .badRequest "[Middlewares] Invalid Secret Key"
      else
        match signedData now body with
        | .error verdict => verdict
        | .ok (unixTime, data) =>
            match createSecretKey md5 privateKey unixTime data with
            | .error message => .exception message
            | .ok generatedSecretKey =>
                if receivedSecretKey ≠ generatedSecretKey then
                  .badRequest "[Middlewares] Invalid Secret Key"
                else .next

/-! ### Requests to start and stop -/

/-- `ChallengeStartStopReqDTO` with all its fields, as it is sent. -/
structure StartStopBody where
  /-- The bank challenge. -/
  challengeId : ℤ
  /-- The challenge in the contest. -/
  contestChallengeId : ℤ
  /-- The contest. -/
  contestId : ℤ
  /-- Its name, which the backend leaves empty. -/
  challengeName : Option String
  /-- The team. -/
  teamId : ℤ
  /-- The user. -/
  userId : Option ℤ
  /-- The time. -/
  unixTime : Option String
  /-- The namespace. -/
  ns : Option String
  deriving DecidableEq, Repr

namespace StartStopBody

/-- A number in JSON. -/
def jsonInt (n : ℤ) : JsonElement := .number n.repr

/-- A text in JSON, if there is one. -/
def jsonText (s : Option String) : JsonElement := (s.map JsonElement.string).getD .null

/-- The JSON object that is sent. -/
def json (req : StartStopBody) : List (String × JsonElement) :=
  [("challengeId", jsonInt req.challengeId),
    ("contestChallengeId", jsonInt req.contestChallengeId),
    ("contestId", jsonInt req.contestId),
    ("challengeName", jsonText req.challengeName),
    ("teamId", jsonInt req.teamId),
    ("userId", (req.userId.map jsonInt).getD .null),
    ("unixTime", jsonText req.unixTime),
    ("ns", jsonText req.ns)]

/-- The values the attribute hashes, in its order. -/
def values (req : StartStopBody) : List String :=
  [req.challengeId.repr, req.challengeName.getD "", req.contestChallengeId.repr,
    req.contestId.repr, req.ns.getD "", req.teamId.repr, (req.userId.map Int.repr).getD ""]

/-- The time the attribute reads. -/
def time (req : StartStopBody) : ℤ := (req.unixTime.bind tryParseLong).getD 0

end StartStopBody

theorem text_jsonInt (n : ℤ) : (StartStopBody.jsonInt n).text = n.repr := rfl

theorem text_jsonText (s : Option String) :
    (StartStopBody.jsonText s).text = s.getD "" := by
  cases s <;> rfl

/-- The parameters of a request in the order of their names. -/
theorem insertionSort_json (req : StartStopBody) :
    ((req.json.filter fun x => x.1 ≠ "unixTime").map fun x =>
        (x.1, some x.2.text)).insertionSort keyLe =
      [("challengeId", some req.challengeId.repr),
        ("challengeName", some (req.challengeName.getD "")),
        ("contestChallengeId", some req.contestChallengeId.repr),
        ("contestId", some req.contestId.repr), ("ns", some (req.ns.getD "")),
        ("teamId", some req.teamId.repr), ("userId", some ((req.userId.map Int.repr).getD ""))] := by
  have huser : ((req.userId.map StartStopBody.jsonInt).getD .null).text =
      (req.userId.map Int.repr).getD "" := by
    cases req.userId <;> rfl
  simp [StartStopBody.json, List.insertionSort, List.orderedInsert, keyLe, huser,
    text_jsonInt, text_jsonText]

/-- **What the attribute hashes** of a request to start or stop. -/
theorem sortedValues_json (req : StartStopBody) :
    sortedValues ((req.json.filter fun x => x.1 ≠ "unixTime").map fun x => (x.1, some x.2.text)) =
      String.join req.values := by
  rw [sortedValues, insertionSort_json]
  rfl

theorem signedData_json (now : ℤ) (req : StartStopBody) :
    signedData now (.json req.json) =
      .ok (req.time,
        (req.json.filter fun x => x.1 ≠ "unixTime").map fun x => (x.1, some x.2.text)) := by
  have hfind : (req.json.find? fun x => x.1 = "unixTime").map (·.2) =
      some (StartStopBody.jsonText req.unixTime) := by
    simp [StartStopBody.json]
  have htime : jsonUnixTime (some (StartStopBody.jsonText req.unixTime)) =
      .ok req.time := by
    rw [StartStopBody.time]
    cases req.unixTime <;> rfl
  rw [signedData, hfind, htime]

/-- The text the attribute hashes of a request to start or stop. -/
def StartStopBody.secretText (privateKey : String) (req : StartStopBody) :
    String :=
  req.time.repr ++ privateKey ++ String.join req.values

/-- **A request to start or stop is let through** if and only if the key in its header is the
hash of that text. -/
theorem requireSecretKey_json (md5 : String → String) (privateKey : String) (now : ℤ)
    (header : String) (req : StartStopBody) :
    requireSecretKey md5 (some privateKey) now (some header) (.json req.json) = .next ↔
      header ≠ "" ∧ header = md5 (req.secretText privateKey) := by
  rw [requireSecretKey, signedData_json]
  dsimp only [createSecretKey]
  rw [secretText, sortedValues_json, ← StartStopBody.secretText]
  split
  · next h => exact iff_of_false nofun fun hand => hand.1 h
  · next h =>
      split
      · next hne => exact iff_of_false nofun fun hand => hne hand.2
      · next heq => exact iff_of_true rfl ⟨h, not_ne_iff.mp heq⟩

end Fctf
