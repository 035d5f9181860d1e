import Fctf.SecretKey

/-!
# Signed Requests

The backend of the contestants signs its requests to start and stop a challenge: it picks the
fields it signs by hand, challenge, team and user. The deployment centre signs every field of
the body but the time, so its text has the challenge in the contest and the contest in it as
well, and is longer.

## Main results

* `signedText_ne_checkedText`: the text signed is never the text checked.
* `accepted_iff_collision`: a request is let through only if MD5 takes both to the same hash.
* `platform_accepted`: the management platform signs the fields it sends.
* `not_accepted`: a start that is refused.
-/

namespace Fctf

/-- A number of 64 bits. -/
abbrev Long : Type := {n : ℤ // -2 ^ 63 ≤ n ∧ n < 2 ^ 63}

/-- The requests to the deployment centre. -/
inductive ControlRequest where
  /-- `ChallengeStart`. -/
  | start (bankId contestChallengeId contestId teamId userId : ℤ)
  /-- `ForceStopChallenge`. -/
  | stop (contestChallengeId contestId teamId : ℤ)
  deriving DecidableEq, Repr

namespace ControlRequest

/-- The body. -/
def parameters (unixTime : Long) : ControlRequest → StartStopBody
  | .start bankId contestChallengeId contestId teamId userId =>
      { challengeId := bankId
        contestChallengeId := contestChallengeId
        contestId := contestId
        challengeName := some ""
        teamId := teamId
        userId := some userId
        unixTime := some unixTime.1.repr
        ns := none }
  | .stop contestChallengeId contestId teamId =>
      { challengeId := contestChallengeId
        contestChallengeId := contestChallengeId
        contestId := contestId
        challengeName := some ""
        teamId := teamId
        userId := none
        unixTime := some unixTime.1.repr
        ns := none }

/-- What is signed. -/
def data : ControlRequest → List (String × Option String)
  | .start bankId _ _ teamId userId =>
      [("challengeId", some bankId.repr), ("teamId", some teamId.repr),
        ("userId", some userId.repr)]
  | .stop contestChallengeId _ teamId =>
      [("challengeId", some contestChallengeId.repr), ("teamId", some teamId.repr)]

/-- The text that is signed. -/
def signedText (privateKey : String) (unixTime : Long) (req : ControlRequest) : String :=
  secretText privateKey unixTime.1 req.data

/-- The text that is checked. -/
def checkedText (privateKey : String) (unixTime : Long) (req : ControlRequest) : String :=
  (req.parameters unixTime).secretText privateKey

/-- A request that is signed with the private key of the deployment centre is let through. -/
def Accepted (privateKey : String) (now : ℤ) (unixTime : Long) (req : ControlRequest) : Prop :=
  ∃ secretKey, createSecretKey generateMD5Hash (some privateKey) unixTime.1 req.data =
      .ok secretKey ∧
    requireSecretKey generateMD5Hash (some privateKey) now (some secretKey)
      (.json (req.parameters unixTime).json) = .next

end ControlRequest

open ControlRequest

/-! ### The two texts -/

theorem length_repr_pos (n : ℤ) : 0 < n.repr.toList.length := by
  rw [List.length_pos_iff]
  intro h
  have hvalue := signedValue_repr n
  rw [h] at hvalue
  cases hvalue

theorem time_parameters (unixTime : Long) (req : ControlRequest) :
    (req.parameters unixTime).time = unixTime.1 := by
  have hparse := tryParseLong_repr unixTime.2
  cases req <;>
  · rw [StartStopBody.time, parameters, Option.bind_some, hparse]
    rfl

/-- The values that are signed, in the order of their names. -/
theorem sortedValues_data (req : ControlRequest) :
    sortedValues req.data = String.join (req.data.map fun x => x.2.getD "1") := by
  have hsorted : req.data.insertionSort keyLe = req.data := by
    cases req <;> simp [data, List.insertionSort, keyLe]
  rw [sortedValues, hsorted]

/-- **The text signed is never the text checked**: it lacks the contest. -/
theorem signedText_ne_checkedText (privateKey : String) (unixTime : Long)
    (req : ControlRequest) :
    req.signedText privateKey unixTime ≠ req.checkedText privateKey unixTime := by
  intro heq
  have hlength := congrArg (fun s : String => s.toList.length) heq
  simp only [signedText, checkedText, secretText, sortedValues_data,
    StartStopBody.secretText, time_parameters, String.toList_append,
    List.length_append, toList_join] at hlength
  cases req with
  | start bankId contestChallengeId contestId teamId userId =>
      have hpos := length_repr_pos contestId
      simp [data, parameters, StartStopBody.values] at hlength
      omega
  | stop contestChallengeId contestId teamId =>
      have hpos := length_repr_pos contestId
      simp [data, parameters, StartStopBody.values] at hlength
      omega

theorem generateMD5Hash_ne_empty (input : String) : generateMD5Hash input ≠ "" := by
  intro h
  have hlength := Md5.hex_length (Md5.md5 (input.toList.flatMap String.utf8EncodeChar))
  rw [← generateMD5Hash, h, Md5.md5_length] at hlength
  cases hlength

/-- A request is let through if and only if the two texts have the same hash. -/
theorem accepted_iff_hash (privateKey : String) (now : ℤ) (unixTime : Long)
    (req : ControlRequest) :
    req.Accepted privateKey now unixTime ↔
      generateMD5Hash (req.signedText privateKey unixTime) =
        generateMD5Hash (req.checkedText privateKey unixTime) := by
  rw [Accepted]
  constructor
  · rintro ⟨secretKey, hkey, hnext⟩
    obtain rfl := Except.ok.inj hkey
    exact ((requireSecretKey_json _ _ _ _ _).mp hnext).2
  · intro heq
    exact ⟨_, rfl, (requireSecretKey_json _ _ _ _ _).mpr ⟨generateMD5Hash_ne_empty _, heq⟩⟩

/-- Two texts that MD5 does not tell apart. -/
def Collision (x y : String) : Prop := x ≠ y ∧ generateMD5Hash x = generateMD5Hash y

/-- **A request to start or stop is let through** if and only if MD5 does not tell the text
signed from the text checked, which are never the same. -/
theorem accepted_iff_collision (privateKey : String) (now : ℤ) (unixTime : Long)
    (req : ControlRequest) :
    req.Accepted privateKey now unixTime ↔
      Collision (req.signedText privateKey unixTime) (req.checkedText privateKey unixTime) :=
  (accepted_iff_hash privateKey now unixTime req).trans
    ⟨fun h => ⟨signedText_ne_checkedText privateKey unixTime req, h⟩, And.right⟩

/-- What `prepare_start_challenge_payload` of the management platform signs. -/
def platformData (challengeId userId teamId : ℤ) : List (String × Option String) :=
  [("challengeId", some challengeId.repr), ("teamId", some teamId.repr),
    ("userId", some userId.repr)]

/-- What it sends: the same fields and the time. -/
def platformPayload (challengeId userId teamId : ℤ) (unixTime : Long) :
    List (String × JsonElement) :=
  [("challengeId", StartStopBody.jsonInt challengeId), ("teamId", StartStopBody.jsonInt teamId),
    ("userId", StartStopBody.jsonInt userId), ("unixTime", .string unixTime.1.repr)]

/-- **The management platform signs what it sends**, and is let through. -/
theorem platform_accepted (privateKey : String) (now challengeId userId teamId : ℤ)
    (unixTime : Long) (secretKey : String)
    (hkey : createSecretKey generateMD5Hash (some privateKey) unixTime.1
      (platformData challengeId userId teamId) = .ok secretKey) :
    requireSecretKey generateMD5Hash (some privateKey) now (some secretKey)
      (.json (platformPayload challengeId userId teamId unixTime)) = .next := by
  obtain rfl := Except.ok.inj hkey
  have htime : jsonUnixTime (((platformPayload challengeId userId teamId unixTime).find?
      fun x => x.1 = "unixTime").map (·.2)) = .ok unixTime.1 := by
    have hfind : ((platformPayload challengeId userId teamId unixTime).find?
        fun x => x.1 = "unixTime").map (·.2) = some (.string unixTime.1.repr) := by
      simp [platformPayload]
    rw [hfind, jsonUnixTime, tryParseLong_repr unixTime.2]
    rfl
  have hdata : ((platformPayload challengeId userId teamId unixTime).filter
      fun x => x.1 ≠ "unixTime").map (fun x => (x.1, some x.2.text)) =
        platformData challengeId userId teamId := by
    simp [platformPayload, platformData, text_jsonInt]
  rw [requireSecretKey, signedData, htime, if_neg (generateMD5Hash_ne_empty _)]
  dsimp only [createSecretKey]
  rw [hdata, if_neg (not_not_intro rfl)]

/-- **A genuine request is refused.** -/
theorem not_accepted :
    ¬(ControlRequest.start 3 7 1 5 9).Accepted "secret" 1700000000
      ⟨1700000000, by norm_num⟩ := by
  rw [accepted_iff_hash]
  decide +kernel

end Fctf
