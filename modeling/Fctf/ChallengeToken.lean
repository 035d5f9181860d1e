import Fctf.Lib.Base64
import Fctf.Lib.Json
import Fctf.Lib.Sha256
import Mathlib.Data.List.DropRight

/-!
# Challenge Tokens

The hosting services give a team a token for its running challenge, and the gateway checks
it at every connection. A token is the route and the expiry in JSON, encoded, a dot, and
the encoded code of that text under the services' private key.

`ChallengeHelper.GenerateChallengeToken` is C#, `token.Verify` is Go: the two share no code
for JSON, Base64 or HMAC.

## Main results

* `verify_eq_ok_iff`: which tokens are accepted.
-/

namespace Fctf

/-- `char.IsWhiteSpace`; the same characters as those of `unicode.IsSpace`. -/
def isSpace (c : Char) : Bool :=
  ('\t' ≤ c && c ≤ '\r') || (0x2000 ≤ c.toNat && c.toNat ≤ 0x200A) ||
    [0x20, 0x85, 0xA0, 0x1680, 0x2028, 0x2029, 0x202F, 0x205F, 0x3000].contains c.toNat

/-- `IsNullOrWhiteSpace`; `TrimSpace(s) == ""`. -/
def isNullOrWhiteSpace (s : String) : Bool := s.toList.all isSpace

/-- `Encoding.UTF8.GetBytes`; `[]byte(s)`. -/
def utf8 (s : String) : List UInt8 := s.toList.flatMap String.utf8EncodeChar

/-- A `DateTimeOffset`, in whole seconds since 1970: it is in the years 1 to 9999. -/
structure DateTimeOffset where
  /-- `ToUnixTimeSeconds`. -/
  toUnixTimeSeconds : ℤ
  /-- Not before the year 1. -/
  minValue_le : -62135596800 ≤ toUnixTimeSeconds
  /-- Not after the year 9999. -/
  le_maxValue : toUnixTimeSeconds ≤ 253402300799

/-! ### The hosting services -/

/-- The alphabet of `Convert.ToBase64String`. -/
def base64Alphabet : List Char :=
  "ABCDEFGHIJKLMNOPQRSTUVWXYZabcdefghijklmnopqrstuvwxyz0123456789+/".toList

/-- `Convert.ToBase64String`. -/
def toBase64String (data : List UInt8) : List Char :=
  (Base64.sextets data).map (fun a : Fin 64 => base64Alphabet.getD a 'A') ++
    List.replicate ((3 - data.length % 3) % 3) '='

/-- `Base64UrlEncode`. -/
def base64UrlEncode (data : List UInt8) : String :=
  let replaced := (toBase64String data).map fun c => if c = '+' then '-' else c
  let replaced := replaced.map fun c => if c = '/' then '_' else c
  String.ofList (replaced.rdropWhile (· = '='))

/-- `JsonSerializer.Serialize` of the payload. -/
def payloadJson (expiryUtc : DateTimeOffset) (routeInfo : String) : String :=
  "\x7b\"exp\":" ++ toString expiryUtc.toUnixTimeSeconds ++ ",\"route\":\"" ++
    String.ofList (Json.escape routeInfo.toList) ++ "\"\x7d"

/-- `GenerateChallengeToken`, with the private key of the environment. -/
def generateChallengeToken (privateKey routeInfo : String) (expiryUtc : DateTimeOffset) :
    Except String String :=
  let payloadB64 := base64UrlEncode (utf8 (payloadJson expiryUtc routeInfo))
  if isNullOrWhiteSpace privateKey then .error "Missing PRIVATE_KEY"
  else
    let signature := Sha256.hmac (utf8 privateKey) (utf8 payloadB64)
    .ok (payloadB64 ++ "." ++ base64UrlEncode signature)

namespace Gateway

/-! ### The gateway -/

/-- `Payload`. -/
structure Payload where
  /-- `exp`. -/
  exp : ℤ
  /-- `route`. -/
  route : String
  deriving DecidableEq, Repr

/-- The errors of `Verify`. -/
inductive VerifyError where
  /-- `invalid token format`. -/
  | format
  /-- `missing PRIVATE_KEY`. -/
  | missingKey
  /-- `invalid signature encoding`. -/
  | signatureEncoding
  /-- `invalid token signature`. -/
  | signature
  /-- `invalid payload encoding`. -/
  | payloadEncoding
  /-- `invalid payload json`. -/
  | payloadJson
  /-- `invalid payload content`. -/
  | payloadContent
  /-- `token expired (Exp: …, Server: …)`. -/
  | expired (exp now : ℤ)
  deriving DecidableEq, Repr

/-- The field `exp` takes a number that is an integer, and `null` leaves it as it is. -/
def assignExp (payload : Payload) : Json.Value → Option Payload
  | .null => some payload
  | .number literal => (Json.int64 literal).map fun exp => { payload with exp := exp }
  | _ => none

/-- The field `route` takes a string, and `null` leaves it as it is. -/
def assignRoute (payload : Payload) : Json.Value → Option Payload
  | .null => some payload
  | .string text => some { payload with route := String.ofList text }
  | _ => none

/-- A member of the object is put into the field it names, in upper or lower case. -/
def assign (payload : Payload) (member : List Char × Json.Value) : Option Payload :=
  let name := member.1.map Char.toLower
  if name = "exp".toList then assignExp payload member.2
  else if name = "route".toList then assignRoute payload member.2
  else some payload

/-- `json.Unmarshal`. -/
def unmarshal (bytes : List UInt8) : Option Payload :=
  match Json.parse bytes with
  | some (.object members) => members.foldlM assign ⟨0, ""⟩
  | some .null => some ⟨0, ""⟩
  | _ => none

/-- The dot between the parts of a token. -/
def dot : UInt8 := 46

/-- What `Verify` does once the parts are split and the key is there. -/
def verifyParts (secret : String) (now : ℤ) (payloadB64 sigB64 : List UInt8) :
    Except VerifyError Payload :=
  match Base64.decode sigB64 with
  | none => .error .signatureEncoding
  | some sigBytes =>
      if sigBytes ≠ Sha256.hmac (utf8 secret) payloadB64 then .error .signature
      else
        match Base64.decode payloadB64 with
        | none => .error .payloadEncoding
        | some payloadBytes =>
            match unmarshal payloadBytes with
            | none => .error .payloadJson
            | some payload =>
                if payload.exp ≤ 0 || payload.route = "" then .error .payloadContent
                else if payload.exp < now then .error (.expired payload.exp now)
                else .ok payload

/-- **`Verify`**, with the private key of the environment and the time in whole seconds. -/
def verify (secret : String) (now : ℤ) (token : List UInt8) : Except VerifyError Payload :=
  match token.splitOn dot with
  | [payloadB64, sigB64] =>
      if isNullOrWhiteSpace secret then .error .missingKey
      else verifyParts secret now payloadB64 sigB64
  | _ => .error .format

/-- **Which tokens are accepted.** -/
theorem verify_eq_ok_iff {secret : String} {now : ℤ} {token : List UInt8} {payload : Payload} :
    verify secret now token = .ok payload ↔
      ∃ payloadB64 sigB64, token.splitOn dot = [payloadB64, sigB64] ∧
        isNullOrWhiteSpace secret = false ∧
        Base64.decode sigB64 = some (Sha256.hmac (utf8 secret) payloadB64) ∧
        (Base64.decode payloadB64).bind unmarshal = some payload ∧
        0 < payload.exp ∧ payload.route ≠ "" ∧ now ≤ payload.exp := by
  constructor
  · intro h
    rw [verify] at h
    split at h
    next payloadB64 sigB64 hsplit =>
      split at h
      · cases h
      next hkey =>
        rw [verifyParts] at h
        split at h
        · cases h
        next sigBytes hsig =>
          split at h
          · cases h
          next hmac =>
            split at h
            · cases h
            next payloadBytes hpayload =>
              split at h
              · cases h
              next p hunmarshal =>
                split_ifs at h with hcontent hexpired
                cases h
                simp only [Bool.or_eq_true, decide_eq_true_eq, not_or, not_le] at hcontent
                refine ⟨payloadB64, sigB64, hsplit, by simpa using hkey, ?_, ?_, hcontent.1,
                  hcontent.2, not_lt.mp hexpired⟩
                · rw [hsig, not_not.mp hmac]
                · rw [hpayload, Option.bind_some, hunmarshal]
    next => cases h
  · rintro ⟨payloadB64, sigB64, hsplit, hkey, hsig, hpayload, hexp, hroute, hnow⟩
    obtain ⟨payloadBytes, hbytes, hunmarshal⟩ := Option.bind_eq_some_iff.mp hpayload
    have hcontent : ¬(decide (payload.exp ≤ 0) || decide (payload.route = "")) = true := by
      simp [hexp, hroute]
    simp only [verify, hsplit, hkey, verifyParts, hsig, hbytes, hunmarshal, ne_eq,
      not_true_eq_false, if_false, Bool.false_eq_true, if_neg hcontent, if_neg (not_lt.mpr hnow)]

end Gateway

end Fctf
