import Fctf.ChallengeToken

/-!
# From the Hosting Services to the Gateway

A token that `GenerateChallengeToken` has made for a route is accepted by `Verify` under the
same private key, up to its expiry, and gives the route back, whatever characters are in it.

## Main results

* `unmarshal_payloadJson`: the gateway reads what the hosting services have written.
* `verify_generateChallengeToken`: the round trip of a token.
-/

open Json (asciiByte)

namespace Fctf

/-! ### Texts -/

theorem utf8_of_ascii {s : String} (h : ∀ c ∈ s.toList, c.toNat < 128) :
    utf8 s = s.toList.map asciiByte := by
  rw [utf8, List.map_eq_flatMap]
  refine List.flatMap_congr fun c hc => ?_
  have hlt : c.toNat ≤ 127 := Nat.le_of_lt_succ (h c hc)
  simp [String.utf8EncodeChar, hlt, asciiByte]

/-- What is left of the padded text are the letters for URLs. -/
theorem toList_base64UrlEncode (data : List UInt8) :
    (base64UrlEncode data).toList = (Base64.sextets data).map Base64.letter := by
  have hletter : ∀ a : Fin 64,
      (fun c => if c = '/' then '_' else c)
        ((fun c => if c = '+' then '-' else c) (base64Alphabet.getD a 'A')) =
      Base64.letter a := by decide +kernel
  have hpad : ∀ a : Fin 64, ¬decide (Base64.letter a = '=') = true := by decide +kernel
  have hmap : (Base64.sextets data).map
      ((fun c => if c = '/' then '_' else c) ∘ (fun c => if c = '+' then '-' else c) ∘
        fun a : Fin 64 => base64Alphabet.getD a 'A') =
      (Base64.sextets data).map Base64.letter :=
    List.map_congr_left fun a _ => hletter a
  rw [base64UrlEncode, String.toList_ofList, toBase64String]
  simp only [List.map_append, List.map_map, List.map_replicate]
  rw [List.rdropWhile, List.reverse_append, List.reverse_replicate,
    List.dropWhile_append_of_pos (by simp), ← List.rdropWhile, hmap]
  refine List.rdropWhile_eq_self_iff.mpr fun hne => ?_
  obtain ⟨a, -, ha⟩ := List.mem_map.mp (List.getLast_mem hne)
  rw [← ha]
  exact hpad a

/-- Both sides encode alike. -/
theorem utf8_base64UrlEncode (data : List UInt8) :
    utf8 (base64UrlEncode data) = Base64.encode data := by
  have hascii : ∀ a : Fin 64, (Base64.letter a).toNat < 128 := by decide +kernel
  have hall : ∀ c ∈ (base64UrlEncode data).toList, c.toNat < 128 := by
    intro c hc
    rw [toList_base64UrlEncode] at hc
    obtain ⟨a, -, rfl⟩ := List.mem_map.mp hc
    exact hascii a
  rw [utf8_of_ascii hall, toList_base64UrlEncode, List.map_map]
  rfl

/-! ### The payload -/

namespace Gateway

open Json

/-- The payload in JSON, with its numeral and its string. -/
def payloadChars (numeral text : List Char) : List Char :=
  '\x7b' :: '"' :: (escape "exp".toList ++ '"' :: ':' :: (numeral ++ ',' :: '"' ::
    (escape "route".toList ++ '"' :: ':' :: '"' :: (escape text ++ ['"', '\x7d']))))

theorem toList_payloadJson {expiryUtc : DateTimeOffset} {n : ℕ}
    (h : expiryUtc.toUnixTimeSeconds = n) (routeInfo : String) :
    (payloadJson expiryUtc routeInfo).toList =
      payloadChars (Nat.toDigits 10 n) routeInfo.toList := by
  have hnumeral : (toString (n : ℤ)).toList = Nat.toDigits 10 n := by
    rw [← Nat.toList_repr]
    rfl
  simp only [payloadJson, h, String.toList_append, hnumeral, String.toList_ofList,
    List.append_assoc]
  rfl

/-- The gateway reads the two members. -/
theorem value_payloadChars {n : ℕ} (hn : 0 < n) (text : List Char) (fuel : ℕ) :
    value (fuel + 4) 0 (payloadChars (Nat.toDigits 10 n) text) =
      some (.object [("exp".toList, .number (Nat.toDigits 10 n)),
        ("route".toList, .string text)], []) := by
  obtain ⟨d, ds, hdigits, -⟩ := exists_toDigits hn
  have hdigit : d.isDigit = true := isDigit_of_mem (n := n) (hdigits ▸ List.mem_cons_self)
  have hnumber (depth : ℕ) (l : List Char) :
      value (fuel + 2) depth (Nat.toDigits 10 n ++ ',' :: l) =
        some (.number (Nat.toDigits 10 n), ',' :: l) := by
    have h := number_digits hn (c := ',') (by decide) (by decide) (by decide) (by decide) l
    rw [hdigits, List.cons_append, value_number hdigit, ← List.cons_append, ← hdigits, h,
      Option.map_some]
  have hstring (depth : ℕ) :
      value (fuel + 1) depth ('"' :: (escape text ++ ['"', '\x7d'])) =
        some (.string text, ['\x7d']) := by
    rw [value_string, stringBody_escape, Option.map_some]
  have hroute := members_last (stringBody_escape "route".toList _) (hstring 1)
  have hexp := members_cons (stringBody_escape "exp".toList _)
    (hnumber 1 ('"' :: (escape "route".toList ++ '"' :: ':' :: '"' ::
      (escape text ++ ['"', '\x7d']))))
  rw [payloadChars, value_object (by decide), hexp, hroute, Option.map_some, Option.map_some]

/-- What is written as a payload is ASCII. -/
theorem payloadChars_ascii {n : ℕ} {text : List Char} {c : Char}
    (h : c ∈ payloadChars (Nat.toDigits 10 n) text) : c.toNat < 128 := by
  have hdigit {c : Char} (hc : c.isDigit = true) : c.toNat < 128 := by
    simp only [Char.isDigit, Bool.and_eq_true, decide_eq_true_eq] at hc
    exact lt_of_le_of_lt hc.2 (by decide)
  simp only [payloadChars, List.mem_cons, List.mem_append, List.not_mem_nil, or_false] at h
  rcases h with rfl | rfl | h | rfl | rfl | h | rfl | rfl | h | rfl | rfl | rfl | h | rfl | rfl
  any_goals decide
  · exact escape_ascii h
  · exact hdigit (isDigit_of_mem h)
  · exact escape_ascii h
  · exact escape_ascii h

/-- **The gateway reads what the hosting services have written.** -/
theorem unmarshal_payloadJson {expiryUtc : DateTimeOffset}
    (h : 0 < expiryUtc.toUnixTimeSeconds) (routeInfo : String) :
    unmarshal (utf8 (payloadJson expiryUtc routeInfo)) =
      some ⟨expiryUtc.toUnixTimeSeconds, routeInfo⟩ := by
  obtain ⟨n, hn⟩ := Int.eq_ofNat_of_zero_le h.le
  have hmax := expiryUtc.le_maxValue
  have hlist := toList_payloadJson hn routeInfo
  have hrunes : runes (utf8 (payloadJson expiryUtc routeInfo)) =
      payloadChars (Nat.toDigits 10 n) routeInfo.toList := by
    have hascii : ∀ c ∈ (payloadJson expiryUtc routeInfo).toList, c.toNat < 128 := by
      intro c hc
      rw [hlist] at hc
      exact payloadChars_ascii hc
    rw [utf8_of_ascii hascii, runes_ascii hascii, hlist]
  obtain ⟨fuel, hfuel⟩ : ∃ fuel,
      2 * (payloadChars (Nat.toDigits 10 n) routeInfo.toList).length + 2 = fuel + 4 :=
    Nat.exists_eq_add_of_le' (by simp only [payloadChars, List.length_cons]; omega)
  have hparse : parse (utf8 (payloadJson expiryUtc routeInfo)) =
      some (.object [("exp".toList, .number (Nat.toDigits 10 n)),
        ("route".toList, .string routeInfo.toList)]) := by
    rw [parse, hrunes, hfuel, value_payloadChars (by omega)]
    rfl
  have hint : int64 (Nat.toDigits 10 n) = some (n : ℤ) := int64_digits (by omega)
  have hassign : assign ⟨0, ""⟩ ("exp".toList, .number (Nat.toDigits 10 n)) =
      some ⟨n, ""⟩ := by
    have hkey : "exp".toList.map Char.toLower = "exp".toList := by decide
    simp only [assign, hkey, if_true, assignExp, hint, Option.map_some]
  have hassign' : assign ⟨n, ""⟩ ("route".toList, .string routeInfo.toList) =
      some ⟨n, routeInfo⟩ := by
    have hkey : "route".toList.map Char.toLower = "route".toList := by decide
    have hother : "route".toList ≠ "exp".toList := by decide
    simp only [assign, hkey, if_neg hother, if_true, assignRoute, String.ofList_toList]
  rw [unmarshal, hparse, hn]
  simp only [List.foldlM_cons, List.foldlM_nil, hassign, hassign', Option.bind_eq_bind,
    Option.bind_some, Option.pure_def]

/-! ### The token -/

theorem dot_notMem_encode (data : List UInt8) : dot ∉ Base64.encode data := by
  have hchar : ∀ a : Fin 64, Base64.char a ≠ dot := by decide +kernel
  intro h
  obtain ⟨a, -, ha⟩ := List.mem_map.mp h
  exact hchar a ha

/-- A token in bytes is its two encoded parts. -/
theorem splitOn_token (payload signature : List UInt8) :
    (utf8 (base64UrlEncode payload ++ "." ++ base64UrlEncode signature)).splitOn dot =
      [Base64.encode payload, Base64.encode signature] := by
  have hdot : String.utf8EncodeChar '.' = [dot] := by decide
  have hutf8 : utf8 (base64UrlEncode payload ++ "." ++ base64UrlEncode signature) =
      Base64.encode payload ++ dot :: Base64.encode signature := by
    rw [← utf8_base64UrlEncode payload, ← utf8_base64UrlEncode signature]
    simp only [utf8, String.toList_append, List.flatMap_append, List.append_assoc]
    simp [hdot]
  rw [hutf8, List.splitOn_append_cons_self, List.splitOn_eq_singleton (dot_notMem_encode _),
    List.splitOn_eq_singleton (dot_notMem_encode _)]
  rfl

/-- A token of the hosting services, with a private key that is not blank. -/
theorem eq_of_generateChallengeToken {privateKey routeInfo token : String}
    {expiryUtc : DateTimeOffset}
    (h : generateChallengeToken privateKey routeInfo expiryUtc = .ok token) :
    isNullOrWhiteSpace privateKey = false ∧
      token = base64UrlEncode (utf8 (payloadJson expiryUtc routeInfo)) ++ "." ++
        base64UrlEncode (Sha256.hmac (utf8 privateKey)
          (Base64.encode (utf8 (payloadJson expiryUtc routeInfo)))) := by
  rw [generateChallengeToken, utf8_base64UrlEncode] at h
  by_cases hkey : isNullOrWhiteSpace privateKey = true
  · rw [if_pos hkey] at h
    cases h
  · rw [if_neg hkey] at h
    exact ⟨by simpa using hkey, (Except.ok.inj h).symm⟩

/-- What becomes of a signed payload. -/
theorem verifyParts_eq {routeInfo : String} {expiryUtc : DateTimeOffset}
    (hroute : routeInfo ≠ "") (hexp : 0 < expiryUtc.toUnixTimeSeconds) (secret : String)
    (now : ℤ) {payloadB64 : List UInt8}
    (hpayload : payloadB64 = Base64.encode (utf8 (payloadJson expiryUtc routeInfo))) :
    verifyParts secret now payloadB64
        (Base64.encode (Sha256.hmac (utf8 secret) payloadB64)) =
      if expiryUtc.toUnixTimeSeconds < now then
        .error (.expired expiryUtc.toUnixTimeSeconds now)
      else .ok ⟨expiryUtc.toUnixTimeSeconds, routeInfo⟩ := by
  have hdecode : Base64.decode payloadB64 =
      some (utf8 (payloadJson expiryUtc routeInfo)) := by
    rw [hpayload, Base64.decode_encode]
  have hcontent : ¬(decide (expiryUtc.toUnixTimeSeconds ≤ 0) || decide (routeInfo = "")) =
      true := by
    simp [hexp, hroute]
  simp only [verifyParts, Base64.decode_encode, ne_eq, not_true_eq_false, if_false, hdecode,
    unmarshal_payloadJson hexp, if_neg hcontent]

/-- What becomes of a token at the gateway. -/
theorem verify_eq {privateKey routeInfo token : String} {expiryUtc : DateTimeOffset}
    (hroute : routeInfo ≠ "") (hexp : 0 < expiryUtc.toUnixTimeSeconds)
    (h : generateChallengeToken privateKey routeInfo expiryUtc = .ok token) (now : ℤ) :
    verify privateKey now (utf8 token) =
      if expiryUtc.toUnixTimeSeconds < now then
        .error (.expired expiryUtc.toUnixTimeSeconds now)
      else .ok ⟨expiryUtc.toUnixTimeSeconds, routeInfo⟩ := by
  obtain ⟨hkey, htoken⟩ := eq_of_generateChallengeToken h
  rw [htoken, verify, splitOn_token]
  simp only [hkey, Bool.false_eq_true, if_false]
  exact verifyParts_eq hroute hexp privateKey now rfl

/-- **The round trip of a token**: with a private key that is not blank a token is made, and
from a token for a route the gateway gets the route and the expiry back in every second up
to the expiry, and rejects it later. -/
theorem verify_generateChallengeToken (privateKey routeInfo : String)
    (expiryUtc : DateTimeOffset) (hroute : routeInfo ≠ "")
    (hexp : 0 < expiryUtc.toUnixTimeSeconds) :
    (isNullOrWhiteSpace privateKey = false →
      ∃ token, generateChallengeToken privateKey routeInfo expiryUtc = .ok token) ∧
    ∀ token, generateChallengeToken privateKey routeInfo expiryUtc = .ok token → ∀ now,
      (now ≤ expiryUtc.toUnixTimeSeconds → verify privateKey now (utf8 token) =
        .ok ⟨expiryUtc.toUnixTimeSeconds, routeInfo⟩) ∧
      (expiryUtc.toUnixTimeSeconds < now → verify privateKey now (utf8 token) =
        .error (.expired expiryUtc.toUnixTimeSeconds now)) := by
  constructor
  · intro hkey
    exact ⟨_, by rw [generateChallengeToken, hkey]; rfl⟩
  · intro token htoken now
    rw [verify_eq hroute hexp htoken]
    exact ⟨fun h => if_neg (not_lt.mpr h), fun h => if_pos h⟩

/-- A token for the route `r` up to second 9, under the key `k`. -/
theorem verify_generateChallengeToken_nine :
    ∃ token, generateChallengeToken "k" "r" ⟨9, by decide, by decide⟩ = .ok token ∧
      verify "k" 9 (utf8 token) = .ok ⟨9, "r"⟩ := by
  have h := verify_generateChallengeToken "k" "r" ⟨9, by decide, by decide⟩ (by decide)
    (by decide)
  obtain ⟨token, htoken⟩ := h.1 (by decide)
  exact ⟨token, htoken, (h.2 token htoken 9).1 le_rfl⟩

end Gateway

end Fctf
