import Fctf.Lib.Utf8
import Fctf.TokenRoundTrip

/-!
# Signed Values

`ItsDangerousCompatHelper` signs a value with the time: value, time and signature stand behind each
other, with dots between them. The key of the signature is a hash of salt, the word `signer` and
secret, and so it does not tell where the salt ends.

## Main results

* `split_timestampSign`: value, time and signature are found again, whatever dots the value has.
* `timestampUnsign_timestampSign`: what a verification with the same salt and secret answers.
* `signedValue_roundTrip`: the round trip, of a value and of a JSON text.
* `unsign_otherSalt`: another salt and another secret under which a signature is accepted.
-/

namespace Fctf.ItsDangerous

/-- A string. -/
abbrev Text := List Char

/-! ### The encodings -/

/-- `B64Url`: the steps are those of `Base64UrlEncode`. -/
def b64Url (bytes : List UInt8) : Text := (base64UrlEncode bytes).toList

/-- The group of six bits of a letter. -/
def fromBase64Char (c : Char) : Option (Fin 64) :=
  (List.finRange 64).find? fun a => base64Alphabet.getD a 'A' = c

/-- `Convert.FromBase64String`: white space is skipped, and what is left is made of groups of four,
with two signs of padding at most. -/
def fromBase64String (s : Text) : Option (List UInt8) :=
  let s := s.filter fun c => c ∉ [' ', '\t', '\n', '\r']
  let body := s.rdropWhile (· = '=')
  if s.length % 4 ≠ 0 ∨ 2 < s.length - body.length then none
  else (body.mapM fromBase64Char).bind Base64.bytes

/-- `B64UrlDecode`; `none` where it raises. -/
def b64UrlDecode (s : Text) : Option (List UInt8) :=
  let s := s.map fun c => if c = '-' then '+' else c
  let s := s.map fun c => if c = '_' then '/' else c
  let s :=
    match s.length % 4 with
    | 2 => s ++ ['=', '=']
    | 3 => s ++ ['=']
    | _ => s
  fromBase64String s

/-- The loop of `IntToBytesBE`. -/
def toBytesLoop (n : ℕ) (tmp : List UInt8) : List UInt8 :=
  if n = 0 then tmp else toBytesLoop (n / 256) (UInt8.ofNat (n % 256) :: tmp)
termination_by n
decreasing_by omega

/-- `IntToBytesBE`: nothing for a negative number. -/
def intToBytesBE (n : ℤ) : List UInt8 := if n = 0 then [0] else toBytesLoop n.toNat []

/-- An `int`. -/
def toInt32 (n : ℤ) : ℤ := n.bmod (2 ^ 32)

/-- `ts = (ts << 8) | b`, byte by byte. -/
def bytesToInt (bytes : List UInt8) : ℤ :=
  bytes.foldl (fun ts b => toInt32 (ts * 256 + b.toNat)) 0

/-- `UnixNow` at a time in seconds. -/
def unixNow (now : ℤ) : ℤ := toInt32 now

/-! ### The signature -/

/-- The hash functions. -/
structure Crypto where
  /-- `SHA1`. -/
  sha1 : List UInt8 → List UInt8
  /-- `HMACSHA1`, of a key and a text. -/
  hmacSha1 : List UInt8 → List UInt8 → List UInt8

variable (crypto : Crypto)

/-- `DeriveKey`. -/
def deriveKey (secret salt : List UInt8) : List UInt8 :=
  crypto.sha1 (salt ++ Utf8.encode "signer".toList ++ secret)

/-- The key of a salt and a secret. -/
def signerKey (secret salt : Text) : List UInt8 :=
  deriveKey crypto (Utf8.encode secret) (Utf8.encode salt)

/-- The signature of a text. -/
def signature (secret salt text : Text) : Text :=
  b64Url (crypto.hmacSha1 (signerKey crypto secret salt) (Utf8.encode text))

/-- `TimestampSign` at the time `now`. -/
def timestampSign (now : ℤ) (value secret salt : Text) (sep : Char) : Text :=
  let tsPart := b64Url (intToBytesBE (unixNow now))
  let valueWithTs := value ++ sep :: tsPart
  valueWithTs ++ sep :: signature crypto secret salt valueWithTs

/-- Why a text is not unsigned. -/
inductive UnsignError where
  /-- `timestamp missing`. -/
  | timestampMissing
  /-- `BadSignature`. -/
  | badSignature
  /-- The `FormatException` of `Convert.FromBase64String`. -/
  | format
  /-- `SignatureExpired`. -/
  | signatureExpired (age maxAge : ℤ)
  deriving DecidableEq, Repr

/-- `Encoding.ASCII.GetBytes`. -/
def asciiBytes (s : Text) : List UInt8 :=
  s.map fun c => if c.toNat < 128 then UInt8.ofNat c.toNat else 0x3F

/-- `TimestampUnsign` at the time `now`. -/
def timestampUnsign (now : ℤ) (token secret : Text) (maxAgeSeconds : Option ℤ) (salt : Text)
    (sep : Char) : Except UnsignError Text :=
  match (token.splitOn sep).reverse with
  | sigB64 :: tsB64 :: value :: front =>
      let value := [sep].intercalate (value :: front).reverse
      let valueWithTs := value ++ sep :: tsB64
      if asciiBytes sigB64 ≠ asciiBytes (signature crypto secret salt valueWithTs) then
        .error .badSignature
      else
        match b64UrlDecode tsB64 with
        | none => .error .format
        | some tsBytes =>
            let ts := bytesToInt tsBytes
            match maxAgeSeconds with
            | none => .ok value
            | some maxAge =>
                let age := toInt32 (unixNow now - ts)
                if maxAge < age then .error (.signatureExpired age maxAge) else .ok value
  | _ => .error .timestampMissing

/-! ### Objects -/

/-- Why an object is not signed or loaded. -/
inductive SerializerError where
  /-- `Missing PRIVATE_KEY`. -/
  | missingPrivateKey
  | unsign (err : UnsignError)
  deriving DecidableEq, Repr

/-- `Dumps`, of the text that the object is serialized to. -/
def dumps (privateKey : Option Text) (now : ℤ) (json salt : Text) : Except SerializerError Text :=
  match privateKey with
  | none => .error .missingPrivateKey
  | some secret => .ok (timestampSign crypto now (b64Url (Utf8.encode json)) secret salt '.')

/-- `Loads`, up to the text that is deserialized. -/
def loads (privateKey : Option Text) (now : ℤ) (token : Text) (maxAgeSeconds : Option ℤ)
    (salt : Text) : Except SerializerError Text :=
  match privateKey with
  | none => .error .missingPrivateKey
  | some secret =>
      match timestampUnsign crypto now token secret maxAgeSeconds salt '.' with
      | .error err => .error (.unsign err)
      | .ok payloadB64 =>
          match b64UrlDecode payloadB64 with
          | none => .error (.unsign .format)
          | some bytes => .ok (Utf8.decode bytes)

/-! ### Letters -/

theorem b64Url_eq (bytes : List UInt8) : b64Url bytes = (Base64.sextets bytes).map Base64.letter :=
  toList_base64UrlEncode bytes

theorem dot_notMem_b64Url (bytes : List UInt8) : '.' ∉ b64Url bytes := by
  have hletter : ∀ a : Fin 64, Base64.letter a ≠ '.' := by decide +kernel
  rw [b64Url_eq]
  intro hmem
  obtain ⟨a, -, ha⟩ := List.mem_map.mp hmem
  exact hletter a ha

/-- Letters have seven bits. -/
theorem asciiBytes_b64Url (bytes : List UInt8) :
    asciiBytes (b64Url bytes) = Base64.encode bytes := by
  have hletter : ∀ a : Fin 64, (Base64.letter a).toNat < 128 := by decide +kernel
  rw [b64Url_eq, asciiBytes, List.map_map, Base64.encode]
  exact List.map_congr_left fun a _ => if_pos (hletter a)

theorem asciiBytes_b64Url_inj {bytes bytes' : List UInt8} :
    asciiBytes (b64Url bytes) = asciiBytes (b64Url bytes') ↔ bytes = bytes' := by
  rw [asciiBytes_b64Url, asciiBytes_b64Url]
  refine ⟨fun heq => ?_, fun heq => heq ▸ rfl⟩
  have hdecode := Base64.decode_encode bytes
  rw [heq, Base64.decode_encode] at hdecode
  exact (Option.some.inj hdecode).symm

/-- No encoding ends in a single letter. -/
theorem length_sextets_mod (bytes : List UInt8) : (Base64.sextets bytes).length % 4 ≠ 1 := by
  fun_induction Base64.sextets bytes with
  | case1 => decide
  | case2 => simp
  | case3 => simp
  | case4 x y z rest ih =>
      simp only [List.length_cons]
      omega

theorem fromBase64Char_letter (a : Fin 64) :
    fromBase64Char (base64Alphabet.getD a 'A') = some a := by
  have hall : ∀ a : Fin 64, fromBase64Char (base64Alphabet.getD a 'A') = some a := by
    decide +kernel
  exact hall a

/-- Letters with their padding. -/
theorem fromBase64String_letters (l : List (Fin 64)) {k : ℕ} (hk : k ≤ 2)
    (hlength : (l.length + k) % 4 = 0) :
    fromBase64String
        (l.map (fun a : Fin 64 => base64Alphabet.getD a 'A') ++ List.replicate k '=') =
      Base64.bytes l := by
  have hletter : ∀ a : Fin 64, base64Alphabet.getD a 'A' ∉ [' ', '\t', '\n', '\r'] ∧
      base64Alphabet.getD a 'A' ≠ '=' := by decide +kernel
  have hfilter : (l.map (fun a : Fin 64 => base64Alphabet.getD a 'A') ++
      List.replicate k '=').filter (fun c => c ∉ [' ', '\t', '\n', '\r']) =
      l.map (fun a : Fin 64 => base64Alphabet.getD a 'A') ++ List.replicate k '=' := by
    refine List.filter_eq_self.mpr fun c hc => ?_
    rcases List.mem_append.mp hc with hc | hc
    · obtain ⟨a, -, rfl⟩ := List.mem_map.mp hc
      exact decide_eq_true (hletter a).1
    · rw [List.eq_of_mem_replicate hc]
      decide
  have hbody : (l.map (fun a : Fin 64 => base64Alphabet.getD a 'A') ++
      List.replicate k '=').rdropWhile (· = '=') =
      l.map (fun a : Fin 64 => base64Alphabet.getD a 'A') := by
    rw [List.rdropWhile, List.reverse_append, List.reverse_replicate,
      List.dropWhile_append_of_pos (by simp), ← List.rdropWhile]
    refine List.rdropWhile_eq_self_iff.mpr fun hne => ?_
    obtain ⟨a, -, ha⟩ := List.mem_map.mp (List.getLast_mem hne)
    rw [← ha]
    simpa using (hletter a).2
  have hgroups : (l.map fun a : Fin 64 => base64Alphabet.getD a 'A').mapM fromBase64Char =
      some l := by
    rw [List.mapM_map]
    have hone : (fromBase64Char ∘ fun a : Fin 64 => base64Alphabet.getD a 'A') = some :=
      funext fromBase64Char_letter
    rw [hone]
    exact List.mapM_pure (m := Option) (l := l) (f := id) |>.trans (by simp)
  rw [fromBase64String]
  simp only [hfilter, hbody, hgroups, Option.bind_some]
  rw [if_neg]
  simp only [List.length_append, List.length_map, List.length_replicate]
  omega

/-- **What is encoded is decoded.** -/
theorem b64UrlDecode_b64Url (bytes : List UInt8) : b64UrlDecode (b64Url bytes) = some bytes := by
  have hletter : ∀ a : Fin 64,
      (fun c => if c = '_' then '/' else c)
        ((fun c => if c = '-' then '+' else c) (Base64.letter a)) =
      base64Alphabet.getD a 'A' := by decide +kernel
  have hmap : ((b64Url bytes).map fun c => if c = '-' then '+' else c).map
      (fun c => if c = '_' then '/' else c) =
      (Base64.sextets bytes).map fun a : Fin 64 => base64Alphabet.getD a 'A' := by
    rw [b64Url_eq, List.map_map, List.map_map]
    exact List.map_congr_left fun a _ => hletter a
  have hmod := length_sextets_mod bytes
  have hsplit (k : ℕ) (hk : k ≤ 2) (hlength : ((Base64.sextets bytes).length + k) % 4 = 0) :=
    (fromBase64String_letters (Base64.sextets bytes) hk hlength).trans (Base64.bytes_sextets bytes)
  rw [b64UrlDecode]
  simp only [hmap, List.length_map]
  obtain hzero | htwo | hthree : (Base64.sextets bytes).length % 4 = 0 ∨
      (Base64.sextets bytes).length % 4 = 2 ∨ (Base64.sextets bytes).length % 4 = 3 := by omega
  · have hnone := hsplit 0 (by decide) (by omega)
    rw [List.replicate_zero, List.append_nil] at hnone
    simpa only [hzero] using hnone
  · simp only [htwo]
    exact hsplit 2 le_rfl (by omega)
  · simp only [hthree]
    exact hsplit 1 (by decide) (by omega)

/-! ### Times -/

theorem toInt32_of_mem {n : ℤ} (h : -2 ^ 31 ≤ n ∧ n < 2 ^ 31) : toInt32 n = n := by
  rw [toInt32, Int.bmod_eq_of_le (by norm_num; omega) (by norm_num; omega)]

/-- Reading the bytes goes on from the number in front of them. -/
theorem foldl_toBytesLoop {n : ℕ} (h : n < 2 ^ 31) (tmp : List UInt8) :
    (toBytesLoop n tmp).foldl (fun ts b => toInt32 (ts * 256 + b.toNat)) 0 =
      tmp.foldl (fun ts b => toInt32 (ts * 256 + b.toNat)) (n : ℤ) := by
  fun_induction toBytesLoop n tmp with
  | case1 tmp => rfl
  | case2 n tmp hn ih =>
      have hbyte : (UInt8.ofNat (n % 256)).toNat = n % 256 :=
        UInt8.toNat_ofNat_of_lt (Nat.mod_lt n (by decide))
      have hsum : ((n / 256 : ℕ) : ℤ) * 256 + (n % 256 : ℕ) = n := by omega
      rw [ih (by omega), List.foldl_cons, hbyte, hsum, toInt32_of_mem (by omega)]

/-- **A time is read back**, up to January 2038. -/
theorem bytesToInt_intToBytesBE {n : ℤ} (h : 0 ≤ n ∧ n < 2 ^ 31) :
    bytesToInt (intToBytesBE n) = n := by
  rw [intToBytesBE]
  split
  next hzero =>
    rw [hzero, bytesToInt, List.foldl_cons, List.foldl_nil, toInt32_of_mem (by decide)]
    rfl
  next =>
    rw [bytesToInt, foldl_toBytesLoop (by omega), List.foldl_nil]
    omega

/-! ### Signing and unsigning -/

section Sign

variable {crypto} {value secret salt secret' salt' : Text} {signed verified : ℤ}

/-- The three parts of a signed value. -/
theorem split_timestampSign (value ts sig : Text) (hts : '.' ∉ ts) (hsig : '.' ∉ sig) :
    ((value ++ '.' :: ts ++ '.' :: sig).splitOn '.').reverse =
      sig :: ts :: (value.splitOn '.').reverse := by
  rw [List.append_assoc, List.cons_append, List.splitOn_append_cons_self,
    List.splitOn_append_cons_self_of_not_mem hts, List.splitOn_eq_singleton hsig,
    List.reverse_append, List.reverse_cons, List.reverse_singleton]
  rfl

/-- **What a verification answers.** -/
theorem timestampUnsign_timestampSign (hsigned : 0 ≤ signed ∧ signed < 2 ^ 31)
    (maxAgeSeconds : Option ℤ) :
    timestampUnsign crypto verified (timestampSign crypto signed value secret salt '.') secret'
        maxAgeSeconds salt' '.' =
      let text := Utf8.encode (value ++ '.' :: b64Url (intToBytesBE (unixNow signed)))
      let age := toInt32 (unixNow verified - signed)
      if crypto.hmacSha1 (signerKey crypto secret salt) text ≠
          crypto.hmacSha1 (signerKey crypto secret' salt') text then
        .error .badSignature
      else
        match maxAgeSeconds with
        | none => .ok value
        | some maxAge =>
            if maxAge < age then .error (.signatureExpired age maxAge) else .ok value := by
  have hunix : unixNow signed = signed := toInt32_of_mem (by omega)
  have hsplit := split_timestampSign value (b64Url (intToBytesBE (unixNow signed)))
    (signature crypto secret salt (value ++ '.' :: b64Url (intToBytesBE (unixNow signed))))
    (dot_notMem_b64Url _) (dot_notMem_b64Url _)
  obtain ⟨last, front, hfront⟩ : ∃ last front, (value.splitOn '.').reverse = last :: front :=
    List.exists_cons_of_ne_nil (by simp [List.splitOn_ne_nil])
  have hvalue : ['.'].intercalate (last :: front).reverse = value := by
    rw [← hfront, List.reverse_reverse, List.intercalate_splitOn]
  rw [timestampUnsign, timestampSign]
  simp only [hsplit, hfront, hvalue]
  simp only [signature, ne_eq, asciiBytes_b64Url_inj, b64UrlDecode_b64Url]
  rw [hunix, bytesToInt_intToBytesBE hsigned]

/-- What is asked of a value signed at one time and verified at another one, and of the text of an
object: they are given back within the allowed age, and not later, nor under another key. -/
structure RoundTrips (crypto : Crypto) (value json secret salt : Text) (signed verified : ℤ) :
    Prop where
  unsigned : ∀ maxAge, verified - signed ≤ maxAge →
    timestampUnsign crypto verified (timestampSign crypto signed value secret salt '.') secret
      (some maxAge) salt '.' = .ok value
  unlimited :
    timestampUnsign crypto verified (timestampSign crypto signed value secret salt '.') secret
      none salt '.' = .ok value
  expired : ∀ maxAge, maxAge < verified - signed →
    timestampUnsign crypto verified (timestampSign crypto signed value secret salt '.') secret
      (some maxAge) salt '.' = .error (.signatureExpired (verified - signed) maxAge)
  otherKey : ∀ secret' salt' maxAgeSeconds,
    signerKey crypto secret salt ≠ signerKey crypto secret' salt' →
      timestampUnsign crypto verified (timestampSign crypto signed value secret salt '.') secret'
        maxAgeSeconds salt' '.' = .error .badSignature
  loaded : ∀ maxAge, verified - signed ≤ maxAge →
    (do
      let token ← dumps crypto (some secret) signed json salt
      loads crypto (some secret) verified token (some maxAge) salt) = .ok json
  loadedExpired : ∀ maxAge, maxAge < verified - signed →
    (do
      let token ← dumps crypto (some secret) signed json salt
      loads crypto (some secret) verified token (some maxAge) salt) =
        .error (.unsign (.signatureExpired (verified - signed) maxAge))
  loadedOtherKey : ∀ secret' salt' maxAgeSeconds,
    signerKey crypto secret salt ≠ signerKey crypto secret' salt' →
      (do
        let token ← dumps crypto (some secret) signed json salt
        loads crypto (some secret') verified token maxAgeSeconds salt') =
          .error (.unsign .badSignature)

/-- Verification under the same salt and secret. -/
theorem unsign_sameKey (hsigned : 0 ≤ signed ∧ signed < 2 ^ 31)
    (hverified : 0 ≤ verified ∧ verified < 2 ^ 31) (maxAge : ℤ) :
    timestampUnsign crypto verified (timestampSign crypto signed value secret salt '.') secret
        (some maxAge) salt '.' =
      if maxAge < verified - signed then .error (.signatureExpired (verified - signed) maxAge)
      else .ok value := by
  have hunix : unixNow verified = verified := toInt32_of_mem (by omega)
  have hage : toInt32 (unixNow verified - signed) = verified - signed := by
    rw [hunix, toInt32_of_mem (by omega)]
  rw [timestampUnsign_timestampSign hsigned]
  dsimp only
  rw [if_neg (not_not.mpr rfl), hage]

/-- Verification under another key. -/
theorem unsign_otherKey (hhmac : ∀ k k' m m', crypto.hmacSha1 k m = crypto.hmacSha1 k' m' →
      k = k' ∧ m = m') (hsigned : 0 ≤ signed ∧ signed < 2 ^ 31) (maxAgeSeconds : Option ℤ)
    (hkey : signerKey crypto secret salt ≠ signerKey crypto secret' salt') :
    timestampUnsign crypto verified (timestampSign crypto signed value secret salt '.') secret'
      maxAgeSeconds salt' '.' = .error .badSignature := by
  rw [timestampUnsign_timestampSign hsigned]
  exact if_pos fun heq => hkey (hhmac _ _ _ _ heq).1

/-- What is loaded is the signed text. -/
theorem loads_dumps (json : Text) (maxAgeSeconds : Option ℤ) :
    (do
      let token ← dumps crypto (some secret) signed json salt
      loads crypto (some secret') verified token maxAgeSeconds salt') =
      loads crypto (some secret') verified
        (timestampSign crypto signed (b64Url (Utf8.encode json)) secret salt '.') maxAgeSeconds
        salt' := by
  rw [dumps]
  generalize timestampSign crypto signed (b64Url (Utf8.encode json)) secret salt '.' = token
  rfl

/-- **The round trip** of values and of objects, for times up to January 2038: what was signed is
given back within the allowed age, and it is neither later nor under another key. -/
theorem signedValue_roundTrip (crypto : Crypto)
    (hhmac : ∀ k k' m m', crypto.hmacSha1 k m = crypto.hmacSha1 k' m' → k = k' ∧ m = m')
    (value json secret salt : Text) (signed verified : ℤ)
    (hsigned : 0 ≤ signed ∧ signed < 2 ^ 31) (hverified : 0 ≤ verified ∧ verified < 2 ^ 31) :
    RoundTrips crypto value json secret salt signed verified where
  unsigned maxAge hage := by
    rw [unsign_sameKey hsigned hverified, if_neg (not_lt.mpr hage)]
  unlimited := by
    rw [timestampUnsign_timestampSign hsigned]
    exact if_neg (not_not.mpr rfl)
  expired maxAge hage := by
    rw [unsign_sameKey hsigned hverified, if_pos hage]
  otherKey secret' salt' maxAgeSeconds hkey := unsign_otherKey hhmac hsigned maxAgeSeconds hkey
  loaded maxAge hage := by
    have hunsigned := @unsign_sameKey crypto (b64Url (Utf8.encode json)) secret salt signed verified
      hsigned hverified maxAge
    rw [if_neg (not_lt.mpr hage)] at hunsigned
    rw [loads_dumps]
    simp only [loads, hunsigned, b64UrlDecode_b64Url, Utf8.decode_encode]
  loadedExpired maxAge hage := by
    have hunsigned := @unsign_sameKey crypto (b64Url (Utf8.encode json)) secret salt signed verified
      hsigned hverified maxAge
    rw [if_pos hage] at hunsigned
    rw [loads_dumps]
    simp only [loads, hunsigned]
  loadedOtherKey secret' salt' maxAgeSeconds hkey := by
    have hunsigned := @unsign_otherKey crypto (b64Url (Utf8.encode json)) secret salt secret' salt'
      signed verified hhmac hsigned maxAgeSeconds hkey
    rw [loads_dumps]
    simp only [loads, hunsigned]

end Sign

/-! ### Salts and secrets -/

/-- Hash functions without collisions. -/
def plainCrypto : Crypto where
  sha1 := id
  hmacSha1 key text := key.flatMap (fun b => [1, b]) ++ 0 :: text

theorem plainCrypto_hmacSha1 : ∀ k k' m m',
    plainCrypto.hmacSha1 k m = plainCrypto.hmacSha1 k' m' → k = k' ∧ m = m' := by
  intro k
  induction k with
  | nil =>
      intro k' m m' heq
      cases k' with
      | nil => exact ⟨rfl, (List.cons.inj heq).2⟩
      | cons b k' => exact absurd (List.cons.inj heq).1 (by decide)
  | cons a k ih =>
      intro k' m m' heq
      cases k' with
      | nil => exact absurd (List.cons.inj heq).1 (by decide)
      | cons b k' =>
          obtain ⟨-, heq⟩ := List.cons.inj heq
          obtain ⟨rfl, heq⟩ := List.cons.inj heq
          obtain ⟨rfl, rfl⟩ := ih k' m m' (by simpa [plainCrypto, List.flatMap] using heq)
          exact ⟨rfl, rfl⟩

/-- A value with dots, an hour before its verification. -/
theorem signedValue_roundTrip_dots :
    RoundTrips plainCrypto "a.b.".toList "\x7b\x7d".toList "key".toList "itsdangerous".toList
      1700000000 1700003600 :=
  signedValue_roundTrip plainCrypto plainCrypto_hmacSha1 _ _ _ _ _ _ (by decide) (by decide)

/-- The salt `a` with the secret `signerb` and the salt `asigner` with the secret `b`: the text that
is hashed to the key is the same. -/
theorem unsign_otherSalt :
    ¬∀ (crypto : Crypto),
      (∀ k k' m m', crypto.hmacSha1 k m = crypto.hmacSha1 k' m' → k = k' ∧ m = m') →
      ∀ (value secret salt secret' salt' : Text) (now maxAge : ℤ),
        secret ≠ secret' → salt ≠ salt' →
          timestampUnsign crypto now (timestampSign crypto now value secret salt '.') secret'
            (some maxAge) salt' '.' ≠ .ok value := by
  intro hall
  have hkey : signerKey plainCrypto "signerb".toList "a".toList =
      signerKey plainCrypto "b".toList "asigner".toList := by decide
  refine hall plainCrypto plainCrypto_hmacSha1 [] "signerb".toList "a".toList "b".toList
    "asigner".toList 0 0 (by decide) (by decide) ?_
  rw [timestampUnsign_timestampSign (by decide), hkey]
  rfl

end Fctf.ItsDangerous
