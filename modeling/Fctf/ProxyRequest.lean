import Fctf.TokenSpelling

/-!
# The Request a Challenge Gets

The HTTP gateway takes its token from the query or from a cookie. A token of the query is
redirected to a cookie; a request with a cookie is forwarded, the `Cookie` header put together
anew from the cookies that `net/http` has read, less its own. The query is forwarded as it is:
a token in it goes unseen if an empty one comes first.

## Main results

* `readPair_write`: which cookies are written as they are read.
* `rawPairs_cleanProxyCookies`: the cookies of a request that is forwarded.
* `stripsOnly_iff`: when nothing but the token is taken from a request.
* `not_stripsOnly`: a token that is forwarded, and a cookie that is not.
-/

namespace Fctf.Gateway

/-! ### The reader and the writer of cookies -/

/-- A cookie. -/
structure Cookie where
  name : List UInt8
  value : List UInt8
  deriving DecidableEq, Repr

/-- The name of the gateway's cookie. -/
def challengeCookieName : List UInt8 := utf8 "FCTF_Auth_Token"

/-- A character of a token of RFC 7230: a name consists of such. -/
def isTokenByte (b : UInt8) : Bool :=
  (0x30 ≤ b && b ≤ 0x39) || (0x41 ≤ b && b ≤ 0x5A) || (0x61 ≤ b && b ≤ 0x7A) ||
    [0x21, 0x23, 0x24, 0x25, 0x26, 0x27, 0x2A, 0x2B, 0x2D, 0x2E, 0x5E, 0x5F, 0x60, 0x7C,
      0x7E].contains b

/-- `isCookieNameValid`. -/
def isCookieNameValid (name : List UInt8) : Bool := !name.isEmpty && name.all isTokenByte

/-- `validCookieValueByte`: printable, and no quote, semicolon or backslash. -/
def validCookieValueByte (b : UInt8) : Bool :=
  0x20 ≤ b && b < 0x7F && b ≠ 0x22 && b ≠ 0x3B && b ≠ 0x5C

/-- `isASCIISpace`. -/
def isAsciiSpace (b : UInt8) : Bool := b = 0x20 || b = 0x09 || b = 0x0A || b = 0x0D

/-- `textproto.TrimString`. -/
def trimString (s : List UInt8) : List UInt8 := (s.dropWhile isAsciiSpace).rdropWhile isAsciiSpace

/-- `strings.Cut`: what is before the separator, and what is after it. -/
def cut (sep : UInt8) (s : List UInt8) : List UInt8 × List UInt8 :=
  (s.takeWhile (· ≠ sep), (s.dropWhile (· ≠ sep)).tail)

/-- The quotes around a value, if it has them, are taken off. -/
def unquote (raw : List UInt8) : List UInt8 :=
  if 1 < raw.length ∧ raw.head? = some 0x22 ∧ raw.getLast? = some 0x22 then raw.tail.dropLast
  else raw

/-- `parseCookieValue`. -/
def parseCookieValue (raw : List UInt8) : Option (List UInt8) :=
  if (unquote raw).all validCookieValueByte then some (unquote raw) else none

/-- The name in a part of the header. -/
def pairName (part : List UInt8) : List UInt8 := trimString (cut 0x3D part).1

/-- A part of the header that is not empty, read. -/
def readPair (part : List UInt8) : Option Cookie :=
  if isCookieNameValid (pairName part) then
    (parseCookieValue (cut 0x3D part).2).map (⟨pairName part, ·⟩)
  else none

/-- The parts of the `Cookie` headers, without the spaces around them. -/
def rawPairs (lines : List (List UInt8)) : List (List UInt8) :=
  lines.flatMap fun line =>
    (((trimString line).splitOn 0x3B).map trimString).filter (!·.isEmpty)

/-- `readCookies`. -/
def readCookies (lines : List (List UInt8)) : List Cookie := (rawPairs lines).filterMap readPair

/-- `sanitizeCookieName`. -/
def sanitizeCookieName (name : List UInt8) : List UInt8 :=
  name.map fun b => if b = 0x0A ∨ b = 0x0D then 0x2D else b

/-- `sanitizeCookieValue`: a value with a space or a comma is put into quotes. -/
def sanitizeCookieValue (value : List UInt8) : List UInt8 :=
  let value := value.filter validCookieValueByte
  if value.isEmpty then value
  else if value.any fun b => b = 0x20 || b = 0x2C then 0x22 :: (value ++ [0x22])
  else value

/-- A cookie as `AddCookie` writes it. -/
def writeCookie (c : Cookie) : List UInt8 :=
  sanitizeCookieName c.name ++ 0x3D :: sanitizeCookieValue c.value

/-- `AddCookie` after `AddCookie`: the header, if there is a cookie. -/
def addCookies (cookies : List Cookie) : List (List UInt8) :=
  match cookies.map writeCookie with
  | [] => []
  | pair :: pairs => [pair ++ pairs.flatMap fun p => [0x3B, 0x20] ++ p]

/-! ### The query -/

/-- The value of a hexadecimal digit. -/
def hexValue (b : UInt8) : Option UInt8 :=
  if 0x30 ≤ b ∧ b ≤ 0x39 then some (b - 0x30)
  else if 0x61 ≤ b ∧ b ≤ 0x66 then some (b - 0x57)
  else if 0x41 ≤ b ∧ b ≤ 0x46 then some (b - 0x37)
  else none

/-- `QueryUnescape`. -/
def queryUnescape : List UInt8 → Option (List UInt8)
  | [] => some []
  | b :: rest =>
      if b = 0x25 then
        match rest with
        | hi :: lo :: rest => do
            let hi ← hexValue hi
            let lo ← hexValue lo
            let unescaped ← queryUnescape rest
            return (hi * 16 + lo) :: unescaped
        | _ => none
      else (queryUnescape rest).map ((if b = 0x2B then 0x20 else b) :: ·)

/-- A setting of the query, if it can be read. -/
def readSetting (setting : List UInt8) : Option (List UInt8 × List UInt8) :=
  if setting.contains 0x3B || setting.isEmpty then none
  else do
    let key ← queryUnescape (cut 0x3D setting).1
    let value ← queryUnescape (cut 0x3D setting).2
    return (key, value)

/-- `ParseQuery`, as `URL.Query` calls it: the settings that can be read. -/
def parseQuery (rawQuery : List UInt8) : List (List UInt8 × List UInt8) :=
  (rawQuery.splitOn 0x26).filterMap readSetting

/-- The values of a parameter. -/
def queryValues (rawQuery key : List UInt8) : List (List UInt8) :=
  ((parseQuery rawQuery).filter (·.1 = key)).map Prod.snd

/-- `Values.Get`: the first value, or the empty text. -/
def queryGet (rawQuery key : List UInt8) : List UInt8 := (queryValues rawQuery key).headD []

/-- The parameter of the token. -/
def tokenParameter : List UInt8 := utf8 "fctftoken"

/-! ### The handler -/

/-- What the handler reads of a request. -/
structure Request where
  cookieLines : List (List UInt8)
  rawQuery : List UInt8
  path : List UInt8
  deriving DecidableEq, Repr

/-- What becomes of a request. -/
inductive Outcome where
  | missingToken
  | invalidToken (err : VerifyError)
  | tooManyRequests
  | redirect (token : List UInt8) (payload : Payload) (cleanedPath : List UInt8)
  | forward (route : String) (r : Request)
  deriving DecidableEq, Repr

/-- `extractTokenFromRequest`. -/
def extractTokenFromRequest (r : Request) : List UInt8 × List UInt8 :=
  if queryGet r.rawQuery tokenParameter ≠ [] then (queryGet r.rawQuery tokenParameter, r.path)
  else ([], if r.path.isEmpty then utf8 "/" else r.path)

/-- `cleanProxyCookies`. -/
def cleanProxyCookies (r : Request) : Request :=
  { r with cookieLines :=
      addCookies ((readCookies r.cookieLines).filter (·.name ≠ challengeCookieName)) }

/-- The value of the first gateway cookie that can be read. -/
def cookieToken (r : Request) : List UInt8 :=
  ((readCookies r.cookieLines).find? (·.name = challengeCookieName)).elim [] (·.value)

/-- `httpGatewayHandler`. `allows` is the rate limit's answer for a token. -/
def httpGatewayHandler (secret : String) (now : ℤ) (allows : List UInt8 → Bool) (r : Request) :
    Outcome :=
  let (tok, cleanedPath) := extractTokenFromRequest r
  if tok ≠ [] then
    match verify secret now tok with
    | .error err => .invalidToken err
    | .ok payload => if allows tok then .redirect tok payload cleanedPath else .tooManyRequests
  else
    let tok := cookieToken r
    if tok = [] then .missingToken
    else
      match verify secret now tok with
      | .error err => .invalidToken err
      | .ok payload =>
          if allows tok then .forward payload.route (cleanProxyCookies r) else .tooManyRequests

/-! ### What is promised -/

/-- A token of the gateway: at some time it is accepted. -/
def IsToken (secret : String) (value : List UInt8) : Prop :=
  ∃ now payload, verify secret now value = .ok payload

/-- **Nothing but the token is taken**, and the token is. -/
structure StripsOnly (secret : String) (r r' : Request) : Prop where
  /-- The gateway's cookie is gone. -/
  noCookie : ∀ p ∈ rawPairs r'.cookieLines, pairName p ≠ challengeCookieName
  /-- No parameter holds a token. -/
  noParameter : ∀ value ∈ queryValues r'.rawQuery tokenParameter, ¬IsToken secret value
  /-- The other cookies are as they were, and in their order. -/
  cookies : rawPairs r'.cookieLines =
    (rawPairs r.cookieLines).filter (pairName · ≠ challengeCookieName)
  /-- The other parameters are as they were, and in their order. -/
  parameters : (r'.rawQuery.splitOn 0x26).filter
      (fun setting => (readSetting setting).all (·.1 ≠ tokenParameter)) =
    (r.rawQuery.splitOn 0x26).filter
      fun setting => (readSetting setting).all (·.1 ≠ tokenParameter)

/-- A character that makes a value be put into quotes. -/
def isSeparator (b : UInt8) : Bool := b = 0x20 || b = 0x2C

/-- A value without a space or a comma. -/
def plainValue (value : List UInt8) : Bool :=
  value.all validCookieValueByte && !value.any isSeparator

/-- A value in quotes that has one. -/
def quotedValue (value : List UInt8) : Bool :=
  1 < value.length && value.head? = some 0x22 && value.getLast? = some 0x22 &&
    value.tail.dropLast.all validCookieValueByte && value.tail.dropLast.any isSeparator

/-- A pair that is written as it is read: a name, `=`, and a value in quotes exactly if it has a
space or a comma. -/
def plainPair (p : List UInt8) : Bool :=
  p.contains 0x3D && isCookieNameValid (cut 0x3D p).1 &&
    (plainValue (cut 0x3D p).2 || quotedValue (cut 0x3D p).2)

/-! ### A pair, read and written -/

section Pair

variable {b : UInt8} {name value p : List UInt8}

theorem cut_append {sep : UInt8} (h : sep ∉ name) :
    cut sep (name ++ sep :: value) = (name, value) := by
  have hname : ∀ b ∈ name, decide (b ≠ sep) = true := by
    intro b hb
    exact decide_eq_true fun heq => h (heq ▸ hb)
  rw [cut, List.takeWhile_append_of_pos hname, List.dropWhile_append_of_pos hname]
  simp

theorem eq_append_of_cut {sep : UInt8} {s : List UInt8} (h : s.contains sep = true) :
    s = (cut sep s).1 ++ sep :: (cut sep s).2 := by
  obtain ⟨l, l', rfl, hl⟩ := List.eq_append_cons_of_mem (List.contains_iff_mem.mp h)
  rw [cut_append hl]

theorem isAsciiSpace_iff : isAsciiSpace b = true ↔ b = 0x20 ∨ b = 0x09 ∨ b = 0x0A ∨ b = 0x0D := by
  simp [isAsciiSpace, or_assoc]

/-- No byte of a name is a space. -/
theorem isAsciiSpace_of_isTokenByte (h : isTokenByte b = true) : isAsciiSpace b = false := by
  refine Bool.eq_false_iff.mpr fun hspace => ?_
  rcases isAsciiSpace_iff.mp hspace with rfl | rfl | rfl | rfl <;> exact absurd h (by decide)

/-- No byte of a name is a `=`. -/
theorem ne_of_isTokenByte (h : isTokenByte b = true) : b ≠ 0x3D := by
  rintro rfl
  exact absurd h (by decide)

/-- Of the spaces, only the space itself is in a value. -/
theorem isAsciiSpace_of_valid (h : validCookieValueByte b = true) (hsep : isSeparator b = false) :
    isAsciiSpace b = false := by
  refine Bool.eq_false_iff.mpr fun hspace => ?_
  rcases isAsciiSpace_iff.mp hspace with rfl | rfl | rfl | rfl
  · exact absurd hsep (by decide)
  all_goals exact absurd h (by decide)

theorem isCookieNameValid_iff :
    isCookieNameValid name = true ↔ name ≠ [] ∧ ∀ b ∈ name, isTokenByte b = true := by
  simp [isCookieNameValid]

theorem notMem_name (h : isCookieNameValid name = true) : (0x3D : UInt8) ∉ name :=
  fun hmem => ne_of_isTokenByte ((isCookieNameValid_iff.mp h).2 _ hmem) rfl

/-- What has no space at its ends is not trimmed. -/
theorem trimString_eq_self {s : List UInt8} (hhead : ∀ b ∈ s.head?, isAsciiSpace b = false)
    (hlast : ∀ b ∈ s.getLast?, isAsciiSpace b = false) : trimString s = s := by
  have hdrop : s.dropWhile isAsciiSpace = s := by
    cases s with
    | nil => rfl
    | cons b s => exact List.dropWhile_cons_of_neg (by simp [hhead b rfl])
  rw [trimString, hdrop, List.rdropWhile_eq_self_iff]
  intro hs
  simp [hlast _ (List.getLast?_eq_some_getLast hs)]

theorem trimString_name (h : isCookieNameValid name = true) : trimString name = name := by
  have hname := (isCookieNameValid_iff.mp h).2
  exact trimString_eq_self
    (fun b hb => isAsciiSpace_of_isTokenByte (hname b (List.mem_of_mem_head? hb)))
    (fun b hb => isAsciiSpace_of_isTokenByte (hname b (List.mem_of_getLast? hb)))

/-- A name is written as it is. -/
theorem sanitizeCookieName_eq_self (h : isCookieNameValid name = true) :
    sanitizeCookieName name = name := by
  rw [sanitizeCookieName]
  refine (List.map_congr_left fun b hb => ?_).trans (List.map_id name)
  have hspace := isAsciiSpace_of_isTokenByte ((isCookieNameValid_iff.mp h).2 b hb)
  refine if_neg fun hb => ?_
  rcases hb with rfl | rfl <;> exact absurd hspace (by decide)

/-- A value is put into quotes if it has a separator. -/
theorem sanitizeCookieValue_eq (h : value.all validCookieValueByte = true) :
    sanitizeCookieValue value =
      if value.any isSeparator then 0x22 :: (value ++ [0x22]) else value := by
  have hfilter : value.filter validCookieValueByte = value :=
    List.filter_eq_self.mpr (List.all_eq_true.mp h)
  rw [sanitizeCookieValue, hfilter]
  cases value with
  | nil => rfl
  | cons b value => rfl

theorem unquote_of_plainValue (h : value.all validCookieValueByte = true) :
    unquote value = value := by
  refine if_neg fun hquoted => ?_
  exact absurd (List.all_eq_true.mp h _ (List.mem_of_mem_head? hquoted.2.1)) (by decide)

theorem getLast?_quoted {inner : List UInt8} :
    (0x22 :: (inner ++ [0x22])).getLast? = some (0x22 : UInt8) := by
  rw [← List.cons_append, List.getLast?_concat]

theorem unquote_quoted : unquote (0x22 :: (value ++ [0x22])) = value := by
  have hlength : 1 < (0x22 :: (value ++ [0x22])).length := by simp
  rw [unquote, if_pos ⟨hlength, rfl, getLast?_quoted⟩, List.tail_cons, List.dropLast_concat]

/-- A value in quotes, taken apart. -/
theorem quotedValue_iff :
    quotedValue value = true ↔ ∃ inner, value = 0x22 :: (inner ++ [0x22]) ∧
      inner.all validCookieValueByte = true ∧ inner.any isSeparator = true := by
  constructor
  · intro h
    simp only [quotedValue, Bool.and_eq_true, decide_eq_true_eq] at h
    obtain ⟨⟨⟨⟨hlength, hhead⟩, hlast⟩, hvalid⟩, hany⟩ := h
    refine ⟨_, ?_, hvalid, hany⟩
    obtain ⟨rest, rfl⟩ := List.head?_eq_some_iff.mp hhead
    obtain ⟨inner, hinner⟩ := List.getLast?_eq_some_iff.mp hlast
    cases inner with
    | nil =>
        rw [hinner] at hlength
        exact absurd hlength (by decide)
    | cons b inner =>
        obtain ⟨rfl, hrest⟩ := List.cons.inj hinner
        rw [hrest, List.tail_cons, List.append_eq, List.dropLast_concat]
  · rintro ⟨inner, rfl, hvalid, hany⟩
    simp only [quotedValue, List.tail_cons, List.dropLast_concat, hvalid, hany, getLast?_quoted]
    simp

/-- **Which values are written as they are read.** -/
theorem parseCookieValue_sanitize :
    (parseCookieValue value).map sanitizeCookieValue = some value ↔
      plainValue value = true ∨ quotedValue value = true := by
  constructor
  · intro h
    obtain ⟨inner, hparse, hwrite⟩ := Option.map_eq_some_iff.mp h
    rw [parseCookieValue] at hparse
    split at hparse
    next hvalid =>
      obtain rfl := Option.some.inj hparse
      rw [sanitizeCookieValue_eq hvalid] at hwrite
      split at hwrite
      next hany => exact .inr (quotedValue_iff.mpr ⟨_, hwrite.symm, hvalid, hany⟩)
      next hany =>
        rw [hwrite] at hvalid hany
        exact .inl (by simp [plainValue, hvalid, hany])
    next => cases hparse
  · rintro (h | h)
    · simp only [plainValue, Bool.and_eq_true, Bool.not_eq_true'] at h
      have hunquote := unquote_of_plainValue h.1
      rw [parseCookieValue, hunquote, if_pos h.1, Option.map_some, sanitizeCookieValue_eq h.1,
        if_neg (Bool.eq_false_iff.mp h.2)]
    · obtain ⟨inner, rfl, hvalid, hany⟩ := quotedValue_iff.mp h
      rw [parseCookieValue, unquote_quoted, if_pos hvalid, Option.map_some,
        sanitizeCookieValue_eq hvalid, if_pos hany]

/-- **Which pairs are written as they are read.** -/
theorem readPair_write : (readPair p).map writeCookie = some p ↔ plainPair p = true := by
  simp only [plainPair, Bool.and_eq_true, Bool.or_eq_true, ← parseCookieValue_sanitize]
  constructor
  · intro h
    obtain ⟨c, hread, hwrite⟩ := Option.map_eq_some_iff.mp h
    rw [readPair] at hread
    split at hread
    next hname =>
      obtain ⟨value, hparse, rfl⟩ := Option.map_eq_some_iff.mp hread
      rw [writeCookie, sanitizeCookieName_eq_self hname] at hwrite
      have hcut : cut 0x3D p = (pairName p, sanitizeCookieValue value) := by
        conv_lhs => rw [← hwrite]
        exact cut_append (notMem_name hname)
      refine ⟨⟨?_, ?_⟩, ?_⟩
      · rw [← hwrite]
        simp
      · rw [hcut]
        exact hname
      · rw [hparse, hcut]
        rfl
    next => cases hread
  · rintro ⟨⟨hequal, hname⟩, hvalue⟩
    obtain ⟨value, hparse, hwrite⟩ := Option.map_eq_some_iff.mp hvalue
    have hpair : pairName p = (cut 0x3D p).1 := trimString_name hname
    rw [readPair, hpair, if_pos hname, hparse, Option.map_some, Option.map_some, writeCookie,
      sanitizeCookieName_eq_self hname, hwrite]
    exact congrArg some (eq_append_of_cut hequal).symm

end Pair

/-! ### The header, written and read -/

/-- A part of a header, as it is read. -/
structure IsPart (w : List UInt8) : Prop where
  ne_nil : w ≠ []
  head : ∀ b ∈ w.head?, isAsciiSpace b = false
  last : ∀ b ∈ w.getLast?, isAsciiSpace b = false
  noSemicolon : 0x3B ∉ w

section Header

variable {p w : List UInt8} {ws : List (List UInt8)} {c : Cookie}

/-- A cookie that is read has a name, and a value of valid bytes. -/
theorem readPair_some (h : readPair p = some c) :
    isCookieNameValid c.name = true ∧ c.value.all validCookieValueByte = true ∧
      c.name = pairName p := by
  rw [readPair] at h
  split at h
  next hname =>
    obtain ⟨value, hparse, rfl⟩ := Option.map_eq_some_iff.mp h
    rw [parseCookieValue] at hparse
    split at hparse
    next hvalid =>
      obtain rfl := Option.some.inj hparse
      exact ⟨hname, hvalid, rfl⟩
    next => cases hparse
  next => cases h

theorem IsPart.trim (h : IsPart w) : trimString w = w := trimString_eq_self h.head h.last

theorem IsPart.trim_space (h : IsPart w) : trimString (0x20 :: w) = w := by
  rw [trimString, List.dropWhile_cons_of_pos (by decide)]
  exact h.trim

/-- A value, as it is written, does not end in a space, and has no semicolon. -/
theorem sanitizeCookieValue_props {value : List UInt8}
    (h : value.all validCookieValueByte = true) :
    (∀ b ∈ (sanitizeCookieValue value).getLast?, isAsciiSpace b = false) ∧
      0x3B ∉ sanitizeCookieValue value := by
  have hvalid := List.all_eq_true.mp h
  have hsemi : (0x3B : UInt8) ∉ value := fun hmem => absurd (hvalid _ hmem) (by decide)
  rw [sanitizeCookieValue_eq h]
  split
  next =>
    refine ⟨fun b hb => ?_, ?_⟩
    · rw [getLast?_quoted, Option.mem_some_iff] at hb
      rw [← hb]
      decide
    · simp [hsemi]
  next hany =>
    refine ⟨fun b hb => ?_, hsemi⟩
    have hmem := List.mem_of_getLast? hb
    refine isAsciiSpace_of_valid (hvalid b hmem) (Bool.eq_false_iff.mpr fun hsep => hany ?_)
    exact List.any_eq_true.mpr ⟨b, hmem, hsep⟩

/-- A cookie that was read is written as a part of a header. -/
theorem isPart_writeCookie (h : readPair p = some c) : IsPart (writeCookie c) := by
  obtain ⟨hname, hvalue, -⟩ := readPair_some h
  obtain ⟨hne, htoken⟩ := isCookieNameValid_iff.mp hname
  obtain ⟨hlast, hsemi⟩ := sanitizeCookieValue_props hvalue
  rw [writeCookie, sanitizeCookieName_eq_self hname]
  refine ⟨by simp, fun b hb => ?_, fun b hb => ?_, fun hmem => ?_⟩
  · rw [List.head?_append_of_ne_nil _ hne] at hb
    exact isAsciiSpace_of_isTokenByte (htoken b (List.mem_of_mem_head? hb))
  · rw [List.getLast?_append_cons] at hb
    cases hv : sanitizeCookieValue c.value with
    | nil =>
        rw [hv] at hb
        obtain rfl : 0x3D = b := Option.some.inj hb
        decide
    | cons b' value =>
        rw [hv, List.getLast?_cons_cons, ← hv] at hb
        exact hlast b hb
  · rcases List.mem_append.mp hmem with hmem | hmem
    · exact absurd (htoken _ hmem) (by decide)
    · rcases List.mem_cons.mp hmem with heq | hmem
      · exact absurd heq (by decide)
      · exact hsemi hmem

/-- The pairs of a header, the first one aside. -/
def joinPairs (ws : List (List UInt8)) : List UInt8 := ws.flatMap fun p => [0x3B, 0x20] ++ p

/-- A header, split into its pairs. -/
theorem splitOn_joinPairs (hw : 0x3B ∉ w) (hws : ∀ w' ∈ ws, IsPart w') :
    (w ++ joinPairs ws).splitOn 0x3B = w :: ws.map (0x20 :: ·) := by
  induction ws generalizing w with
  | nil => rw [joinPairs, List.flatMap_nil, List.append_nil, List.map_nil,
      List.splitOn_eq_singleton hw]
  | cons w' ws ih =>
      rw [List.forall_mem_cons] at hws
      have hjoin : w ++ joinPairs (w' :: ws) = w ++ 0x3B :: (0x20 :: w' ++ joinPairs ws) := by
        simp [joinPairs]
      have hw' : 0x3B ∉ (0x20 :: w' : List UInt8) := by simp [hws.1.noSemicolon]
      rw [hjoin, List.splitOn_append_cons_self, List.splitOn_eq_singleton hw, ih hw' hws.2]
      rfl

/-- The last byte of a header is that of a pair. -/
theorem getLast?_joinPairs (hw : IsPart w) (hws : ∀ w' ∈ ws, IsPart w') :
    ∀ b ∈ (w ++ joinPairs ws).getLast?, isAsciiSpace b = false := by
  induction ws generalizing w with
  | nil =>
      rw [joinPairs, List.flatMap_nil, List.append_nil]
      exact hw.last
  | cons w' ws ih =>
      rw [List.forall_mem_cons] at hws
      have hne : w' ++ joinPairs ws ≠ [] := List.append_ne_nil_of_left_ne_nil hws.1.ne_nil _
      have hjoin : w ++ joinPairs (w' :: ws) = (w ++ [0x3B, 0x20]) ++ (w' ++ joinPairs ws) := by
        simp [joinPairs]
      rw [hjoin, List.getLast?_append_of_ne_nil _ hne]
      exact ih hws.1 hws.2

/-- **A header that was written is read back.** -/
theorem rawPairs_addCookies {cookies : List Cookie}
    (h : ∀ c ∈ cookies, IsPart (writeCookie c)) :
    rawPairs (addCookies cookies) = cookies.map writeCookie := by
  cases cookies with
  | nil => rfl
  | cons c cookies =>
      rw [List.forall_mem_cons] at h
      obtain ⟨hc, hcookies⟩ := h
      have hws : ∀ w ∈ cookies.map writeCookie, IsPart w := by
        intro w hw
        obtain ⟨c', hc', rfl⟩ := List.mem_map.mp hw
        exact hcookies c' hc'
      have htrim : trimString (writeCookie c ++ joinPairs (cookies.map writeCookie)) =
          writeCookie c ++ joinPairs (cookies.map writeCookie) := by
        refine trimString_eq_self ?_ (getLast?_joinPairs hc hws)
        rw [List.head?_append_of_ne_nil _ hc.ne_nil]
        exact hc.head
      have hparts : ((cookies.map writeCookie).map (0x20 :: ·)).map trimString =
          cookies.map writeCookie := by
        rw [List.map_map]
        exact (List.map_congr_left fun w hw => (hws w hw).trim_space).trans (List.map_id _)
      have hkeep : ∀ w ∈ writeCookie c :: cookies.map writeCookie, (!w.isEmpty) = true := by
        intro w hw
        rcases List.mem_cons.mp hw with rfl | hw
        · simp [hc.ne_nil]
        · simp [(hws w hw).ne_nil]
      change ((List.map trimString ((trimString (writeCookie c ++
        joinPairs (cookies.map writeCookie))).splitOn 0x3B)).filter (!·.isEmpty)) ++ [] = _
      rw [htrim, splitOn_joinPairs hc.noSemicolon hws, List.map_cons, hc.trim, hparts,
        List.append_nil, List.filter_eq_self.mpr hkeep, List.map_cons]

end Header

/-! ### What is forwarded -/

section Forward

variable {secret : String} {now : ℤ} {allows : List UInt8 → Bool} {r r' : Request}
  {route : String}

/-- A map that may fail gives back a list if it gives back every entry. -/
theorem filterMap_eq_self_iff {α : Type} {f : α → Option α} {l : List α} :
    l.filterMap f = l ↔ ∀ a ∈ l, f a = some a := by
  induction l with
  | nil => simp
  | cons a l ih =>
      rw [List.forall_mem_cons, ← ih]
      cases hfa : f a with
      | none =>
          rw [List.filterMap_cons_none hfa]
          refine iff_of_false (fun heq => ?_) (by simp)
          have hlength := List.length_filterMap_le f l
          rw [heq, List.length_cons] at hlength
          omega
      | some b => rw [List.filterMap_cons_some hfa, List.cons.injEq, Option.some.injEq]

/-- What is kept can be told before the map. -/
theorem filter_filterMap {α β : Type} {f : α → Option β} {keep : β → Bool} (keep' : α → Bool)
    (h : ∀ a b, f a = some b → keep b = keep' a) (l : List α) :
    (l.filterMap f).filter keep = (l.filter keep').filterMap f := by
  induction l with
  | nil => rfl
  | cons a l ih =>
      cases hfa : f a with
      | none =>
          rw [List.filterMap_cons_none hfa, ih, List.filter_cons]
          split
          next => rw [List.filterMap_cons_none hfa]
          next => rfl
      | some b =>
          rw [List.filterMap_cons_some hfa, List.filter_cons, List.filter_cons, h a b hfa, ih]
          split
          next => rw [List.filterMap_cons_some hfa]
          next => rfl

/-- The cookies of a request that is cleaned, as pairs. -/
theorem rawPairs_cleanProxyCookies :
    rawPairs (cleanProxyCookies r).cookieLines =
      ((rawPairs r.cookieLines).filter (pairName · ≠ challengeCookieName)).filterMap
        fun p => (readPair p).map writeCookie := by
  have hpart : ∀ c ∈ (readCookies r.cookieLines).filter (·.name ≠ challengeCookieName),
      IsPart (writeCookie c) := by
    intro c hc
    obtain ⟨p, -, hread⟩ := List.mem_filterMap.mp (List.mem_of_mem_filter hc)
    exact isPart_writeCookie hread
  rw [cleanProxyCookies, rawPairs_addCookies hpart, readCookies,
    filter_filterMap (pairName · ≠ challengeCookieName) fun p c hread => by
      rw [(readPair_some hread).2.2], List.map_filterMap]

/-- The name of a cookie that is written is read again. -/
theorem pairName_writeCookie {p : List UInt8} {c : Cookie} (h : readPair p = some c) :
    pairName (writeCookie c) = c.name := by
  obtain ⟨hname, -, -⟩ := readPair_some h
  rw [writeCookie, sanitizeCookieName_eq_self hname, pairName, cut_append (notMem_name hname),
    trimString_name hname]

/-- The gateway's cookie is not forwarded. -/
theorem noCookie_cleanProxyCookies :
    ∀ p ∈ rawPairs (cleanProxyCookies r).cookieLines, pairName p ≠ challengeCookieName := by
  intro p hp
  rw [rawPairs_cleanProxyCookies] at hp
  obtain ⟨p', hp', hwrite⟩ := List.mem_filterMap.mp hp
  obtain ⟨c, hread, rfl⟩ := Option.map_eq_some_iff.mp hwrite
  rw [pairName_writeCookie hread, (readPair_some hread).2.2]
  exact of_decide_eq_true (List.mem_filter.mp hp').2

/-- A request is forwarded if no token is seen in its query, with its cookies put together
anew. -/
theorem eq_of_forward (h : httpGatewayHandler secret now allows r = .forward route r') :
    r' = cleanProxyCookies r ∧ queryGet r.rawQuery tokenParameter = [] := by
  rw [httpGatewayHandler, extractTokenFromRequest] at h
  by_cases hquery : queryGet r.rawQuery tokenParameter = []
  · rw [if_neg (not_not_intro hquery)] at h
    simp only [ne_eq, not_true_eq_false, if_false] at h
    split at h
    next => cases h
    next =>
      split at h
      next => cases h
      next =>
        split at h
        next =>
          cases h
          exact ⟨rfl, hquery⟩
        next => cases h
  · rw [if_pos hquery] at h
    simp only [ne_eq, hquery, not_false_eq_true, if_true] at h
    split at h
    next => cases h
    next => split at h <;> cases h

/-- The empty text is no token. -/
theorem not_isToken_nil : ¬IsToken secret [] := by
  rintro ⟨now, payload, h⟩
  obtain ⟨_, _, hsplit, -⟩ := verify_eq_ok_iff.mp h
  cases hsplit

/-- **When nothing but the token is taken from a request**: if no parameter after the first holds a
token, and every other cookie is written as it is read. -/
theorem stripsOnly_iff (h : httpGatewayHandler secret now allows r = .forward route r') :
    StripsOnly secret r r' ↔
      (∀ value ∈ (queryValues r.rawQuery tokenParameter).tail, ¬IsToken secret value) ∧
        ∀ p ∈ rawPairs r.cookieLines, pairName p ≠ challengeCookieName → plainPair p = true := by
  obtain ⟨rfl, hfirst⟩ := eq_of_forward h
  have hquery : (∀ value ∈ queryValues r.rawQuery tokenParameter, ¬IsToken secret value) ↔
      ∀ value ∈ (queryValues r.rawQuery tokenParameter).tail, ¬IsToken secret value := by
    rw [queryGet] at hfirst
    cases hvalues : queryValues r.rawQuery tokenParameter with
    | nil => rfl
    | cons value values =>
        rw [hvalues] at hfirst
        obtain rfl : value = [] := hfirst
        rw [List.forall_mem_cons, List.tail_cons, and_iff_right not_isToken_nil]
  have hcookies : rawPairs (cleanProxyCookies r).cookieLines =
        (rawPairs r.cookieLines).filter (pairName · ≠ challengeCookieName) ↔
      ∀ p ∈ rawPairs r.cookieLines, pairName p ≠ challengeCookieName → plainPair p = true := by
    rw [rawPairs_cleanProxyCookies, filterMap_eq_self_iff]
    simp only [List.mem_filter, decide_eq_true_eq, readPair_write, and_imp]
  rw [← hquery, ← hcookies]
  exact ⟨fun hstrips => ⟨hstrips.noParameter, hstrips.cookies⟩,
    fun ⟨hparameter, hcookie⟩ => ⟨noCookie_cleanProxyCookies, hparameter, hcookie, rfl⟩⟩

/-- A cookie header with a token. -/
def tokenCookie : List UInt8 := utf8 "FCTF_Auth_Token=" ++ issued

/-- A request with its token in a cookie. -/
def plainRequest : Request := ⟨[tokenCookie ++ utf8 "; a=b"], utf8 "x=1&fctftoken=", utf8 "/"⟩

/-- The same token in the query too, behind an empty one. -/
def doubledRequest : Request :=
  ⟨[tokenCookie], utf8 "fctftoken=&fctftoken=" ++ issued, utf8 "/"⟩

/-- A cookie that holds JSON. -/
def jsonRequest : Request :=
  ⟨[tokenCookie ++ utf8 "; prefs=\x7b\"x\":1\x7d"], [], utf8 "/"⟩

theorem stripsOnly_plainRequest :
    StripsOnly "k" plainRequest (cleanProxyCookies plainRequest) ↔
      (∀ value ∈ (queryValues plainRequest.rawQuery tokenParameter).tail, ¬IsToken "k" value) ∧
        ∀ p ∈ rawPairs plainRequest.cookieLines,
          pairName p ≠ challengeCookieName → plainPair p = true :=
  @stripsOnly_iff "k" 9 (fun _ => true) plainRequest _ "r" (by decide +kernel)

theorem not_stripsOnly :
    httpGatewayHandler "k" 9 (fun _ => true) doubledRequest =
        .forward "r" (cleanProxyCookies doubledRequest) ∧
      ¬StripsOnly "k" doubledRequest (cleanProxyCookies doubledRequest) ∧
      httpGatewayHandler "k" 9 (fun _ => true) jsonRequest =
        .forward "r" (cleanProxyCookies jsonRequest) ∧
      ¬StripsOnly "k" jsonRequest (cleanProxyCookies jsonRequest) := by
  refine ⟨by decide +kernel, fun h => ?_, by decide +kernel, fun h => ?_⟩
  · exact h.noParameter issued (by decide +kernel) ⟨9, _, verify_issued⟩
  · exact absurd h.cookies (by decide +kernel)

end Forward

end Fctf.Gateway
