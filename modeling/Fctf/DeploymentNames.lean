import Fctf.RouteNames

/-!
# Names of Deployments

`GetDeploymentAppName` writes the team, the contest and the challenge of a deployment into its
name, with a text and a date behind them; the name is a Kubernetes namespace.
`ParseDeploymentAppName` reads the numbers back.

The numbers come back whatever the text is. The text is cleared of marks and of what is no letter
and no digit, but not of letters outside of ASCII that have no decomposition, and it is not cut.

## Main results

* `deploymentName_roundTrip`: the numbers are read back, so deployments with other numbers have
  other names.
* `legalName_iff`: when a name is a legal one.
* `not_legalName`: a name that is not.
-/

namespace Fctf

/-! ### Numbers in names -/

theorem digitsValue_eq (cs : List Char) : digitsValue cs = (Nat.ofDigitChars 10 cs 0 : ℕ) := by
  have hloop : ∀ (cs : List Char) (n : ℕ),
      cs.foldl (fun (n : ℤ) c => 10 * n + (c.toNat - '0'.toNat : ℕ)) (n : ℤ) =
        (Nat.ofDigitChars 10 cs n : ℕ) := by
    intro cs
    induction cs with
    | nil => exact fun n => rfl
    | cons c cs ih =>
        intro n
        rw [List.foldl_cons, Nat.ofDigitChars_cons, ← ih]
        push_cast
        rfl
  exact hloop cs 0

/-- Digits are no white space. -/
theorem isWhitespace_of_isDigit {c : Char} (h : c.isDigit = true) : c.isWhitespace = false := by
  have hne : ∀ b ∈ [' ', '\t', '\r', '\n'], c ≠ b := by
    intro b hb heq
    subst heq
    simp only [List.mem_cons, List.not_mem_nil, or_false] at hb
    rcases hb with rfl | rfl | rfl | rfl <;> cases h
  simp only [List.mem_cons, List.not_mem_nil, or_false, forall_eq_or_imp, forall_eq] at hne
  simp [Char.isWhitespace, hne]

theorem tryParseInt_toDigits {n : ℕ} (h : n < 2 ^ 31) :
    tryParseInt (Nat.toDigits 10 n) = some (n : ℤ) := by
  have hdigit : ∀ c ∈ Nat.toDigits 10 n, c.isDigit = true := fun c => Json.isDigit_of_mem
  have hblank : ∀ l : List Char, (∀ c ∈ l, c.isDigit = true) →
      l.dropWhile Char.isWhitespace = l := by
    intro l hl
    cases l with
    | nil => rfl
    | cons c l =>
        rw [List.dropWhile_cons_of_neg]
        simp [isWhitespace_of_isDigit (hl c List.mem_cons_self)]
  have hback : ∀ c ∈ (Nat.toDigits 10 n).reverse, c.isDigit = true := fun c hc =>
    hdigit c (List.mem_reverse.mp hc)
  have hvalue : digitsValue (Nat.toDigits 10 n) = n := by
    rw [digitsValue_eq, Nat.ofDigitChars_ten_toDigits]
  have hall : (Nat.toDigits 10 n).all Char.isDigit = true := List.all_eq_true.mpr hdigit
  obtain ⟨c, l, hl⟩ := List.exists_cons_of_ne_nil (Nat.toDigits_ne_nil (n := n) (b := 10))
  have hc : c.isDigit = true := hdigit c (hl ▸ List.mem_cons_self)
  have hminus : c ≠ '-' := by
    rintro rfl
    cases hc
  have hplus : c ≠ '+' := by
    rintro rfl
    cases hc
  unfold tryParseInt
  rw [hblank _ hdigit, hblank _ hback, List.reverse_reverse]
  rw [hl] at hall hvalue ⊢
  dsimp only
  split
  · next heq => exact absurd (List.cons.inj heq).1 hminus
  · next heq => exact absurd (List.cons.inj heq).1 hplus
  · rw [if_neg (by rw [hall]; simp), one_mul, hvalue, if_pos (by omega)]

/-- **A number in a name** is read back. -/
theorem tryParseInt_repr {n : ℤ} (h : 0 ≤ n ∧ n < 2 ^ 31) : tryParseInt n.repr.toList = some n := by
  rw [Int.repr_eq_if, if_pos h.1, Nat.toList_repr, tryParseInt_toDigits (by omega),
    Int.toNat_of_nonneg h.1]

theorem repr_ne_nil (n : ℤ) : n.repr.toList ≠ [] := by
  obtain ⟨l, d, hl, -⟩ := Gateway.exists_repr_concat n
  simp [hl]

/-! ### The round trip -/

/-- Numbers of a deployment: the team is one, or a marker. -/
structure DeploymentName.Valid (n : DeploymentName) : Prop where
  team : 0 < n.teamId ∧ n.teamId < 2 ^ 31 ∨ n.teamId = -1 ∨ n.teamId = -2
  contest : 0 ≤ n.contestId ∧ n.contestId < 2 ^ 31
  challenge : 0 ≤ n.contestChallengeId ∧ n.contestChallengeId < 2 ^ 31

/-- The name of a deployment. -/
def DeploymentName.appName (n : DeploymentName) (parseAlphaNumeric : String → String)
    (challengeName : String) (date : ℤ) : String :=
  getDeploymentAppName parseAlphaNumeric n.teamId n.contestId n.contestChallengeId challengeName
    date

theorem teamPart_of_valid {n : DeploymentName} (h : n.Valid) :
    '-' ∉ Gateway.teamPart n.teamId ∧ Gateway.teamPart n.teamId ≠ [] := by
  rcases h.team with hteam | hteam | hteam
  · rw [Gateway.teamPart, if_neg (by omega), if_neg (by omega)]
    exact ⟨Gateway.dash_notMem_repr hteam.1.le, repr_ne_nil _⟩
  · rw [hteam]
    decide
  · rw [hteam]
    decide

/-- The team that is read off. -/
theorem parse_teamPart {n : DeploymentName} (h : n.Valid) :
    ((if (Gateway.teamPart n.teamId).map Char.toLower = "shared".toList then some (-2)
      else tryParseInt (Gateway.teamPart n.teamId)).map fun t => if t = 0 then -1 else t) =
      some n.teamId := by
  rcases h.team with hteam | hteam | hteam
  · have hnot : (n.teamId.repr.toList).map Char.toLower ≠ "shared".toList := by
      intro heq
      obtain ⟨l, d, hl, hd⟩ := Gateway.exists_repr_concat n.teamId
      have hlast : d.toLower = 'd' := by
        have := congrArg List.getLast? heq
        rw [hl] at this
        simpa using this
      have hsame : d.toLower = d := by
        have := Gateway.kebabChar_of_isDigit hd
        rw [Gateway.kebabChar, if_neg (by rintro rfl; cases hd)] at this
        exact this
      rw [hsame] at hlast
      subst hlast
      cases hd
    have hpart : Gateway.teamPart n.teamId = n.teamId.repr.toList := by
      rw [Gateway.teamPart, if_neg (by omega), if_neg (by omega)]
    rw [hpart, if_neg hnot, tryParseInt_repr ⟨hteam.1.le, hteam.2⟩, Option.map_some,
      if_neg (by omega)]
  · rw [hteam]
    decide
  · rw [hteam]
    decide

theorem parseDeploymentAppName_appName {n : DeploymentName} (h : n.Valid)
    (parseAlphaNumeric : String → String) (challengeName : String) (date : ℤ) :
    parseDeploymentAppName (n.appName parseAlphaNumeric challengeName date) = some n := by
  obtain ⟨hdash, hne⟩ := teamPart_of_valid h
  have hteam := parse_teamPart h
  have hcontest := tryParseInt_repr h.contest
  have hchallenge := tryParseInt_repr h.challenge
  rw [parseDeploymentAppName, DeploymentName.appName, Gateway.toList_getDeploymentAppName,
    List.splitOn_append_cons_self_of_not_mem (by decide),
    List.splitOn_append_cons_self_of_not_mem hdash,
    List.splitOn_append_cons_self_of_not_mem (Gateway.dash_notMem_repr h.contest.1),
    List.splitOn_append_cons_self_of_not_mem (Gateway.dash_notMem_repr h.challenge.1)]
  rw [List.filter_cons_of_pos (by decide), List.filter_cons_of_pos (by simpa using hne),
    List.filter_cons_of_pos (by simpa using repr_ne_nil _),
    List.filter_cons_of_pos (by simpa using repr_ne_nil _)]
  dsimp only
  rw [if_neg (by decide)]
  have hrest : ∀ team : Option ℤ, team.map (fun t => if t = 0 then -1 else t) = some n.teamId →
      (do
        let teamId ← team
        let contestId ← tryParseInt n.contestId.repr.toList
        let contestChallengeId ← tryParseInt n.contestChallengeId.repr.toList
        pure (⟨if teamId = 0 then -1 else teamId, contestId, contestChallengeId⟩ :
          DeploymentName)) = some n := by
    intro team hread
    obtain ⟨teamId, rfl, heq⟩ := Option.map_eq_some_iff.mp hread
    simp [hcontest, hchallenge, heq]
  split at hteam
  · next hshared =>
      rw [if_pos hshared]
      exact hrest _ hteam
  · next hshared =>
      rw [if_neg hshared]
      exact hrest _ hteam

/-- **The numbers are read back**, so deployments with other numbers have other names. -/
theorem deploymentName_roundTrip (parseAlphaNumeric : String → String) (n : DeploymentName)
    (h : n.Valid) (challengeName : String) (date : ℤ) :
    parseDeploymentAppName (n.appName parseAlphaNumeric challengeName date) = some n ∧
      ∀ n' : DeploymentName, n'.Valid → ∀ (challengeName' : String) (date' : ℤ),
        n.appName parseAlphaNumeric challengeName date =
          n'.appName parseAlphaNumeric challengeName' date' → n = n' := by
  have hread := parseDeploymentAppName_appName h parseAlphaNumeric challengeName date
  refine ⟨hread, fun n' h' challengeName' date' heq => ?_⟩
  rw [heq, parseDeploymentAppName_appName h'] at hread
  exact (Option.some.inj hread).symm

/-- The shared deployment of challenge 7 in contest 1, with a name that looks like numbers. -/
theorem deploymentName_roundTrip_shared :
    parseDeploymentAppName
        (DeploymentName.appName ⟨-2, 1, 7⟩ Gateway.asciiData.parseAlphaNumeric "1-2 3" 1700000000) =
        some ⟨-2, 1, 7⟩ ∧
      ∀ n' : DeploymentName, n'.Valid → ∀ (challengeName' : String) (date' : ℤ),
        DeploymentName.appName ⟨-2, 1, 7⟩ Gateway.asciiData.parseAlphaNumeric "1-2 3" 1700000000 =
          n'.appName Gateway.asciiData.parseAlphaNumeric challengeName' date' → ⟨-2, 1, 7⟩ = n' :=
  deploymentName_roundTrip _ _ ⟨.inr (.inr rfl), by decide, by decide⟩ _ _

/-! ### Legal names -/

/-- A lower-case letter, a digit or a dash. -/
def isNameChar (c : Char) : Bool := c.isLower || c.isDigit || c = '-'

/-- A label, as Kubernetes asks for: at most 63 lower-case letters, digits and dashes, with a letter
or a digit at both ends. -/
structure LegalName (name : List Char) : Prop where
  chars : ∀ c ∈ name, isNameChar c = true
  first : ∃ c, name.head? = some c ∧ (c.isLower || c.isDigit) = true
  last : ∃ c, name.getLast? = some c ∧ (c.isLower || c.isDigit) = true
  length_le : name.length ≤ 63

/-- A character of seven bits. -/
def isAscii (c : Char) : Prop := c.toNat < 128

instance : DecidablePred isAscii := fun c => inferInstanceAs (Decidable (c.toNat < 128))

/-- The characters that are canonically equal to one of seven bits: the sign for kelvin, the Greek
question mark and the Greek varia. -/
def asciiSingletons : List Char := [Char.ofNat 0x212A, Char.ofNat 0x37E, Char.ofNat 0x1FEF]

namespace UnicodeData

/-- What the standard says about the characters of seven bits. -/
structure Documented (u : UnicodeData) : Prop where
  /-- Their letters and digits. -/
  isLetterOrDigit_ascii : ∀ c, isAscii c → u.isLetterOrDigit c = c.isAlphanum
  /-- Lowering leads from letters to letters. -/
  isLetterOrDigit_lower : ∀ c, u.isLetterOrDigit c = true →
    u.isLetterOrDigit (u.toLowerInvariant c) = true
  /-- A text of them is composed. -/
  formC_ascii : ∀ s, (∀ c ∈ s, isAscii c) → u.formC s = s
  /-- And it is composed from nothing else. -/
  ascii_of_formC : ∀ s, (∀ c ∈ u.formC s, isAscii c) → ∀ c ∈ s, isAscii c ∨ c ∈ asciiSingletons
  /-- The singletons are decomposed. -/
  notMem_formD : ∀ s, ∀ c ∈ u.formD s, c ∉ asciiSingletons
  /-- Nothing is lowered to a singleton. -/
  notMem_lower : ∀ c, u.toLowerInvariant c ∈ asciiSingletons → c ∈ asciiSingletons

/-- The letters, digits and spaces of a name that are no marks, decomposed. -/
def kept (u : UnicodeData) (input : String) : List Char :=
  if isNullOrWhiteSpace input then []
  else
    (u.formD input.toList).filter fun c =>
      !u.isNonSpacingMark c && (u.isLetterOrDigit c || isSpace c)

/-- What stands in a name for a character that is kept. -/
def keptChar (u : UnicodeData) (c : Char) : Char :=
  if u.isLetterOrDigit c then u.toLowerInvariant c else '-'

variable {u : UnicodeData}

theorem parseAlphaNumeric_eq (hu : u.Documented) (input : String) :
    (u.parseAlphaNumeric input).toList = u.formC ((u.kept input).map u.keptChar) := by
  have hfilter : ∀ s : List Char,
      (s.flatMap fun c =>
        if u.isNonSpacingMark c then []
        else if u.isLetterOrDigit c then [u.toLowerInvariant c]
        else if isSpace c then ['-']
        else []) =
      (s.filter fun c => !u.isNonSpacingMark c && (u.isLetterOrDigit c || isSpace c)).map
        u.keptChar := by
    intro s
    induction s with
    | nil => rfl
    | cons c s ih =>
        rw [List.flatMap_cons, ih, List.filter_cons]
        cases hmark : u.isNonSpacingMark c <;> cases hletter : u.isLetterOrDigit c <;>
          cases hspace : isSpace c <;> simp [keptChar, hletter]
  rw [parseAlphaNumeric, kept]
  split
  · rw [List.map_nil, hu.formC_ascii [] (fun c hc => absurd hc List.not_mem_nil)]
    rfl
  · rw [String.toList_ofList, hfilter]

/-- A name in ASCII is what was kept of it. -/
theorem keptChar_ne_singleton (hu : u.Documented) {input : String} {c : Char}
    (hc : c ∈ u.kept input) : u.keptChar c ∉ asciiSingletons := by
  have hdecomposed : c ∉ asciiSingletons := by
    rw [kept] at hc
    split at hc
    · cases hc
    · exact hu.notMem_formD _ c (List.mem_of_mem_filter hc)
  rw [keptChar]
  split
  · exact fun hmem => hdecomposed (hu.notMem_lower c hmem)
  · decide

theorem forall_isAscii_iff (hu : u.Documented) (input : String) :
    (∀ c ∈ (u.parseAlphaNumeric input).toList, isAscii c) ↔
      ∀ c ∈ u.kept input, isAscii (u.keptChar c) := by
  rw [parseAlphaNumeric_eq hu]
  constructor
  · intro hall c hc
    have hmem : u.keptChar c ∈ (u.kept input).map u.keptChar := List.mem_map_of_mem hc
    exact (hu.ascii_of_formC _ hall _ hmem).resolve_right (keptChar_ne_singleton hu hc)
  · intro hall
    have hascii : ∀ c ∈ (u.kept input).map u.keptChar, isAscii c :=
      List.forall_mem_map.mpr hall
    rwa [hu.formC_ascii _ hascii]

end UnicodeData

/-! ### Characters of names -/

theorem isAscii_of_isNameChar {c : Char} (h : isNameChar c = true) : isAscii c := by
  have hlt : ∀ {b : Char}, b.isLower = true ∨ b.isDigit = true → b.toNat < 128 := by
    intro b hb
    simp only [Char.isLower, Char.isDigit, Bool.and_eq_true, decide_eq_true_eq, ge_iff_le,
      UInt32.le_iff_toNat_le] at hb
    rcases hb with hb | hb
    · exact lt_of_le_of_lt hb.2 (by decide)
    · exact lt_of_le_of_lt hb.2 (by decide)
  simp only [isNameChar, Bool.or_eq_true, decide_eq_true_eq] at h
  rcases h with h | rfl
  · exact hlt h
  · decide

theorem isAscii_of_isAlphanum {c : Char} (h : c.isAlphanum = true) : isAscii c := by
  simp only [Char.isAlphanum, Char.isAlpha, Char.isUpper, Char.isLower, Char.isDigit,
    Bool.or_eq_true, Bool.and_eq_true, decide_eq_true_eq, ge_iff_le, UInt32.le_iff_toNat_le] at h
  rcases h with (h | h) | h
  · exact lt_of_le_of_lt h.2 (by decide)
  · exact lt_of_le_of_lt h.2 (by decide)
  · exact lt_of_le_of_lt h.2 (by decide)

/-- The characters of seven bits, one by one. -/
theorem forall_isAscii {P : Char → Prop} (h : ∀ k : Fin 128, P (Char.ofNat k)) {c : Char}
    (hc : isAscii c) : P c := by
  have hone : P (Char.ofNat c.toNat) := h ⟨c.toNat, hc⟩
  rwa [Char.ofNat_toNat] at hone

/-- Lowering concerns ASCII alone. -/
theorem isAscii_of_kebabChar {c : Char} (h : isAscii (Gateway.kebabChar c)) : isAscii c := by
  by_cases hupper : c.isUpper = true
  · simp only [Char.isUpper, decide_eq_true_eq, ge_iff_le, UInt32.le_iff_toNat_le] at hupper
    exact lt_of_le_of_lt hupper.2 (by decide)
  · by_cases hspace : c = ' '
    · subst hspace
      decide
    · rwa [Gateway.kebabChar_eq (Bool.eq_false_iff.mpr hupper) hspace] at h

theorem isNameChar_kebabChar {c : Char} (h : c.isAlphanum = true ∨ c = '-') :
    isNameChar (Gateway.kebabChar c) = true := by
  rcases h with h | rfl
  · have hall : ∀ k : Fin 128, (Char.ofNat k).isAlphanum = true →
        isNameChar (Gateway.kebabChar (Char.ofNat k)) = true := by decide
    exact forall_isAscii (P := fun c => c.isAlphanum = true →
      isNameChar (Gateway.kebabChar c) = true) hall (isAscii_of_isAlphanum h) h
  · decide

theorem isNameChar_of_isDigit {c : Char} (h : c.isDigit = true) : isNameChar c = true := by
  simp [isNameChar, h]

theorem isNameChar_repr (n : ℤ) : ∀ c ∈ n.repr.toList, isNameChar c = true := by
  intro c hc
  rcases mem_repr hc with h | rfl
  · exact isNameChar_of_isDigit h
  · decide

theorem isNameChar_teamPart (teamId : ℤ) : ∀ c ∈ Gateway.teamPart teamId, isNameChar c = true := by
  rw [Gateway.teamPart]
  split_ifs
  · exact List.all_eq_true.mp (by decide)
  · exact List.all_eq_true.mp (by decide)
  · exact isNameChar_repr teamId

/-- **Which texts may stand in a name**. -/
theorem forall_isNameChar_iff {u : UnicodeData} (hu : u.Documented) (input : String) :
    (∀ c ∈ (u.parseAlphaNumeric input).toList.map Gateway.kebabChar, isNameChar c = true) ↔
      ∀ c ∈ u.kept input, isAscii (u.keptChar c) := by
  rw [← u.forall_isAscii_iff hu, List.forall_mem_map]
  constructor
  · exact fun hall c hc => isAscii_of_kebabChar (isAscii_of_isNameChar (hall c hc))
  · intro hall c hc
    have hkept := (u.forall_isAscii_iff hu input).mp hall
    have hascii : ∀ b ∈ (u.kept input).map u.keptChar, isAscii b := List.forall_mem_map.mpr hkept
    rw [u.parseAlphaNumeric_eq hu, hu.formC_ascii _ hascii] at hc
    obtain ⟨b, hb, rfl⟩ := List.mem_map.mp hc
    refine isNameChar_kebabChar ?_
    have hchar := hkept b hb
    rw [UnicodeData.keptChar] at hchar ⊢
    split at hchar
    · next hletter =>
        rw [if_pos hletter]
        exact .inl (hu.isLetterOrDigit_ascii _ hchar ▸ hu.isLetterOrDigit_lower b hletter)
    · next hletter =>
        rw [if_neg hletter]
        exact .inr rfl

/-- **When a name is legal**: if the letters and digits of the text are ASCII when decomposed and
lowered, and the numbers leave room for what is kept of it. -/
theorem legalName_iff (u : UnicodeData) (hu : u.Documented)
    (teamId contestId contestChallengeId : ℤ) (challengeName : String) (date : ℤ) :
    LegalName (getDeploymentAppName u.parseAlphaNumeric teamId contestId contestChallengeId
        challengeName date).toList ↔
      (∀ c ∈ u.kept challengeName, isAscii (u.keptChar c)) ∧
        (Gateway.teamPart teamId).length + contestId.repr.toList.length +
            contestChallengeId.repr.toList.length + (u.kept challengeName).length +
            date.repr.toList.length ≤ 54 := by
  have hlist := Gateway.toList_getDeploymentAppName u.parseAlphaNumeric teamId contestId
    contestChallengeId challengeName date
  have hlength (h : ∀ c ∈ u.kept challengeName, isAscii (u.keptChar c)) :
      (u.parseAlphaNumeric challengeName).toList.length = (u.kept challengeName).length := by
    rw [u.parseAlphaNumeric_eq hu, hu.formC_ascii _ (List.forall_mem_map.mpr h), List.length_map]
  have hsize (h : ∀ c ∈ u.kept challengeName, isAscii (u.keptChar c)) :
      (getDeploymentAppName u.parseAlphaNumeric teamId contestId contestChallengeId
        challengeName date).toList.length =
        9 + ((Gateway.teamPart teamId).length + contestId.repr.toList.length +
          contestChallengeId.repr.toList.length + (u.kept challengeName).length +
          date.repr.toList.length) := by
    have hteam : "team".toList.length = 4 := rfl
    rw [hlist]
    simp only [List.length_append, List.length_cons, List.length_map, hlength h, hteam]
    omega
  constructor
  · intro hlegal
    have hascii := (forall_isNameChar_iff hu challengeName).mp fun c hc =>
      hlegal.chars c (by rw [hlist]; simp only [List.mem_append, List.mem_cons, hc]; simp)
    have hle := hlegal.length_le
    rw [hsize hascii] at hle
    exact ⟨hascii, by omega⟩
  · rintro ⟨hascii, hle⟩
    have hname := (forall_isNameChar_iff hu challengeName).mpr hascii
    obtain ⟨l, d, hdate, hd⟩ := Gateway.exists_repr_concat date
    refine ⟨?_, ⟨'t', by rw [hlist]; rfl, by decide⟩, ⟨d, ?_, by rw [hd, Bool.or_true]⟩, ?_⟩
    · have hteam : ∀ c ∈ "team".toList, isNameChar c = true := List.all_eq_true.mp (by decide)
      have hdash : isNameChar '-' = true := by decide
      rw [hlist]
      simp only [List.forall_mem_append, List.forall_mem_cons]
      exact ⟨hteam, hdash, isNameChar_teamPart teamId, hdash, isNameChar_repr contestId, hdash,
        isNameChar_repr contestChallengeId, hdash, hname, hdash, isNameChar_repr date⟩
    · rw [hlist, hdate]
      simp [List.getLast?_append, List.getLast?_cons]
    · rw [hsize hascii]
      omega

/-! ### A letter without a decomposition -/

/-- Unicode for names in ASCII and the Vietnamese `đ`. -/
def dStrokeData : UnicodeData where
  formD s := s.filter (· ∉ asciiSingletons)
  formC := id
  isNonSpacingMark _ := false
  isLetterOrDigit c := c.isAlphanum || c = 'đ'
  toLowerInvariant := Char.toLower
  isLetterOrDigit_eq_false c hc := by
    simp only [List.mem_cons, List.not_mem_nil, or_false] at hc
    rcases hc with rfl | rfl | rfl <;> rfl
  toLowerInvariant_mem _ := Gateway.toLower_mem
  mem_of_mem_formC _ _ h _ := h

theorem dStrokeData_documented : dStrokeData.Documented where
  isLetterOrDigit_ascii c hc := by
    have hstroke : c ≠ 'đ' := by
      rintro rfl
      revert hc
      decide
    simp [dStrokeData, hstroke]
  isLetterOrDigit_lower c hc := by
    have hall : ∀ k : Fin 128, (Char.ofNat k).isAlphanum = true →
        (Char.ofNat k).toLower.isAlphanum = true := by decide
    simp only [dStrokeData, Bool.or_eq_true, decide_eq_true_eq] at hc ⊢
    rcases hc with hc | rfl
    · exact .inl (forall_isAscii (P := fun c => c.isAlphanum = true → c.toLower.isAlphanum = true)
        hall (isAscii_of_isAlphanum hc) hc)
    · exact .inr (by decide)
  formC_ascii _ _ := rfl
  ascii_of_formC _ h c hc := .inl (h c hc)
  notMem_formD s c hc := by simpa using (List.mem_filter.mp hc).2
  notMem_lower c hc := by
    have hall : ∀ k : Fin 128, (Char.ofNat k).toLower ∉ asciiSingletons := by decide
    by_cases hascii : isAscii c
    · exact absurd hc (forall_isAscii (P := fun c => c.toLower ∉ asciiSingletons) hall hascii)
    · have hupper : c.isUpper = false := by
        rw [Bool.eq_false_iff]
        intro hupper
        exact hascii (isAscii_of_isAlphanum (by simp [Char.isAlphanum, Char.isAlpha, hupper]))
      have hspace : c ≠ ' ' := by
        rintro rfl
        exact hascii (by decide)
      have hsame := Gateway.kebabChar_eq hupper hspace
      rw [Gateway.kebabChar, if_neg hspace] at hsame
      exact hsame ▸ hc

/-- The name `Web`: fits. -/
theorem legalName_iff_web :
    LegalName (getDeploymentAppName dStrokeData.parseAlphaNumeric 7 1 5 "Web" 1700000000).toList ↔
      (∀ c ∈ dStrokeData.kept "Web", isAscii (dStrokeData.keptChar c)) ∧
        (Gateway.teamPart 7).length + (1 : ℤ).repr.toList.length + (5 : ℤ).repr.toList.length +
            (dStrokeData.kept "Web").length + (1700000000 : ℤ).repr.toList.length ≤ 54 :=
  legalName_iff dStrokeData dStrokeData_documented 7 1 5 "Web" 1700000000

/-- The name `đ`, of one letter that is no mark on another one. -/
theorem not_legalName :
    ¬LegalName
      (getDeploymentAppName dStrokeData.parseAlphaNumeric 7 1 5 "đ" 1700000000).toList := by
  intro h
  have hmem : 'đ' ∈ (getDeploymentAppName dStrokeData.parseAlphaNumeric 7 1 5 "đ"
      1700000000).toList := by
    have hname : 'đ' ∈ (dStrokeData.parseAlphaNumeric "đ").toList.map Gateway.kebabChar := by
      decide
    rw [Gateway.toList_getDeploymentAppName]
    simp only [List.mem_append, List.mem_cons, hname]
    simp
  exact absurd (h.chars 'đ' hmem) (by decide)

end Fctf
