import Fctf.ChallengeToken
import Fctf.K8sService
import Fctf.SecretKey

/-!
# Teams and Challenges of Routes

The gateway logs each connection under a team and a challenge that it reads off the route,
which is the name of the deployment: `team-{team}-{contest}-{challenge}-{name}-{date}`. It
takes the third part for the challenge, and that is the contest. The names of shared
deployments it cannot read.

## Main results

* `parse_expandRoute`: the full address says what the name says.
* `parse_appName`: what is read off a name.
* `attributed_iff`: when that is the team and the challenge.
* `not_attributed`: a connection that is logged under another challenge.
-/

namespace Fctf

/-! ### Names -/

/-- The Unicode data of the .NET runtime that names of challenges depend on, and as much as
is needed about the colon, the dot and the slash: they are no letters and no digits, and
neither lowering nor composing makes one. -/
structure UnicodeData where
  /-- `Normalize(FormD)`. -/
  formD : List Char → List Char
  /-- `Normalize(FormC)`. -/
  formC : List Char → List Char
  /-- Is the category `NonSpacingMark`? -/
  isNonSpacingMark : Char → Bool
  /-- `char.IsLetterOrDigit`. -/
  isLetterOrDigit : Char → Bool
  /-- `char.ToLowerInvariant`. -/
  toLowerInvariant : Char → Char
  /-- They are no letters and no digits. -/
  isLetterOrDigit_eq_false : ∀ c ∈ [':', '.', '/'], isLetterOrDigit c = false
  /-- No other character is lowered to one. -/
  toLowerInvariant_mem : ∀ c, toLowerInvariant c ∈ [':', '.', '/'] → toLowerInvariant c = c
  /-- None is made by composing. -/
  mem_of_mem_formC : ∀ s, ∀ c ∈ formC s, c ∈ [':', '.', '/'] → c ∈ s

/-- `ParseAlphaNumeric`. -/
def UnicodeData.parseAlphaNumeric (u : UnicodeData) (input : String) : String :=
  if isNullOrWhiteSpace input then ""
  else
    let kept := (u.formD input.toList).flatMap fun c =>
      if u.isNonSpacingMark c then []
      else if u.isLetterOrDigit c then [u.toLowerInvariant c]
      else if isSpace c then ['-']
      else []
    String.ofList (u.formC kept)

namespace Gateway

/-! ### The gateway -/

/-- A text up to its last `c`; nothing if there is none. -/
def beforeLast (c : Char) (l : List Char) : List Char := (l.rdropWhile (· ≠ c)).dropLast

/-- The host of `net.SplitHostPort`; `none` where it is an error. -/
def splitHostPort : List Char → Option (List Char)
  | '[' :: l =>
      let host := l.takeWhile (· ≠ ']')
      match l.drop host.length with
      | ']' :: ':' :: port =>
          if ':' ∈ port ∨ '[' ∈ l ∨ ']' ∈ port then none else some host
      | _ => none
  | l =>
      let host := beforeLast ':' l
      if ':' ∉ l ∨ ':' ∈ host ∨ '[' ∈ l ∨ ']' ∈ l then none else some host

/-- `strconv.Atoi`. -/
def atoi (l : List Char) : Option ℤ :=
  (signedValue l).filter fun n => -2 ^ 63 ≤ n ∧ n < 2 ^ 63

/-- `strings.TrimSpace`. -/
def trimSpace (l : List Char) : List Char := (l.dropWhile isSpace).rdropWhile isSpace

/-- `strings.TrimSuffix`. -/
def trimSuffix (suffix l : List Char) : List Char :=
  if suffix <:+ l then l.take (l.length - suffix.length) else l

/-- The name without its port. -/
def stripPort (name : List Char) : List Char :=
  match splitHostPort name with
  | some host => host
  | none => if beforeLast ':' name = [] then name else beforeLast ':' name

/-- The leftmost label of the name. -/
def leftmostLabel (name : List Char) : List Char :=
  if name.takeWhile (· ≠ '.') = [] then name else name.takeWhile (· ≠ '.')

/-- The team and the challenge of a name. -/
def parseName (name : List Char) : Option (ℤ × ℤ) :=
  match name.splitOn '-' with
  | head :: team :: challenge :: _ =>
      if head ≠ "team".toList then none
      else (atoi team).bind fun teamId => (atoi challenge).map fun challengeId =>
        (teamId, challengeId)
  | _ => none

/-- **`ParseTeamChallengeFromRoute`.** -/
def parseTeamChallengeFromRoute (routeOrHost : List Char) : Option (ℤ × ℤ) :=
  let name := trimSpace routeOrHost
  if name = [] then none
  else parseName (trimSuffix "-svc".toList (leftmostLabel (stripPort name)))

/-- `ExpandRoute`. -/
def expandRoute (route : List Char) : List Char :=
  if route = [] then route
  else if ':' ∈ route ∨ '.' ∈ route ∨ '/' ∈ route then route
  else route ++ "-svc.".toList ++ route ++ ".svc.cluster.local:3333".toList

/-! ### Reading a name -/

/-- The route of a deployment: a name in lower case that ends in a date. -/
structure IsName (name : List Char) : Prop where
  /-- It begins with a letter. -/
  head : ∃ l, name = 't' :: l
  /-- It ends in a digit. -/
  last : ∃ l d, name = l ++ [d] ∧ d.isDigit = true
  /-- It is no address. -/
  notMem : ':' ∉ name ∧ '.' ∉ name ∧ '/' ∉ name

variable {name : List Char}

theorem not_isSpace_of_isDigit {d : Char} (h : d.isDigit = true) : isSpace d = false := by
  simp only [Char.isDigit, Bool.and_eq_true, decide_eq_true_eq, ge_iff_le,
    UInt32.le_iff_toNat_le] at h
  have hlow : 48 ≤ d.toNat := h.1
  have hhigh : d.toNat ≤ 57 := h.2
  have hcontrol : ¬d ≤ '\r' := by
    rw [Char.le_def, UInt32.le_iff_toNat_le]
    exact fun hle => absurd (le_trans hlow hle) (by decide)
  simp only [isSpace, hcontrol, decide_false, Bool.and_false, Bool.false_or,
    Bool.or_eq_false_iff, Bool.and_eq_false_iff, decide_eq_false_iff_not, List.contains_eq_mem,
    List.mem_cons, List.not_mem_nil, or_false]
  omega

theorem trimSpace_eq {l : List Char} (hne : l ≠ []) (hhead : isSpace (l.head hne) = false)
    (hlast : isSpace (l.getLast hne) = false) : trimSpace l = l := by
  have hfront : l.dropWhile isSpace = l := by
    obtain ⟨a, l', rfl⟩ := List.exists_cons_of_ne_nil hne
    exact List.dropWhile_cons_of_neg (by simpa using hhead)
  rw [trimSpace, hfront, List.rdropWhile_eq_self_iff]
  intro _
  simpa using hlast

theorem beforeLast_append (c : Char) {l r : List Char} (h : c ∉ r) :
    beforeLast c (l ++ c :: r) = l := by
  have hr : ∀ x ∈ r.reverse, (decide (x ≠ c)) = true := by
    intro x hx
    have hxr : x ∈ r := List.mem_reverse.mp hx
    simpa using fun heq : x = c => h (heq ▸ hxr)
  rw [beforeLast, List.rdropWhile, List.reverse_append, List.reverse_cons, List.append_assoc,
    List.dropWhile_append_of_pos hr, List.singleton_append, List.dropWhile_cons_of_neg (by simp),
    List.reverse_cons, List.reverse_reverse, List.dropLast_concat]

theorem beforeLast_of_notMem {c : Char} {l : List Char} (h : c ∉ l) : beforeLast c l = [] := by
  have hall : ∀ x ∈ l.reverse, (decide (x ≠ c)) = true := by
    intro x hx
    have hxl : x ∈ l := List.mem_reverse.mp hx
    simpa using fun heq : x = c => h (heq ▸ hxl)
  have hdrop : l.reverse.dropWhile (fun x => decide (x ≠ c)) = [] :=
    List.dropWhile_eq_nil_iff.mpr hall
  rw [beforeLast, List.rdropWhile, hdrop]
  rfl

theorem takeWhile_dot {l : List Char} (h : '.' ∉ l) (r : List Char) :
    (l ++ '.' :: r).takeWhile (· ≠ '.') = l := by
  have hl : ∀ x ∈ l, (decide (x ≠ '.')) = true := by
    intro x hx
    simpa using fun heq : x = '.' => h (heq ▸ hx)
  rw [List.takeWhile_append_of_pos hl, List.takeWhile_cons_of_neg (by simp), List.append_nil]

theorem trimSuffix_append (suffix l : List Char) : trimSuffix suffix (l ++ suffix) = l := by
  rw [trimSuffix, if_pos (List.suffix_append l suffix), List.length_append,
    Nat.add_sub_cancel, List.take_left]

/-- A name without a port loses nothing. -/
theorem stripPort_of_notMem {l : List Char} (h : ':' ∉ l) : stripPort l = l := by
  have hsplit : splitHostPort l = none := by
    rw [splitHostPort.eq_def]
    split
    · next l' =>
        dsimp only
        split
        · next port hdrop =>
            have hmem : ':' ∈ l'.drop (l'.takeWhile (· ≠ ']')).length := by
              rw [hdrop]
              simp
            exact absurd (List.mem_cons_of_mem _ (List.mem_of_mem_drop hmem)) h
        · rfl
    · exact if_pos (.inl h)
  rw [stripPort, hsplit]
  simp [beforeLast_of_notMem h]

/-- What is in front of the last colon, if nothing else looks like an address. -/
theorem stripPort_append {l port : List Char} (hne : l ≠ []) (hl : ':' ∉ l)
    (hport : ':' ∉ port) (hhead : l.head hne ≠ '[') : stripPort (l ++ ':' :: port) = l := by
  have hbefore := beforeLast_append ':' (l := l) hport
  have hsplit : splitHostPort (l ++ ':' :: port) = none ∨
      splitHostPort (l ++ ':' :: port) = some l := by
    rw [splitHostPort.eq_def]
    split
    · next l' heq =>
        obtain ⟨a, l'', rfl⟩ := List.exists_cons_of_ne_nil hne
        exact absurd (List.cons.inj heq).1 hhead
    · rw [hbefore]
      dsimp only
      split_ifs
      · exact .inl rfl
      · exact .inr rfl
  rw [stripPort]
  rcases hsplit with hsplit | hsplit
  · simp [hsplit, hbefore, hne]
  · simp [hsplit]

theorem parse_of_isName (h : IsName name) :
    parseTeamChallengeFromRoute name = parseName name := by
  obtain ⟨hcolon, hdot, -⟩ := h.notMem
  obtain ⟨l, rfl⟩ := h.head
  obtain ⟨l', d, hlast, hdigit⟩ := h.last
  have hgetLast : ('t' :: l).getLast (by simp) = d := by
    simp only [hlast, List.getLast_concat]
  have htrim : trimSpace ('t' :: l) = 't' :: l :=
    trimSpace_eq (by simp) rfl (hgetLast ▸ not_isSpace_of_isDigit hdigit)
  have hlabel : leftmostLabel ('t' :: l) = 't' :: l := by
    have hall : ∀ x ∈ 't' :: l, (decide (x ≠ '.')) = true := by
      intro x hx
      simpa using fun heq : x = '.' => hdot (heq ▸ hx)
    rw [leftmostLabel, List.takeWhile_eq_self_iff.mpr hall, if_neg (by simp)]
  have hsuffix : ¬"-svc".toList <:+ 't' :: l := by
    rw [hlast]
    rintro ⟨a, ha⟩
    have hc : d = 'c' := by
      have hrev := congrArg List.getLast? ha
      rw [List.getLast?_append, List.getLast?_concat] at hrev
      exact (Option.some.inj hrev).symm
    rw [hc] at hdigit
    cases hdigit
  rw [parseTeamChallengeFromRoute]
  simp only [htrim, stripPort_of_notMem hcolon, hlabel, trimSuffix, if_neg hsuffix]
  rfl

/-- **The full address says what the name says.** -/
theorem parse_expandRoute (h : IsName name) :
    parseTeamChallengeFromRoute (expandRoute name) = parseName name := by
  obtain ⟨hcolon, hdot, hslash⟩ := h.notMem
  obtain ⟨l, hname⟩ := h.head
  have hne : name ≠ [] := by simp [hname]
  have hexpand : expandRoute name = name ++ "-svc.".toList ++ name ++
      ".svc.cluster.local:3333".toList := by
    rw [expandRoute, if_neg hne, if_neg (by simp [hcolon, hdot, hslash])]
  set host := name ++ "-svc".toList ++ '.' :: (name ++ ".svc.cluster.local".toList)
    with hhost
  have haddress : expandRoute name = host ++ ':' :: "3333".toList := by
    rw [hexpand, hhost]
    simp only [List.append_assoc, List.cons_append]
    rfl
  have hhostNe : host ≠ [] := by simp [hhost, hname]
  have hhead : host.head hhostNe = 't' := by simp [hhost, hname]
  have hhostColon : ':' ∉ host := by
    simp only [hhost, List.mem_append, List.mem_cons, not_or]
    exact ⟨⟨hcolon, by decide⟩, by decide, hcolon, by decide⟩
  have htrim : trimSpace (expandRoute name) = expandRoute name := by
    refine trimSpace_eq (by simp [haddress]) ?_ ?_
    · have : (expandRoute name).head (by simp [haddress]) = 't' := by
        simp [haddress, hhead, hhostNe]
      rw [this]
      decide
    · have : (expandRoute name).getLast (by simp [haddress]) = '3' := by
        simp [haddress]
      rw [this]
      decide
  have hlabel : leftmostLabel host = name ++ "-svc".toList := by
    have hnot : '.' ∉ name ++ "-svc".toList := by
      rw [List.mem_append, not_or]
      exact ⟨hdot, by decide⟩
    rw [leftmostLabel, hhost, takeWhile_dot hnot, if_neg (by simp [hname])]
  rw [parseTeamChallengeFromRoute]
  simp only [htrim]
  rw [if_neg (by simp [haddress]), haddress,
    stripPort_append hhostNe hhostColon (by decide) (by rw [hhead]; decide), hlabel,
    trimSuffix_append]

/-! ### Names of deployments -/

/-- The characters of a name in lower case, with dashes. -/
def kebabChar (c : Char) : Char := if c = ' ' then '-' else c.toLower

theorem toList_kebab (s : String) : (kebab s).toList = s.toList.map kebabChar :=
  String.toList_ofList

theorem kebabChar_eq {c : Char} (h : c.isUpper = false) (hspace : c ≠ ' ') :
    kebabChar c = c := by
  rw [kebabChar, if_neg hspace, Char.toLower, dif_neg]
  simpa [Char.isUpper] using h

/-- No other character is lowered to a colon, a dot or a slash. -/
theorem toLower_mem {c : Char} (h : c.toLower ∈ [':', '.', '/']) : c.toLower = c := by
  by_cases hupper : c.isUpper = true
  · have hall : ∀ k : Fin 26, (Char.ofNat (65 + k)).toLower ∉ [':', '.', '/'] := by decide
    simp only [Char.isUpper, decide_eq_true_eq, ge_iff_le, UInt32.le_iff_toNat_le] at hupper
    have hlow : 65 ≤ c.toNat := hupper.1
    have hhigh : c.toNat ≤ 90 := hupper.2
    have hc : Char.ofNat (65 + (⟨c.toNat - 65, by omega⟩ : Fin 26)) = c := by
      have hsum : 65 + (c.toNat - 65) = c.toNat := by omega
      rw [Fin.val_mk, hsum, Char.ofNat_toNat]
    exact absurd (hc ▸ h) (hall ⟨c.toNat - 65, by omega⟩)
  · rw [Char.toLower, dif_neg]
    simpa [Char.isUpper] using hupper

theorem kebabChar_mem {c : Char} (h : kebabChar c ∈ [':', '.', '/']) : kebabChar c = c := by
  by_cases hspace : c = ' '
  · subst hspace
    revert h
    decide
  · rw [kebabChar, if_neg hspace] at h ⊢
    exact toLower_mem h

theorem kebabChar_of_isDigit {c : Char} (h : c.isDigit = true) : kebabChar c = c := by
  refine kebabChar_eq ?_ ?_
  · simp only [Char.isDigit, Bool.and_eq_true, decide_eq_true_eq, ge_iff_le,
      UInt32.le_iff_toNat_le] at h
    have hhigh : c.val.toNat ≤ 57 := h.2
    simp only [Char.isUpper, decide_eq_false_iff_not, ge_iff_le, UInt32.le_iff_toNat_le]
    exact fun hupper => absurd (le_trans hupper.1 hhigh) (by decide)
  · rintro rfl
    cases h

/-- Numerals stay as they are. -/
theorem map_kebabChar_repr (n : ℤ) : n.repr.toList.map kebabChar = n.repr.toList := by
  refine (List.map_congr_left fun c hc => ?_).trans (List.map_id _)
  rcases mem_repr hc with h | rfl
  · exact kebabChar_of_isDigit h
  · decide

/-- The part of a name that says whose it is. -/
def teamPart (teamId : ℤ) : List Char :=
  if teamId = -2 then "shared".toList else if teamId = -1 then "0".toList else teamId.repr.toList

theorem toList_getDeploymentAppName (parse : String → String)
    (teamId contestId contestChallengeId : ℤ) (challengeName : String) (date : ℤ) :
    (getDeploymentAppName parse teamId contestId contestChallengeId challengeName date).toList =
      "team".toList ++ '-' :: (teamPart teamId ++ '-' :: (contestId.repr.toList ++
        '-' :: (contestChallengeId.repr.toList ++ '-' ::
          ((parse challengeName).toList.map kebabChar ++ '-' :: date.repr.toList)))) := by
  have hteam : (if teamId = -2 then "shared" else if teamId = -1 then "0"
      else teamId.repr).toList.map kebabChar = teamPart teamId := by
    rw [teamPart]
    split_ifs
    · decide
    · decide
    · exact map_kebabChar_repr teamId
  have hdash : "-".toList.map kebabChar = ['-'] := by decide
  have hkind : "team-".toList.map kebabChar = "team".toList ++ ['-'] := by decide
  simp only [getDeploymentAppName, toList_kebab, String.toList_append, List.map_append, hteam,
    hdash, hkind, Int.toString_eq_repr, map_kebabChar_repr, List.append_assoc,
    List.singleton_append]

/-- A numeral ends in a digit. -/
theorem exists_repr_concat (n : ℤ) : ∃ l d, n.repr.toList = l ++ [d] ∧ d.isDigit = true := by
  have hnat (k : ℕ) : ∃ l d, Nat.toDigits 10 k = l ++ [d] ∧ d.isDigit = true := by
    obtain hnil | ⟨l, d, hconcat⟩ := List.eq_nil_or_concat (Nat.toDigits 10 k)
    · exact absurd hnil Nat.toDigits_ne_nil
    · rw [List.concat_eq_append] at hconcat
      exact ⟨l, d, hconcat, Json.isDigit_of_mem (n := k) (hconcat ▸ by simp)⟩
  rw [Int.repr_eq_if]
  split
  · rw [Nat.toList_repr]
    exact hnat _
  · obtain ⟨l, d, hl, hd⟩ := hnat (-n).toNat
    refine ⟨"-".toList ++ l, d, ?_, hd⟩
    rw [String.toList_append, Nat.toList_repr, hl, List.append_assoc]

theorem notMem_parseAlphaNumeric (u : UnicodeData) (input : String) :
    ∀ c ∈ [':', '.', '/'], c ∉ (u.parseAlphaNumeric input).toList := by
  intro c hc hmem
  rw [UnicodeData.parseAlphaNumeric] at hmem
  split_ifs at hmem
  · cases hmem
  · rw [String.toList_ofList] at hmem
    obtain ⟨c', -, hkept⟩ := List.mem_flatMap.mp (u.mem_of_mem_formC _ c hmem hc)
    split_ifs at hkept with hmark hletter hspace
    · cases hkept
    · rw [List.mem_singleton] at hkept
      have heq := u.toLowerInvariant_mem c' (hkept ▸ hc)
      have hnone := u.isLetterOrDigit_eq_false c hc
      rw [hkept, heq, hletter] at hnone
      cases hnone
    · rw [List.mem_singleton] at hkept
      subst hkept
      revert hc
      decide
    · cases hkept

theorem isName_getDeploymentAppName (u : UnicodeData)
    (teamId contestId contestChallengeId : ℤ) (challengeName : String) (date : ℤ) :
    IsName (getDeploymentAppName u.parseAlphaNumeric teamId contestId contestChallengeId
      challengeName date).toList := by
  have hlist := toList_getDeploymentAppName u.parseAlphaNumeric teamId contestId
    contestChallengeId challengeName date
  have hrepr (n : ℤ) : ∀ c ∈ [':', '.', '/'], c ∉ n.repr.toList := by
    intro c hc hmem
    rcases mem_repr hmem with h | rfl
    · simp only [List.mem_cons, List.not_mem_nil, or_false] at hc
      rcases hc with rfl | rfl | rfl <;> cases h
    · revert hc
      decide
  have hteam : ∀ c ∈ [':', '.', '/'], c ∉ teamPart teamId := by
    intro c hc
    have hfixed : c ∉ "shared".toList ∧ c ∉ "0".toList := by
      simp only [List.mem_cons, List.not_mem_nil, or_false] at hc
      rcases hc with rfl | rfl | rfl <;> decide
    rw [teamPart]
    split_ifs
    · exact hfixed.1
    · exact hfixed.2
    · exact hrepr teamId c hc
  have hnot : ∀ c ∈ [':', '.', '/'], c ∉ (getDeploymentAppName u.parseAlphaNumeric teamId
      contestId contestChallengeId challengeName date).toList := by
    intro c hc
    have hdash : c ≠ '-' := by
      rintro rfl
      revert hc
      decide
    have hkind : c ∉ "team".toList := by
      simp only [List.mem_cons, List.not_mem_nil, or_false] at hc
      rcases hc with rfl | rfl | rfl <;> decide
    have hname : c ∉ (u.parseAlphaNumeric challengeName).toList.map kebabChar := by
      intro hmem
      obtain ⟨c', hc', heq⟩ := List.mem_map.mp hmem
      have hsame := kebabChar_mem (heq ▸ hc)
      rw [hsame] at heq
      exact notMem_parseAlphaNumeric u challengeName c hc (heq ▸ hc')
    rw [hlist]
    simp only [List.mem_append, List.mem_cons, not_or]
    exact ⟨hkind, hdash, hteam c hc, hdash, hrepr contestId c hc, hdash,
      hrepr contestChallengeId c hc, hdash, hname, hdash, hrepr date c hc⟩
  refine ⟨⟨_, hlist⟩, ?_, hnot ':' (by simp), hnot '.' (by simp), hnot '/' (by simp)⟩
  obtain ⟨l, d, hdate, hd⟩ := exists_repr_concat date
  refine ⟨"team".toList ++ '-' :: (teamPart teamId ++ '-' :: (contestId.repr.toList ++
    '-' :: (contestChallengeId.repr.toList ++ '-' ::
      ((u.parseAlphaNumeric challengeName).toList.map kebabChar ++ '-' :: l)))), d, ?_, hd⟩
  rw [hlist, hdate]
  simp only [List.append_assoc, List.cons_append]

theorem parseName_eq {team contest : List Char} (hteam : '-' ∉ team) (hcontest : '-' ∉ contest)
    (rest : List Char) :
    parseName ("team".toList ++ '-' :: (team ++ '-' :: (contest ++ '-' :: rest))) =
      (atoi team).bind fun teamId => (atoi contest).map fun challengeId =>
        (teamId, challengeId) := by
  rw [parseName, List.splitOn_append_cons_self_of_not_mem (by decide),
    List.splitOn_append_cons_self_of_not_mem hteam,
    List.splitOn_append_cons_self_of_not_mem hcontest]
  exact if_neg (not_not.mpr rfl)

theorem atoi_repr {n : ℤ} (h : -2 ^ 63 ≤ n ∧ n < 2 ^ 63) : atoi n.repr.toList = some n := by
  rw [atoi, signedValue_repr, Option.filter_some, if_pos (by simpa using h)]

theorem dash_notMem_repr {n : ℤ} (h : 0 ≤ n) : '-' ∉ n.repr.toList := by
  rw [Int.repr_eq_if, if_pos h, Nat.toList_repr]
  intro hmem
  exact absurd (Json.isDigit_of_mem hmem) (by decide)

/-- A negative number begins with a dash. -/
theorem repr_of_neg {n : ℤ} (h : n < 0) : ∃ l, n.repr.toList = '-' :: l := by
  refine ⟨Nat.toDigits 10 (-n).toNat, ?_⟩
  rw [Int.repr_eq_if, if_neg (by omega), String.toList_append, Nat.toList_repr]
  rfl

/-- **What is read off a team's name**: the team and the contest. -/
theorem parseName_of_pos (parse : String → String) {teamId contestId : ℤ}
    (contestChallengeId : ℤ) (challengeName : String) (date : ℤ) (hpos : 0 < teamId)
    (hteam : teamId < 2 ^ 31) (hcontest : contestId < 2 ^ 31) :
    parseName (getDeploymentAppName parse teamId contestId contestChallengeId challengeName
        date).toList =
      if 0 ≤ contestId then some (teamId, contestId) else none := by
  have hpart : teamPart teamId = teamId.repr.toList := by
    rw [teamPart, if_neg (by omega), if_neg (by omega)]
  rw [toList_getDeploymentAppName, hpart]
  split_ifs with hnonneg
  · rw [parseName_eq (dash_notMem_repr hpos.le) (dash_notMem_repr hnonneg),
      atoi_repr (by omega), atoi_repr (by omega)]
    rfl
  · obtain ⟨l, hl⟩ := repr_of_neg (not_le.mp hnonneg)
    have hnil : atoi [] = none := by decide
    have h := @parseName_eq _ [] (dash_notMem_repr hpos.le) (by simp)
      (l ++ '-' :: (contestChallengeId.repr.toList ++ '-' ::
        ((parse challengeName).toList.map kebabChar ++ '-' :: date.repr.toList)))
    rw [hl]
    simp only [hnil, Option.map_none, Option.bind_fun_none] at h
    exact h

/-- A shared deployment has no number where the team's should be. -/
theorem parseName_shared (parse : String → String) (contestId contestChallengeId : ℤ)
    (challengeName : String) (date : ℤ) :
    parseName (getDeploymentAppName parse (-2) contestId contestChallengeId challengeName
      date).toList = none := by
  have hshared : atoi "shared".toList = none := by decide
  have hpart : teamPart (-2) = "shared".toList := rfl
  obtain ⟨contest, parts, hparts⟩ := List.exists_cons_of_ne_nil
    (List.splitOn_ne_nil '-' (contestId.repr.toList ++ '-' :: (contestChallengeId.repr.toList ++
      '-' :: ((parse challengeName).toList.map kebabChar ++ '-' :: date.repr.toList))))
  rw [toList_getDeploymentAppName, hpart, parseName,
    List.splitOn_append_cons_self_of_not_mem (by decide),
    List.splitOn_append_cons_self_of_not_mem (by decide), hparts]
  refine (if_neg (not_not.mpr rfl)).trans ?_
  rw [hshared, Option.bind_none]

/-! ### Attribution -/

/-- **Traffic is attributed** to the team and the challenge of a deployment, by its name and
by its address. -/
def Attributed (u : UnicodeData) (teamId contestId contestChallengeId : ℤ)
    (challengeName : String) (date : ℤ) : Prop :=
  let route := (getDeploymentAppName u.parseAlphaNumeric teamId contestId contestChallengeId
    challengeName date).toList
  parseTeamChallengeFromRoute route = some (teamId, contestChallengeId) ∧
    parseTeamChallengeFromRoute (expandRoute route) = some (teamId, contestChallengeId)

/-- **When traffic is attributed**: if the deployment is a team's, and the challenge happens
to have the number of its contest. -/
theorem attributed_iff (u : UnicodeData) {teamId contestId : ℤ} (contestChallengeId : ℤ)
    (challengeName : String) (date : ℤ)
    (hteam : 0 < teamId ∧ teamId < 2 ^ 31 ∨ teamId = -2) (hcontest : contestId < 2 ^ 31) :
    Attributed u teamId contestId contestChallengeId challengeName date ↔
      teamId ≠ -2 ∧ 0 ≤ contestId ∧ contestId = contestChallengeId := by
  have hname := isName_getDeploymentAppName u teamId contestId contestChallengeId
    challengeName date
  rw [Attributed]
  simp only [parse_of_isName hname, parse_expandRoute hname, and_self]
  rcases hteam with ⟨hpos, hlt⟩ | rfl
  · rw [parseName_of_pos _ _ _ _ hpos hlt hcontest]
    split_ifs with hnonneg
    · rw [Option.some.injEq, Prod.mk.injEq]
      exact ⟨fun h => ⟨by omega, hnonneg, h.2⟩, fun h => ⟨rfl, h.2.2⟩⟩
    · simp [hnonneg]
  · rw [parseName_shared]
    simp

/-- As much of Unicode as ASCII needs. -/
def asciiData : UnicodeData where
  formD := id
  formC := id
  isNonSpacingMark _ := false
  isLetterOrDigit := Char.isAlphanum
  toLowerInvariant := Char.toLower
  isLetterOrDigit_eq_false c hc := by
    simp only [List.mem_cons, List.not_mem_nil, or_false] at hc
    rcases hc with rfl | rfl | rfl <;> rfl
  toLowerInvariant_mem _ := toLower_mem
  mem_of_mem_formC _ _ h _ := h

theorem attributed_iff_one :
    Attributed asciiData 7 1 1 "Web" 1700000000 ↔ (7 : ℤ) ≠ -2 ∧ (0 : ℤ) ≤ 1 ∧ (1 : ℤ) = 1 :=
  attributed_iff asciiData 1 "Web" 1700000000 (.inl (by norm_num)) (by norm_num)

/-- Challenge 5 of contest 1: its traffic is logged under challenge 1. -/
theorem not_attributed : ¬Attributed asciiData 7 1 5 "Web" 1700000000 := by
  intro h
  have hname := isName_getDeploymentAppName asciiData 7 1 5 "Web" 1700000000
  have hread := @parseName_of_pos asciiData.parseAlphaNumeric 7 1 5
    "Web" 1700000000 (by norm_num) (by norm_num) (by norm_num)
  have hparse := h.1
  rw [parse_of_isName hname, hread] at hparse
  exact absurd hparse (by decide)

end Gateway

end Fctf
