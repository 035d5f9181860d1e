import Fctf.FlagCompare
import Mathlib.Data.List.Flatten
import Mathlib.Data.Nat.Bitwise

/-!
# Static Flags in Both Services

The contestants' service compares a submission with a static flag unit by unit of their UTF-16
texts, each put into lower case on its own. The management platform compares as many characters
as the shorter of the two texts has once they are put into lower case as a whole: there a letter
may become two, and a final sigma is not any sigma.

## Main results

* `StaticFlags.sameVerdict_iff`: for which texts the two services decide alike, and a match means
  that the texts are the same up to letter case.
-/

namespace Fctf

namespace StaticFlags

/-! ### Texts of both services -/

/-- The UTF-16 units of a character. -/
def utf16 (c : Char) : Utf16 :=
  if c.toNat < 0x10000 then [BitVec.ofNat 16 c.toNat]
  else [BitVec.ofNat 16 (0xD800 + (c.toNat - 0x10000) / 0x400),
    BitVec.ofNat 16 (0xDC00 + (c.toNat - 0x10000) % 0x400)]

/-- The UTF-16 text. -/
def encode (s : List Char) : Utf16 := s.flatMap utf16

/-- Half of a character. -/
def isSurrogate (u : BitVec 16) : Bool := 0xD800#16 ≤ u && u ≤ 0xDFFF#16

/-- What Python knows of a character: its lower case, and what makes a sigma final. -/
structure Unicode where
  /-- The full lower case of a character other than `Σ`. -/
  lowerFull : Char → List Char
  /-- Does it have a case? -/
  cased : Char → Bool
  /-- Is it passed over by the search for a letter? -/
  caseIgnorable : Char → Bool

/-- The final-sigma rule: a letter before it, and none after it. -/
def finalSigma (u : Unicode) (before after : List Char) : Bool :=
  (before.dropWhile u.caseIgnorable).head?.any u.cased &&
    !(after.dropWhile u.caseIgnorable).head?.any u.cased

/-- The lower case of a character where it stands. -/
def lowerAt (u : Unicode) (before : List Char) (c : Char) (after : List Char) : List Char :=
  if c = 'Σ' then [if finalSigma u before after then 'ς' else 'σ'] else u.lowerFull c

/-- The lower case of a text, character by character. What was read comes last first. -/
def pieces (u : Unicode) : List Char → List Char → List (List Char)
  | _, [] => []
  | before, c :: after => lowerAt u before c after :: pieces u (c :: before) after

/-- `str.lower`. -/
def lower (u : Unicode) (s : List Char) : List Char := (pieces u [] s).flatten

/-! ### The platform's comparison -/

/-- What can go wrong: `len(None)`. -/
inductive PythonError where
  | typeError
  deriving DecidableEq, Repr

/-- The loop over `zip`. -/
def zipDifference (s p : List Char) : ℕ :=
  (s.zip p).foldl (fun result c => result ||| (c.1.toNat ^^^ c.2.toNat)) 0

/-- `CTFdStaticFlag.compare`. -/
def compare (u : Unicode) (content : Option (List Char)) (caseInsensitive : Bool)
    (provided : List Char) : Except PythonError Bool :=
  match content with
  | none => .error .typeError
  | some saved =>
      if saved.length ≠ provided.length then .ok false
      else if caseInsensitive then .ok (zipDifference (lower u saved) (lower u provided) == 0)
      else .ok (zipDifference saved provided == 0)

/-- The flag as the contestants' service reads it. -/
def storedFlag (content : Option (List Char)) (caseInsensitive : Bool) : Flag :=
  ⟨.static, content.map encode, caseInsensitive⟩

/-! ### What is promised -/

/-- **The services decide alike**, and a match means equal texts, up to letter case if the flag
says so. -/
structure SameVerdict (rt : Runtime) (u : Unicode) (content : Option (List Char))
    (caseInsensitive : Bool) (provided : List Char) : Prop where
  /-- Both accept or neither does. -/
  agree : ChallengeHelper.compareStatic rt (storedFlag content caseInsensitive)
      (encode provided) = true ↔ compare u content caseInsensitive provided = .ok true
  /-- What the contestants' service accepts is the flag. -/
  backendExact : ChallengeHelper.compareStatic rt (storedFlag content caseInsensitive)
      (encode provided) = true →
    if caseInsensitive then
      (encode (content.getD [])).map rt.toLowerInvariant =
        (encode provided).map rt.toLowerInvariant
    else content.getD [] = provided
  /-- What the platform accepts is the flag. -/
  platformExact : compare u content caseInsensitive provided = .ok true →
    if caseInsensitive then lower u (content.getD []) = lower u provided
    else content.getD [] = provided

/-- What is documented of the two tables: half a character has no lower case and is none, and
what `char.ToLowerInvariant` identifies has lower cases of the same length. -/
structure Documented (rt : Runtime) (u : Unicode) : Prop where
  /-- Half a character stays as it is. -/
  surrogate : ∀ c, isSurrogate c = true → rt.toLowerInvariant c = c
  /-- A character stays one. -/
  whole : ∀ c, isSurrogate c = false → isSurrogate (rt.toLowerInvariant c) = false
  /-- The lengths of lower cases. -/
  length : ∀ c d before after before' after', (utf16 c).map rt.toLowerInvariant =
    (utf16 d).map rt.toLowerInvariant →
      (lowerAt u before c after).length = (lowerAt u before' d after').length

/-- Whether the contestants' service, and whether the platform, takes the characters for the
same, place by place. -/
def verdicts (rt : Runtime) (u : Unicode) (saved provided : List Char) : List (Bool × Bool) :=
  ((saved.zip provided).zip ((pieces u [] saved).zip (pieces u [] provided))).map fun c =>
    (decide ((utf16 c.1.1).map rt.toLowerInvariant = (utf16 c.1.2).map rt.toLowerInvariant),
      decide (c.2.1 = c.2.2))

/-- Do the lower cases stand place by place? -/
def aligned (u : Unicode) (saved provided : List Char) : Bool :=
  (pieces u [] saved).map List.length = (pieces u [] provided).map List.length

/-- **The condition.** The texts differ in length; or their lower cases stand place by place, and
at some place the characters differ in both tables, or at no place in one of them only, or
somewhere in the one and somewhere in the other; or they do not, and differ where both still have
characters. -/
def Alike (rt : Runtime) (u : Unicode) (saved provided : List Char) : Prop :=
  saved.length ≠ provided.length ∨
    if aligned u saved provided then
      (false, false) ∈ verdicts rt u saved provided ∨
        (∀ v ∈ verdicts rt u saved provided, v.1 = v.2) ∨
        (true, false) ∈ verdicts rt u saved provided ∧
          (false, true) ∈ verdicts rt u saved provided
    else ∃ c ∈ (lower u saved).zip (lower u provided), c.1 ≠ c.2

/-! ### The two comparisons -/

section UtfLemmas

variable {f : BitVec 16 → BitVec 16}

/-- Half a character stays as it is, and a character one. -/
def KeepsSurrogates (f : BitVec 16 → BitVec 16) : Prop :=
  (∀ c, isSurrogate c = true → f c = c) ∧ ∀ c, isSurrogate c = false → isSurrogate (f c) = false

/-- A character is one unit, or two halves. -/
theorem utf16_cases (c : Char) :
    (∃ a, utf16 c = [a] ∧ isSurrogate a = false ∧ a.toNat = c.toNat) ∨
      ∃ a b, utf16 c = [a, b] ∧ isSurrogate a = true ∧ isSurrogate b = true ∧
        c.toNat = (a.toNat - 0xD800) * 0x400 + (b.toNat - 0xDC00) + 0x10000 := by
  have hvalid : c.toNat < 0xD800 ∨ 0xDFFF < c.toNat ∧ c.toNat < 0x110000 := c.valid
  rw [utf16]
  split
  · next hlt =>
      refine .inl ⟨_, rfl, ?_, ?_⟩
      · simp only [isSurrogate, Bool.and_eq_false_iff, decide_eq_false_iff_not, BitVec.le_def,
          BitVec.toNat_ofNat]
        omega
      · rw [BitVec.toNat_ofNat]
        omega
  · next hle =>
      refine .inr ⟨_, _, rfl, ?_, ?_, ?_⟩
      · simp only [isSurrogate, Bool.and_eq_true, decide_eq_true_iff, BitVec.le_def,
          BitVec.toNat_ofNat]
        omega
      · simp only [isSurrogate, Bool.and_eq_true, decide_eq_true_iff, BitVec.le_def,
          BitVec.toNat_ofNat]
        omega
      · simp only [BitVec.toNat_ofNat]
        omega

theorem utf16_injective : Function.Injective utf16 := by
  intro c d h
  apply Char.toNat_inj.mp
  rcases utf16_cases c with ⟨a, hc, -, ha⟩ | ⟨a, b, hc, -, -, hab⟩ <;>
    rcases utf16_cases d with ⟨a', hd, -, ha'⟩ | ⟨a', b', hd, -, -, hab'⟩ <;>
    rw [hc, hd] at h
  · obtain rfl := List.singleton_inj.mp h
    exact ha.symm.trans ha'
  · simp at h
  · simp at h
  · obtain ⟨rfl, rfl⟩ : a = a' ∧ b = b' := by simpa using h
    rw [hab, hab']

/-- The units of two texts agree only character by character. -/
theorem map_utf16_append_inj (hf : KeepsSurrogates f) {c d : Char} {x y : Utf16}
    (h : (utf16 c).map f ++ x = (utf16 d).map f ++ y) :
    (utf16 c).map f = (utf16 d).map f ∧ x = y := by
  rcases utf16_cases c with ⟨a, hc, ha, -⟩ | ⟨a, b, hc, ha, -, -⟩ <;>
    rcases utf16_cases d with ⟨a', hd, ha', -⟩ | ⟨a', b', hd, ha', -, -⟩ <;>
    rw [hc, hd] at h ⊢
  · exact List.append_inj h rfl
  · have hhead : f a = f a' := (List.cons.inj h).1
    rw [hf.1 a' ha'] at hhead
    have hwhole := hf.2 a ha
    rw [hhead, ha'] at hwhole
    cases hwhole
  · have hhead : f a = f a' := (List.cons.inj h).1
    rw [hf.1 a ha] at hhead
    have hwhole := hf.2 a' ha'
    rw [← hhead, ha] at hwhole
    cases hwhole
  · exact List.append_inj h rfl

theorem map_encode_eq_iff (hf : KeepsSurrogates f) (s p : List Char) :
    (encode s).map f = (encode p).map f ↔
      s.map (fun c => (utf16 c).map f) = p.map (fun c => (utf16 c).map f) := by
  induction s generalizing p with
  | nil =>
      cases p with
      | nil => exact iff_of_true rfl rfl
      | cons d p =>
          refine iff_of_false (fun h => ?_) (by simp)
          rcases utf16_cases d with ⟨a, hd, -⟩ | ⟨a, b, hd, -⟩ <;>
            simp [encode, hd] at h
  | cons c s ih =>
      cases p with
      | nil =>
          refine iff_of_false (fun h => ?_) (by simp)
          rcases utf16_cases c with ⟨a, hc, -⟩ | ⟨a, b, hc, -⟩ <;>
            simp [encode, hc] at h
      | cons d p =>
          simp only [encode, List.flatMap_cons, List.map_append, List.map_cons, List.cons.injEq]
          constructor
          · intro h
            obtain ⟨hhead, htail⟩ := map_utf16_append_inj hf h
            exact ⟨hhead, (ih p).mp htail⟩
          · rintro ⟨hhead, htail⟩
            rw [hhead, ← encode, ← encode, (ih p).mpr htail]

end UtfLemmas

/-! ### Place by place -/

section Places

/-- Texts of the same length are the same if they are so place by place. -/
theorem map_eq_map_iff_zip {α β : Type} {g : α → β} (s p : List α) (h : s.length = p.length) :
    s.map g = p.map g ↔ ∀ c ∈ s.zip p, g c.1 = g c.2 := by
  induction s generalizing p with
  | nil =>
      obtain rfl := List.length_eq_zero_iff.mp h.symm
      simp
  | cons c s ih =>
      cases p with
      | nil => cases h
      | cons d p =>
          rw [List.map_cons, List.map_cons, List.cons.injEq, ih p (Nat.succ.inj h),
            List.zip_cons_cons, List.forall_mem_cons]

theorem eq_iff_zip {α : Type} (s p : List α) (h : s.length = p.length) :
    s = p ↔ ∀ c ∈ s.zip p, c.1 = c.2 := by
  have hmap := map_eq_map_iff_zip (g := id) s p h
  rwa [List.map_id, List.map_id] at hmap

/-- The bits collected so far are never lost. -/
theorem foldl_difference_eq_zero_iff (l : List (Char × Char)) (n : ℕ) :
    l.foldl (fun result c => result ||| (c.1.toNat ^^^ c.2.toNat)) n = 0 ↔
      n = 0 ∧ ∀ c ∈ l, c.1 = c.2 := by
  induction l generalizing n with
  | nil => simp
  | cons c l ih =>
      rw [List.foldl_cons, ih, Nat.or_eq_zero_iff, Nat.xor_eq_zero_iff, Char.toNat_inj,
        List.forall_mem_cons, and_assoc]

theorem zipDifference_eq_zero_iff (s p : List Char) :
    zipDifference s p = 0 ↔ ∀ c ∈ s.zip p, c.1 = c.2 := by
  rw [zipDifference, foldl_difference_eq_zero_iff, eq_self_iff_true, true_and]

theorem length_pieces (u : Unicode) (before s : List Char) :
    (pieces u before s).length = s.length := by
  induction s generalizing before with
  | nil => rfl
  | cons c s ih => rw [pieces, List.length_cons, List.length_cons, ih]

/-- Two verdicts on every place agree on the whole. -/
theorem forall_iff_forall_iff (l : List (Bool × Bool)) :
    ((∀ v ∈ l, v.1 = true) ↔ ∀ v ∈ l, v.2 = true) ↔
      (false, false) ∈ l ∨ (∀ v ∈ l, v.1 = v.2) ∨ (true, false) ∈ l ∧ (false, true) ∈ l := by
  constructor
  · intro h
    by_cases hneither : (false, false) ∈ l
    · exact .inl hneither
    refine .inr ?_
    by_cases hfirst : (true, false) ∈ l
    · refine .inr ⟨hfirst, ?_⟩
      by_contra hsecond
      have hall : ∀ v ∈ l, v.1 = true := by
        rintro ⟨_ | _, _ | _⟩ hv
        · exact absurd hv hneither
        · exact absurd hv hsecond
        · rfl
        · rfl
      exact Bool.false_ne_true (h.mp hall _ hfirst)
    · refine .inl ?_
      by_cases hsecond : (false, true) ∈ l
      · have hall : ∀ v ∈ l, v.2 = true := by
          rintro ⟨_ | _, _ | _⟩ hv
          · exact absurd hv hneither
          · rfl
          · exact absurd hv hfirst
          · rfl
        exact absurd (h.mpr hall _ hsecond) Bool.false_ne_true
      · rintro ⟨_ | _, _ | _⟩ hv
        · rfl
        · exact absurd hv hsecond
        · exact absurd hv hfirst
        · rfl
  · rintro (hneither | hsame | ⟨hfirst, hsecond⟩)
    · exact iff_of_false (fun h => Bool.false_ne_true (h _ hneither))
        fun h => Bool.false_ne_true (h _ hneither)
    · exact forall₂_congr fun v hv => by rw [hsame v hv]
    · exact iff_of_false (fun h => Bool.false_ne_true (h _ hsecond))
        fun h => Bool.false_ne_true (h _ hfirst)

end Places

section Law

variable {rt : Runtime} {u : Unicode} {saved provided : List Char}

theorem Documented.keepsSurrogates (h : Documented rt u) : KeepsSurrogates rt.toLowerInvariant :=
  ⟨h.surrogate, h.whole⟩

/-- What the contestants' service finds, place by place. -/
theorem forall_verdicts_fst (hlength : saved.length = provided.length) :
    (∀ v ∈ verdicts rt u saved provided, v.1 = true) ↔
      saved.map (fun c => (utf16 c).map rt.toLowerInvariant) =
        provided.map (fun c => (utf16 c).map rt.toLowerInvariant) := by
  have hfst : ((saved.zip provided).zip ((pieces u [] saved).zip (pieces u [] provided))).map
      Prod.fst = saved.zip provided := by
    rw [List.map_fst_zip]
    simp only [List.length_zip, length_pieces, le_refl]
  rw [map_eq_map_iff_zip saved provided hlength, verdicts, List.forall_mem_map]
  conv_rhs => rw [← hfst, List.forall_mem_map]
  exact forall₂_congr fun c _ => decide_eq_true_iff

/-- What the platform finds, place by place. -/
theorem forall_verdicts_snd (hlength : saved.length = provided.length) :
    (∀ v ∈ verdicts rt u saved provided, v.2 = true) ↔
      pieces u [] saved = pieces u [] provided := by
  have hsnd : ((saved.zip provided).zip ((pieces u [] saved).zip (pieces u [] provided))).map
      Prod.snd = (pieces u [] saved).zip (pieces u [] provided) := by
    rw [List.map_snd_zip]
    simp only [List.length_zip, length_pieces, le_refl]
  rw [eq_iff_zip _ _ (by rw [length_pieces, length_pieces, hlength]), verdicts,
    List.forall_mem_map]
  conv_rhs => rw [← hsnd, List.forall_mem_map]
  exact forall₂_congr fun c _ => decide_eq_true_iff

/-- Lower cases that stand place by place. -/
theorem aligned_of_map_eq (h : Documented rt u) (before before' : List Char)
    (hmap : saved.map (fun c => (utf16 c).map rt.toLowerInvariant) =
      provided.map (fun c => (utf16 c).map rt.toLowerInvariant)) :
    (pieces u before saved).map List.length = (pieces u before' provided).map List.length := by
  induction saved generalizing provided before before' with
  | nil =>
      obtain rfl := List.map_eq_nil_iff.mp hmap.symm
      rfl
  | cons c saved ih =>
      cases provided with
      | nil => cases hmap
      | cons d provided =>
          rw [List.map_cons, List.map_cons, List.cons.injEq] at hmap
          rw [pieces, pieces, List.map_cons, List.map_cons, h.length c d _ _ _ _ hmap.1,
            ih _ _ hmap.2]

/-- Where lower cases stand place by place, texts are compared place by place. -/
theorem zip_lower_iff (haligned : aligned u saved provided = true) :
    (∀ c ∈ (lower u saved).zip (lower u provided), c.1 = c.2) ↔
      pieces u [] saved = pieces u [] provided := by
  have hlengths := of_decide_eq_true haligned
  have hlength : (lower u saved).length = (lower u provided).length := by
    rw [lower, lower, List.length_flatten, List.length_flatten, hlengths]
  rw [← eq_iff_zip _ _ hlength, lower, lower, List.eq_iff_flatten_eq, and_iff_left hlengths]

/-- What the contestants' service accepts. -/
theorem backend_iff (h : Documented rt u) :
    ChallengeHelper.compareStatic rt (storedFlag (some saved) true) (encode provided) = true ↔
      saved.map (fun c => (utf16 c).map rt.toLowerInvariant) =
        provided.map (fun c => (utf16 c).map rt.toLowerInvariant) := by
  rw [ChallengeHelper.compareStatic_iff, ← map_encode_eq_iff h.keepsSurrogates]
  rfl

/-- What the platform accepts. -/
theorem platform_iff : compare u (some saved) true provided = .ok true ↔
    saved.length = provided.length ∧
      ∀ c ∈ (lower u saved).zip (lower u provided), c.1 = c.2 := by
  rw [compare, ← zipDifference_eq_zero_iff]
  split
  · next hne => simp [hne]
  · next heq => simp [not_not.mp heq]

/-- The platform's verdict decides whether the services agree. -/
theorem sameVerdict_iff_platform (h : Documented rt u) :
    SameVerdict rt u (some saved) true provided ↔
      (saved.map (fun c => (utf16 c).map rt.toLowerInvariant) =
          provided.map (fun c => (utf16 c).map rt.toLowerInvariant) ↔
        saved.length = provided.length ∧
          ∀ c ∈ (lower u saved).zip (lower u provided), c.1 = c.2) ∧
      (saved.length = provided.length →
        (∀ c ∈ (lower u saved).zip (lower u provided), c.1 = c.2) →
          lower u saved = lower u provided) := by
  constructor
  · intro hsame
    refine ⟨?_, fun hlength hzip => hsame.platformExact (platform_iff.mpr ⟨hlength, hzip⟩)⟩
    rw [← backend_iff h, ← platform_iff]
    exact hsame.agree
  · rintro ⟨hagree, hexact⟩
    refine ⟨?_, fun hbackend => ?_, fun hplatform => ?_⟩
    · rw [backend_iff h, platform_iff]
      exact hagree
    · exact (ChallengeHelper.compareStatic_iff rt _ _).mp hbackend
    · obtain ⟨hlength, hzip⟩ := platform_iff.mp hplatform
      exact hexact hlength hzip

/-- Flags that ignore the letter case. -/
theorem sameVerdict_iff_alike (h : Documented rt u) :
    SameVerdict rt u (some saved) true provided ↔ Alike rt u saved provided := by
  rw [sameVerdict_iff_platform h, Alike]
  by_cases hlength : saved.length = provided.length
  · simp only [hlength, true_and, true_imp_iff, ne_eq, not_true_eq_false, false_or]
    split
    · next haligned =>
        rw [zip_lower_iff haligned, ← forall_verdicts_fst (u := u) hlength,
          ← @forall_verdicts_snd rt _ _ _ hlength, ← forall_iff_forall_iff]
        refine and_iff_left fun hpieces => ?_
        rw [forall_verdicts_snd hlength] at hpieces
        rw [lower, lower, hpieces]
    · next hapart =>
        have hdiffer : ¬saved.map (fun c => (utf16 c).map rt.toLowerInvariant) =
            provided.map (fun c => (utf16 c).map rt.toLowerInvariant) :=
          fun hmap => hapart (decide_eq_true (aligned_of_map_eq h [] [] hmap))
        simp only [hdiffer, false_iff, not_forall, exists_prop]
        exact and_iff_left_of_imp fun hne hall => absurd hall (by simpa using hne)
  · refine iff_of_true ⟨iff_of_false (fun hmap => hlength ?_) fun hboth => hlength hboth.1,
      fun heq => absurd heq hlength⟩ (.inl hlength)
    have hmapped := congrArg List.length hmap
    rwa [List.length_map, List.length_map] at hmapped

/-- Flags where letter case counts. -/
theorem sameVerdict_caseSensitive (rt : Runtime) (u : Unicode) (saved provided : List Char) :
    SameVerdict rt u (some saved) false provided := by
  have hbackend : ChallengeHelper.compareStatic rt (storedFlag (some saved) false)
      (encode provided) = true ↔ saved = provided := by
    rw [ChallengeHelper.compareStatic_iff]
    change encode saved = encode provided ↔ saved = provided
    have hmap := map_encode_eq_iff (f := id) ⟨fun _ _ => rfl, fun _ h => h⟩ saved provided
    simp only [List.map_id] at hmap
    rw [hmap]
    exact (List.map_injective_iff.mpr utf16_injective).eq_iff
  have hplatform : compare u (some saved) false provided = .ok true ↔ saved = provided := by
    rw [compare]
    split
    · next hne =>
        refine iff_of_false (by simp) fun heq => hne (congrArg List.length heq)
    · next heq =>
        rw [eq_iff_zip saved provided (not_not.mp heq), ← zipDifference_eq_zero_iff]
        simp
  exact ⟨hbackend.trans hplatform.symm, hbackend.mp, hplatform.mp⟩

/-- A flag without content. -/
theorem sameVerdict_none (rt : Runtime) (u : Unicode) (caseInsensitive : Bool)
    (provided : List Char) :
    SameVerdict rt u none caseInsensitive provided ↔ provided ≠ [] := by
  have hempty : ∀ f : BitVec 16 → BitVec 16, [] = (encode provided).map f ↔ provided = [] := by
    intro f
    cases provided with
    | nil => exact iff_of_true rfl rfl
    | cons c provided =>
        refine iff_of_false (fun h => ?_) (List.cons_ne_nil c provided)
        rcases utf16_cases c with ⟨a, hc, -⟩ | ⟨a, b, hc, -⟩ <;> simp [encode, hc] at h
  have hbackend : ChallengeHelper.compareStatic rt (storedFlag none caseInsensitive)
      (encode provided) = true ↔ provided = [] := by
    rw [ChallengeHelper.compareStatic_iff]
    cases caseInsensitive with
    | true => exact hempty rt.toLowerInvariant
    | false =>
        have hid := hempty id
        rwa [List.map_id] at hid
  constructor
  · intro h hnil
    cases h.agree.mp (hbackend.mpr hnil)
  · intro hne
    refine ⟨iff_of_false (fun h => hne (hbackend.mp h)) nofun, fun h => ?_, nofun⟩
    exact absurd (hbackend.mp h) hne

/-- **When the two services decide alike**: always where letter case counts, and otherwise for
texts that are alike; a flag that has no content is met by the empty text in one of them only. -/
theorem sameVerdict_iff (h : Documented rt u) (content : Option (List Char))
    (caseInsensitive : Bool) (provided : List Char) :
    SameVerdict rt u content caseInsensitive provided ↔
      match content with
      | none => provided ≠ []
      | some saved => caseInsensitive = true → Alike rt u saved provided := by
  cases content with
  | none => exact sameVerdict_none rt u caseInsensitive provided
  | some saved =>
      cases caseInsensitive with
      | true => simpa using sameVerdict_iff_alike h
      | false => exact iff_of_true (sameVerdict_caseSensitive rt u saved provided) nofun

end Law

/-! ### Latin and Greek letters -/

/-- The capital letters of ASCII and Greek. -/
def isCapital (n : ℕ) : Bool := (0x41 ≤ n && n ≤ 0x5A) || (0x391 ≤ n && n ≤ 0x3A9)

/-- A runtime that knows these letters. -/
def someRuntime : Runtime where
  toLowerInvariant c := if isCapital c.toNat then c + 0x20#16 else c
  regexMatch _ _ _ := .error ()

/-- Tables that know these letters, and the dotted capital `İ`, which becomes two characters. -/
def someUnicode : Unicode where
  lowerFull c :=
    if c = 'İ' then ['i', Char.ofNat 0x307]
    else if isCapital c.toNat then [Char.ofNat (c.toNat + 0x20)] else [c]
  cased c := c = 'İ' || isCapital c.toNat || isCapital (c.toNat - 0x20)
  caseIgnorable c := c = '.' || c.toNat = 0x307

theorem length_lowerAt_someUnicode (before : List Char) (c : Char) (after : List Char) :
    (lowerAt someUnicode before c after).length = if c = 'İ' then 2 else 1 := by
  rw [lowerAt]
  by_cases hsigma : c = 'Σ'
  · rw [if_pos hsigma, hsigma]
    rfl
  · rw [if_neg hsigma, someUnicode]
    dsimp only
    split
    · rfl
    · split <;> rfl

/-- The dotted capital is no letter of the runtime. -/
theorem eq_of_toLowerInvariant_eq {c d : Char} (hd : d = 'İ')
    (h : (utf16 c).map someRuntime.toLowerInvariant =
      (utf16 d).map someRuntime.toLowerInvariant) : c = 'İ' := by
  subst hd
  have hunits : (utf16 'İ').map someRuntime.toLowerInvariant = [0x130#16] := by decide
  rw [hunits] at h
  rcases utf16_cases c with ⟨a, hc, -, ha⟩ | ⟨a, b, hc, -⟩
  · rw [hc, List.map_singleton, List.singleton_inj] at h
    have hvalue : a = 0x130#16 := by
      simp only [someRuntime] at h
      split at h
      · next hcapital =>
          simp only [isCapital, Bool.or_eq_true, Bool.and_eq_true, decide_eq_true_iff] at hcapital
          have htoNat := congrArg BitVec.toNat h
          rw [BitVec.toNat_add] at htoNat
          simp only [BitVec.toNat_ofNat] at htoNat
          omega
      · exact h
    apply Char.toNat_inj.mp
    rw [← ha, hvalue]
    rfl
  · rw [hc] at h
    simp at h

theorem documented_example : Documented someRuntime someUnicode where
  surrogate c hc := by
    simp only [isSurrogate, Bool.and_eq_true, decide_eq_true_iff, BitVec.le_def] at hc
    refine if_neg ?_
    simp only [isCapital, Bool.or_eq_true, Bool.and_eq_true, decide_eq_true_iff]
    have hlow : (0xD800#16).toNat = 0xD800 := rfl
    omega
  whole c hc := by
    simp only [someRuntime]
    split
    · next hcapital =>
        simp only [isCapital, Bool.or_eq_true, Bool.and_eq_true, decide_eq_true_iff] at hcapital
        simp only [isSurrogate, Bool.and_eq_false_iff, decide_eq_false_iff_not, BitVec.le_def,
          BitVec.toNat_add, BitVec.toNat_ofNat]
        omega
    · exact hc
  length c d before after before' after' h := by
    rw [length_lowerAt_someUnicode, length_lowerAt_someUnicode]
    by_cases hd : d = 'İ'
    · rw [if_pos hd, if_pos (eq_of_toLowerInvariant_eq hd h)]
    · rw [if_neg hd, if_neg fun hc => hd (eq_of_toLowerInvariant_eq hc h.symm)]

instance (rt : Runtime) (u : Unicode) (saved provided : List Char) :
    Decidable (Alike rt u saved provided) := by
  unfold Alike
  infer_instance

/-- A flag in capital letters. -/
theorem sameVerdict_example :
    SameVerdict someRuntime someUnicode (some ['F', 'Λ']) true ['f', 'λ'] :=
  (sameVerdict_iff documented_example (some ['F', 'Λ']) true ['f', 'λ']).mpr fun _ => by
    decide +kernel

/-- **What goes wrong.** The platform takes `ai` for `aİ`, whose lower case is longer; the
contestants' service takes `ασ` for `ΑΣ`, whose last letter is a final sigma. -/
theorem not_sameVerdict :
    (¬SameVerdict someRuntime someUnicode (some ['a', 'İ']) true ['a', 'i'] ∧
      compare someUnicode (some ['a', 'İ']) true ['a', 'i'] = .ok true ∧
      lower someUnicode ['a', 'i'] ≠ lower someUnicode ['a', 'İ']) ∧
    ¬SameVerdict someRuntime someUnicode (some ['Α', 'Σ']) true ['α', 'σ'] ∧
      ChallengeHelper.compareStatic someRuntime (storedFlag (some ['Α', 'Σ']) true)
        (encode ['α', 'σ']) = true ∧
      compare someUnicode (some ['Α', 'Σ']) true ['α', 'σ'] = .ok false := by
  have hdotted : compare someUnicode (some ['a', 'İ']) true ['a', 'i'] = .ok true := by
    decide +kernel
  have hlower : lower someUnicode ['a', 'i'] ≠ lower someUnicode ['a', 'İ'] := by
    decide +kernel
  have hbackend : ChallengeHelper.compareStatic someRuntime (storedFlag (some ['Α', 'Σ']) true)
      (encode ['α', 'σ']) = true := by
    decide +kernel
  have hplatform : compare someUnicode (some ['Α', 'Σ']) true ['α', 'σ'] = .ok false := by
    decide +kernel
  refine ⟨⟨fun h => ?_, hdotted, hlower⟩, fun h => ?_, hbackend, hplatform⟩
  · exact hlower (h.platformExact hdotted).symm
  · have haccepted := h.agree.mp hbackend
    rw [hplatform] at haccepted
    exact Bool.false_ne_true (Except.ok.inj haccepted)

end StaticFlags

end Fctf
