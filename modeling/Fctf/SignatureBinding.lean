import Fctf.SignedRequest

/-!
# What a Signature Binds

The key of a request is the hash of its values written one after the other, with nothing
between them. So it binds how long the values are only where these are known otherwise: a
digit can move from one field to the next, and a field that is null is as good as an empty
one or none.

## Main results

* `flatMap_inj`: texts of equal lengths are determined by their concatenation.
* `binds_iff`: exactly when two requests are told apart by their keys.
* `not_binds`: a digit that moves from one field to the next.
-/

namespace Fctf

/-- The fields of `ChallengeStartStopReqDTO` but the time, in the order of their names. -/
inductive BodyField
  | challengeId
  | challengeName
  | contestChallengeId
  | contestId
  | ns
  | teamId
  | userId
  deriving DecidableEq, Repr

namespace BodyField

/-- The name of a field. -/
def name : BodyField → String
  | .challengeId => "challengeId"
  | .challengeName => "challengeName"
  | .contestChallengeId => "contestChallengeId"
  | .contestId => "contestId"
  | .ns => "ns"
  | .teamId => "teamId"
  | .userId => "userId"

/-- All fields. -/
def all : List BodyField :=
  [.challengeId, .challengeName, .contestChallengeId, .contestId, .ns, .teamId, .userId]

theorem mem_all (f : BodyField) : f ∈ all := by
  cases f <;> decide

end BodyField

/-- A request: the time it names and the values of the fields that stand in its body. -/
structure SignedBody where
  /-- The time. -/
  unixTime : ℤ
  /-- The values. -/
  value : BodyField → Option JsonElement

namespace SignedBody

/-- The parameters that are signed. -/
def data (body : SignedBody) : List (String × Option String) :=
  BodyField.all.filterMap fun f => (body.value f).map fun v => (f.name, some v.text)

/-- The text of a field; one that is not there has none. -/
def text (body : SignedBody) (f : BodyField) : String := ((body.value f).map (·.text)).getD ""

/-- The secret key of a request. -/
def secretKey (md5 : String → String) (privateKey : String) (body : SignedBody) :
    Except String String :=
  createSecretKey md5 (some privateKey) body.unixTime body.data

/-- The two requests have the same key only if they are the same. -/
def Binds (md5 : String → String) (privateKey : String) (body body' : SignedBody) : Prop :=
  body.secretKey md5 privateKey = body'.secretKey md5 privateKey → body = body'

end SignedBody

/-! ### Texts and their concatenation -/

/-- **Texts of equal lengths** are determined by their concatenation. -/
theorem flatMap_inj {ι α : Type} {g h : ι → List α} {l : List ι}
    (hlength : ∀ i ∈ l, (g i).length = (h i).length) (heq : l.flatMap g = l.flatMap h) :
    ∀ i ∈ l, g i = h i := by
  induction l with
  | nil => exact List.forall_mem_nil _
  | cons i l ih =>
      obtain ⟨hi, hrest⟩ := List.forall_mem_cons.mp hlength
      rw [List.flatMap_cons, List.flatMap_cons] at heq
      obtain ⟨hhead, htail⟩ := List.append_inj heq hi
      exact List.forall_mem_cons.mpr ⟨hhead, ih hrest htail⟩

/-- What sort of value it is. -/
inductive JsonValueKind
  | null
  | true
  | false
  | number
  | string
  | nested
  deriving DecidableEq, Repr

/-- The sort of a value. -/
def JsonElement.valueKind : JsonElement → JsonValueKind
  | .null => .null
  | .true => .true
  | .false => .false
  | .number _ => .number
  | .string _ => .string
  | .nested _ => .nested

/-- A value is determined by its sort and its text. -/
theorem JsonElement.eq_of_text {v w : JsonElement} (hkind : v.valueKind = w.valueKind)
    (htext : v.text = w.text) : v = w := by
  cases v <;> cases w <;>
    first
      | rfl
      | exact congrArg number htext
      | exact congrArg string htext
      | exact congrArg nested htext
      | cases hkind

namespace SignedBody

/-- The parameters are sorted by name. -/
theorem sorted_data (body : SignedBody) : body.data.insertionSort keyLe = body.data := by
  have hnames : BodyField.all.Pairwise fun f g => f.name ≤ g.name := by decide
  refine List.Pairwise.insertionSort_eq (List.pairwise_filterMap.mpr (hnames.imp ?_))
  intro f g hle x hx y hy
  obtain ⟨v, -, rfl⟩ := Option.map_eq_some_iff.mp hx
  obtain ⟨w, -, rfl⟩ := Option.map_eq_some_iff.mp hy
  exact hle

/-- **The text of a request** is that of its fields, one after the other. -/
theorem toList_secretText (privateKey : String) (body : SignedBody) :
    (secretText privateKey body.unixTime body.data).toList =
      body.unixTime.repr.toList ++ privateKey.toList ++
        BodyField.all.flatMap fun f => (body.text f).toList := by
  have hfields : ∀ l : List BodyField,
      ((l.filterMap fun f => (body.value f).map fun v => (f.name, some v.text)).map
        fun x => x.2.getD "1").flatMap String.toList = l.flatMap fun f => (body.text f).toList := by
    intro l
    induction l with
    | nil => rfl
    | cons f l ih =>
        cases hf : body.value f with
        | none =>
            rw [List.filterMap_cons_none (by rw [hf]; rfl), ih, List.flatMap_cons, text, hf]
            rfl
        | some v =>
            rw [List.filterMap_cons_some (by rw [hf]; rfl), List.map_cons, List.flatMap_cons, ih,
              List.flatMap_cons, text, hf]
            rfl
  rw [secretText, sortedValues, sorted_data, String.toList_append, String.toList_append,
    toList_join, data, hfields]

/-- The two requests have the same fields, with values of the same sorts and lengths. -/
structure SameShape (body body' : SignedBody) : Prop where
  /-- The lengths of the times. -/
  unixTime : body.unixTime.repr.toList.length = body'.unixTime.repr.toList.length
  /-- The sorts of the values. -/
  kind : ∀ f, (body.value f).map (·.valueKind) = (body'.value f).map (·.valueKind)
  /-- The lengths of the values. -/
  length : ∀ f, (body.text f).toList.length = (body'.text f).toList.length

/-- **Requests of the same shape** are determined by the text that is hashed. -/
theorem eq_of_secretText {privateKey : String} {body body' : SignedBody}
    (hshape : body.SameShape body')
    (htext : secretText privateKey body.unixTime body.data =
      secretText privateKey body'.unixTime body'.data) : body = body' := by
  have hlist := congrArg String.toList htext
  rw [toList_secretText, toList_secretText, List.append_assoc, List.append_assoc] at hlist
  obtain ⟨htime, hrest⟩ := List.append_inj hlist hshape.unixTime
  have hvalues := flatMap_inj (fun f _ => hshape.length f) (List.append_cancel_left hrest)
  have hvalue : body.value = body'.value := by
    funext f
    have hkind := hshape.kind f
    have hsame : body.text f = body'.text f :=
      String.toList_injective (hvalues f (BodyField.mem_all f))
    rw [text, text] at hsame
    cases hf : body.value f with
    | none =>
        rw [hf] at hkind
        cases hf' : body'.value f with
        | none => rfl
        | some w => rw [hf'] at hkind; cases hkind
    | some v =>
        rw [hf] at hkind hsame
        cases hf' : body'.value f with
        | none => rw [hf'] at hkind; cases hkind
        | some w =>
            rw [hf'] at hkind hsame
            exact congrArg some (JsonElement.eq_of_text (Option.some.inj hkind) hsame)
  cases body
  cases body'
  exact SignedBody.mk.injEq .. ▸ ⟨toList_repr_inj htime, hvalue⟩

end SignedBody

open SignedBody

/-- **A signature binds a request**, beside another one, if and only if the texts differ or
the requests have the same shape. -/
theorem binds_iff (md5 : String → String) (hmd5 : Function.Injective md5) (privateKey : String)
    (body body' : SignedBody) :
    Binds md5 privateKey body body' ↔
      secretText privateKey body.unixTime body.data ≠
          secretText privateKey body'.unixTime body'.data ∨
        SameShape body body' := by
  have hkey : body.secretKey md5 privateKey = body'.secretKey md5 privateKey ↔
      secretText privateKey body.unixTime body.data =
        secretText privateKey body'.unixTime body'.data :=
    ⟨fun h => hmd5 (Except.ok.inj h), fun h => congrArg (fun s => Except.ok (md5 s)) h⟩
  rw [Binds, hkey]
  constructor
  · intro h
    by_cases htext : secretText privateKey body.unixTime body.data =
        secretText privateKey body'.unixTime body'.data
    · obtain rfl := h htext
      exact .inr ⟨rfl, fun _ => rfl, fun _ => rfl⟩
    · exact .inl htext
  · rintro (hne | hshape) htext
    · exact absurd htext hne
    · exact eq_of_secretText hshape htext

/-- A request to start a challenge. -/
def startBody (challengeId contestChallengeId : ℤ) : SignedBody where
  unixTime := 1700000000
  value
    | .challengeId => some (.number challengeId.repr)
    | .contestChallengeId => some (.number contestChallengeId.repr)
    | .contestId => some (.number "1")
    | .challengeName => some (.string "")
    | .ns => some .null
    | .teamId => some (.number "5")
    | .userId => some (.number "9")

/-- The text of a request for challenge 1 or 2. -/
def exampleText (challengeId : ℤ) : String :=
  secretText "secret" 1700000000 (startBody challengeId 7).data

/-- MD5 on the texts of the two requests, and no collision anywhere. -/
def md5Apart (s : String) : String :=
  if s = exampleText 1 ∨ s = exampleText 2 then generateMD5Hash s else "x" ++ s

theorem md5Apart_injective : Function.Injective md5Apart := by
  have hapart : generateMD5Hash (exampleText 1) ≠ generateMD5Hash (exampleText 2) := by
    decide +kernel
  have hhead : ∀ s, s = exampleText 1 ∨ s = exampleText 2 →
      (generateMD5Hash s).toList.head? ≠ some 'x' := by
    rintro s (rfl | rfl) <;> decide +kernel
  have hother : ∀ s : String, ("x" ++ s).toList.head? = some 'x' := fun s => by
    rw [String.toList_append]
    rfl
  intro s s' heq
  rw [md5Apart, md5Apart] at heq
  split at heq
  · next h =>
      split at heq
      · next h' =>
          obtain rfl | rfl := h <;> obtain rfl | rfl := h'
          · rfl
          · exact absurd heq hapart
          · exact absurd heq.symm hapart
          · rfl
      · exact absurd (heq ▸ hother s') (hhead s h)
  · next h =>
      split at heq
      · next h' => exact absurd (heq ▸ hother s) (hhead s' h')
      · refine String.toList_injective ?_
        have hlist := congrArg String.toList heq
        rw [String.toList_append, String.toList_append] at hlist
        exact List.append_cancel_left hlist

/-- Requests for challenges 1 and 2 are told apart. -/
theorem binds_example : Binds md5Apart "secret" (startBody 1 7) (startBody 2 7) :=
  (binds_iff md5Apart md5Apart_injective "secret" (startBody 1 7) (startBody 2 7)).mpr
    (.inr ⟨rfl, fun f => by cases f <;> rfl, fun f => by cases f <;> rfl⟩)

/-- A digit moves to the next field: challenge 1 with the contest's challenge 23 has the key
of challenge 12 with the contest's challenge 3, whatever the hash and the private key. -/
theorem secretKey_startBody (md5 : String → String) (privateKey : String) :
    (startBody 1 23).secretKey md5 privateKey = (startBody 12 3).secretKey md5 privateKey := by
  have hvalues : sortedValues (startBody 1 23).data = sortedValues (startBody 12 3).data := by
    decide +kernel
  rw [secretKey, secretKey, createSecretKey, createSecretKey, secretText, secretText, hvalues]
  rfl

/-- **Two requests with one key.** -/
theorem not_binds : ¬Binds generateMD5Hash "secret" (startBody 1 23) (startBody 12 3) := by
  intro h
  have hfield := congrFun
    (congrArg SignedBody.value (h (secretKey_startBody generateMD5Hash "secret"))) .challengeId
  revert hfield
  decide

end Fctf
