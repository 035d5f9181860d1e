import Fctf.ChallengeToken

/-!
# Spellings of a Challenge Token

The gateway limits requests and connections by a hash of the token string. The signature in
that string is decoded leniently, so a token that was issued can be written in other ways:
with line breaks in its signature, and with other spare bits in its last character.

## Main results

* `verify_eq_iff`: when two accepted tokens for one payload are the same string.
* `verify_append_lineBreak`: every accepted token has another spelling.
* `not_canonical`: two spellings of one token.
-/

open Base64 (decode lineBreaks spareBits)

namespace Fctf.Gateway

/-- The text of a token that is signed. -/
def payloadText (token : List UInt8) : List UInt8 := (token.splitOn dot).headD []

/-- The text of a token's signature. -/
def signatureText (token : List UInt8) : List UInt8 := (token.splitOn dot).getD 1 []

/-- **Tokens are canonical** under a key: no two strings with one signed text are accepted. -/
def Canonical (secret : String) : Prop :=
  ∀ now now' token token' payload payload', verify secret now token = .ok payload →
    verify secret now' token' = .ok payload' → payloadText token = payloadText token' →
      token = token'

variable {secret : String} {now now' : ℤ} {token token' : List UInt8}
  {payload payload' : Payload}

theorem notMem_of_length_splitOn {l : List UInt8} (h : (l.splitOn dot).length = 1) :
    dot ∉ l := by
  intro hmem
  obtain ⟨a, b, rfl⟩ := List.append_of_mem hmem
  have ha := List.length_pos_iff.mpr (List.splitOn_ne_nil dot a)
  have hb := List.length_pos_iff.mpr (List.splitOn_ne_nil dot b)
  rw [List.splitOn_append_cons_self, List.length_append] at h
  omega

/-- The two parts of a token have no dot. -/
theorem eq_of_splitOn {l text sig : List UInt8} (h : l.splitOn dot = [text, sig]) :
    l = text ++ dot :: sig ∧ dot ∉ text ∧ dot ∉ sig := by
  have hjoin : [dot].intercalate (l.splitOn dot) = l := List.intercalate_splitOn dot
  have heq : l = text ++ dot :: sig := by
    rw [h] at hjoin
    simpa [List.intercalate] using hjoin.symm
  have hlength := congrArg List.length h
  have htext := List.length_pos_iff.mpr (List.splitOn_ne_nil dot text)
  have hsig := List.length_pos_iff.mpr (List.splitOn_ne_nil dot sig)
  rw [heq, List.splitOn_append_cons_self, List.length_append, List.length_cons,
    List.length_singleton] at hlength
  exact ⟨heq, notMem_of_length_splitOn (by omega), notMem_of_length_splitOn (by omega)⟩

/-- An accepted token is its signed text, a dot and its signature. -/
theorem eq_of_verify (h : verify secret now token = .ok payload) :
    token = payloadText token ++ dot :: signatureText token ∧
      decode (signatureText token) = some (Sha256.hmac (utf8 secret) (payloadText token)) := by
  obtain ⟨text, sig, hsplit, -, hsig, -⟩ := verify_eq_ok_iff.mp h
  have htext : payloadText token = text := by rw [payloadText, hsplit, List.headD_cons]
  have hsigText : signatureText token = sig := by rw [signatureText, hsplit]; rfl
  rw [htext, hsigText]
  exact ⟨(eq_of_splitOn hsplit).1, hsig⟩

/-- **When two accepted tokens for one payload are the same**: if their signatures have the
same line breaks in the same places, and the same spare bits in their last characters. -/
theorem verify_eq_iff (h : verify secret now token = .ok payload)
    (h' : verify secret now' token' = .ok payload')
    (htext : payloadText token = payloadText token') :
    token = token' ↔
      lineBreaks (signatureText token) = lineBreaks (signatureText token') ∧
        spareBits (signatureText token) = spareBits (signatureText token') := by
  obtain ⟨htoken, hsig⟩ := eq_of_verify h
  obtain ⟨htoken', hsig'⟩ := eq_of_verify h'
  rw [htext] at hsig
  rw [← Base64.eq_iff_of_decode hsig hsig']
  constructor
  · intro heq
    rw [heq]
  · intro heq
    rw [htoken, htoken', htext, heq]

/-- **Every accepted token has another spelling**: the one with a line break behind it. -/
theorem verify_append_lineBreak (h : verify secret now token = .ok payload) :
    verify secret now (token ++ [10]) = .ok payload := by
  obtain ⟨text, sig, hsplit, hkey, hsig, hrest⟩ := verify_eq_ok_iff.mp h
  refine verify_eq_ok_iff.mpr ⟨text, sig ++ [10], ?_, hkey, ?_, hrest⟩
  · obtain ⟨rfl, htext, hdot⟩ := eq_of_splitOn hsplit
    have hnot : dot ∉ sig ++ [10] := by
      rw [List.mem_append, not_or]
      exact ⟨hdot, by decide⟩
    rw [List.append_assoc, List.cons_append, List.splitOn_append_cons_self,
      List.splitOn_eq_singleton htext, List.splitOn_eq_singleton hnot]
    rfl
  · rw [Base64.decode_append_lineBreak, hsig]

/-- A token for the route `r` up to second 9, under the key `k`. -/
def issued : List UInt8 :=
  utf8 "eyJleHAiOjksInJvdXRlIjoiciJ9.JkUYe-FwvuvgQ2zAiNPEjPsELcuIGvSkOpQpsyOf_Wc"

/-- The same token with another last character. -/
def rewritten : List UInt8 :=
  utf8 "eyJleHAiOjksInJvdXRlIjoiciJ9.JkUYe-FwvuvgQ2zAiNPEjPsELcuIGvSkOpQpsyOf_Wd"

theorem verify_issued : verify "k" 9 issued = .ok ⟨9, "r"⟩ := by
  decide +kernel

theorem verify_rewritten : verify "k" 9 rewritten = .ok ⟨9, "r"⟩ := by
  decide +kernel

theorem verify_eq_iff_issued :
    issued = rewritten ↔
      lineBreaks (signatureText issued) = lineBreaks (signatureText rewritten) ∧
        spareBits (signatureText issued) = spareBits (signatureText rewritten) :=
  verify_eq_iff verify_issued verify_rewritten (by decide +kernel)

theorem not_canonical : ¬Canonical "k" := by
  intro h
  have heq := h 9 9 issued rewritten _ _ verify_issued verify_rewritten (by decide +kernel)
  exact absurd heq (by decide +kernel)

end Fctf.Gateway
