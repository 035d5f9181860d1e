import Fctf.ChallengeToken
import Fctf.Lib.Path

/-!
# The Address of a Client

`UserHelper.GetIP` goes through the entries of `X-Forwarded-For` and the address of the connection
from the right, past the proxies that are trusted. An IPv4 address in the form of an IPv6 one is
judged as it is written, and loses its prefix afterwards.

## Main results

* `getIP_rightmost`: the right-most entry that is judged untrusted is the answer, whatever stands
  left of it.
* `unforgeable_iff`: when that is the right-most address that is untrusted.
* `not_unforgeable`: patterns for which a proxy is taken for the client.
-/

namespace Fctf.ClientAddress

/-- A string. -/
abbrev Text := List Char

/-- `Trim`. -/
def trim (s : Text) : Text := (s.dropWhile isSpace).rdropWhile isSpace

/-- `::ffff:`, the front of an IPv4 address in the form of an IPv6 one. -/
def mappedFront : Text := "::ffff:".toList

/-- An address without that front. -/
def unmap (addr : Text) : Text :=
  if mappedFront.isPrefixOf addr then addr.drop 7 else addr

/-- `Split(',', RemoveEmptyEntries).Select(ip => ip.Trim())`: an entry of blanks is not removed, and
is empty then. -/
def entries (header : Text) : List Text :=
  ((header.splitOn ',').filter (· ≠ [])).map trim

/-- The entries of the header, and the address of the connection behind them. -/
def chain (header : Text) (remoteIpAddress : Option Text) : List Text :=
  match remoteIpAddress with
  | some remoteAddr => if remoteAddr = [] then entries header else entries header ++ [remoteAddr]
  | none => entries header

/-- `GetIP`, where `trusted` says whether one of the patterns is in an address. -/
def getIP (trusted : Text → Bool) (header : Text) (remoteIpAddress : Option Text) : Text :=
  let route := chain header remoteIpAddress
  let remoteAddr :=
    match route.reverse.find? (fun addr => !trusted addr) with
    | some addr => some addr
    | none => remoteIpAddress
  match remoteAddr with
  | some addr => unmap addr
  | none => "unknown".toList

/-! ### Addresses -/

/-- What an address is taken to be: a text without a comma and without blanks around it. -/
structure Address where
  text : Text
  ne_nil : text ≠ []
  comma_notMem : ',' ∉ text
  trim_text : trim text = text

theorem entries_address (a : Address) : entries a.text = [a.text] := by
  rw [entries, List.splitOn_eq_singleton a.comma_notMem,
    List.filter_cons_of_pos (by simpa using a.ne_nil), List.filter_nil, List.map_singleton,
    a.trim_text]

theorem chain_some (header : Text) (a : Address) :
    chain header (some a.text) = entries header ++ [a.text] :=
  if_neg a.ne_nil

theorem trim_trim (s : Text) : trim (trim s) = trim s := by
  have hfront : ((s.dropWhile isSpace).rdropWhile isSpace).dropWhile isSpace =
      (s.dropWhile isSpace).rdropWhile isSpace := by
    refine List.dropWhile_eq_self_iff.mpr fun hl => ?_
    have hfront := List.rdropWhile_prefix isSpace (s.dropWhile isSpace)
    have hfirst := List.dropWhile_eq_self_iff.mp (List.dropWhile_idempotent isSpace s)
    rw [hfront.getElem hl]
    exact hfirst (hl.trans_le hfront.length_le)
  rw [trim, trim, hfront, List.rdropWhile_idempotent]

/-- An entry is an address, or empty. -/
theorem exists_address_of_mem_entries {header a : Text} (h : a ∈ entries header) :
    a = [] ∨ ∃ b : Address, b.text = a := by
  obtain ⟨part, hpart, rfl⟩ := List.mem_map.mp h
  by_cases hnil : trim part = []
  · exact .inl hnil
  · have hcomma : ',' ∉ part :=
      Path.notMem_of_mem_splitOn (List.mem_of_mem_filter hpart)
    refine .inr ⟨⟨trim part, hnil, fun hmem => hcomma ?_, trim_trim part⟩, rfl⟩
    exact (List.dropWhile_sublist isSpace).subset ((List.rdropWhile_prefix isSpace _).subset hmem)

/-! ### The right-most entry -/

section Rightmost

variable {trusted : Text → Bool} {header : Text} {remoteIpAddress : Option Text}
  {front back : List Text} {a : Text}

/-- **The right-most entry that is judged untrusted** is the answer. -/
theorem getIP_rightmost (hchain : chain header remoteIpAddress = front ++ a :: back)
    (ha : trusted a = false) (hback : ∀ b ∈ back, trusted b = true) :
    getIP trusted header remoteIpAddress = unmap a := by
  have hfind : (chain header remoteIpAddress).reverse.find? (fun addr => !trusted addr) =
      some a := by
    refine List.find?_eq_some_iff_append.mpr
      ⟨by rw [ha]; rfl, back.reverse, front.reverse, ?_, fun b hb => ?_⟩
    · rw [hchain]
      simp
    · rw [hback b (List.mem_reverse.mp hb)]
      rfl
  rw [getIP]
  simp only [hfind]

/-- Where all is trusted, the answer is the address of the connection. -/
theorem getIP_of_forall_trusted {remote : Text}
    (htrusted : ∀ b ∈ chain header (some remote), trusted b = true) :
    getIP trusted header (some remote) = unmap remote := by
  have hfind : (chain header (some remote)).reverse.find? (fun addr => !trusted addr) = none := by
    refine List.find?_eq_none.mpr fun b hb => ?_
    rw [htrusted b (List.mem_reverse.mp hb)]
    decide
  rw [getIP]
  simp only [hfind]

end Rightmost

/-- **The answer cannot be forged**: it is the right-most address of the chain that is untrusted in
its IPv4 form, whatever stands left of it. -/
def Unforgeable (trusted : Text → Bool) : Prop :=
  ∀ (header : Text) (remote : Option Address) (front back : List Text) (a : Text),
    chain header (remote.map Address.text) = front ++ a :: back →
      trusted (unmap a) = false → (∀ b ∈ back, trusted (unmap b) = true) →
        getIP trusted header (remote.map Address.text) = unmap a

/-- What stands left of that address has no influence. -/
theorem Unforgeable.congr {trusted : Text → Bool} (h : Unforgeable trusted)
    {header header' : Text} {remote remote' : Option Address} {front front' back : List Text}
    {a : Text} (hchain : chain header (remote.map Address.text) = front ++ a :: back)
    (hchain' : chain header' (remote'.map Address.text) = front' ++ a :: back)
    (ha : trusted (unmap a) = false) (hback : ∀ b ∈ back, trusted (unmap b) = true) :
    getIP trusted header (remote.map Address.text) =
      getIP trusted header' (remote'.map Address.text) :=
  (h header remote front back a hchain ha hback).trans
    (h header' remote' front' back a hchain' ha hback).symm

theorem mem_chain {header a : Text} {remote : Option Address}
    (h : a ∈ chain header (remote.map Address.text)) : a = [] ∨ ∃ b : Address, b.text = a := by
  cases remote with
  | none => exact exists_address_of_mem_entries h
  | some b =>
      rw [Option.map_some, chain_some] at h
      rcases List.mem_append.mp h with h | h
      · exact exists_address_of_mem_entries h
      · exact .inr ⟨b, (List.mem_singleton.mp h).symm⟩

/-- Patterns that judge each address in both forms alike. -/
theorem unforgeable_of_agree {trusted : Text → Bool}
    (hagree : ∀ a : Address, trusted a.text = trusted (unmap a.text)) : Unforgeable trusted := by
  intro header remote front back a hchain ha hback
  have hmem : ∀ b ∈ chain header (remote.map Address.text), trusted b = trusted (unmap b) := by
    intro b hb
    rcases mem_chain hb with rfl | ⟨b, rfl⟩
    · rfl
    · exact hagree b
  rw [hchain] at hmem
  refine getIP_rightmost hchain ?_ fun b hb => ?_
  · rw [hmem a (by simp), ha]
  · rw [hmem b (by simp [hb]), hback b hb]

/-- An address of one digit that is not the given one. -/
theorem exists_other (x : Text) : ∃ w : Address, unmap w.text = w.text ∧ w.text ≠ x := by
  by_cases hx : x = ['0']
  · exact ⟨⟨['1'], by decide, by decide, by decide⟩, by decide, by rw [hx]; decide⟩
  · exact ⟨⟨['0'], by decide, by decide, by decide⟩, by decide, Ne.symm hx⟩

/-- **When the answer cannot be forged**: if the patterns judge each address in its mapped form as
in its IPv4 form, or if there is nothing that they do not trust. -/
theorem unforgeable_iff (trusted : Text → Bool) :
    Unforgeable trusted ↔
      (∀ a : Address, trusted a.text = trusted (unmap a.text)) ∨
        trusted [] = true ∧ ∀ a : Address, trusted (unmap a.text) = true := by
  constructor
  · intro h
    by_contra hnot
    rw [not_or] at hnot
    obtain ⟨hdiffer, hsome⟩ := hnot
    obtain ⟨a, ha⟩ := not_forall.mp hdiffer
    cases hform : trusted (unmap a.text) with
    | true =>
        -- The proxy `a` is taken for the client `y` in front of it.
        rw [hform] at ha
        have hown : trusted a.text = false := Bool.eq_false_iff.mpr ha
        obtain ⟨header, y, hentries, hy⟩ :
            ∃ header y, entries header = [y] ∧ trusted (unmap y) = false := by
          by_cases hnil : trusted [] = true
          · obtain ⟨y, hy⟩ := not_forall.mp fun hall => hsome ⟨hnil, hall⟩
            exact ⟨y.text, y.text, entries_address y, Bool.eq_false_iff.mpr hy⟩
          · exact ⟨[' '], [], by decide, Bool.eq_false_iff.mpr hnil⟩
        have hchain : chain header ((some a).map Address.text) = [] ++ y :: [a.text] := by
          rw [Option.map_some, chain_some, hentries]
          rfl
        have hspec := h header (some a) [] [a.text] y hchain hy (by simpa using hform)
        have hcode : getIP trusted header ((some a).map Address.text) = unmap a.text :=
          getIP_rightmost (show chain header ((some a).map Address.text) = [y] ++ a.text :: []
            from hchain) hown nofun
        rw [hspec] at hcode
        rw [hcode, hform] at hy
        cases hy
    | false =>
        -- The client `a` is passed over, or the proxy behind it is taken for the client.
        rw [hform] at ha
        have hown : trusted a.text = true := Bool.not_eq_false _ ▸ ha
        obtain ⟨w, hw, hne⟩ := exists_other (unmap a.text)
        cases hother : trusted w.text with
        | false =>
            have hchain : chain w.text ((some a).map Address.text) = [w.text] ++ a.text :: [] := by
              rw [Option.map_some, chain_some, entries_address]
            have hspec := h w.text (some a) [w.text] [] a.text hchain hform nofun
            have hcode : getIP trusted w.text ((some a).map Address.text) = unmap w.text :=
              getIP_rightmost (show chain w.text ((some a).map Address.text) =
                [] ++ w.text :: [a.text] from hchain) hother (by simpa using hown)
            rw [hspec, hw] at hcode
            exact hne hcode.symm
        | true =>
            have hchain : chain a.text ((some w).map Address.text) = [] ++ a.text :: [w.text] := by
              rw [Option.map_some, chain_some, entries_address]
              rfl
            have hspec := h a.text (some w) [] [w.text] a.text hchain hform
              (by simpa [hw] using hother)
            have hcode : getIP trusted a.text (some w.text) = unmap w.text :=
              getIP_of_forall_trusted (by
                rw [chain_some, entries_address]
                simp [hown, hother])
            rw [Option.map_some, hcode, hw] at hspec
            exact hne hspec
  · rintro (hagree | ⟨hnil, hall⟩)
    · exact unforgeable_of_agree hagree
    · intro header remote front back a hchain ha hback
      have hmem : a ∈ chain header (remote.map Address.text) := by
        rw [hchain]
        simp
      rcases mem_chain hmem with rfl | ⟨b, rfl⟩
      · exact absurd (hnil.symm.trans ha) (by decide)
      · exact absurd ((hall b).symm.trans ha) (by decide)

/-- The pattern `^10\.`, a proxy that is seen as `::ffff:10.0.0.1`, and a client in front of it. -/
theorem not_unforgeable : ¬Unforgeable fun addr => "10.".toList.isPrefixOf addr := by
  intro h
  have hanswer := h "203.0.113.7".toList
    (some ⟨"::ffff:10.0.0.1".toList, by decide, by decide, by decide⟩) []
    ["::ffff:10.0.0.1".toList] "203.0.113.7".toList (by decide) (by decide) (by decide)
  revert hanswer
  decide

end Fctf.ClientAddress
