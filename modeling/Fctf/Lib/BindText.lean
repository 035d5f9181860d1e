import Mathlib.Data.List.Chain
import Mathlib.Data.List.TakeWhile

/-!
# Texts with Bind Parameters

A statement is put together from pieces: literal text, and parameters that are bound by name and
written with a colon in front. Whoever executes it sees the text only and looks for the names in
it again.

## Main results

* `BindText.placeholders_text`: the names found in a text are those of its pieces, in order, if no
  literal has a colon and every parameter stands apart from the words around it.
-/

namespace BindText

/-- A piece of a statement. -/
inductive Piece where
  | sql (text : String)
  | bind (key : String)
  deriving DecidableEq, Repr

/-- What is written of a piece. -/
def Piece.text : Piece → List Char
  | .sql text => text.toList
  | .bind key => ':' :: key.toList

/-- What is written of a statement. -/
def text (pieces : List Piece) : List Char := pieces.flatMap Piece.text

/-- The parameter of a piece. -/
def Piece.key : Piece → Option (List Char)
  | .sql _ => none
  | .bind key => some key.toList

/-- `\w`, of ASCII. -/
def isWord (c : Char) : Bool := c.isAlphanum || c = '_'

/-- May a parameter begin after this character? -/
def opens (prev : Option Char) : Bool := prev.all fun c => !(isWord c || c = ':' || c = '\\')

/-- The name after a colon. -/
def nameOf (rest : List Char) : List Char :=
  let name := rest.takeWhile isWord
  if (rest.dropWhile isWord).head? = some ':' then name.dropLast else name

/-- The names that `text` of SQLAlchemy finds: the matches of `(?<![:\w\\]):(\w+)(?!:)`. -/
def placeholders : Option Char → List Char → List (List Char)
  | _, [] => []
  | prev, c :: rest =>
    (if c = ':' ∧ opens prev = true ∧ nameOf rest ≠ [] then [nameOf rest] else []) ++
      placeholders (some c) rest

/-- A literal without a colon; a parameter with a name. -/
def Piece.Clean : Piece → Prop
  | .sql text => ':' ∉ text.toList
  | .bind key => key.toList ≠ [] ∧ ∀ c ∈ key.toList, isWord c = true

/-- May one piece follow another one? -/
def Fits : Piece → Piece → Prop
  | .sql _, .sql _ => True
  | .sql text, .bind _ => text.toList ≠ [] ∧ opens text.toList.getLast? = true
  | .bind _, .sql text => text.toList.head?.any (fun c => !(isWord c || c = ':')) = true
  | .bind _, .bind _ => False

variable {prev : Option Char} {rest : List Char} {pieces : List Piece}

/-- A text without colons has no names. -/
theorem placeholders_append {front : List Char} (h : ':' ∉ front) :
    placeholders prev (front ++ rest) = placeholders (front.getLast?.or prev) rest := by
  induction front generalizing prev with
  | nil => rfl
  | cons c front ih =>
      rw [List.mem_cons, not_or] at h
      rw [List.cons_append, placeholders, if_neg fun hcolon => h.1 hcolon.1.symm, List.nil_append,
        ih h.2, List.getLast?_cons]
      cases front.getLast? <;> rfl

theorem colon_notMem {key : List Char} (hword : ∀ c ∈ key, isWord c = true) : ':' ∉ key :=
  fun hcolon => absurd (hword ':' hcolon) (by decide)

/-- A name that stands apart is read as a whole. -/
theorem nameOf_append {key : List Char} (hword : ∀ c ∈ key, isWord c = true)
    (hrest : ∀ c, rest.head? = some c → isWord c = false ∧ c ≠ ':') :
    nameOf (key ++ rest) = key := by
  have hstop : rest.takeWhile isWord = [] ∧ rest.dropWhile isWord = rest := by
    cases rest with
    | nil => exact ⟨rfl, rfl⟩
    | cons c rest =>
        have hc := Bool.eq_false_iff.mp (hrest c rfl).1
        exact ⟨List.takeWhile_cons_of_neg hc, List.dropWhile_cons_of_neg hc⟩
  rw [nameOf, List.takeWhile_append_of_pos hword, List.dropWhile_append_of_pos hword, hstop.1,
    hstop.2, List.append_nil, if_neg fun hcolon => (hrest ':' hcolon).2 rfl]

/-- A name that stands apart is found. -/
theorem placeholders_bind {key : List Char} (hopens : opens prev = true) (hkey : key ≠ [])
    (hword : ∀ c ∈ key, isWord c = true)
    (hrest : ∀ c, rest.head? = some c → isWord c = false ∧ c ≠ ':') :
    placeholders prev (':' :: (key ++ rest)) = key :: placeholders key.getLast? rest := by
  have hname := nameOf_append hword hrest
  have hlast : key.getLast?.or (some ':') = key.getLast? := by
    cases hlast : key.getLast? with
    | none => exact absurd (List.getLast?_eq_none_iff.mp hlast) hkey
    | some c => rfl
  rw [placeholders, hname, if_pos ⟨rfl, hopens, hkey⟩, placeholders_append (colon_notMem hword),
    hlast]
  rfl

/-- What begins a text. -/
theorem head?_text {p : Piece} {tail : List Piece} (hne : p.text ≠ []) :
    (text (p :: tail)).head? = p.text.head? := by
  rw [text, List.flatMap_cons, List.head?_append_of_ne_nil _ hne]

/-- **The names of a text** are those of its pieces. -/
theorem placeholders_text (hclean : ∀ p ∈ pieces, p.Clean) (hfits : pieces.IsChain Fits)
    (hopens : ∀ key, pieces.head? = some (.bind key) → opens prev = true) :
    placeholders prev (text pieces) = pieces.filterMap Piece.key := by
  induction pieces generalizing prev with
  | nil => rfl
  | cons p pieces ih =>
      have hrest := fun q hq => hclean q (List.mem_cons_of_mem _ hq)
      have hp := hclean p List.mem_cons_self
      obtain ⟨hnext, hchain⟩ := List.isChain_cons.mp hfits
      cases p with
      | sql s =>
          rw [text, List.flatMap_cons, Piece.text, placeholders_append hp]
          refine ih hrest hchain fun key hhead => ?_
          obtain ⟨hne, hlast⟩ := hnext (.bind key) hhead
          cases hget : s.toList.getLast? with
          | none => exact absurd (List.getLast?_eq_none_iff.mp hget) hne
          | some c => rwa [hget] at hlast
      | bind key =>
          have hstart : ∀ c, (text pieces).head? = some c → isWord c = false ∧ c ≠ ':' := by
            intro c hc
            cases pieces with
            | nil => cases hc
            | cons q pieces =>
                have hq := hnext q rfl
                cases q with
                | bind key' => exact hq.elim
                | sql s =>
                    obtain ⟨d, hd, hnot⟩ := (Option.any_eq_true _ _).mp hq
                    have hne : (Piece.sql s).text ≠ [] := by
                      intro hnil
                      rw [show s.toList = [] from hnil] at hd
                      cases hd
                    rw [head?_text hne, Piece.text, hd, Option.some.injEq] at hc
                    subst hc
                    simpa using hnot
          have hbind : text (.bind key :: pieces) = ':' :: (key.toList ++ text pieces) := rfl
          rw [hbind, placeholders_bind (hopens key rfl) hp.1 hp.2 hstart]
          refine congrArg (key.toList :: ·) (ih hrest hchain fun key' hhead => ?_)
          exact (hnext (.bind key') hhead).elim

/-! ### Statements put together -/

/-- Pieces that a text can be made of, and that go behind any literal. -/
structure Sound (pieces : List Piece) : Prop where
  clean : ∀ p ∈ pieces, p.Clean
  fits : pieces.IsChain Fits
  head : ∀ key, pieces.head? ≠ some (.bind key)

/-- No parameter is at the end. -/
def EndsInSql (pieces : List Piece) : Prop := ∀ key, pieces.getLast? ≠ some (.bind key)

/-- What begins with a literal that stands apart from a word in front of it. -/
def BeginsApart (pieces : List Piece) : Prop :=
  ∀ p, pieces.head? = some p → ∀ key, Fits (.bind key) p

theorem Sound.nil : Sound [] := ⟨nofun, .nil, nofun⟩

theorem BeginsApart.nil : BeginsApart [] := nofun

theorem fits_sql_of_ne_bind {text : String} {q : Piece} (h : ∀ key, q ≠ .bind key) :
    Fits (.sql text) q := by
  cases q with
  | sql text' => trivial
  | bind key => exact absurd rfl (h key)

theorem clean_sql {l : List Char} (h : (l.all fun c => c ≠ ':') = true) :
    (Piece.sql (String.ofList l)).Clean := by
  intro hmem
  rw [String.toList_ofList] at hmem
  exact absurd (List.all_eq_true.mp h _ hmem) (by decide)

theorem clean_bind {l : List Char} (hne : l ≠ []) (h : l.all isWord = true) :
    (Piece.bind (String.ofList l)).Clean := by
  change (String.ofList l).toList ≠ [] ∧ ∀ c ∈ (String.ofList l).toList, isWord c = true
  rw [String.toList_ofList]
  exact ⟨hne, List.all_eq_true.mp h⟩

theorem fits_bind_sql {key : String} {l : List Char}
    (h : (l.head?.any fun c => !(isWord c || c = ':')) = true) :
    Fits (.bind key) (.sql (String.ofList l)) := by
  change ((String.ofList l).toList.head?.any fun c => !(isWord c || c = ':')) = true
  rwa [String.toList_ofList]

theorem fits_sql_bind {key : String} {l : List Char} (h : l ≠ [] ∧ opens l.getLast? = true) :
    Fits (.sql (String.ofList l)) (.bind key) := by
  change (String.ofList l).toList ≠ [] ∧ opens (String.ofList l).toList.getLast? = true
  rwa [String.toList_ofList]

/-- A literal in front. -/
theorem Sound.sql {text : String} (hclean : (Piece.sql text).Clean) (h : Sound pieces) :
    Sound (.sql text :: pieces) where
  clean := List.forall_mem_cons.mpr ⟨hclean, h.clean⟩
  fits := List.isChain_cons.mpr
    ⟨fun _ hq => fits_sql_of_ne_bind fun key heq => h.head key (heq ▸ hq), h.fits⟩
  head := nofun

/-- A literal and a parameter in front. -/
theorem Sound.bind {text key : String} (hclean : (Piece.sql text).Clean)
    (hfits : Fits (.sql text) (.bind key)) (hkey : (Piece.bind key).Clean)
    (hapart : BeginsApart pieces) (h : Sound pieces) :
    Sound (.sql text :: .bind key :: pieces) where
  clean := List.forall_mem_cons.mpr ⟨hclean, List.forall_mem_cons.mpr ⟨hkey, h.clean⟩⟩
  fits := List.isChain_cons_cons.mpr
    ⟨hfits, List.isChain_cons.mpr ⟨fun q hq => hapart q hq key, h.fits⟩⟩
  head := nofun

/-- Pieces in front of others. -/
theorem Sound.append {back : List Piece} (h : Sound pieces) (hback : Sound back)
    (hjoin : EndsInSql pieces ∨ BeginsApart back) : Sound (pieces ++ back) where
  clean := List.forall_mem_append.mpr ⟨h.clean, hback.clean⟩
  fits := by
    refine List.isChain_append.mpr ⟨h.fits, hback.fits, fun p hp q hq => ?_⟩
    rcases hjoin with hends | hapart
    · cases p with
      | sql text => exact fits_sql_of_ne_bind fun key heq => hback.head key (heq ▸ hq)
      | bind key => exact absurd hp (hends key)
    · cases p with
      | sql text => exact fits_sql_of_ne_bind fun key heq => hback.head key (heq ▸ hq)
      | bind key => exact hapart q hq key
  head := fun key hhead => by
    rw [List.head?_append] at hhead
    cases hp : pieces.head? with
    | none => exact hback.head key (by rwa [hp] at hhead)
    | some p => exact h.head key (by rwa [hp] at hhead ⊢)

/-- The names of a text that is put together so. -/
theorem Sound.placeholders_text (h : Sound pieces) :
    placeholders none (text pieces) = pieces.filterMap Piece.key :=
  BindText.placeholders_text h.clean h.fits fun key hhead => absurd hhead (h.head key)

/-- Pieces with a literal between them. -/
theorem Sound.intercalate {sep : String} (hsep : (Piece.sql sep).Clean)
    (hapart : BeginsApart [.sql sep]) {parts : List (List Piece)}
    (h : ∀ part ∈ parts, Sound part) : Sound ([Piece.sql sep].intercalate parts) := by
  induction parts with
  | nil => exact .nil
  | cons part parts ih =>
      obtain ⟨hpart, hrest⟩ := List.forall_mem_cons.mp h
      cases parts with
      | nil => simpa [List.intercalate] using hpart
      | cons next parts =>
          have hcons : [Piece.sql sep].intercalate (part :: next :: parts) =
              part ++ (.sql sep :: [Piece.sql sep].intercalate (next :: parts)) := by
            simp [List.intercalate]
          rw [hcons]
          exact hpart.append ((ih hrest).sql hsep) (.inr fun p hp => hapart p hp)

end BindText
