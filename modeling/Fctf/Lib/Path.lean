import Mathlib.Data.List.DropRight
import Mathlib.Data.List.Infix

/-!
# Paths as Text

A path is written with slashes between its names. How paths are put together and taken apart,
and where they lead in a tree of names.

## Main results

* `Path.resolve_join`: where a joined path leads.
* `Path.dirname_slash`: the directory of what lies in it.
* `Path.prefix_getFullPath`: a path below a directory is written in full with the directory in
  front.
-/

namespace Path

/-- A name: what lies between two slashes of a path and is neither `.` nor `..`. -/
structure IsName (name : List Char) : Prop where
  ne_nil : name ≠ []
  noSlash : '/' ∉ name
  ne_dot : name ≠ ['.']
  ne_dotDot : name ≠ ['.', '.']

/-- One name further down, or up. -/
def next (path : List (List Char)) (name : List Char) : List (List Char) :=
  if name = [] ∨ name = ['.'] then path
  else if name = ['.', '.'] then path.dropLast
  else path ++ [name]

/-- Where a text leads from a path. -/
def follow (path : List (List Char)) (text : List Char) : List (List Char) :=
  (text.splitOn '/').foldl next path

/-- Where a text leads from the root. -/
def resolve (text : List Char) : List (List Char) := follow [] text

/-- `os.path.join` of two paths, on POSIX. -/
def join (path rest : List Char) : List Char :=
  if rest.head? = some '/' then rest
  else if path = [] ∨ path.getLast? = some '/' then path ++ rest
  else path ++ '/' :: rest

/-- `os.path.dirname`, on POSIX. -/
def dirname (path : List Char) : List Char :=
  let head := path.rdropWhile (· ≠ '/')
  if head.all (· = '/') then head else head.rdropWhile (· = '/')

/-- `PurePosixPath(path).parts`. -/
def parts (path : List Char) : List (List Char) :=
  let root := if path.head? ≠ some '/' then []
    else if (path.takeWhile (· = '/')).length = 2 then [['/', '/']] else [['/']]
  root ++ (path.splitOn '/').filter fun name => name ≠ [] ∧ name ≠ ['.']

/-- `Path.GetFullPath` of an absolute path, on Unix. -/
def getFullPath (path : List Char) : List Char :=
  match resolve path with
  | [] => ['/']
  | name :: names => (name :: names).flatMap ('/' :: ·) ++
      if path.getLast? = some '/' then ['/'] else []

variable {path rest name name' : List Char}

theorem IsName.head?_ne (h : IsName name) : name.head? ≠ some '/' := by
  intro hhead
  exact h.noSlash (List.mem_of_mem_head? hhead)

theorem next_name (h : IsName name) (path : List (List Char)) :
    next path name = path ++ [name] := by
  rw [next, if_neg (not_or.mpr ⟨h.ne_nil, h.ne_dot⟩), if_neg h.ne_dotDot]

theorem follow_name (h : IsName name) (path : List (List Char)) :
    follow path name = path ++ [name] := by
  rw [follow, List.splitOn_eq_singleton h.noSlash, List.foldl_cons, List.foldl_nil,
    next_name h]

theorem follow_slash (path : List (List Char)) (text rest : List Char) :
    follow path (text ++ '/' :: rest) = follow (follow path text) rest := by
  rw [follow, List.splitOn_append_cons_self, List.foldl_append, follow, follow]

theorem follow_name_slash (h : IsName name) (path : List (List Char)) (rest : List Char) :
    follow path (name ++ '/' :: rest) = follow (path ++ [name]) rest := by
  rw [follow_slash, follow_name h]

theorem resolve_slash (text rest : List Char) :
    resolve (text ++ '/' :: rest) = follow (resolve text) rest :=
  follow_slash [] text rest

/-- Where a joined path leads. -/
theorem resolve_join (h : rest.head? ≠ some '/') (path : List Char) :
    resolve (join path rest) = follow (resolve path) rest := by
  rw [join, if_neg h]
  split
  · next hend =>
      rcases hend with rfl | hend
      · rfl
      · obtain ⟨front, rfl⟩ := List.getLast?_eq_some_iff.mp hend
        have hsame : resolve (front ++ ['/']) = resolve front := resolve_slash front []
        rw [List.append_assoc, List.singleton_append, resolve_slash, hsame]
  · exact resolve_slash path rest

/-- More text at the end of a joined path. -/
theorem join_append (h : rest ≠ []) (path more : List Char) :
    join path (rest ++ more) = join path rest ++ more := by
  rw [join, List.head?_append_of_ne_nil _ h, join]
  split
  · rfl
  · split
    · exact (List.append_assoc _ _ _).symm
    · exact (List.append_assoc path ('/' :: rest) more).symm

theorem getLast?_join (h : rest ≠ []) (path : List Char) :
    (join path rest).getLast? = rest.getLast? := by
  rw [join]
  split
  · rfl
  · split
    · exact List.getLast?_append_of_ne_nil _ h
    · rw [List.append_cons]
      exact List.getLast?_append_of_ne_nil _ h

theorem rdropWhile_append {p : Char → Bool} {l m : List Char} (h : ∀ c ∈ m, p c = true) :
    (l ++ m).rdropWhile p = l.rdropWhile p := by
  induction m using List.reverseRecOn with
  | nil => rw [List.append_nil]
  | append_singleton m c ih =>
      rw [← List.append_assoc, List.rdropWhile_concat_pos _ _ _ (h c (by simp)),
        ih fun d hd => h d (List.mem_append_left _ hd)]

/-- The directory of what lies in it. -/
theorem dirname_slash {c : Char} (h : '/' ∉ name) (hlast : path.getLast? = some c)
    (hc : c ≠ '/') : dirname (path ++ '/' :: name) = path := by
  obtain ⟨front, rfl⟩ := List.getLast?_eq_some_iff.mp hlast
  have hname : ∀ d ∈ name, decide (d ≠ '/') = true := fun d hd =>
    decide_eq_true fun heq => h (heq ▸ hd)
  have hhead : (front ++ [c] ++ '/' :: name).rdropWhile (· ≠ '/') = front ++ [c] ++ ['/'] := by
    rw [List.append_cons, rdropWhile_append hname]
    exact List.rdropWhile_concat_neg _ _ _ (by simp)
  have hall : ¬(front ++ [c] ++ ['/']).all (· = '/') = true := by
    intro hall
    exact hc (of_decide_eq_true (List.all_eq_true.mp hall c (by simp)))
  rw [dirname, hhead, if_neg hall, List.rdropWhile_concat_pos _ _ _ (by simp),
    List.rdropWhile_concat_neg _ _ _ (by simpa using hc)]

/-- There is no separator between two of them. -/
theorem notMem_of_mem_splitOn {sep : Char} {text piece : List Char}
    (h : piece ∈ text.splitOn sep) : sep ∉ piece := by
  induction text generalizing piece with
  | nil =>
      obtain rfl := List.mem_singleton.mp h
      exact List.not_mem_nil
  | cons c text ih =>
      rw [List.splitOn_cons_eq_if_modifyHead] at h
      split at h
      · rcases List.mem_cons.mp h with rfl | h
        · exact List.not_mem_nil
        · exact ih h
      · next hc =>
          cases hsplit : text.splitOn sep with
          | nil => exact absurd hsplit (List.splitOn_ne_nil _ _)
          | cons first pieces =>
              rw [hsplit, List.modifyHead_cons] at h
              rcases List.mem_cons.mp h with rfl | h
              · rw [List.mem_cons, not_or]
                exact ⟨fun heq => hc (beq_iff_eq.mpr heq.symm),
                  ih (hsplit ▸ List.mem_cons_self)⟩
              · exact ih (hsplit ▸ List.mem_cons_of_mem _ h)

/-- A path leads along names. -/
theorem isName_of_mem_resolve {text : List Char} (h : name ∈ resolve text) : IsName name := by
  have hfold (pieces path : List (List Char)) (hpieces : ∀ piece ∈ pieces, '/' ∉ piece)
      (hpath : ∀ n ∈ path, IsName n) : ∀ n ∈ pieces.foldl next path, IsName n := by
    induction pieces generalizing path with
    | nil => exact hpath
    | cons piece pieces ih =>
        refine ih (next path piece) (fun p hp => hpieces p (List.mem_cons_of_mem _ hp)) ?_
        intro n hn
        rw [next] at hn
        split at hn
        · exact hpath n hn
        · next hdot =>
            split at hn
            · exact hpath n (List.mem_of_mem_dropLast hn)
            · next hdots =>
                rcases List.mem_append.mp hn with hn | hn
                · exact hpath n hn
                · obtain rfl := List.mem_singleton.mp hn
                  exact ⟨hdot ∘ .inl, hpieces _ List.mem_cons_self, hdot ∘ .inr, hdots⟩
  exact hfold _ [] (fun piece => notMem_of_mem_splitOn) nofun name h

/-- A path written in full, of which the last name is known. -/
theorem getFullPath_eq {names : List (List Char)} (h : resolve path = names ++ [name])
    (hlast : path.getLast? ≠ some '/') :
    getFullPath path = names.flatMap ('/' :: ·) ++ '/' :: name := by
  rw [getFullPath, h]
  cases names with
  | nil => simp [hlast]
  | cons first names => simp [hlast]

/-- It leads where the path leads. -/
theorem resolve_getFullPath {names : List (List Char)} (h : resolve path = names ++ [name])
    (hlast : path.getLast? ≠ some '/') : resolve (getFullPath path) = names ++ [name] := by
  have hnames : ∀ n ∈ names ++ [name], IsName n := fun n hn => isName_of_mem_resolve (h ▸ hn)
  have hfollow (l path' : List (List Char)) (n : List Char) (hn : ∀ m ∈ n :: l, IsName m) :
      follow path' (n ++ l.flatMap ('/' :: ·)) = path' ++ n :: l := by
    induction l generalizing path' n with
    | nil =>
        rw [List.flatMap_nil, List.append_nil]
        exact follow_name (hn n List.mem_cons_self) path'
    | cons m l ih =>
        rw [List.flatMap_cons, List.cons_append, follow_name_slash (hn n List.mem_cons_self),
          ih (path' ++ [n]) m fun k hk => hn k (List.mem_cons_of_mem _ hk), List.append_assoc,
          List.singleton_append]
  have htext : names.flatMap ('/' :: ·) ++ '/' :: name =
      (names ++ [name]).flatMap ('/' :: ·) := by
    rw [List.flatMap_append, List.flatMap_singleton]
  rw [getFullPath_eq h hlast, htext]
  obtain ⟨first, others, hcons⟩ := List.exists_cons_of_ne_nil (List.concat_ne_nil name names)
  rw [hcons] at hnames ⊢
  rw [List.flatMap_cons, List.cons_append]
  exact (follow_slash [] [] _).trans (hfollow others [] first hnames)

/-- A path below a directory is written in full with the directory in front. -/
theorem prefix_getFullPath {more : List (List Char)} (hfull : getFullPath path = path)
    (hrest : rest.head? ≠ some '/') (hmore : more ≠ [])
    (h : follow (resolve path) rest = resolve path ++ more) :
    path <+: getFullPath (join path rest) := by
  obtain ⟨name, names, rfl⟩ := List.exists_cons_of_ne_nil hmore
  have htext : getFullPath (join path rest) = (resolve path).flatMap ('/' :: ·) ++
      ('/' :: name ++ (names.flatMap ('/' :: ·) ++
        if (join path rest).getLast? = some '/' then ['/'] else [])) := by
    rw [getFullPath, resolve_join hrest, h]
    cases hpath : resolve path with
    | nil => simp
    | cons first others => simp
  rw [htext]
  conv_lhs => rw [← hfull, getFullPath]
  cases hpath : resolve path with
  | nil => exact ⟨name ++ _, rfl⟩
  | cons first others =>
      refine (List.prefix_append_right_inj _).mpr ?_
      split
      · exact ⟨name ++ _, rfl⟩
      · exact List.nil_prefix

end Path
