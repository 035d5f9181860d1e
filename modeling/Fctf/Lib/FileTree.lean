import Mathlib.Data.List.Infix
import Mathlib.Logic.Function.Basic

/-!
# File Trees

What lies at which path of a file system: directories and files. Whatever lies somewhere lies
in a directory, so nothing lies below a file.

## Main results

* `FileTree.read_write_same`, `FileTree.read_write_of_ne`: a write of a file.
* `FileTree.read_mkdirs`, `FileTree.isDir_of_mkdirs`: new directories.
* `FileTree.read_delete_of_prefix`, `FileTree.read_delete_of_not_prefix`: the deletion of all
  that lies below a path.
-/

/-- What lies at a path. -/
inductive FileTree.Entry (α : Type*) where
  | dir
  | file (content : α)

/-- A **file tree** over the names `ν` with the contents `α`. -/
structure FileTree (ν α : Type*) where
  /-- What lies at a path, if anything. -/
  entry : List ν → Option (FileTree.Entry α)
  /-- There is a root. -/
  root : entry [] = some .dir
  /-- What lies somewhere lies in a directory. -/
  closed : ∀ {path name}, entry (path ++ [name]) ≠ none → entry path = some .dir

namespace FileTree

variable {ν α : Type*} {t t' : FileTree ν α} {path path' : List ν} {name : ν} {content : α}

/-- Is there a directory? -/
def isDir (t : FileTree ν α) (path : List ν) : Bool :=
  match t.entry path with
  | some .dir => true
  | _ => false

/-- Is there anything? -/
def exists? (t : FileTree ν α) (path : List ν) : Bool := (t.entry path).isSome

/-- The content of a file. -/
def read (t : FileTree ν α) (path : List ν) : Option α :=
  match t.entry path with
  | some (.file content) => some content
  | _ => none

/-- Nothing but the root. -/
def empty [DecidableEq ν] : FileTree ν α where
  entry path := if path = [] then some .dir else none
  root := if_pos rfl
  closed {path name} h := by simp at h

theorem read_empty [DecidableEq ν] (path : List ν) :
    (empty : FileTree ν α).read path = none := by
  by_cases hroot : path = [] <;> simp [read, empty, hroot]

theorem isDir_iff : t.isDir path = true ↔ t.entry path = some .dir := by
  rw [isDir]
  split
  · next h => exact ⟨fun _ => h, fun _ => rfl⟩
  · next h => exact ⟨nofun, fun hdir => absurd hdir h⟩

theorem read_eq_some_iff : t.read path = some content ↔ t.entry path = some (.file content) := by
  rw [read]
  split
  · next h => rw [h, Option.some.injEq, Option.some.injEq, Entry.file.injEq]
  · next h => exact ⟨nofun, fun hfile => absurd hfile (h content)⟩

theorem exists?_of_read (h : t.read path = some content) : t.exists? path = true := by
  rw [exists?, read_eq_some_iff.mp h, Option.isSome_some]

theorem exists?_of_isDir (h : t.isDir path = true) : t.exists? path = true := by
  rw [exists?, isDir_iff.mp h, Option.isSome_some]

/-- A directory is no file. -/
theorem read_eq_none_of_isDir (h : t.isDir path = true) : t.read path = none := by
  rw [read, isDir_iff.mp h]

/-- What is read lies in a directory. -/
theorem isDir_of_read (h : t.read (path ++ [name]) = some content) : t.isDir path = true :=
  isDir_iff.mpr (t.closed (by rw [read_eq_some_iff.mp h]; exact Option.some_ne_none _))

/-- Nothing but directories lies above what is there. -/
theorem isDir_of_prefix (h : t.exists? path' = true) (hbegins : path <+: path')
    (hne : path ≠ path') : t.isDir path = true := by
  obtain ⟨rest, rfl⟩ := hbegins
  induction rest using List.reverseRecOn with
  | nil => exact absurd (List.append_nil path).symm hne
  | append_singleton rest name ih =>
      rw [← List.append_assoc] at h
      have hdir := isDir_iff.mpr (t.closed (Option.isSome_iff_ne_none.mp h))
      cases rest with
      | nil => rwa [List.append_nil] at hdir
      | cons a l =>
          refine ih (exists?_of_isDir hdir) fun heq => ?_
          simpa using congrArg List.length heq

section Changes

variable [DecidableEq ν]

/-- A new entry in a directory. -/
def put (t : FileTree ν α) (path : List ν) (name : ν) (e : Entry α)
    (hdir : t.isDir path = true) (hfree : t.isDir (path ++ [name]) = false) : FileTree ν α where
  entry := Function.update t.entry (path ++ [name]) (some e)
  root := by
    rw [Function.update_of_ne (by simp)]
    exact t.root
  closed {path' name'} h := by
    by_cases heq : path' ++ [name'] = path ++ [name]
    · obtain ⟨rfl, -⟩ := List.append_inj' heq rfl
      rw [Function.update_of_ne (by simp)]
      exact isDir_iff.mp hdir
    · rw [Function.update_of_ne heq] at h
      have hpath := t.closed h
      rw [Function.update_of_ne]
      · exact hpath
      · rintro rfl
        rw [isDir_iff.mpr hpath] at hfree
        cases hfree

/-- A directory is made in another one, where nothing was, if its name fits. -/
def mkdir (fits : ν → Bool) (t : FileTree ν α) (path : List ν) (name : ν) :
    Option (FileTree ν α) :=
  if h : fits name = true ∧ t.isDir path = true ∧ t.exists? (path ++ [name]) = false then
    some (t.put path name .dir h.2.1 (by
      by_contra hdir
      rw [exists?_of_isDir (Bool.not_eq_false _ ▸ hdir)] at h
      cases h.2.2))
  else none

/-- Every directory of a path is made, from where all of them are there, up to one that cannot
be. -/
def mkdirs (fits : ν → Bool) : FileTree ν α → List ν → List ν → Bool × FileTree ν α
  | t, _, [] => (true, t)
  | t, path, name :: rest =>
    if t.isDir (path ++ [name]) then mkdirs fits t (path ++ [name]) rest
    else
      match t.mkdir fits path name with
      | some t' => mkdirs fits t' (path ++ [name]) rest
      | none => (false, t)

/-- A file is written, if its name fits. -/
def write (fits : ν → Bool) (t : FileTree ν α) (path : List ν) (name : ν) (content : α) :
    Option (FileTree ν α) :=
  if h : fits name = true ∧ t.isDir path = true ∧ t.isDir (path ++ [name]) = false then
    some (t.put path name (.file content) h.2.1 h.2.2)
  else none

/-- All that lies at a path and below it is deleted. The root stays. -/
def delete (t : FileTree ν α) (path : List ν) : FileTree ν α where
  entry path' := if path ≠ [] ∧ path <+: path' then none else t.entry path'
  root := by
    rw [if_neg fun h => h.1 (List.prefix_nil.mp h.2)]
    exact t.root
  closed {path' name} h := by
    split at h
    · exact absurd rfl h
    · next hbelow =>
        rw [if_neg fun hbegins => hbelow ⟨hbegins.1, hbegins.2.trans (List.prefix_append _ _)⟩]
        exact t.closed h

/-! ### Writes -/

theorem write_eq_some {fits : ν → Bool} (h : t.write fits path name content = some t') :
    fits name = true ∧ t'.entry =
      Function.update t.entry (path ++ [name]) (some (.file content)) := by
  rw [write] at h
  split at h
  · next hcan =>
      obtain rfl := Option.some.inj h
      exact ⟨hcan.1, rfl⟩
  · cases h

theorem exists_write {fits : ν → Bool} (hname : fits name = true) (hdir : t.isDir path = true)
    (hfree : t.isDir (path ++ [name]) = false) (content : α) :
    ∃ t', t.write fits path name content = some t' :=
  ⟨_, dif_pos ⟨hname, hdir, hfree⟩⟩

theorem read_write_same {fits : ν → Bool} (h : t.write fits path name content = some t') :
    t'.read (path ++ [name]) = some content := by
  rw [read_eq_some_iff, (write_eq_some h).2, Function.update_self]

/-- A write leaves all other files alone. -/
theorem read_write_of_ne {fits : ν → Bool} (h : t.write fits path name content = some t')
    (hne : path' ≠ path ++ [name]) : t'.read path' = t.read path' := by
  rw [read, (write_eq_some h).2, Function.update_of_ne hne, read]

theorem isDir_write {fits : ν → Bool} (h : t.write fits path name content = some t')
    (hne : path' ≠ path ++ [name]) : t'.isDir path' = t.isDir path' := by
  rw [isDir, (write_eq_some h).2, Function.update_of_ne hne, isDir]

/-! ### Directories -/

theorem mkdir_eq_some {fits : ν → Bool} (h : t.mkdir fits path name = some t') :
    t.exists? (path ++ [name]) = false ∧ t'.entry =
      Function.update t.entry (path ++ [name]) (some .dir) := by
  rw [mkdir] at h
  split at h
  · next hcan =>
      obtain rfl := Option.some.inj h
      exact ⟨hcan.2.2, rfl⟩
  · cases h

/-- A new directory changes no file. -/
theorem read_mkdir {fits : ν → Bool} (h : t.mkdir fits path name = some t') :
    t'.read = t.read := by
  obtain ⟨hnew, hentry⟩ := mkdir_eq_some h
  funext path'
  by_cases hpath : path' = path ++ [name]
  · subst hpath
    rw [exists?, Option.isSome_eq_false_iff, Option.isNone_iff_eq_none] at hnew
    rw [read, read, hentry, Function.update_self, hnew]
  · rw [read, read, hentry, Function.update_of_ne hpath]

/-- New directories change no file. -/
theorem read_mkdirs (fits : ν → Bool) (t : FileTree ν α) (path rest : List ν) :
    (t.mkdirs fits path rest).2.read = t.read := by
  fun_induction mkdirs fits t path rest with
  | case1 => rfl
  | case2 t path name rest hdir ih => exact ih
  | case3 t path name rest hdir t' hmkdir ih => exact ih.trans (read_mkdir hmkdir)
  | case4 => rfl

/-- What was made is there. -/
theorem isDir_of_mkdirs {fits : ν → Bool} {rest : List ν}
    (h : (t.mkdirs fits path rest).1 = true) (hpath : t.isDir path = true) :
    (t.mkdirs fits path rest).2.isDir (path ++ rest) = true := by
  fun_induction mkdirs fits t path rest with
  | case1 => rwa [List.append_nil]
  | case2 t path name rest hdir ih =>
      have hmade := ih h hdir
      rwa [List.append_assoc, List.singleton_append] at hmade
  | case3 t path name rest hdir t' hmkdir ih =>
      have hnew : t'.isDir (path ++ [name]) = true := by
        rw [isDir_iff, (mkdir_eq_some hmkdir).2, Function.update_self]
      have hmade := ih h hnew
      rwa [List.append_assoc, List.singleton_append] at hmade
  | case4 => cases h

/-- Directories stay when others are made. -/
theorem isDir_mkdirs {fits : ν → Bool} {rest : List ν} (hdir : t.isDir path' = true) :
    (t.mkdirs fits path rest).2.isDir path' = true := by
  fun_induction mkdirs fits t path rest with
  | case1 => exact hdir
  | case2 t path name rest _ ih => exact ih hdir
  | case3 t path name rest _ t' hmkdir ih =>
      refine ih (isDir_iff.mpr ?_)
      obtain ⟨hnew, hentry⟩ := mkdir_eq_some hmkdir
      rw [hentry, Function.update_of_ne, isDir_iff.mp hdir]
      rintro rfl
      rw [exists?_of_isDir hdir] at hnew
      cases hnew
  | case4 => exact hdir

/-! ### Deletions -/

theorem read_delete_of_prefix (hpath : path ≠ []) (h : path <+: path') :
    (t.delete path).read path' = none := by
  rw [read, delete]
  simp only [if_pos (And.intro hpath h)]

/-- What does not lie below the path stays. -/
theorem read_delete_of_not_prefix (h : ¬path <+: path') :
    (t.delete path).read path' = t.read path' := by
  rw [read, read, delete]
  simp only [if_neg fun hbelow : path ≠ [] ∧ path <+: path' => h hbelow.2]

theorem isDir_delete_of_not_prefix (h : ¬path <+: path') :
    (t.delete path).isDir path' = t.isDir path' := by
  rw [isDir, isDir, delete]
  simp only [if_neg fun hbelow : path ≠ [] ∧ path <+: path' => h hbelow.2]

end Changes

end FileTree
