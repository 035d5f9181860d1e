import Fctf.ChallengeToken
import Fctf.Lib.FileTree
import Fctf.Lib.Path
import Fctf.Lib.Table

/-!
# The File Store

The management platform stores uploaded files on a mount that the contestant backend reads.
A file lies in a directory of the mount's directory `file`; both names are cleaned versions of
what the upload says, or the directory is a random one. A row of `Files` has the location, and
an upload to a location that is there changes its row. The deletion of a row deletes its file
together with all that lies in the same directory.

## Main results

* `isolated_iff`: the files of a sequence of uploads and deletions keep out of each other's way
  exactly if its directories and names are cleaned apart and no row is deleted whose directory
  has the file of another one.
* `not_isolated`: two files of one directory, one of them deleted.
-/

namespace Fctf

namespace FileStore

/-- A text. -/
abbrev Text := List Char

/-- The contents of the files on the mount. -/
abbrev Tree := FileTree Text (List UInt8)

/-- `Files.type`. -/
inductive FileType where
  | standard
  | challenge
  deriving DecidableEq, Repr

/-- A row of `Files`. -/
structure FileRow where
  type : FileType
  location : Text
  challengeId : Option ℤ
  deriving DecidableEq, Repr

/-- The rows, and the mount. -/
structure Store where
  rows : Table FileRow
  tree : Tree

/-- What the two services run on. -/
structure Host where
  /-- `secure_filename` of werkzeug. -/
  secureFilename : Text → Text
  /-- Does the file system take a name? -/
  fits : Text → Bool
  /-- What the database looks at when it compares two texts. -/
  collate : Text → Text
  /-- Capital letters, as `StringComparison.OrdinalIgnoreCase` has them. -/
  toUpper : Char → Char
  /-- `NFS_MOUNT_PATH`. -/
  mount : Text
  /-- The mount is written in full. -/
  mount_full : Path.getFullPath mount = mount

/-- What `secure_filename` promises. -/
structure SecureFilename (secureFilename : Text → Text) : Prop where
  chars : ∀ s, ∀ c ∈ secureFilename s, c.isAlphanum = true ∨ c ∈ ['.', '-', '_']
  head : ∀ s, (secureFilename s).head? ≠ some '.'
  last : ∀ s, (secureFilename s).getLast? ≠ some '.'

/-! ### Uploads -/

/-- What ends an upload or a deletion. -/
inductive Exn where
  /-- `ValueError`: the location has not got two parts. -/
  | location
  /-- `Empty filenames cannot be used`. -/
  | emptyFilename
  /-- `Invalid filename`. -/
  | invalidFilename
  /-- `OSError`. -/
  | os
  /-- `first_or_404`. -/
  | notFound
  /-- `IndexError`. -/
  | index
  deriving DecidableEq, Repr

/-- The arguments of `upload_file`, with what `os.urandom(16)` gives. -/
structure UploadRequest where
  filename : Text
  content : List UInt8
  location : Option Text
  type : FileType
  fileUpload : Option Text
  challengeId : Option ℤ
  urandom : Fin 16 → UInt8

/-- `hexencode`. -/
def hexencode (bytes : List UInt8) : Text :=
  bytes.flatMap fun b => [b.toNat / 16, b.toNat % 16].map Nat.digitChar

/-- The directory, if the location has one, and the name. -/
def requested (r : UploadRequest) : Except Exn (Option Text × Text) :=
  match r.location.filter (· ≠ []) with
  | none => .ok (none, r.filename)
  | some location =>
    match Path.parts location with
    | [parent, filename] => .ok (some parent, filename)
    | _ => .error .location

variable (h : Host)

/-- The directory and the name, cleaned. -/
def cleaned (urandom : Fin 16 → UInt8) (path : Option Text) (filename : Text) :
    Except Exn (Text × Text) :=
  if filename = [] then .error .emptyFilename
  else
    let random := hexencode (List.ofFn urandom)
    let path := match path.filter (· ≠ []) with
      | some path =>
        (if h.secureFilename path ≠ [] then h.secureFilename path else random).filter (· ≠ '.')
      | none => random
    let filename := ((h.secureFilename filename).map fun c => if c = ' ' then '_' else c).filter
      fun c => c.isAlphanum || ['.', '-', '_'].contains c
    if filename = [] then .error .invalidFilename else .ok (path, filename)

/-- `NFSUploader.prefix`. -/
def fileDir : Text := "file".toList

/-- `NFSUploader.store`. -/
def store (filename : Text) (content : List UInt8) (t : Tree) : Except Exn Text × Tree :=
  let filenameWithPrefix := Path.join fileDir filename
  let location := Path.join h.mount filenameWithPrefix
  let directory := Path.resolve (Path.dirname location)
  let made := if t.exists? directory then (true, t) else t.mkdirs h.fits [] directory
  if made.1 then
    match (Path.resolve location).getLast? with
    | none => (.error .os, made.2)
    | some name =>
      match made.2.write h.fits (Path.resolve location).dropLast name content with
      | none => (.error .os, made.2)
      | some t' => (.ok filenameWithPrefix, t')
  else (.error .os, made.2)

/-- `NFSUploader.upload`, of a file whose directory and name the location says. -/
def upload (r : UploadRequest) (t : Tree) : Except Exn Text × Tree :=
  match requested r with
  | .error e => (.error e, t)
  | .ok (path, filename) =>
    match cleaned h r.urandom path filename with
    | .error e => (.error e, t)
    | .ok (path, filename) => store h (Path.join path filename) r.content t

/-- `upload_file`. The column of the challenge is one of challenge files only. -/
def uploadFile (r : UploadRequest) (s : Store) : Except Exn (ℕ × FileRow) × Store :=
  let type := if r.fileUpload = some "description".toList then .challenge else r.type
  match upload h r s.tree with
  | (.error e, tree) => (.error e, { s with tree })
  | (.ok location, tree) =>
    match s.rows.rows.find? fun row => h.collate row.2.location = h.collate location with
    | some (id, existing) =>
      let row := ⟨type, location, if type = .challenge ∧ existing.type = .challenge
        then r.challengeId else existing.challengeId⟩
      (.ok (id, row), ⟨s.rows.update id row, tree⟩)
    | none =>
      let row := ⟨type, location, if type = .challenge then r.challengeId else none⟩
      (.ok (s.rows.nextId, row), ⟨s.rows.insert row, tree⟩)

/-! ### Deletions -/

/-- `NFSUploader.delete`. -/
def delete (filename : Text) (t : Tree) : Except Exn Bool × Tree :=
  let filePath := Path.resolve (Path.join h.mount filename)
  if t.exists? filePath then
    let dirPath : Option Text := match Path.parts filename with
      | [] => none
      | [first] => some first
      | first :: second :: _ => some (if first = fileDir then second else first)
    match dirPath with
    | none => (.error .index, t)
    | some dirPath =>
      let fullDirPath := Path.resolve (Path.join (Path.join h.mount fileDir) dirPath)
      (.ok true, if t.isDir fullDirPath then t.delete fullDirPath else t.delete filePath)
  else (.ok false, t)

/-- `delete_file`. -/
def deleteFile (fileId : ℕ) (s : Store) : Except Exn Bool × Store :=
  match s.rows.rows.find? (·.1 = fileId) with
  | none => (.error .notFound, s)
  | some row =>
    match delete h row.2.location s.tree with
    | (.error e, tree) => (.error e, { s with tree })
    | (.ok _, tree) => (.ok true, ⟨s.rows.deleteId fileId, tree⟩)

/-! ### Downloads -/

/-- `FileTokenDTOs`. -/
structure FileToken where
  userId : ℤ
  teamId : Option ℤ
  fileId : ℤ
  deriving DecidableEq, Repr

/-- A challenge of the bank. -/
structure Challenge where
  id : ℤ
  requirements : Option String
  deriving DecidableEq, Repr

/-- A challenge of a contest. -/
structure ContestsChallenge where
  id : ℤ
  contestId : ℤ
  bankId : Option ℤ
  state : Text
  deriving DecidableEq, Repr

/-- A request for a file, with what is read for it besides the files. -/
structure FileRequest where
  /-- The token, if it is a good one. -/
  token : Option FileToken
  userId : ℤ
  contestId : ℤ
  challenges : List Challenge
  contestsChallenges : List ContestsChallenge
  /-- The teams, and the challenges of contests they have solved. -/
  solves : List (ℤ × ℤ)
  /-- The prerequisites in requirements that can be read. -/
  prerequisites : String → Option (Option (List ℤ))

/-- `FileResult`. -/
structure FileResult where
  content : List UInt8
  fileName : Text
  contentType : String
  deriving DecidableEq, Repr

/-- `StartsWith(…, StringComparison.OrdinalIgnoreCase)`. -/
def startsWith (text start : Text) : Bool :=
  (text.take start.length).map h.toUpper = start.map h.toUpper

/-- The access control of challenge files. -/
def challengeAccess (q : FileRequest) (token : FileToken) (file : FileRow) : Bool :=
  match file.challengeId with
  | none => false
  | some challengeId =>
    match q.challenges.find? (·.id = challengeId), q.contestsChallenges.find? fun cc =>
        cc.bankId = some challengeId ∧ cc.contestId = q.contestId with
    | some challenge, some contestChallenge =>
      contestChallenge.state.map h.toUpper ≠ "hidden".toList.map h.toUpper &&
        match challenge.requirements.filter (!isNullOrWhiteSpace ·) with
        | none => true
        | some requirements =>
          match token.teamId, q.prerequisites requirements with
          | some teamId, some prerequisites =>
            let contestChallengeIds := (q.contestsChallenges.filter fun cc =>
              cc.contestId = q.contestId ∧
                cc.bankId.any (prerequisites.getD []).contains).map (·.id)
            contestChallengeIds.all fun ccId => q.solves.contains (teamId, ccId)
          | _, _ => false
    | _, _ => false

/-- What `GetFileAsync` checks before it looks at the mount. -/
def guards (q : FileRequest) (s : Store) (path : Text) : Except String Unit :=
  match q.token.filter (·.userId = q.userId) with
  | none => .error "Invalid or expired token"
  | some token =>
    if isNullOrWhiteSpace (String.ofList path) then .error "File path is required"
    else if startsWith h path "file/".toList = false then .error "Access denied"
    else
      match s.rows.rows.find? fun row =>
          h.collate row.2.location = h.collate path ∧ (row.1 : ℤ) = token.fileId with
      | none => .error "File not found"
      | some row =>
        if row.2.type = .challenge ∧ challengeAccess h q token row.2 = false then
          .error "Access denied"
        else .ok ()

/-- `Path.GetExtension`, in lower case. The stored names are ASCII. -/
def getExtension (fileName : Text) : Text :=
  let extension := fileName.rtakeWhile (· ≠ '.')
  if extension.length = fileName.length ∨ extension = [] then []
  else ('.' :: extension).map Char.toLower

/-- `GetContentType`. -/
def getContentType (fileName : Text) : String :=
  match String.ofList (getExtension fileName) with
  | ".txt" => "text/plain"
  | ".pdf" => "application/pdf"
  | ".doc" => "application/vnd.ms-word"
  | ".docx" => "application/vnd.openxmlformats-officedocument.wordprocessingml.document"
  | ".xls" => "application/vnd.ms-excel"
  | ".xlsx" => "application/vnd.openxmlformats-officedocument.spreadsheetml.sheet"
  | ".png" => "image/png"
  | ".jpg" => "image/jpeg"
  | ".jpeg" => "image/jpeg"
  | ".gif" => "image/gif"
  | ".csv" => "text/csv"
  | ".zip" => "application/zip"
  | ".tar" => "application/x-tar"
  | ".gz" => "application/gzip"
  | _ => "application/octet-stream"

/-- `Path.Combine`. -/
def combine (path rest : Text) : Text := if rest = [] then path else Path.join path rest

/-- How `GetFileAsync` opens a file of the mount. -/
def openFile (t : Tree) (path : Text) : Except String FileResult :=
  let fullPath := Path.getFullPath (combine h.mount path)
  if startsWith h fullPath h.mount = false then .error "Invalid file path"
  else
    match if fullPath.getLast? = some '/' then none else t.read (Path.resolve fullPath) with
    | none => .error "File not found"
    | some content =>
      let fileName := (Path.resolve fullPath).getLastD []
      .ok ⟨content, fileName, getContentType fileName⟩

/-- `GetFileAsync`. -/
def getFileAsync (q : FileRequest) (s : Store) (path : Text) : Except String FileResult :=
  match guards h q s path with
  | .error message => .error message
  | .ok () => openFile h s.tree path

/-! ### Runs -/

/-- An upload or the deletion of a row. -/
inductive Op where
  | upload (r : UploadRequest)
  | delete (fileId : ℕ)

/-- An upload that was carried out: the row it returned, the directory and the name it asked
for, its location and its content. -/
structure Stored where
  fileId : ℕ
  named : Text × Text
  location : Text
  content : List UInt8

/-- The directory and the name an upload asks for. Without a location the directory is the
random one. -/
def UploadRequest.named (r : UploadRequest) : Text × Text :=
  match requested r with
  | .ok (path, filename) => (path.getD (hexencode (List.ofFn r.urandom)), filename)
  | .error _ => (hexencode (List.ofFn r.urandom), r.filename)

/-- One operation, with the uploads carried out so far, the last one first. -/
def step : Store × List Stored → Op → Store × List Stored
  | (s, log), .upload r =>
    match uploadFile h r s with
    | (.ok (id, row), s') => (s', ⟨id, r.named, row.location, r.content⟩ :: log)
    | (.error _, s') => (s', log)
  | (s, log), .delete fileId => ((deleteFile h fileId s).2, log)

/-- A sequence of operations on a mount. -/
def run (t : Tree) (ops : List Op) : Store × List Stored :=
  ops.foldl (step h) (⟨Table.empty, t⟩, [])

/-- Where a location is on the mount. -/
def pathOf (location : Text) : List Text := Path.resolve (Path.join h.mount location)

/-- The directory and the name that the file at a path was stored for. -/
def storedFor (log : List Stored) (path : List Text) : Option (Text × Text) :=
  (log.find? fun e => pathOf h e.location = path).map (·.named)

/-- What was last uploaded to a row. -/
def lastUpload (log : List Stored) (fileId : ℕ) : Option (List UInt8) :=
  (log.find? (·.fileId = fileId)).map (·.content)

/-- What holds of the rows and the mount: every location lies in the directory `file`, and leads
to what was last uploaded. -/
structure StateSafe (x : Store × List Stored) : Prop where
  inFileDir : ∀ row ∈ x.1.rows.rows, ∃ dir name,
    pathOf h row.2.location = Path.resolve h.mount ++ [fileDir, dir, name]
  opens : ∀ row ∈ x.1.rows.rows, ∃ content, lastUpload x.2 row.1 = some content ∧
    x.1.tree.read (pathOf h row.2.location) = some content ∧
    ∀ q, guards h q x.1 row.2.location = .ok () →
      ∃ f, getFileAsync h q x.1 row.2.location = .ok f ∧ f.content = content

/-- What an operation leaves alone: an upload, the files stored for another directory and name;
a deletion, the files of the other rows. -/
def StepSafe (x : Store × List Stored) : Op → Prop
  | .upload r => ∀ path named content, storedFor h x.2 path = some named → named ≠ r.named →
      x.1.tree.read path = some content →
      (step h x (.upload r)).1.tree.read path = some content
  | .delete fileId => ∀ row ∈ x.1.rows.rows, row.1 ≠ fileId →
      (step h x (.delete fileId)).1.tree.read (pathOf h row.2.location) =
        x.1.tree.read (pathOf h row.2.location)

/-- **The files are isolated** in a sequence of operations. -/
def Isolated (t : Tree) (ops : List Op) : Prop :=
  ∀ pre op, pre ++ [op] <+: ops →
    StepSafe h (run h t pre) op ∧ StateSafe h (run h t (pre ++ [op]))

/-- The directory in a location. -/
def folder (location : Text) : Option Text := (Path.parts location)[1]?

/-- When an operation keeps to itself. An upload: no file with another content was stored for
another directory and name and has the same ones, cleaned. A deletion: no other row has the
directory. -/
def Separate (x : Store × List Stored) : Op → Prop
  | .upload r => ∀ path filename dir name content, requested r = .ok (path, filename) →
      cleaned h r.urandom path filename = .ok (dir, name) →
      x.1.tree.read (Path.resolve h.mount ++ [fileDir, dir, name]) = some content →
      content = r.content ∨
        storedFor h x.2 (Path.resolve h.mount ++ [fileDir, dir, name]) = some r.named
  | .delete fileId => ∀ row ∈ x.1.rows.rows, ∀ other ∈ x.1.rows.rows, row.1 = fileId →
      other.1 ≠ fileId → folder other.2.location ≠ folder row.2.location

/-! ### Names -/

section Names

variable {h} {dir name : Text}

/-- Where the file of a directory and a name is stored. -/
def locationOf (dir name : Text) : Text := fileDir ++ '/' :: (dir ++ '/' :: name)

/-- A text of letters, digits, dashes and underscores is a name. -/
theorem isName_of_chars {text : Text} (hne : text ≠ [])
    (hchars : ∀ c ∈ text, c.isAlphanum = true ∨ c ∈ ['-', '_']) : Path.IsName text := by
  have hnot {c : Char} (hc : c.isAlphanum = false ∧ c ∉ ['-', '_']) : c ∉ text := fun hmem =>
    (hchars c hmem).elim (fun halnum => Bool.false_ne_true (hc.1.symm.trans halnum)) hc.2
  have hdot : '.' ∉ text := hnot (by decide)
  refine ⟨hne, hnot (by decide), ?_, ?_⟩ <;>
  · rintro rfl
    exact hdot List.mem_cons_self

theorem isName_fileDir : Path.IsName fileDir :=
  isName_of_chars (by decide) fun c hc => of_decide_eq_true (List.all_eq_true.mp
    (by decide : fileDir.all (fun c => c.isAlphanum = true ∨ c ∈ ['-', '_']) = true) c hc)

theorem isAlphanum_digitChar (n : Fin 16) : n.val.digitChar.isAlphanum = true := by
  revert n
  decide

theorem isAlphanum_of_mem_hexencode {bytes : List UInt8} {c : Char} (hc : c ∈ hexencode bytes) :
    c.isAlphanum = true := by
  obtain ⟨b, -, hb⟩ := List.mem_flatMap.mp hc
  rw [List.map_cons, List.map_singleton, List.mem_cons, List.mem_singleton] at hb
  rcases hb with rfl | rfl
  · exact isAlphanum_digitChar ⟨_, Nat.div_lt_of_lt_mul b.toNat_lt⟩
  · exact isAlphanum_digitChar ⟨_, Nat.mod_lt _ (by decide)⟩

theorem hexencode_ne_nil (urandom : Fin 16 → UInt8) : hexencode (List.ofFn urandom) ≠ [] := by
  rw [hexencode, List.ofFn_succ, List.flatMap_cons]
  exact List.cons_ne_nil _ _

/-- Dots are taken out of a text that does not begin with one. -/
theorem isName_filter_dots {text : Text} (hne : text ≠ []) (hhead : text.head? ≠ some '.')
    (hchars : ∀ c ∈ text, c.isAlphanum = true ∨ c ∈ ['.', '-', '_']) :
    Path.IsName (text.filter (· ≠ '.')) := by
  refine isName_of_chars ?_ fun c hc => ?_
  · obtain ⟨c, rest, rfl⟩ := List.exists_cons_of_ne_nil hne
    have hc : decide (c ≠ '.') = true := decide_eq_true fun hdot => hhead (congrArg some hdot)
    exact List.ne_nil_of_mem (List.mem_filter.mpr ⟨List.mem_cons_self, hc⟩)
  · obtain ⟨hmem, hdot⟩ := List.mem_filter.mp hc
    refine (hchars c hmem).imp_right fun hlist => ?_
    exact (List.mem_cons.mp hlist).resolve_left (of_decide_eq_true hdot)

/-- A text that `secure_filename` returns is a name, if there is anything in it. -/
theorem isName_of_secure {text : Text} (hne : text ≠ []) (hhead : text.head? ≠ some '.')
    (hchars : ∀ c ∈ text, c.isAlphanum = true ∨ c ∈ ['.', '-', '_']) : Path.IsName text := by
  refine ⟨hne, fun hslash => ?_, ?_, ?_⟩
  · exact absurd (hchars '/' hslash) (by decide)
  · rintro rfl
    exact hhead rfl
  · rintro rfl
    exact hhead rfl

/-- Cleaning leaves a text of `secure_filename` alone. -/
theorem cleanFilename_eq {text : Text}
    (hchars : ∀ c ∈ text, c.isAlphanum = true ∨ c ∈ ['.', '-', '_']) :
    ((text.map fun c => if c = ' ' then '_' else c).filter
      fun c => c.isAlphanum || ['.', '-', '_'].contains c) = text := by
  have hspaces : (text.map fun c => if c = ' ' then '_' else c) = text := by
    refine (List.map_congr_left fun c hc => if_neg ?_).trans (List.map_id' text)
    rintro rfl
    exact absurd (hchars ' ' hc) (by decide)
  rw [hspaces, List.filter_eq_self]
  intro c hc
  rw [Bool.or_eq_true_iff, List.contains_iff_mem]
  exact hchars c hc

/-- **What is stored has proper names.** -/
theorem isName_of_cleaned (hsafe : SecureFilename h.secureFilename) {urandom : Fin 16 → UInt8}
    {path : Option Text} {filename : Text}
    (hclean : cleaned h urandom path filename = .ok (dir, name)) :
    Path.IsName dir ∧ Path.IsName name := by
  rw [cleaned] at hclean
  split at hclean
  · cases hclean
  simp only [cleanFilename_eq (hsafe.chars filename)] at hclean
  split at hclean
  · cases hclean
  next hname =>
    obtain ⟨hdir, rfl⟩ := Prod.mk.inj (Except.ok.inj hclean)
    refine ⟨?_, isName_of_secure hname (hsafe.head _) (hsafe.chars _)⟩
    have hchars : ∀ c ∈ hexencode (List.ofFn urandom), c.isAlphanum = true :=
      fun c => isAlphanum_of_mem_hexencode
    have hne := hexencode_ne_nil urandom
    rw [← hdir]
    split
    · split
      · next hpath => exact isName_filter_dots hpath (hsafe.head _) (hsafe.chars _)
      · refine isName_filter_dots hne (fun hhead => ?_) fun c hc => .inl (hchars c hc)
        exact absurd (hchars '.' (List.mem_of_mem_head? hhead)) (by decide)
    · exact isName_of_chars hne fun c hc => .inl (hchars c hc)

end Names

/-! ### What the operations do -/

section Specs

variable {h} {dir name : Text} {t t' : Tree}

/-- The path of the file of a directory and a name. -/
def filePath (h : Host) (dir name : Text) : List Text :=
  Path.resolve h.mount ++ [fileDir, dir, name]

theorem filePath_eq (dir name : Text) :
    filePath h dir name = Path.resolve h.mount ++ [fileDir, dir] ++ [name] := by
  rw [List.append_assoc]
  rfl

theorem head?_fileDir (rest : Text) : (fileDir ++ rest).head? ≠ some '/' := by
  rw [List.head?_append_of_ne_nil _ (by decide)]
  decide

theorem head?_locationOf (dir name : Text) : (locationOf dir name).head? ≠ some '/' :=
  head?_fileDir _

theorem getLast?_ne {text : Text} (htext : Path.IsName text) : text.getLast? ≠ some '/' :=
  fun hlast => htext.noSlash (List.mem_of_getLast? hlast)

theorem join_name {rest : Text} (hdir : Path.IsName dir) (hrest : rest.head? ≠ some '/') :
    Path.join dir rest = dir ++ '/' :: rest := by
  rw [Path.join, if_neg hrest, if_neg (not_or.mpr ⟨hdir.ne_nil, getLast?_ne hdir⟩)]

theorem join_locationOf (hdir : Path.IsName dir) (hname : Path.IsName name) :
    Path.join fileDir (Path.join dir name) = locationOf dir name := by
  rw [join_name hdir hname.head?_ne, join_name isName_fileDir, locationOf]
  rw [List.head?_append_of_ne_nil _ hdir.ne_nil]
  exact hdir.head?_ne

/-- **Every stored location lies in the directory `file`.** -/
theorem pathOf_locationOf (hdir : Path.IsName dir) (hname : Path.IsName name) :
    pathOf h (locationOf dir name) = filePath h dir name := by
  rw [pathOf, locationOf, Path.resolve_join (head?_fileDir _),
    Path.follow_name_slash isName_fileDir, Path.follow_name_slash hdir, Path.follow_name hname,
    List.append_assoc, List.append_assoc]
  rfl

theorem resolve_dirname (hdir : Path.IsName dir) (hname : Path.IsName name) :
    Path.resolve (Path.dirname (Path.join h.mount (locationOf dir name))) =
      Path.resolve h.mount ++ [fileDir, dir] := by
  obtain ⟨c, hc⟩ : ∃ c, dir.getLast? = some c :=
    Option.ne_none_iff_exists'.mp (mt List.getLast?_eq_none_iff.mp hdir.ne_nil)
  have hslash : c ≠ '/' := by
    rintro rfl
    exact getLast?_ne hdir hc
  have hfront : fileDir ++ '/' :: dir ≠ [] := List.append_ne_nil_of_left_ne_nil (by decide) _
  have hjoin : Path.join h.mount (locationOf dir name) =
      Path.join h.mount (fileDir ++ '/' :: dir) ++ '/' :: name := by
    rw [← Path.join_append hfront, locationOf, List.append_assoc, List.cons_append]
  have hlast : (Path.join h.mount (fileDir ++ '/' :: dir)).getLast? = some c := by
    rw [Path.getLast?_join hfront, List.append_cons,
      List.getLast?_append_of_ne_nil _ hdir.ne_nil, hc]
  rw [hjoin, Path.dirname_slash hname.noSlash hlast hslash,
    Path.resolve_join (head?_fileDir _), Path.follow_name_slash isName_fileDir,
    Path.follow_name hdir, List.append_assoc]
  rfl

/-- A file is stored, and no other one changes; or no file changes. -/
theorem store_cases (hdir : Path.IsName dir) (hname : Path.IsName name) (content : List UInt8)
    (t : Tree) :
    (∃ t', store h (Path.join dir name) content t = (.ok (locationOf dir name), t') ∧
      h.fits name = true ∧ t'.read (filePath h dir name) = some content ∧
        ∀ path, path ≠ filePath h dir name → t'.read path = t.read path) ∨
    ∃ t', store h (Path.join dir name) content t = (.error .os, t') ∧ t'.read = t.read := by
  have hpath : Path.resolve (Path.join h.mount (locationOf dir name)) = filePath h dir name :=
    pathOf_locationOf hdir hname
  simp only [store, join_locationOf hdir hname, resolve_dirname hdir hname, hpath, filePath_eq,
    List.getLast?_concat, List.dropLast_concat]
  generalize hmade : (if t.exists? (Path.resolve h.mount ++ [fileDir, dir]) = true then (true, t)
    else t.mkdirs h.fits [] (Path.resolve h.mount ++ [fileDir, dir])) = made
  have hread : made.2.read = t.read := by
    rw [← hmade]
    split
    · rfl
    · exact FileTree.read_mkdirs _ _ _ _
  split
  · cases hwrite : made.2.write h.fits (Path.resolve h.mount ++ [fileDir, dir]) name content with
    | none => exact .inr ⟨_, rfl, hread⟩
    | some t' =>
        refine .inl ⟨t', rfl, (FileTree.write_eq_some hwrite).1, FileTree.read_write_same hwrite,
          fun path hne => ?_⟩
        rw [FileTree.read_write_of_ne hwrite hne, hread]
  · exact .inr ⟨_, rfl, hread⟩

/-- Where a file is, another one can be stored. -/
theorem store_of_read (hdir : Path.IsName dir) (hname : Path.IsName name)
    {content old : List UInt8} (hfits : h.fits name = true)
    (hread : t.read (filePath h dir name) = some old) :
    ∃ t', store h (Path.join dir name) content t = (.ok (locationOf dir name), t') := by
  have hpath : Path.resolve (Path.join h.mount (locationOf dir name)) = filePath h dir name :=
    pathOf_locationOf hdir hname
  rw [filePath_eq] at hread
  have hisDir := FileTree.isDir_of_read hread
  have hfree : t.isDir (Path.resolve h.mount ++ [fileDir, dir] ++ [name]) = false := by
    by_contra htrue
    rw [FileTree.read_eq_none_of_isDir (Bool.not_eq_false _ ▸ htrue)] at hread
    cases hread
  obtain ⟨t', hwrite⟩ := FileTree.exists_write hfits hisDir hfree content
  refine ⟨t', ?_⟩
  simp only [store, join_locationOf hdir hname, resolve_dirname hdir hname, hpath, filePath_eq,
    List.getLast?_concat, List.dropLast_concat, FileTree.exists?_of_isDir hisDir, if_true, hwrite]

/-- The parts of a location. -/
theorem parts_locationOf (hdir : Path.IsName dir) (hname : Path.IsName name) :
    Path.parts (locationOf dir name) = [fileDir, dir, name] := by
  have hsplit : (locationOf dir name).splitOn '/' = [fileDir, dir, name] := by
    rw [locationOf, List.splitOn_append_cons_self, List.splitOn_append_cons_self,
      List.splitOn_eq_singleton isName_fileDir.noSlash, List.splitOn_eq_singleton hdir.noSlash,
      List.splitOn_eq_singleton hname.noSlash]
    rfl
  rw [Path.parts, hsplit, if_pos (head?_locationOf dir name), List.nil_append, List.filter_eq_self]
  intro text htext
  have hisName : Path.IsName text := by
    simp only [List.mem_cons, List.not_mem_nil, or_false] at htext
    rcases htext with rfl | rfl | rfl
    · exact isName_fileDir
    · exact hdir
    · exact hname
  exact decide_eq_true ⟨hisName.ne_nil, hisName.ne_dot⟩

/-- A deletion deletes all files of the directory, if its own file is there. -/
theorem delete_locationOf (hdir : Path.IsName dir) (hname : Path.IsName name)
    {old : List UInt8} (hread : t.read (filePath h dir name) = some old) :
    delete h (locationOf dir name) t =
      (.ok true, t.delete (Path.resolve h.mount ++ [fileDir, dir])) := by
  have hpath : Path.resolve (Path.join h.mount (locationOf dir name)) = filePath h dir name :=
    pathOf_locationOf hdir hname
  have hfull : Path.resolve (Path.join (Path.join h.mount fileDir) dir) =
      Path.resolve h.mount ++ [fileDir, dir] := by
    rw [Path.resolve_join hdir.head?_ne, Path.resolve_join isName_fileDir.head?_ne,
      Path.follow_name isName_fileDir, Path.follow_name hdir, List.append_assoc]
    rfl
  have hisDir : t.isDir (Path.resolve h.mount ++ [fileDir, dir]) = true := by
    rw [filePath_eq] at hread
    exact FileTree.isDir_of_read hread
  simp only [delete, hpath, FileTree.exists?_of_read hread, if_true,
    parts_locationOf hdir hname, hfull, hisDir]

theorem startsWith_of_prefix {text start : Text} (hstart : start <+: text) :
    startsWith h text start = true := by
  rw [startsWith, ← List.prefix_iff_eq_take.mp hstart]
  exact decide_eq_true rfl

/-- A location is opened where its file was stored. -/
theorem openFile_locationOf (hdir : Path.IsName dir) (hname : Path.IsName name) (t : Tree) :
    openFile h t (locationOf dir name) =
      match t.read (filePath h dir name) with
      | none => .error "File not found"
      | some content => .ok ⟨content, name, getContentType name⟩ := by
  have hnil : locationOf dir name ≠ [] := List.append_ne_nil_of_left_ne_nil (by decide) _
  have hresolve : Path.resolve (Path.join h.mount (locationOf dir name)) =
      Path.resolve h.mount ++ [fileDir, dir] ++ [name] :=
    (pathOf_locationOf hdir hname).trans (filePath_eq dir name)
  have hlast : (Path.join h.mount (locationOf dir name)).getLast? ≠ some '/' := by
    rw [Path.getLast?_join hnil, locationOf, ← List.cons_append, ← List.append_assoc,
      List.append_cons, List.getLast?_append_of_ne_nil _ hname.ne_nil]
    exact getLast?_ne hname
  have hmount : startsWith h (Path.getFullPath (Path.join h.mount (locationOf dir name)))
      h.mount = true := by
    refine startsWith_of_prefix (Path.prefix_getFullPath h.mount_full (head?_locationOf _ _)
      (List.cons_ne_nil fileDir [dir, name]) ?_)
    rw [← Path.resolve_join (head?_locationOf dir name)]
    exact pathOf_locationOf hdir hname
  have hfull : (Path.getFullPath (Path.join h.mount (locationOf dir name))).getLast? ≠
      some '/' := by
    rw [Path.getFullPath_eq hresolve hlast, List.append_cons,
      List.getLast?_append_of_ne_nil _ hname.ne_nil]
    exact getLast?_ne hname
  simp only [openFile, combine, if_neg hnil, hmount, Bool.true_eq_false, if_false, if_neg hfull,
    Path.resolve_getFullPath hresolve hlast, List.getLastD_concat, filePath_eq]

/-- What an upload that is carried out does. -/
structure Uploaded (h : Host) (r : UploadRequest) (s s' : Store) (id : ℕ) (row : FileRow)
    (dir name : Text) : Prop where
  cleaned : ∃ path filename, requested r = .ok (path, filename) ∧
    cleaned h r.urandom path filename = .ok (dir, name)
  isName_dir : Path.IsName dir
  isName_name : Path.IsName name
  fits : h.fits name = true
  location : row.location = locationOf dir name
  read : s'.tree.read (filePath h dir name) = some r.content
  others : ∀ path, path ≠ filePath h dir name → s'.tree.read path = s.tree.read path
  rows : ∀ other, other ∈ s'.rows.rows ↔ (other.1 ≠ id ∧ other ∈ s.rows.rows) ∨ other = (id, row)
  apart : ∀ other ∈ s.rows.rows, other.1 ≠ id →
    h.collate other.2.location ≠ h.collate (locationOf dir name)

/-- An upload is carried out, or changes no row and no file. -/
theorem uploadFile_cases (hsafe : SecureFilename h.secureFilename) (r : UploadRequest) (s : Store)
    (hapart : ∀ row ∈ s.rows.rows, ∀ other ∈ s.rows.rows,
      h.collate row.2.location = h.collate other.2.location → row.1 = other.1) :
    (∃ id row s' dir name, uploadFile h r s = (.ok (id, row), s') ∧
      Uploaded h r s s' id row dir name) ∨
    ∃ e s', uploadFile h r s = (.error e, s') ∧ s'.rows = s.rows ∧
      s'.tree.read = s.tree.read := by
  rw [uploadFile, upload]
  cases hrequested : requested r with
  | error e => exact .inr ⟨e, s, rfl, rfl, rfl⟩
  | ok asked =>
      obtain ⟨path, filename⟩ := asked
      dsimp only
      cases hcleaned : cleaned h r.urandom path filename with
      | error e => exact .inr ⟨e, s, rfl, rfl, rfl⟩
      | ok names =>
          obtain ⟨dir, name⟩ := names
          obtain ⟨hdir, hname⟩ := isName_of_cleaned hsafe hcleaned
          dsimp only
          rcases store_cases hdir hname r.content s.tree with
            ⟨t', hstore, hfits, hread, hothers⟩ | ⟨t', hstore, hread⟩
          · rw [hstore]
            have hasked : ∃ path filename, requested r = .ok (path, filename) ∧
                cleaned h r.urandom path filename = .ok (dir, name) :=
              ⟨path, filename, hrequested, hcleaned⟩
            dsimp only
            cases hfind : s.rows.rows.find? fun row =>
                h.collate row.2.location = h.collate (locationOf dir name) with
            | none =>
                refine .inl ⟨_, _, _, dir, name, rfl, hasked, hdir, hname, hfits, rfl, hread,
                  hothers, fun other => ?_, fun other hother _ => ?_⟩
                · rw [Table.mem_insert]
                  refine or_congr_left ⟨fun hother => ⟨?_, hother⟩, And.right⟩
                  exact (s.rows.fresh other hother).ne
                · have hnone := List.find?_eq_none.mp hfind other hother
                  exact of_decide_eq_false (Bool.not_eq_true _ ▸ hnone)
            | some found =>
                obtain ⟨id, existing⟩ := found
                have hmem := List.mem_of_find?_eq_some hfind
                have hsame : h.collate existing.location = h.collate (locationOf dir name) := by
                  simpa using List.find?_some hfind
                refine .inl ⟨_, _, _, dir, name, rfl, hasked, hdir, hname, hfits, rfl, hread,
                  hothers, fun other => Table.mem_update ⟨existing, hmem⟩,
                  fun other hother hne heq => hne ?_⟩
                exact hapart other hother (id, existing) hmem (heq.trans hsame.symm)
          · rw [hstore]
            exact .inr ⟨_, _, rfl, rfl, hread⟩

end Specs

/-! ### Sequences of operations -/

section Sequences

variable {h} {x : Store × List Stored} {t : Tree}

theorem filePath_inj {dir name dir' name' : Text}
    (heq : filePath h dir name = filePath h dir' name') : dir = dir' ∧ name = name' := by
  simpa [filePath] using heq

/-- What holds after operations that kept to themselves. -/
structure Kept (h : Host) (x : Store × List Stored) : Prop where
  rows : ∀ row ∈ x.1.rows.rows, ∃ dir name content, Path.IsName dir ∧ Path.IsName name ∧
    row.2.location = locationOf dir name ∧ lastUpload x.2 row.1 = some content ∧
    x.1.tree.read (filePath h dir name) = some content
  apart : ∀ row ∈ x.1.rows.rows, ∀ other ∈ x.1.rows.rows,
    h.collate row.2.location = h.collate other.2.location → row.1 = other.1
  stored : ∀ path content, x.1.tree.read path = some content →
    Path.resolve h.mount ++ [fileDir] <+: path → ∃ dir name named,
      path = filePath h dir name ∧ h.fits name = true ∧ storedFor h x.2 path = some named

theorem storedFor_cons {e : Stored} {log : List Stored} {path : List Text} :
    storedFor h (e :: log) path =
      if pathOf h e.location = path then some e.named else storedFor h log path := by
  rw [storedFor, List.find?_cons, storedFor]
  by_cases hpath : pathOf h e.location = path <;> simp [hpath]

theorem lastUpload_cons {e : Stored} {log : List Stored} {fileId : ℕ} :
    lastUpload (e :: log) fileId =
      if e.fileId = fileId then some e.content else lastUpload log fileId := by
  rw [lastUpload, List.find?_cons, lastUpload]
  by_cases hid : e.fileId = fileId <;> simp [hid]

/-- Then all locations lead where they should. -/
theorem Kept.stateSafe (hkept : Kept h x) : StateSafe h x where
  inFileDir row hrow := by
    obtain ⟨dir, name, -, hdir, hname, hlocation, -, -⟩ := hkept.rows row hrow
    exact ⟨dir, name, hlocation ▸ pathOf_locationOf hdir hname⟩
  opens row hrow := by
    obtain ⟨dir, name, content, hdir, hname, hlocation, hlast, hread⟩ := hkept.rows row hrow
    refine ⟨content, hlast, ?_, fun q hguards => ?_⟩
    · rw [hlocation, pathOf_locationOf hdir hname, hread]
    · refine ⟨⟨content, name, getContentType name⟩, ?_, rfl⟩
      rw [getFileAsync, hguards, hlocation]
      dsimp only
      rw [openFile_locationOf hdir hname, hread]

/-- What leaves rows and files alone leaves that alone. -/
theorem Kept.of_same {s' : Store} (hkept : Kept h x) (hrows : s'.rows = x.1.rows)
    (hread : s'.tree.read = x.1.tree.read) : Kept h (s', x.2) where
  rows row hrow := by
    simp only [hrows, hread] at hrow ⊢
    exact hkept.rows row hrow
  apart row hrow other hother := by
    simp only [hrows] at hrow hother
    exact hkept.apart row hrow other hother
  stored path content h' := by
    simp only [hread] at h' ⊢
    exact hkept.stored path content h'

/-- An upload keeps all that. -/
theorem Kept.uploaded {r : UploadRequest} {id : ℕ} {row : FileRow} {s' : Store} {dir name : Text}
    (hkept : Kept h x) (hup : Uploaded h r x.1 s' id row dir name) :
    Kept h (s', ⟨id, r.named, row.location, r.content⟩ :: x.2) where
  rows other hother := by
    rcases (hup.rows other).mp hother with ⟨hne, hother⟩ | rfl
    · obtain ⟨dir', name', content, hdir, hname, hlocation, hlast, hread⟩ :=
        hkept.rows other hother
      have hpath : filePath h dir' name' ≠ filePath h dir name := by
        intro heq
        obtain ⟨rfl, rfl⟩ := filePath_inj heq
        exact hup.apart other hother hne (congrArg h.collate hlocation)
      refine ⟨dir', name', content, hdir, hname, hlocation, ?_, ?_⟩
      · rw [lastUpload_cons, if_neg hne.symm, hlast]
      · rw [hup.others _ hpath, hread]
    · exact ⟨dir, name, r.content, hup.isName_dir, hup.isName_name, hup.location,
        lastUpload_cons.trans (if_pos rfl), hup.read⟩
  apart other hother other' hother' hsame := by
    rcases (hup.rows other).mp hother with ⟨hne, hother⟩ | rfl <;>
      rcases (hup.rows other').mp hother' with ⟨hne', hother'⟩ | rfl
    · exact hkept.apart other hother other' hother' hsame
    · exact absurd (hup.location ▸ hsame) (hup.apart other hother hne)
    · exact absurd (hup.location ▸ hsame).symm (hup.apart other' hother' hne')
    · rfl
  stored path content hread hbelow := by
    by_cases hpath : path = filePath h dir name
    · refine ⟨dir, name, r.named, hpath, hup.fits, ?_⟩
      rw [storedFor_cons, hup.location, pathOf_locationOf hup.isName_dir hup.isName_name,
        if_pos hpath.symm]
    · rw [hup.others path hpath] at hread
      obtain ⟨dir', name', named, heq, hfits, hnamed⟩ := hkept.stored path content hread hbelow
      refine ⟨dir', name', named, heq, hfits, ?_⟩
      rw [storedFor_cons, hup.location, pathOf_locationOf hup.isName_dir hup.isName_name,
        if_neg (Ne.symm hpath), hnamed]

theorem Kept.upload (hsafe : SecureFilename h.secureFilename) (hkept : Kept h x)
    (r : UploadRequest) : Kept h (step h x (.upload r)) := by
  rcases uploadFile_cases hsafe r x.1 hkept.apart with
    ⟨id, row, s', dir, name, heq, hup⟩ | ⟨e, s', heq, hrows, hread⟩
  · simp only [step, heq]
    exact hkept.uploaded hup
  · simp only [step, heq]
    exact hkept.of_same hrows hread

/-- **An upload** leaves alone what it should exactly if it keeps to itself. -/
theorem stepSafe_upload_iff (hsafe : SecureFilename h.secureFilename) (hkept : Kept h x)
    (r : UploadRequest) : StepSafe h x (.upload r) ↔ Separate h x (.upload r) := by
  rcases uploadFile_cases hsafe r x.1 hkept.apart with
    ⟨id, row, s', dir, name, heq, hup⟩ | ⟨e, s', heq, hrows, hread⟩
  · obtain ⟨path, filename, hrequested, hcleaned⟩ := hup.cleaned
    have hstep : (step h x (.upload r)).1 = s' := by simp only [step, heq]
    rw [StepSafe, Separate, hstep]
    constructor
    · intro hstays path' filename' dir' name' content hrequested' hcleaned' hread
      obtain ⟨rfl, rfl⟩ := Prod.mk.inj (Except.ok.inj (hrequested.symm.trans hrequested'))
      obtain ⟨rfl, rfl⟩ := Prod.mk.inj (Except.ok.inj (hcleaned.symm.trans hcleaned'))
      obtain ⟨-, -, named, -, -, hnamed⟩ := hkept.stored _ content hread
        ⟨[dir, name], List.append_assoc _ _ _⟩
      by_cases hsame : named = r.named
      · exact .inr (hsame ▸ hnamed)
      · have hnow := hstays _ named content hnamed hsame hread
        exact .inl (Option.some.inj (hnow.symm.trans hup.read))
    · intro hseparate path' named content hnamed hne hread
      by_cases hpath : path' = filePath h dir name
      · subst hpath
        rcases hseparate path filename dir name content hrequested hcleaned hread with rfl | hsame
        · exact hup.read
        · exact absurd (Option.some.inj (hnamed.symm.trans hsame)) hne
      · rw [hup.others _ hpath, hread]
  · have hstep : (step h x (.upload r)).1 = s' := by simp only [step, heq]
    rw [StepSafe, Separate, hstep, hread]
    refine iff_of_true (fun _ _ _ _ _ hfile => hfile) ?_
    -- where a file is, the upload is carried out
    intro path filename dir name content hrequested hcleaned hfile
    obtain ⟨hdir, hname⟩ := isName_of_cleaned hsafe hcleaned
    obtain ⟨dir', name', -, hnames, hfits, -⟩ := hkept.stored _ content hfile
      ⟨[dir, name], List.append_assoc _ _ _⟩
    obtain ⟨rfl, rfl⟩ := filePath_inj hnames
    obtain ⟨t', hstore⟩ : ∃ t', store h (Path.join dir name) r.content x.1.tree =
        (.ok (locationOf dir name), t') := store_of_read hdir hname hfits hfile
    simp only [uploadFile, FileStore.upload, hrequested, hcleaned, hstore] at heq
    split at heq <;> cases heq

/-- Which files a deletion deletes. -/
theorem prefix_filePath_iff {dir dir' name : Text} :
    Path.resolve h.mount ++ [fileDir, dir] <+: filePath h dir' name ↔ dir = dir' := by
  rw [filePath, List.prefix_append_right_inj, List.cons_prefix_cons, List.cons_prefix_cons]
  exact ⟨fun hbegins => hbegins.2.1, fun heq => ⟨rfl, heq, List.nil_prefix⟩⟩

theorem folder_locationOf {dir name : Text} (hdir : Path.IsName dir) (hname : Path.IsName name) :
    folder (locationOf dir name) = some dir := by
  rw [folder, parts_locationOf hdir hname]
  rfl

/-- The deletion of a row that is there, or of none. -/
theorem deleteFile_cases (hkept : Kept h x) (fileId : ℕ) :
    (∃ row dir name, (fileId, row) ∈ x.1.rows.rows ∧ Path.IsName dir ∧ Path.IsName name ∧
      row.location = locationOf dir name ∧ (step h x (.delete fileId)) =
        (⟨x.1.rows.deleteId fileId, x.1.tree.delete (Path.resolve h.mount ++ [fileDir, dir])⟩,
          x.2)) ∨
    ((∀ row ∈ x.1.rows.rows, row.1 ≠ fileId) ∧ step h x (.delete fileId) = x) := by
  cases hfind : x.1.rows.rows.find? (·.1 = fileId) with
  | none =>
      refine .inr ⟨fun row hrow hid => ?_, ?_⟩
      · exact List.find?_eq_none.mp hfind row hrow (decide_eq_true hid)
      · rw [step, deleteFile, hfind]
  | some row =>
      have hmem := List.mem_of_find?_eq_some hfind
      have hid : row.1 = fileId := by simpa using List.find?_some hfind
      obtain ⟨dir, name, content, hdir, hname, hlocation, -, hread⟩ := hkept.rows row hmem
      refine .inl ⟨row.2, dir, name, hid ▸ hmem, hdir, hname, hlocation, ?_⟩
      simp only [step, deleteFile, hfind, hlocation, delete_locationOf hdir hname hread]

/-- **A deletion** leaves alone what it should exactly if no other row has the directory; then
it keeps the rest. -/
theorem stepSafe_delete_iff (hkept : Kept h x) (fileId : ℕ) :
    (StepSafe h x (.delete fileId) ↔ Separate h x (.delete fileId)) ∧
      (Separate h x (.delete fileId) → Kept h (step h x (.delete fileId))) := by
  rw [StepSafe, Separate]
  rcases deleteFile_cases hkept fileId with
    ⟨row, dir, name, hmem, hdir, hname, hlocation, hstep⟩ | ⟨hnone, hstep⟩
  · have hfolder : folder row.location = some dir := hlocation ▸ folder_locationOf hdir hname
    have hrest : ∀ dir' name', dir' ≠ dir →
        (x.1.tree.delete (Path.resolve h.mount ++ [fileDir, dir])).read (filePath h dir' name') =
          x.1.tree.read (filePath h dir' name') := fun dir' name' hne =>
      FileTree.read_delete_of_not_prefix fun hbelow => hne (prefix_filePath_iff.mp hbelow).symm
    have hapart (hseparate : ∀ row ∈ x.1.rows.rows, ∀ other ∈ x.1.rows.rows, row.1 = fileId →
          other.1 ≠ fileId → folder other.2.location ≠ folder row.2.location)
        {other : ℕ × FileRow} (hother : other ∈ x.1.rows.rows) (hne : other.1 ≠ fileId)
        {dir' name' : Text} (hdir' : Path.IsName dir') (hname' : Path.IsName name')
        (hlocation' : other.2.location = locationOf dir' name') : dir' ≠ dir := by
      rintro rfl
      refine hseparate (fileId, row) hmem other hother rfl hne ?_
      rw [hfolder, hlocation', folder_locationOf hdir' hname']
    rw [hstep]
    refine ⟨⟨fun hstays row' hrow' other hother hid hne hsame => ?_,
      fun hseparate other hother hne => ?_⟩, fun hseparate => ⟨?_, ?_, ?_⟩⟩
    · obtain ⟨dir', name', content, hdir', hname', hlocation', -, hread⟩ := hkept.rows other hother
      have hrow : row'.2 = row := Table.eq_of_id (hid ▸ hrow') hmem
      have hnames : dir = dir' := by
        rw [hrow, hfolder, hlocation', folder_locationOf hdir' hname'] at hsame
        exact (Option.some.inj hsame).symm
      have hgone := hstays other hother hne
      rw [hlocation', pathOf_locationOf hdir' hname', hread, FileTree.read_delete_of_prefix
        (List.append_ne_nil_of_right_ne_nil _ (List.cons_ne_nil _ _))
        (prefix_filePath_iff.mpr hnames)] at hgone
      cases hgone
    · obtain ⟨dir', name', content, hdir', hname', hlocation', -, -⟩ := hkept.rows other hother
      rw [hlocation', pathOf_locationOf hdir' hname']
      exact hrest dir' name' (hapart hseparate hother hne hdir' hname' hlocation')
    · intro other hother
      obtain ⟨hother, hne⟩ := Table.mem_delete.mp hother
      obtain ⟨dir', name', content, hdir', hname', hlocation', hlast, hread⟩ :=
        hkept.rows other hother
      refine ⟨dir', name', content, hdir', hname', hlocation', hlast, ?_⟩
      rw [hrest dir' name' (hapart hseparate hother (of_decide_eq_false hne) hdir' hname'
        hlocation'), hread]
    · intro other hother other' hother' hsame
      exact hkept.apart other (Table.mem_delete.mp hother).1 other' (Table.mem_delete.mp hother').1
        hsame
    · intro path content hread hbelow
      by_cases hdeleted : Path.resolve h.mount ++ [fileDir, dir] <+: path
      · rw [FileTree.read_delete_of_prefix
          (List.append_ne_nil_of_right_ne_nil _ (List.cons_ne_nil _ _)) hdeleted] at hread
        cases hread
      · rw [FileTree.read_delete_of_not_prefix hdeleted] at hread
        exact hkept.stored path content hread hbelow
  · rw [hstep]
    refine ⟨iff_of_true (fun _ _ _ => rfl) fun row hrow _ _ hid => ?_, fun _ => hkept⟩
    exact absurd hid (hnone row hrow)

/-- Nothing is stored at first. -/
theorem kept_start (hempty : ∀ path, Path.resolve h.mount ++ [fileDir] <+: path →
    t.read path = none) : Kept h (⟨Table.empty, t⟩, []) where
  rows := nofun
  apart := nofun
  stored path content hread hbelow := by
    rw [hempty path hbelow] at hread
    cases hread

theorem step_keeps (hsafe : SecureFilename h.secureFilename) (hkept : Kept h x) (op : Op) :
    (StepSafe h x op ↔ Separate h x op) ∧ (Separate h x op → Kept h (step h x op)) := by
  cases op with
  | upload r => exact ⟨stepSafe_upload_iff hsafe hkept r, fun _ => hkept.upload hsafe r⟩
  | delete fileId => exact stepSafe_delete_iff hkept fileId

theorem run_concat (t : Tree) (pre : List Op) (op : Op) :
    run h t (pre ++ [op]) = step h (run h t pre) op := by
  rw [run, List.foldl_append]
  rfl

/-- Operations that all kept to themselves. -/
theorem kept_run (hsafe : SecureFilename h.secureFilename)
    (hempty : ∀ path, Path.resolve h.mount ++ [fileDir] <+: path → t.read path = none)
    (ops : List Op) (hops : ∀ pre op, pre ++ [op] <+: ops → Separate h (run h t pre) op) :
    Kept h (run h t ops) := by
  induction ops using List.reverseRecOn with
  | nil => exact kept_start hempty
  | append_singleton pre op ih =>
      have hkept := ih fun pre' op' hbefore =>
        hops pre' op' (hbefore.trans (List.prefix_append _ _))
      rw [run_concat]
      exact (step_keeps hsafe hkept op).2 (hops pre op (List.prefix_refl _))

end Sequences

/-- **When the files are isolated.** Exactly if every upload of the sequence has a directory and
a name that no other ones were cleaned to, or the same content, and no row is deleted while
another one has its directory. -/
theorem isolated_iff (hsafe : SecureFilename h.secureFilename) (t : Tree)
    (hempty : ∀ path, Path.resolve h.mount ++ [fileDir] <+: path → t.read path = none)
    (ops : List Op) :
    Isolated h t ops ↔ ∀ pre op, pre ++ [op] <+: ops → Separate h (run h t pre) op := by
  constructor
  · intro hisolated pre op hbefore
    have hkept : Kept h (run h t pre) := by
      induction pre using List.reverseRecOn generalizing op with
      | nil => exact kept_start hempty
      | append_singleton pre last ih =>
          have hearlier := (List.prefix_append _ [op]).trans hbefore
          have hkept := ih last hearlier
          rw [run_concat]
          have hstep := step_keeps hsafe hkept last
          exact hstep.2 (hstep.1.mp (hisolated pre last hearlier).1)
    exact (step_keeps hsafe hkept op).1.mp (hisolated pre op hbefore).1
  · intro hseparate pre op hbefore
    have hkept := kept_run hsafe hempty pre fun pre' op' hpre =>
      hseparate pre' op' (hpre.trans ((List.prefix_append _ _).trans hbefore))
    have hstep := step_keeps hsafe hkept op
    have hnow := hseparate pre op hbefore
    refine ⟨hstep.1.mpr hnow, ?_⟩
    rw [run_concat]
    exact (hstep.2 hnow).stateSafe

/-! ### Examples -/

/-- White space of `str.split`, among ASCII. -/
def isAsciiSpace (c : Char) : Bool :=
  c = ' ' || (9 ≤ c.toNat && c.toNat ≤ 13) || (28 ≤ c.toNat && c.toNat ≤ 31)

/-- `str.strip`. -/
def strip (p : Char → Bool) (text : Text) : Text := (text.dropWhile p).rdropWhile p

theorem head?_strip {p : Char → Bool} {text : Text} {c : Char}
    (hhead : (strip p text).head? = some c) : p c = false := by
  obtain ⟨rest, hrest⟩ := List.head?_eq_some_iff.mp hhead
  obtain ⟨more, hmore⟩ := List.rdropWhile_prefix p (text.dropWhile p)
  have hfirst := List.head?_dropWhile_not p text
  rwa [← hmore, show (text.dropWhile p).rdropWhile p = _ from hrest] at hfirst

theorem getLast?_strip {p : Char → Bool} {text : Text} {c : Char}
    (hlast : (strip p text).getLast? = some c) : p c = false := by
  obtain ⟨front, hfront⟩ := List.getLast?_eq_some_iff.mp hlast
  have hne : (text.dropWhile p).rdropWhile p ≠ [] := by
    rw [show (text.dropWhile p).rdropWhile p = _ from hfront]
    exact List.concat_ne_nil _ _
  have hnot := List.rdropWhile_last_not p _ hne
  have hc : ((text.dropWhile p).rdropWhile p).getLast hne = c :=
    List.getLast_of_getLast?_eq_some hlast
  rwa [hc, Bool.not_eq_true] at hnot

/-- `secure_filename`, of ASCII texts. -/
def asciiFilename (text : Text) : Text :=
  let words := ((text.map fun c => if c = '/' then ' ' else c).splitOnP isAsciiSpace).filter
    (· ≠ [])
  strip (['.', '_'].contains ·)
    ((['_'].intercalate words).filter fun c => c.isAlphanum || ['.', '-', '_'].contains c)

theorem secureFilename_ascii : SecureFilename asciiFilename where
  chars text c hc := by
    have hmem := (List.dropWhile_suffix _).mem ((List.rdropWhile_prefix _ _).mem hc)
    have hkept := (List.mem_filter.mp hmem).2
    rwa [Bool.or_eq_true_iff, List.contains_iff_mem] at hkept
  head text hhead := absurd (head?_strip hhead) (by decide)
  last text hlast := absurd (getLast?_strip hlast) (by decide)

/-- The hosts of the platform, for ASCII texts. -/
def asciiHost : Host where
  secureFilename := asciiFilename
  fits name := name.length ≤ 255
  collate text := text.map Char.toLower
  toUpper := Char.toUpper
  mount := "/mnt/nfs/data".toList
  mount_full := by decide +kernel

/-- An upload of a byte. -/
def uploadTo (location : String) (byte : UInt8) : Op :=
  .upload ⟨"file".toList, [byte], some location.toList, .standard, none, none, fun _ => 0⟩

theorem separate_upload {x : Store × List Stored} {r : UploadRequest} {path : Option Text}
    {filename dir name : Text} (hrequested : requested r = .ok (path, filename))
    (hcleaned : cleaned h r.urandom path filename = .ok (dir, name))
    (hfile : ∀ content, x.1.tree.read (filePath h dir name) = some content →
      content = r.content ∨ storedFor h x.2 (filePath h dir name) = some r.named) :
    Separate h x (.upload r) := by
  intro path' filename' dir' name' content hrequested' hcleaned'
  obtain ⟨rfl, rfl⟩ := Prod.mk.inj (Except.ok.inj (hrequested.symm.trans hrequested'))
  obtain ⟨rfl, rfl⟩ := Prod.mk.inj (Except.ok.inj (hcleaned.symm.trans hcleaned'))
  exact hfile content

theorem isolated_example : Isolated asciiHost FileTree.empty
    [uploadTo "handouts/a.zip" 1, uploadTo "writeups/a.zip" 2, .delete 1] := by
  refine (isolated_iff asciiHost secureFilename_ascii FileTree.empty
    (fun path _ => FileTree.read_empty path) _).mpr fun pre op hbefore => ?_
  rcases pre with _ | ⟨first, _ | ⟨second, _ | ⟨third, pre⟩⟩⟩ <;>
    simp only [List.nil_append, List.cons_append, List.cons_prefix_cons, List.prefix_nil,
      List.append_eq_nil_iff, List.cons_ne_nil, and_false, List.nil_prefix, and_true] at hbefore
  · obtain rfl := hbefore
    have hcleaned : cleaned asciiHost (fun _ => 0) (some "handouts".toList) "a.zip".toList =
        .ok ("handouts".toList, "a.zip".toList) := by decide +kernel
    refine separate_upload asciiHost rfl hcleaned fun content hread => ?_
    have hnone : (run asciiHost FileTree.empty []).1.tree.read
        (filePath asciiHost "handouts".toList "a.zip".toList) = none := FileTree.read_empty _
    rw [hnone] at hread
    cases hread
  · obtain ⟨rfl, rfl⟩ := hbefore
    have hcleaned : cleaned asciiHost (fun _ => 0) (some "writeups".toList) "a.zip".toList =
        .ok ("writeups".toList, "a.zip".toList) := by decide +kernel
    refine separate_upload asciiHost rfl hcleaned fun content hread => ?_
    have hnone : (run asciiHost FileTree.empty [uploadTo "handouts/a.zip" 1]).1.tree.read
        (filePath asciiHost "writeups".toList "a.zip".toList) = none := by decide +kernel
    rw [hnone] at hread
    cases hread
  · obtain ⟨rfl, rfl, rfl⟩ := hbefore
    have hrows : ∀ row ∈ (run asciiHost FileTree.empty [uploadTo "handouts/a.zip" 1,
        uploadTo "writeups/a.zip" 2]).1.rows.rows, ∀ other ∈ (run asciiHost FileTree.empty
          [uploadTo "handouts/a.zip" 1, uploadTo "writeups/a.zip" 2]).1.rows.rows,
        row.1 = 1 → other.1 ≠ 1 → folder other.2.location ≠ folder row.2.location := by
      decide +kernel
    exact hrows

/-- Two files of one directory, one of them deleted. -/
def handouts : List Op := [uploadTo "handouts/a.zip" 1, uploadTo "handouts/b.zip" 2, .delete 1]

/-- **What goes wrong.** The deletion of a row deletes the file of another one, which keeps its
row; an upload with a name of its own takes over the row and the file of another one. -/
theorem not_isolated :
    ¬(∀ (h : Host) (t : Tree) (ops : List Op), SecureFilename h.secureFilename →
        (∀ path, Path.resolve h.mount ++ [fileDir] <+: path → t.read path = none) →
        Isolated h t ops) ∧
      ((run asciiHost FileTree.empty handouts).1.rows.rows =
          [(2, ⟨.standard, "file/handouts/b.zip".toList, none⟩)] ∧
        openFile asciiHost (run asciiHost FileTree.empty handouts).1.tree
          "file/handouts/b.zip".toList = .error "File not found") ∧
      ((run asciiHost FileTree.empty
          [uploadTo "v1.0/notes.txt" 1, uploadTo "v10/notes.txt" 2]).1.rows.rows =
          [(1, ⟨.standard, "file/v10/notes.txt".toList, none⟩)] ∧
        (run asciiHost FileTree.empty
          [uploadTo "v1.0/notes.txt" 1, uploadTo "v10/notes.txt" 2]).1.tree.read
            (filePath asciiHost "v10".toList "notes.txt".toList) = some [2]) := by
  refine ⟨fun hall => ?_, by decide +kernel, by decide +kernel⟩
  have hisolated := hall asciiHost FileTree.empty handouts secureFilename_ascii
    (fun path _ => FileTree.read_empty path)
  obtain ⟨-, hsafe⟩ := hisolated [uploadTo "handouts/a.zip" 1, uploadTo "handouts/b.zip" 2]
    (.delete 1) (List.prefix_refl _)
  obtain ⟨content, -, hread, -⟩ := hsafe.opens (2, ⟨.standard, "file/handouts/b.zip".toList, none⟩)
    (by decide +kernel)
  have hnone : (run asciiHost FileTree.empty handouts).1.tree.read
      (pathOf asciiHost "file/handouts/b.zip".toList) = none := by decide +kernel
  exact Option.some_ne_none _ (hread.symm.trans hnone)

end FileStore

end Fctf
