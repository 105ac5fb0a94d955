import CloudBrowser.JsonText
import CloudBrowser.KeyedTable
import Mathlib.Data.List.Sort

/-! The backup of the downloads volume, a tar archive with a manifest, and its restore into a
directory. File names are the bytes that the file system keeps. -/
namespace CloudBrowser
namespace Backup

inductive BackupError
  | valueError (message : String)
  | unicodeEncodeError
  /-- Whatever else the operating system, `tarfile` or a lookup raises. -/
  | other
  deriving DecidableEq, Repr

/-! ### Paths -/

def slash : UInt8 := 0x2F

def dot : Bytes := [0x2E]

def dotdot : Bytes := [0x2E,0x2E]

def manifestName : Bytes := Text.encodeUtf8 "cloudfiles-backup-manifest.json"

/-- A path as `pathlib` has it: its leading slashes, none of one to two, and its parts. -/
structure PurePath where
  slashes : ℕ := 0
  parts : List Bytes
  deriving DecidableEq

def leadingSlashes (name : Bytes) : ℕ :=
  match name.takeWhile (· = slash) with
  | [] => 0
  | [_,_] => 2
  | _ => 1

def components (name : Bytes) : List Bytes := name.splitOn slash

/-- The components but for the empty ones and the dots. -/
def proper (name : Bytes) : List Bytes := (components name).filter fun c => c ≠ [] ∧ c ≠ dot

def purePath (name : Bytes) : PurePath := ⟨leadingSlashes name,proper name⟩

/-- `".."` takes back the component before it, if there is one to take back. -/
def normalizeParts (rooted : Bool) : List Bytes → List Bytes → List Bytes
  | done, [] => done.reverse
  | done, c::cs =>
    if c ≠ dotdot ∨ done = [] ∧ rooted = false ∨ done.head? = some dotdot then
      normalizeParts rooted (c::done) cs
    else normalizeParts rooted done.tail cs

/-- `posixpath.normpath`. -/
def normpath (name : Bytes) : PurePath :=
  ⟨leadingSlashes name,normalizeParts (leadingSlashes name ≠ 0) [] (proper name)⟩

/-- `base / path`. -/
def PurePath.join (base path : PurePath) : PurePath :=
  if path.slashes = 0 then ⟨base.slashes,base.parts ++ path.parts⟩ else path

def posix (parts : List Bytes) : Bytes := [slash].intercalate parts

/-- `path.relative_to(base).as_posix()`, where it does not raise. -/
def PurePath.relativeTo (path base : PurePath) : Option Bytes :=
  if path.slashes = base.slashes ∧ base.parts.isPrefixOf path.parts then
    match path.parts.drop base.parts.length with
    | [] => some dot
    | parts => some (posix parts)
  else none

/-! ### The manifest -/

structure Manifest where
  instanceId : String
  fileCount : ℕ
  sha256 : String
  deriving DecidableEq

/-- `json.dumps(manifest, sort_keys=True, separators=(",", ":"))`, if the numeral is not too long. -/
def Manifest.dumps (m : Manifest) : Option Bytes :=
  if (Json.Atom.int m.fileCount).writable then
    some (Text.encodeUtf8 (String.ofList (Json.objectText
      [("file_count",Json.writeInt m.fileCount),("instance_id",Json.dumpString m.instanceId),
        ("sha256",Json.dumpString m.sha256)])))
  else none

def validInstance (instanceId : String) : Bool :=
  instanceId ≠ "" && instanceId.toList.all fun c => c ≠ '/' && c ≠ '\\'

def validateInstance (instanceId : String) : Except BackupError Unit :=
  if validInstance instanceId then .ok () else .error (.valueError "instance_id is invalid")

/-- `_digest`, over what is read of each file: its relative name and its content. -/
def digest {α : Type} (sha256 : Bytes → String) (entry : α → Except BackupError (Bytes × Bytes))
    (files : List α) : Except BackupError String := do
  let chunks ← files.mapM fun f => do
    let e ← entry f
    if (Text.decodeUtf8 e.1).isNone then throw .unicodeEncodeError
    else return e.1 ++ 0 :: (e.2 ++ [0])
  return sha256 chunks.flatten

/-! ### The backup -/

structure SourceFile where
  parts : List Bytes
  content : Bytes
  deriving DecidableEq

def SourceFile.name (f : SourceFile) : Bytes := posix f.parts

/-- A name in a directory. -/
def legalName (c : Bytes) : Bool := c ≠ [] && c ≠ dot && c ≠ dotdot && !c.contains slash && !c.contains 0

/-- A store tree without symbolic links: its files, none of which is a directory of another. -/
structure Tree where
  files : Keyed.Table SourceFile.parts
  legal : ∀ f ∈ files, f.parts ≠ [] ∧ ∀ c ∈ f.parts, legalName c = true
  apart : ∀ f ∈ files, ∀ g ∈ files, f.parts <+: g.parts → f = g

/-- A member of an archive, and for one that is no regular file, what a link of it leads to. -/
structure Member where
  name : Bytes
  regular : Bool := true
  content : Bytes
  linked : Option Bytes := none
  deriving DecidableEq

/-- `sorted(source.rglob("*"))`, its regular files. -/
def Tree.sorted (tree : Tree) : List SourceFile :=
  tree.files.rows.insertionSort fun f g => f.parts ≤ g.parts

/-- `archive.add` with `_regular_member` as its filter. -/
def addMember (f : SourceFile) : Option Member :=
  if f.name = manifestName then none else some ⟨f.name,true,f.content,none⟩

/-- `backup_store`: the manifest, and the members of the archive. -/
def backupStore (sha256 : Bytes → String) (tree : Tree) (instanceId : String) :
    Except BackupError (Manifest × List Member) := do
  validateInstance instanceId
  let found ← digest sha256 (fun f : SourceFile => .ok (f.name,f.content)) tree.sorted
  let manifest : Manifest := ⟨instanceId,tree.sorted.length,found⟩
  match manifest.dumps with
  | none => throw (.valueError "Exceeds the limit for integer string conversion")
  | some text => return (manifest,⟨manifestName,true,text,none⟩ :: tree.sorted.filterMap addMember)

/-! ### The restore -/

structure StoredFile where
  location : List Bytes
  content : Bytes
  deriving DecidableEq

/-- The regular files of a file system, and directories of it. -/
structure Disk where
  files : Keyed.Table StoredFile.location
  dirs : List (List Bytes) := []

/-- A file cannot be opened for writing: a directory is in its place, or a file in that of one of
its directories. -/
def Disk.blocked (disk : Disk) (location : List Bytes) : Bool :=
  disk.dirs.contains location || disk.files.rows.any fun f =>
    f.location ≠ location && (f.location.isPrefixOf location || location.isPrefixOf f.location)

def Disk.write (disk : Disk) (f : StoredFile) : Disk := { disk with files := disk.files.put f }

inductive Fault
  | refused
  | cut (written : ℕ)
  deriving DecidableEq

/-- What a restore meets: where paths lead, what JSON the manifest is, and the faults of the
operating system. -/
structure Surroundings where
  sha256 : Bytes → String
  loads : Bytes → Option Json
  mkdir : Bool := true
  resolve : PurePath → Option (List Bytes)
  manifestFault : Bool := false
  fault : ℕ → Option Fault := fun _ => none
  unreadable : List Bytes → Bool := fun _ => false

/-- `actual[...] != expected[...]` for the count; Python's numbers and truth values compare. -/
def countMatches (n : ℕ) : Json → Bool
  | .int i => i = n
  | .real q => q = n
  | .bool b => n = if b then 1 else 0
  | _ => false

section Restore

variable (t : Surroundings) (destination : PurePath)

/-- `extractfile` and `read`. -/
def readMember (m : Member) : Except BackupError Bytes :=
  if m.regular then
    if t.manifestFault then .error .other else .ok m.content
  else match m.linked with
    | none => .error (.valueError "backup manifest is unreadable")
    | some content => .ok content

def readManifest (members : List Member) : Except BackupError Json := do
  match members.filter fun m => m.name = manifestName with
  | [m] =>
    match t.loads (← readMember t m) with
    | none => throw (.valueError "backup manifest is invalid")
    | some manifest => return manifest
  | _ => throw (.valueError "backup manifest is required")

/-- What is checked of a member that is not the manifest. -/
def checkMember (root : List Bytes) (m : Member) : Except BackupError Unit :=
  match t.resolve (destination.join (normpath m.name)) with
  | none => .error .other
  | some target =>
    if (normpath m.name).slashes = 0 ∧
        ((normpath m.name).parts = [] ∨ (normpath m.name).parts.head? = some dotdot) ∨
        ¬root.isPrefixOf target then .error (.valueError "backup contains a path escape")
    else if m.regular then .ok ()
    else .error (.valueError "backup contains a non-regular member")

/-- What the destination and the archive must stand before anything is extracted: the root, the
fields of the manifest, and the members to extract. -/
def inspect (archive : Option (List Member)) (instanceId : String) :
    Except BackupError (List Bytes × List (String × Json) × List Member) := do
  validateInstance instanceId
  if dotdot ∈ destination.parts then
    throw (.valueError "destination must not contain parent traversal")
  else if !t.mkdir then throw .other
  else match archive with
  | none => throw .other
  | some members =>
    match ← readManifest t members with
    | .obj manifest =>
      if (Json.get manifest "instance_id").asString ≠ some instanceId then
        throw (.valueError "backup instance does not match destination instance")
      else match t.resolve destination with
      | none => throw .other
      | some root => do
        let files := members.filter fun m => m.name ≠ manifestName
        let _ ← files.mapM (checkMember t destination root)
        return (root,manifest,files)
    | _ => throw .other

/-- `archive.extract` with the data filter: what it writes, and whether it goes through. -/
def extraction (root : List Bytes) (k : ℕ) (disk : Disk) (m : Member) :
    Option StoredFile × Bool :=
  match t.resolve (destination.join ⟨0,proper (m.name.dropWhile (· = slash))⟩) with
  | none => (none,false)
  | some location =>
    if ¬root.isPrefixOf location ∨ disk.blocked location then (none,false)
    else match t.fault k with
      | none => (some ⟨location,m.content⟩,true)
      | some .refused => (none,false)
      | some (.cut n) => (some ⟨location,m.content.take n⟩,false)

def Disk.after (disk : Disk) (written : Option StoredFile) : Disk := written.elim disk disk.write

/-- The members are extracted one after another until one fails. -/
def extractAll (root : List Bytes) : ℕ → Disk → List Member → Except BackupError Unit × Disk
  | _, disk, [] => (.ok (),disk)
  | k, disk, m::members =>
    let e := extraction t destination root k disk m
    if e.2 then extractAll root (k+1) (disk.after e.1) members
    else (.error .other,disk.after e.1)

/-- What `_digest` reads of an extracted member. -/
def readBack (disk : Disk) (m : Member) : Except BackupError (Bytes × Bytes) :=
  let path := destination.join (purePath m.name)
  match path.relativeTo destination, t.resolve path with
  | some relative, some location =>
    match disk.files.find location with
    | some f => if t.unreadable location then .error .other else .ok (relative,f.content)
    | none => .error .other
  | _, _ => .error .other

/-- The extracted files are compared with the manifest. -/
def verify (disk : Disk) (manifest : List (String × Json)) (files : List Member)
    (instanceId : String) : Except BackupError Manifest := do
  let found ← digest t.sha256 (readBack t destination disk) files
  if countMatches files.length (Json.get manifest "file_count") ∧
      (Json.get manifest "sha256").asString = some found then return ⟨instanceId,files.length,found⟩
  else throw (.valueError "backup integrity check failed")

/-- `restore_store`, of an archive that `tarfile` reads or not. -/
def restoreStore (archive : Option (List Member)) (instanceId : String) (disk : Disk) :
    Except BackupError Manifest × Disk :=
  match inspect t destination archive instanceId with
  | .error e => (.error e,disk)
  | .ok (root,manifest,files) =>
    match extractAll t destination root 0 disk files with
    | (.error e,disk') => (.error e,disk')
    | (.ok (),disk') => (verify t destination disk' manifest files instanceId,disk')

end Restore
end Backup
end CloudBrowser
