import CloudBrowser.FileNames
import CloudBrowser.Folders
import CloudBrowser.JsonDumps
import Mathlib.Data.List.Sort

/-! The store of the downloads service: the files of a principal are in the directory that this
release keeps for them, and in the one that the release before it kept. -/
namespace CloudBrowser
namespace Storage

open CloudFiles
open Directories

inductive StoreError
  | nameError (message : String)
  | valueError (message : String)
  /-- Whatever the operating system or a source raises. -/
  | other
  deriving DecidableEq

/-- A link leads to nothing, to a file, or to something else. -/
inductive Node
  | file (content : Bytes) (mtime : ℤ)
  | directory
  | link (target : Option (Option Bytes))
  deriving DecidableEq

/-- The root directory of the store, and what directories in it and in these hold; that counts
only while the directory has an entry where it belongs. -/
structure Disk where
  root : Folder Node
  own : String → Folder Node
  sub : String × String → Folder Node

namespace Disk

/-- No files, and no principal yet. -/
def empty : Disk :=
  ⟨Folder.empty .directory,fun _ => Folder.empty .directory,fun _ => Folder.empty .directory⟩

variable (disk : Disk)

/-- What is at `root/top/name`. -/
def child (top name : String) : Option Node :=
  if disk.root.find top = some .directory then (disk.own top).find name else none

def area (top : String) : Option (Folder Node) :=
  if disk.root.find top = some .directory then some (disk.own top) else none

def subarea (top name : String) : Option (Folder Node) :=
  if disk.child top name = some .directory then some (disk.sub (top,name)) else none

def setOwn (top : String) (f : Folder Node) : Disk := { disk with own := Function.update disk.own top f }

def setSub (top name : String) (f : Folder Node) : Disk :=
  { disk with sub := Function.update disk.sub (top,name) f }

/-- `mkdir(exist_ok=True)` below the root, where nothing but a directory is in the way. -/
def mkdirTop (top : String) : Disk :=
  match disk.root.find top with
  | none =>
    { disk with
      root := disk.root.create top .directory
      own := Function.update disk.own top (disk.own top).clear }
  | some _ => disk

def mkdirSub (top name : String) : Disk :=
  match (disk.own top).find name with
  | none => (disk.setOwn top ((disk.own top).create name .directory)).setSub top name
      (disk.sub (top,name)).clear
  | some _ => disk

/-- Remove a directory below the root with all that is in it. -/
def remove (top : String) : Disk :=
  if disk.root.find top = some .directory then { disk with root := disk.root.unlink top } else disk

variable {disk : Disk} {top top' name name' : String} {f : Folder Node} {n : Node}

@[simp] theorem root_setOwn : (disk.setOwn top f).root = disk.root := rfl

@[simp] theorem root_setSub : (disk.setSub top name f).root = disk.root := rfl

@[simp] theorem own_setSub : (disk.setSub top name f).own = disk.own := rfl

@[simp] theorem own_setOwn : (disk.setOwn top f).own = Function.update disk.own top f := rfl

@[simp] theorem sub_setOwn : (disk.setOwn top f).sub = disk.sub := rfl

@[simp] theorem sub_setSub : (disk.setSub top name f).sub = Function.update disk.sub (top,name) f := rfl

@[simp] theorem child_setSub : (disk.setSub top name f).child = disk.child := rfl

@[simp] theorem area_setSub : (disk.setSub top name f).area = disk.area := rfl

theorem subarea_eq_some : disk.subarea top name = some f ↔
    disk.child top name = some .directory ∧ disk.sub (top,name) = f := by
  simp [subarea]

theorem area_eq_some : disk.area top = some f ↔
    disk.root.find top = some .directory ∧ disk.own top = f := by
  simp [area]

theorem child_eq_some : disk.child top name = some n ↔
    disk.root.find top = some .directory ∧ (disk.own top).find name = some n := by
  simp [child]

theorem subarea_setSub_self (h : (disk.subarea top name).isSome) :
    (disk.setSub top name f).subarea top name = some f := by
  obtain ⟨d,hd⟩ := Option.isSome_iff_exists.mp h
  rw [subarea_eq_some] at hd ⊢
  exact ⟨hd.1,by simp⟩

theorem subarea_setSub_of_ne (h : (top',name') ≠ (top,name)) :
    (disk.setSub top name f).subarea top' name' = disk.subarea top' name' := by
  simp [subarea,Function.update_of_ne h]

end Disk

structure DownloadEntry where
  name : String
  size : ℕ
  mtime : ℤ
  owner : String
  quarantined : Bool := false
  qname : Option String := none
  sha256 : Option String := none
  deriving DecidableEq

structure DownloadReceipt where
  name : String
  size : ℕ
  mtime : ℤ
  sha256 : String
  owner : String
  deriving DecidableEq

/-- The settings of a store, with the hash function and the text of a float that it uses. -/
structure DownloadStore where
  sha256 : Bytes → String
  floatRepr : ℚ → List Char
  maxFileBytes : ℕ := 5*1024*1024*1024
  maxEntries : ℕ := 1000
  quotaBytes : ℕ := 5*1024*1024*1024
  maxFileBytes_pos : 0 < maxFileBytes := by decide
  maxEntries_pos : 0 < maxEntries := by decide
  quotaBytes_pos : 0 < quotaBytes := by decide

def entriesDir : String := "entries"

def quarantineDir : String := "quarantine"

def priorQuarantineDir : String := ".quarantine"

def indexFile : String := ".index.json"

def notOwner : StoreError := .valueError "principal_id must be bounded non-empty text"

def unsafeStorage : StoreError := .valueError "download storage directory is unsafe"

def unsafeName : StoreError := .nameError "download name is unsafe"

/-- What `_assert_directory` lets pass. -/
def isSafe : Option Node → Bool
  | none => true
  | some .directory => true
  | _ => false

/-- What reading through a path gives. -/
def Node.text : Node → Option Bytes
  | .file content _ => some content
  | .link (some (some content)) => some content
  | _ => none

/-- The size of a file that is retrievable under its name. -/
def retrievable (name : String) : Node → ℕ
  | .file content _ => if validateName name = none then 0 else content.length
  | _ => 0

/-- The content of a regular file within a limit. -/
def regular (limit : ℕ) (name : String) (f : Folder Node) : Option Bytes :=
  match f.find name with
  | some (.file content _) => if content.length ≤ limit then some content else none
  | _ => none

def sortedNames (f : Folder Node) : List String := f.names.insertionSort (·≤·)

/-- The hash that an index file has for a name. -/
def indexHash (name : String) (f : Folder Node) : Option String := do
  let node ← f.find indexFile
  let bytes ← node.text
  let text ← Text.decodeUtf8 bytes
  match ← Json.loads text with
  | .obj fields =>
    match (fields.lookup name).getD (.obj []) with
    | .obj entry =>
      match entry.lookup "sha256" with
      | some (.str value) => if value.length = 64 then some value else none
      | _ => none
    | _ => none
  | _ => none

namespace DownloadStore

variable (store : DownloadStore) (p : String)

def ownerKey : String := store.sha256 (Text.encodeUtf8 p)

/-- The directories with the files of a principal, this release's first. -/
def storageDirs (disk : Disk) : Except StoreError (List (Folder Node)) :=
  let key := store.ownerKey p
  if isPrincipal p = false then .error notOwner
  else if [disk.root.find key,disk.child key entriesDir,disk.root.find p].all isSafe then
    .ok ((disk.subarea key entriesDir).toList ++ (disk.area p).toList)
  else .error unsafeStorage

def readIndexHash (name : String) (disk : Disk) : Option String :=
  (disk.area (store.ownerKey p)).bind (indexHash name) <|> (disk.area p).bind (indexHash name)

/-- One child of a directory with files, after the entries that are listed already. -/
def addEntry (disk : Disk) (f : Folder Node) (result : List DownloadEntry) (name : String) :
    List DownloadEntry :=
  if store.maxEntries ≤ result.length ∨ name ∈ result.map DownloadEntry.name ∨
      validateName name = none then result
  else match f.find name with
    | some (.file content mtime) =>
      result ++ [{ name := name, size := content.length, mtime := mtime, owner := p,
                   sha256 := store.readIndexHash p name disk }]
    | _ => result

def addQuarantined (f : Folder Node) (result : List DownloadEntry) (name : String) :
    List DownloadEntry :=
  if store.maxEntries ≤ result.length then result
  else match validateName name,f.find name with
    | some qname,some (.file content mtime) =>
      result ++ [{ name := qname, size := content.length, mtime := mtime, owner := p,
                   quarantined := true, qname := some qname }]
    | _,_ => result

def listEntries (disk : Disk) : Except StoreError (List DownloadEntry) := do
  let dirs ← store.storageDirs p disk
  let key := store.ownerKey p
  if [disk.child key quarantineDir,disk.child p priorQuarantineDir].all isSafe then
    let result := dirs.foldl (fun r f => (sortedNames f).foldl (store.addEntry p disk f) r) []
    let quarantines := (disk.subarea key quarantineDir).toList ++
      (disk.subarea p priorQuarantineDir).toList
    let result := quarantines.foldl
      (fun r f => (sortedNames f).foldl (store.addQuarantined p f) r) result
    return result.insertionSort fun a b => b.mtime ≤ a.mtime
  else .error unsafeStorage

def read (name : String) (disk : Disk) : Except StoreError (Option Bytes) :=
  match validateName name with
  | none => .error unsafeName
  | some safe => do
    let dirs ← store.storageDirs p disk
    return dirs.findSome? (regular store.maxFileBytes safe)

def usageBytes (disk : Disk) : Except StoreError ℕ := do
  let dirs ← store.storageDirs p disk
  return (dirs.map fun f => f.total retrievable).sum

/-- The names in a directory that a purge takes away. -/
def expired (older : ℚ) (f : Folder Node) : List String := f.names.filter fun name =>
  match validateName name,f.find name with
  | some _,some (.file _ mtime) => (mtime : ℚ) < older
  | _,_ => false

/-- The files that are older go, but in the second directory only those whose names the first did
not have among them. -/
def purge (older : ℚ) (disk : Disk) : Except StoreError (List String) × Disk :=
  match store.storageDirs p disk with
  | .error e => (.error e,disk)
  | .ok _ =>
    let key := store.ownerKey p
    let canonical := ((disk.subarea key entriesDir).map (expired older)).getD []
    let prior := (((disk.area p).map (expired older)).getD []).filter (· ∉ canonical)
    let disk' := disk.setSub key entriesDir ((disk.sub (key,entriesDir)).unlinkAll canonical)
    (.ok ((canonical ++ prior).insertionSort (·≤·)),
      disk'.setOwn p ((disk'.own p).unlinkAll prior))

def erase (disk : Disk) : Except StoreError Unit × Disk :=
  if isPrincipal p = false then (.error notOwner,disk)
  else (.ok (),(disk.remove (store.ownerKey p)).remove p)

/-- What the results of the reads amount to, the size taken after each. -/
def copyStream (limit : ℕ) : List (Except StoreError Bytes) → Bytes → Except StoreError Bytes
  | [], copied => .ok copied
  | .error e::_, _ => .error e
  | .ok []::_, copied => .ok copied
  | .ok chunk::reads, copied =>
    if limit < copied.length+chunk.length then .error (.valueError "download exceeds size limit")
    else copyStream limit reads (copied ++ chunk)

/-- The longest name that the file system takes, in bytes. -/
def nameBytes : ℕ := 255

def quarantineName (safe : String) (index : ℕ) : String :=
  if index = 0 then safe else safe ++ " (" ++ toString index ++ ")"

/-- Keep a stream that is not clean, under a name of its own that no read leads to. -/
def quarantine (name : String) (reads : List (Except StoreError Bytes)) (now : ℤ) (disk : Disk) :
    Except StoreError DownloadReceipt × Disk :=
  match validateName name with
  | none => (.error unsafeName,disk)
  | some safe =>
    let key := store.ownerKey p
    if isPrincipal p = false then (.error notOwner,disk)
    else if isSafe (disk.root.find key) = false then (.error unsafeStorage,disk)
    else
      let disk := disk.mkdirTop key
      if isSafe (disk.child key quarantineDir) = false then (.error unsafeStorage,disk)
      else
        let disk := disk.mkdirSub key quarantineDir
        let f := disk.sub (key,quarantineDir)
        match ((List.range 1001).map (quarantineName safe)).find? fun c => (f.lookup c).isNone with
        | none => (.error (.valueError "quarantine name space exhausted"),disk)
        | some candidate =>
          if nameBytes < Text.utf8Length candidate then (.error .other,disk)
          else match copyStream store.maxFileBytes reads [] with
            | .error e => (.error e,disk)
            | .ok content =>
              (.ok ⟨candidate,content.length,now,store.sha256 content,p⟩,
                disk.setSub key quarantineDir (f.create candidate (.file content now)))

/-! ### Publishing a file -/

/-- `Path.exists`, which follows links. -/
def pathExists (f : Folder Node) (name : String) : Bool :=
  match f.find name with
  | none => false
  | some (.link none) => false
  | _ => true

/-- `rpartition(".")`: the stem, and the extension with its dot, which goes if there is nothing
after it. -/
def splitExtension (safe : String) : String × String :=
  match safe.toList.reverse.span (· ≠ '.') with
  | (extension,_::stem) => (String.ofList stem.reverse,
      if extension = [] then "" else String.ofList ('.'::extension.reverse))
  | (_,[]) => (safe,"")

def numberedName (safe : String) (index : ℕ) : String :=
  (splitExtension safe).1 ++ " (" ++ toString index ++ ")" ++ (splitExtension safe).2

def nextName (f : Folder Node) (safe : String) : Except StoreError String :=
  match (safe :: (List.range' 1 1000).map (numberedName safe)).find? fun c => !pathExists f c with
  | some name => .ok name
  | none => .error (.valueError "download name space exhausted")

/-- `secrets.token_hex(8)`, by the 64 bits that were drawn. -/
def tokenHex (token : UInt64) : String :=
  String.ofList ((List.range 16).map fun i => Json.hexDigit (token.toNat/16^(15-i)%16))

def tempName (final : String) (token : UInt64) : String :=
  "." ++ final ++ "." ++ tokenHex token ++ ".tmp"

/-- The temporary file of a call and what the call has copied into it. -/
structure Staged where
  final : String
  temp : String
  inode : ℕ
  copied : Bytes := []
  deriving DecidableEq

/-- Where a call of `ingest` stands. In the end it takes its temporary file away, whatever happened,
and returns; what it has copied is kept for the record. -/
inductive Phase
  | idle
  | named (final : String)
  | staging (f : Staged)
  | staged (f : Staged)
  | checked (f : Staged)
  | renamed (f : Staged)
  | receipted (f : Staged) (receipt : DownloadReceipt)
  | closing (temp : String) (copied : Bytes) (result : Except StoreError DownloadReceipt)
  | returned (copied : Bytes) (result : Except StoreError DownloadReceipt)
  deriving DecidableEq

/-- What a call does next, with what it meets there: the token it draws, what a read of the source
gives or that it or the write after it fails, the time. -/
inductive Move
  | start (name : String)
  | openTemp (token : UInt64) (fault : Bool) (now : ℤ)
  | copy (r : Except StoreError Bytes) (now : ℤ)
  | check
  | rename
  | stat
  | index (fault : Bool) (now : ℤ)
  | unlinkTemp
  deriving DecidableEq

/-- The name is allocated, in a directory that is made where it is missing. -/
def start (name : String) (disk : Disk) : Phase × Disk :=
  match validateName name with
  | none => (.returned [] (.error unsafeName),disk)
  | some safe =>
    let key := store.ownerKey p
    if isPrincipal p = false then (.returned [] (.error notOwner),disk)
    else if isSafe (disk.root.find key) = false then (.returned [] (.error unsafeStorage),disk)
    else
      let disk := disk.mkdirTop key
      if isSafe (disk.child key entriesDir) = false then (.returned [] (.error unsafeStorage),disk)
      else
        let disk := disk.mkdirSub key entriesDir
        match nextName (disk.sub (key,entriesDir)) safe with
        | .error e => (.returned [] (.error e),disk)
        | .ok final => (.named final,disk)

/-- `temp.open("xb")`. -/
def openTemp (final : String) (token : UInt64) (fault : Bool) (now : ℤ) (disk : Disk) : Phase × Disk :=
  let key := store.ownerKey p
  let temp := tempName final token
  match disk.subarea key entriesDir with
  | none => (.closing temp [] (.error .other),disk)
  | some f =>
    if fault ∨ nameBytes < Text.utf8Length temp ∨ (f.lookup temp).isSome then
      (.closing temp [] (.error .other),disk)
    else (.staging ⟨final,temp,f.fresh,[]⟩,disk.setSub key entriesDir (f.create temp (.file [] now)))

/-- One read of the source, and the write of what it gave; the end of the stream closes the file. -/
def copy (f : Staged) (r : Except StoreError Bytes) (now : ℤ) (disk : Disk) : Phase × Disk :=
  let key := store.ownerKey p
  match r with
  | .error e => (.closing f.temp f.copied (.error e),disk)
  | .ok [] => (.staged f,disk)
  | .ok chunk =>
    if store.maxFileBytes < f.copied.length+chunk.length then
      (.closing f.temp f.copied (.error (.valueError "download exceeds size limit")),disk)
    else (.staging { f with copied := f.copied ++ chunk },disk.setSub key entriesDir
      ((disk.sub (key,entriesDir)).write f.inode (.file (f.copied ++ chunk) now)))

/-- The quota, before anything is made retrievable. -/
def check (f : Staged) (disk : Disk) : Phase :=
  match store.usageBytes p disk with
  | .error e => .closing f.temp f.copied (.error e)
  | .ok usage =>
    if store.quotaBytes < usage+f.copied.length then
      .closing f.temp f.copied (.error (.valueError "owner would exceed per-principal quota"))
    else .checked f

/-- `os.replace`. -/
def rename (f : Staged) (disk : Disk) : Phase × Disk :=
  let key := store.ownerKey p
  match disk.subarea key entriesDir with
  | none => (.closing f.temp f.copied (.error .other),disk)
  | some d =>
    if d.find f.temp = none ∨ d.find f.final = some .directory then
      (.closing f.temp f.copied (.error .other),disk)
    else (.renamed f,disk.setSub key entriesDir (d.rename f.temp f.final))

def stat (f : Staged) (disk : Disk) : Phase :=
  match (disk.subarea (store.ownerKey p) entriesDir).bind fun d => d.find f.final with
  | some (.file _ mtime) =>
    .receipted f ⟨f.final,f.copied.length,mtime,store.sha256 f.copied,p⟩
  | _ => .closing f.temp f.copied (.error .other)

/-- The members of an index file, or none. -/
def indexFields (f : Folder Node) : List (String × Json) :=
  match do
    let node ← f.find indexFile
    let bytes ← node.text
    let text ← Text.decodeUtf8 bytes
    Json.loads text with
  | some (.obj fields) => fields
  | _ => []

def writeIndex (receipt : DownloadReceipt) (now : ℤ) (disk : Disk) : Except StoreError Unit × Disk :=
  let disk := disk.mkdirTop (store.ownerKey p)
  match disk.area (store.ownerKey p) with
  | none => (.error .other,disk)
  | some d =>
    if d.find indexFile = some .directory then (.error .other,disk)
    else
      let data := Json.assign (indexFields d) (receipt.name,.obj [("size",.int receipt.size),
        ("mtime",.int receipt.mtime),("sha256",.str receipt.sha256)])
      let text := String.ofList (Json.dump store.floatRepr (.obj data))
      (.ok (),disk.setOwn (store.ownerKey p)
        (d.create indexFile (.file (Text.encodeUtf8 text) now)))

def index (f : Staged) (receipt : DownloadReceipt) (fault : Bool) (now : ℤ) (disk : Disk) :
    Phase × Disk :=
  if fault then (.closing f.temp f.copied (.error .other),disk)
  else match store.writeIndex p receipt now disk with
    | (.error e,disk) => (.closing f.temp f.copied (.error e),disk)
    | (.ok (),disk) => (.closing f.temp f.copied (.ok receipt),disk)

/-- `temp.unlink()`, whose file may be gone. -/
def unlinkTemp (temp : String) (disk : Disk) : Disk :=
  match disk.subarea (store.ownerKey p) entriesDir with
  | none => disk
  | some d => disk.setSub (store.ownerKey p) entriesDir (d.unlink temp)

/-- One step of a call of `ingest`; a call does nothing that is not its turn. -/
def move (m : Move) (phase : Phase) (disk : Disk) : Phase × Disk :=
  match phase,m with
  | .idle,.start name => store.start p name disk
  | .named final,.openTemp token fault now => store.openTemp p final token fault now disk
  | .staging f,.copy r now => store.copy p f r now disk
  | .staged f,.check => (store.check p f disk,disk)
  | .checked f,.rename => store.rename p f disk
  | .renamed f,.stat => (store.stat p f disk,disk)
  | .receipted f receipt,.index fault now => store.index p f receipt fault now disk
  | .closing temp copied result,.unlinkTemp =>
    (.returned copied result,store.unlinkTemp p temp disk)
  | phase,_ => (phase,disk)

/-! ### Whole requests -/

/-- What a call of `ingest` is given and meets on its way. -/
structure Upload where
  name : String
  reads : List (Except StoreError Bytes)
  token : UInt64
  openFault : Bool := false
  indexFault : Bool := false
  now : ℤ
  deriving DecidableEq

def Upload.moves (u : Upload) : List Move :=
  .start u.name :: .openTemp u.token u.openFault u.now :: u.reads.map (fun r => .copy r u.now) ++
    [.copy (.ok []) u.now,.check,.rename,.stat,.index u.indexFault u.now,.unlinkTemp]

def moves (ms : List Move) (phase : Phase) (disk : Disk) : Phase × Disk :=
  ms.foldl (fun s m => store.move p m s.1 s.2) (phase,disk)

def ingest (u : Upload) (disk : Disk) : Phase × Disk := store.moves p u.moves .idle disk

inductive Request
  | list
  | read (name : String)
  | ingest (u : Upload)
  | quarantine (name : String) (reads : List (Except StoreError Bytes)) (now : ℤ)
  | purge (older : ℚ)
  | erase
  deriving DecidableEq

inductive Answer
  | entries (r : Except StoreError (List DownloadEntry))
  | bytes (r : Except StoreError (Option Bytes))
  | ingested (phase : Phase)
  | receipt (r : Except StoreError DownloadReceipt)
  | names (r : Except StoreError (List String))
  | done (r : Except StoreError Unit)
  deriving DecidableEq

def perform (request : Request) (disk : Disk) : Answer × Disk :=
  match request with
  | .list => (.entries (store.listEntries p disk),disk)
  | .read name => (.bytes (store.read p name disk),disk)
  | .ingest u => (store.ingest p u disk).map .ingested id
  | .quarantine name reads now => (store.quarantine p name reads now disk).map .receipt id
  | .purge older => (store.purge p older disk).map .names id
  | .erase => (store.erase p disk).map .done id

end DownloadStore
end Storage
end CloudBrowser
