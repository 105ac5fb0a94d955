import CloudBrowser.Directories
import CloudBrowser.IngestPipeline

/-! One call of the ingest pipeline on any source, with the directory of its temporary files, the
scanner and the downloads port seen from outside. -/
namespace CloudBrowser
namespace CloudFiles
namespace Scanned

open Directories
open Stateful

/-- A source that gives any bytes, or raises. -/
abbrev Source (σ : Type) := ℕ → σ → Except IngestError Bytes × σ

/-- What a call meets: the name it draws for its temporary file, the scanner, and what may raise.
A write takes the whole chunk or raises. -/
structure Surroundings where
  temp : String
  mkdir : Except IngestError Unit
  openTemp : Except IngestError Unit
  write : ℕ → Except IngestError Unit
  sync : Except IngestError Unit
  scan : Bytes → Except IngestError Json
  recordIngest : Except IngestError Unit
  reopen : Except IngestError Unit
  recordStored : Except IngestError Unit

/-- The source, what was read of it, the directory of the temporary files, and the calls of the
scanner and of the port. -/
structure Area (σ : Type) where
  source : σ
  received : Bytes := []
  dir : Directory Bytes
  scanned : List (Bytes × Except IngestError Json) := []
  handed : List Handover := []

abbrev Action (σ : Type) := Op IngestError (Area σ)

/-- `scan_result == "clean"`. -/
def isClean : Json → Bool
  | .str s => s = "clean"
  | _ => false

section Pipeline

variable {σ : Type} (p : IngestPipeline) (t : Surroundings) (source : Source σ)

/-- `os.open` with `O_CREAT | O_EXCL`. -/
def createTemp : Action σ ℕ := do
  check t.openTemp
  let a ← get
  if (a.dir.lookup t.temp).isSome then throw .other
  set { a with dir := a.dir.create t.temp [] }
  return a.dir.fresh

def readSource : Action σ Bytes := do
  let a ← get
  match source p.chunkBytes a.source with
  | (.error e,s) => do
    set { a with source := s }
    throw e
  | (.ok chunk,s) => do
    set { a with source := s, received := a.received ++ chunk }
    return chunk

/-- `target.write(chunk)`, the `n`-th one. -/
def writeTemp (inode n : ℕ) (chunk : Bytes) : Action σ Unit := do
  check (t.write n)
  modify fun a => { a with dir := a.dir.write inode (a.dir.node inode ++ chunk) }

/-- The loop that copies the source, with the size and the bytes hashed so far. Every chunk but
the last has a byte at least, so that the limit of the size bounds the reads. -/
def copySource (inode : ℕ) : ℕ → ℕ → ℕ → Bytes → Action σ (ℕ × Bytes)
  | 0, _, _, _ => throw .other
  | fuel+1, n, size, hashed => do
    let chunk ← readSource p source
    if chunk = [] then return (size,hashed)
    else if p.maxBytes < size+chunk.length then throw .tooLarge
    else do
      writeTemp t inode n chunk
      copySource inode fuel (n+1) (size+chunk.length) (hashed ++ chunk)

/-- The loop ends before its fuel does. -/
theorem copySource_fuel (inode fuel n size : ℕ) (hashed : Bytes) (hsize : size ≤ p.maxBytes)
    (hfuel : p.maxBytes < fuel+size) : copySource p t source inode (fuel+1) n size hashed =
      copySource p t source inode fuel n size hashed := by
  induction fuel generalizing n size hashed with
  | zero => omega
  | succ fuel ih =>
    rw [copySource,copySource]
    congr 1
    funext chunk
    by_cases hchunk : chunk = []
    · simp [hchunk]
    · have hlen := List.length_pos_of_ne_nil hchunk
      by_cases hlarge : p.maxBytes < size+chunk.length
      · simp [hlarge]
      · have hmore := ih (n+1) (size+chunk.length) (hashed ++ chunk) (by omega) (by omega)
        rw [hmore]

/-- What is found under the path of the temporary file. -/
def readTemp : Action σ Bytes := do
  let a ← get
  check ((a.dir.find t.temp).elim (.error .other) .ok)

/-- The scanner is given the path. -/
def scanTemp : Action σ Json := do
  let content ← readTemp t
  modify fun a => { a with scanned := a.scanned ++ [(content,t.scan content)] }
  check (t.scan content)

/-- `downloads.publish`, or `downloads.quarantine`. -/
def handOver (h : Handover) : Action σ StoredReceipt := do
  modify fun a => { a with handed := a.handed ++ [h] }
  check (p.store h)

/-- From the scan on. -/
def scanAndStore (binding : PrincipalBinding) (safeName : String) (size : ℕ) (hashed : Bytes) :
    Action σ IngestReceipt := do
  let scanResult ← scanTemp t
  check t.recordIngest
  check t.reopen
  let staged ← readTemp t
  let receipt ← handOver p ⟨isClean scanResult,binding,safeName,staged,size,hexDigest hashed⟩
  check t.recordStored
  check (IngestReceipt.build (receipt.name.getD safeName) size
    (if isClean scanResult then .published else .quarantined) binding.requestId
    (receipt.sha256.getD (some (hexDigest hashed))))

/-- The part of `ingest` under its `try`. -/
def stageAndStore (binding : PrincipalBinding) (safeName : String) : Action σ IngestReceipt := do
  let inode ← createTemp t
  let (size,hashed) ← copySource p t source inode (p.maxBytes+2) 0 0 []
  check t.sync
  scanAndStore p t binding safeName size hashed

/-- `temp.unlink()`; a file that is not there is not missed. -/
def unlinkTemp : Action σ Unit := modify fun a => { a with dir := a.dir.unlink t.temp }

def ingest (binding : PrincipalBinding) (sourceName : String) : Action σ IngestReceipt :=
  match validateName sourceName with
  | none => throw .invalidName
  | some safeName => do
    check t.mkdir
    ensuring (stageAndStore p t source binding safeName) (unlinkTemp t)

end Pipeline

/-- A call as it starts. -/
def start {σ : Type} (source : σ) (dir : Directory Bytes) : Area σ := { source := source, dir := dir }

section Gate

variable {σ : Type} {p : IngestPipeline} {t : Surroundings} {source : Source σ}

/-- What a call has done: it has handed over one stream at most, which is what was read; the
scanner was given the same bytes, and the port is told its verdict, their number and their digest. -/
structure Handed (a : Area σ) : Prop where
  once : a.handed.length ≤ 1
  scanned : ∀ h ∈ a.handed, ∃ verdict, (h.source,.ok verdict) ∈ a.scanned ∧ h.clean = isClean verdict
  whole : ∀ h ∈ a.handed, h.source = a.received ∧ h.size = h.source.length ∧
    h.sha256 = hexDigest h.source

/-- A call that has ended has moreover left no new entry in the directory. -/
structure Gated (d : Directory Bytes) (a : Area σ) : Prop extends Handed a where
  entries : ∀ name inode, a.dir.lookup name = some inode → d.lookup name = some inode

/-- The directory has no new entry but that of the temporary file. -/
def Confined (t : Surroundings) (d : Directory Bytes) (a : Area σ) : Prop :=
  Handed a ∧ ∀ name, name ≠ t.temp → a.dir.lookup name = d.lookup name

/-- The temporary file holds what was read, and nothing was handed over yet. -/
structure Staged (t : Surroundings) (d : Directory Bytes) (a : Area σ) : Prop where
  entries : a.dir.lookup = (d.create t.temp []).lookup
  node : a.dir.node d.fresh = a.received
  handed : a.handed = []

theorem handed_nil {a : Area σ} (h : a.handed = []) : Handed a := by
  constructor <;> simp [h]

variable {d : Directory Bytes}

theorem confined_of_create {a : Area σ} (h : Handed a)
    (hentries : a.dir.lookup = (d.create t.temp []).lookup) : Confined t d a := by
  refine ⟨h,?_⟩
  intro name hname
  rw [hentries]
  exact Directory.lookup_create_of_ne hname

theorem Staged.confined {a : Area σ} (h : Staged t d a) : Confined t d a :=
  confined_of_create (handed_nil h.handed) h.entries

theorem createTemp_staged (s : σ) : Triple (fun a => a = start s d) (createTemp t)
    (Ensures (Confined t d) fun inode a => inode = d.fresh ∧ Staged t d a ∧ a.received = []) := by
  intro a ha
  subst ha
  have hstart : Confined t d (start s d) := ⟨handed_nil rfl,fun _ _ => rfl⟩
  rw [createTemp,exec_bind,exec_check]
  cases hopen : t.openTemp with
  | error e => exact hstart
  | ok _ =>
    simp only [exec_bind,exec_get]
    split_ifs with htaken
    · exact hstart
    · have hstaged : Staged t d ({ start s d with dir := d.create t.temp [] } : Area σ) :=
        ⟨rfl,by simp [start],rfl⟩
      exact ⟨hstaged.confined,rfl,hstaged,rfl⟩

theorem exec_readSource (a : Area σ) : exec (readSource p source) a =
    match source p.chunkBytes a.source with
    | (.error e,s) => (.error e,{ a with source := s })
    | (.ok chunk,s) => (.ok chunk,{ a with source := s, received := a.received ++ chunk }) := by
  rw [readSource,exec_bind,exec_get]
  dsimp only
  rcases source p.chunkBytes a.source with ⟨_ | _,_⟩ <;> rfl

/-- The loop keeps the temporary file in step with what it has read. -/
theorem copySource_staged (p : IngestPipeline) (t : Surroundings) (source : Source σ) (fuel n size : ℕ) (hashed : Bytes) :
    Triple (fun a => Staged t d a ∧ size = a.received.length ∧ hashed = a.received)
      (copySource p t source d.fresh fuel n size hashed)
      (Ensures (Confined t d) fun x a => Staged t d a ∧ x.1 = a.received.length ∧ x.2 = a.received) := by
  induction fuel generalizing n size hashed with
  | zero =>
    intro a ha
    exact ha.1.confined
  | succ fuel ih =>
    intro a ha
    obtain ⟨hstaged,hsize,hhashed⟩ := ha
    rw [copySource,exec_bind]
    rw [exec_readSource]
    rcases source p.chunkBytes a.source with ⟨e | chunk,s⟩
    · exact confined_of_create (handed_nil hstaged.handed) hstaged.entries
    · dsimp only
      by_cases hchunk : chunk = []
      · rw [if_pos hchunk]
        have hend : Staged t d { a with source := s, received := a.received ++ chunk } :=
          ⟨hstaged.entries,by simp [hchunk,hstaged.node],hstaged.handed⟩
        exact ⟨hend.confined,hend,by simp [hchunk,hsize],by simp [hchunk,hhashed]⟩
      · rw [if_neg hchunk]
        have hhalf : Confined t d { a with source := s, received := a.received ++ chunk } :=
          confined_of_create (handed_nil hstaged.handed) hstaged.entries
        by_cases hlarge : p.maxBytes < size+chunk.length
        · rw [if_pos hlarge]
          exact hhalf
        · rw [if_neg hlarge,exec_bind,writeTemp,exec_bind,exec_check]
          cases t.write n with
          | error e => exact hhalf
          | ok _ =>
            apply ih
            refine ⟨⟨hstaged.entries,?_,hstaged.handed⟩,?_,?_⟩
            · simp [hstaged.node]
            · simp [hsize]
            · simp [hhashed]

theorem exec_readTemp {a : Area σ} (h : Staged t d a) :
    exec (readTemp t) a = (.ok a.received,a) := by
  have hfind : a.dir.find t.temp = some a.received := by
    simp [Directory.find,h.entries,h.node]
  rw [readTemp,exec_bind,exec_get]
  simp [hfind]

/-- The bytes that the scanner is given, and its verdict, are what is handed over. -/
theorem scanAndStore_confined {a : Area σ} (h : Staged t d a) (binding : PrincipalBinding)
    (safeName : String) : Confined t d
      (exec (scanAndStore p t binding safeName a.received.length a.received) a).2 := by
  have hscan : exec (scanTemp t) a =
      (t.scan a.received,{ a with scanned := a.scanned ++ [(a.received,t.scan a.received)] }) := by
    rw [scanTemp,exec_bind,exec_readTemp h]
    simp [exec_bind]
  rw [scanAndStore,exec_bind,hscan]
  have hscanned : Staged t d { a with scanned := a.scanned ++ [(a.received,t.scan a.received)] } :=
    ⟨h.entries,h.node,h.handed⟩
  cases hverdict : t.scan a.received with
  | error e =>
    rw [hverdict] at hscanned
    exact hscanned.confined
  | ok verdict =>
    rw [hverdict] at hscanned
    dsimp only
    rw [exec_bind,exec_check]
    cases t.recordIngest with
    | error e => exact hscanned.confined
    | ok _ =>
      dsimp only
      rw [exec_bind,exec_check]
      cases t.reopen with
      | error e => exact hscanned.confined
      | ok _ =>
        dsimp only
        rw [exec_bind,exec_readTemp hscanned]
        dsimp only
        generalize hgiven : (⟨isClean verdict,binding,safeName,a.received,a.received.length,
          hexDigest a.received⟩ : Handover) = given
        -- from here on the port has been given the stream
        have hhanded : Handed { a with
            scanned := a.scanned ++ [(a.received,.ok verdict)], handed := a.handed ++ [given] } := by
          constructor
          · simp [h.handed]
          · intro x hx
            have hx : x = given := by simpa [h.handed] using hx
            exact ⟨verdict,by simp [hx,← hgiven],by simp [hx,← hgiven]⟩
          · intro x hx
            have hx : x = given := by simpa [h.handed] using hx
            simp [hx,← hgiven]
        have hconfined := confined_of_create (t:=t) (d:=d) hhanded h.entries
        rw [exec_bind,handOver,exec_bind,exec_modify]
        dsimp only
        rw [exec_check]
        cases p.store given with
        | error e => exact hconfined
        | ok receipt =>
          dsimp only
          rw [exec_bind,exec_check]
          cases t.recordStored with
          | error e => exact hconfined
          | ok _ =>
            dsimp only
            rw [exec_check]
            exact hconfined

/-- What the part under the `try` leaves, whether it returns or raises. -/
theorem stageAndStore_confined (p : IngestPipeline) (t : Surroundings) (source : Source σ)
    (binding : PrincipalBinding) (safeName : String) (s : σ) :
    Confined t d (exec (stageAndStore p t source binding safeName) (start s d)).2 := by
  have hcreated := createTemp_staged (t:=t) (d:=d) s (start s d) rfl
  rw [stageAndStore,exec_bind]
  rcases hcreate : exec (createTemp t) (start s d) with ⟨e | inode,a⟩
  · rw [hcreate] at hcreated
    exact hcreated
  · rw [hcreate] at hcreated
    obtain ⟨-,hinode,hempty,hnone⟩ := hcreated
    dsimp only at hinode hempty hnone ⊢
    rw [hinode]
    have hcopied := copySource_staged p t source (p.maxBytes+2) 0 0 [] a
      ⟨hempty,by simp [hnone],hnone.symm⟩
    rw [exec_bind]
    rcases hcopy : exec (copySource p t source d.fresh (p.maxBytes+2) 0 0 []) a with
      ⟨e | ⟨size,hashed⟩,b⟩
    · rw [hcopy] at hcopied
      exact hcopied
    · rw [hcopy] at hcopied
      obtain ⟨hconfined,hstaged,hsize,hhashed⟩ := hcopied
      dsimp only at hconfined hstaged hsize hhashed ⊢
      rw [exec_bind,exec_check]
      cases t.sync with
      | error e => exact hconfined
      | ok _ =>
        dsimp only
        rw [hsize,hhashed]
        exact scanAndStore_confined hstaged binding safeName

theorem gated_unlink {a : Area σ} (h : Confined t d a) :
    Gated d { a with dir := a.dir.unlink t.temp } := by
  refine ⟨⟨h.1.once,h.1.scanned,h.1.whole⟩,?_⟩
  intro name inode hinode
  by_cases hname : name = t.temp
  · simp [hname] at hinode
  · rw [← h.2 name hname]
    simpa [Directory.lookup_unlink_of_ne hname] using hinode

/-- A call ends as it started, or as the part under its `try` left it less the temporary file. -/
theorem ingest_ends {Q : Area σ → Prop} (binding : PrincipalBinding) (sourceName : String) (s : σ)
    (hstart : Q (start s d)) (hstage : ∀ safeName a,
      (exec (stageAndStore p t source binding safeName) (start s d)).2 = a →
        Q { a with dir := a.dir.unlink t.temp }) :
    Q (exec (ingest p t source binding sourceName) (start s d)).2 := by
  rw [ingest]
  cases validateName sourceName with
  | none => exact hstart
  | some safeName =>
    dsimp only
    rw [exec_bind,exec_check]
    cases t.mkdir with
    | error e => exact hstart
    | ok _ =>
      dsimp only
      rw [exec_ensuring]
      exact hstage safeName _ rfl

end Gate

end Scanned
end CloudFiles
end CloudBrowser
