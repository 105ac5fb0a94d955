import CloudBrowser.CompleteIngest
import CloudBrowser.DownloadRuns
import CloudBrowser.RawWrites
import CloudBrowser.ScannedIngest

/-! What becomes of a stream that is staged with unbuffered writes: in the ingest pipeline, and in
the quarantine of the store. A short write is not noticed. -/
namespace CloudBrowser
namespace CloudFiles
namespace Unbuffered

open Directories
open RawWrites
open Scanned
open Stateful

section Pipeline

variable {σ : Type} (p : IngestPipeline) (t : Surroundings) (source : Source σ) (w : Writes)

/-- `target.write(chunk)`, the `n`-th one, whose answer is not looked at. -/
def writeChunk (inode n : ℕ) (chunk : Bytes) : Action σ Unit := do
  check (t.write n)
  modify fun a => { a with dir := a.dir.write inode (a.dir.node inode ++ w.take n chunk) }

/-- The loop that copies the source. -/
def copyChunks (inode : ℕ) : ℕ → ℕ → ℕ → Bytes → Action σ (ℕ × Bytes)
  | 0, _, _, _ => throw .other
  | fuel+1, n, size, hashed => do
    let chunk ← readSource p source
    if chunk = [] then return (size,hashed)
    else if p.maxBytes < size+chunk.length then throw .tooLarge
    else do
      writeChunk t w inode n chunk
      copyChunks inode fuel (n+1) (size+chunk.length) (hashed ++ chunk)

def stage (binding : PrincipalBinding) (safeName : String) : Action σ IngestReceipt := do
  let inode ← createTemp t
  let (size,hashed) ← copyChunks p t source w inode (p.maxBytes+2) 0 0 []
  check t.sync
  scanAndStore p t binding safeName size hashed

def ingest (binding : PrincipalBinding) (sourceName : String) : Action σ IngestReceipt :=
  match validateName sourceName with
  | none => throw .invalidName
  | some safeName => do
    check t.mkdir
    ensuring (stage p t source w binding safeName) (unlinkTemp t)

/-- Where every write takes everything, it is the pipeline that takes writes for whole. -/
theorem ingest_whole (binding : PrincipalBinding) (sourceName : String) :
    ingest p t source .whole binding sourceName = Scanned.ingest p t source binding sourceName := by
  have hwrite : ∀ inode n chunk, writeChunk (σ:=σ) t .whole inode n chunk =
      Scanned.writeTemp t inode n chunk := by
    intro inode n chunk
    simp only [writeChunk,Scanned.writeTemp,Writes.take_whole]
  have hcopy : ∀ inode fuel n size hashed, copyChunks p t source .whole inode fuel n size hashed =
      copySource p t source inode fuel n size hashed := by
    intro inode fuel
    induction fuel with
    | zero => exact fun _ _ _ => rfl
    | succ fuel ih =>
      intro n size hashed
      simp only [copyChunks,copySource,hwrite,ih]
  have hstage : ∀ safeName, stage p t source .whole binding safeName =
      Scanned.stageAndStore p t source binding safeName := by
    intro safeName
    simp only [stage,Scanned.stageAndStore,hcopy]
  unfold ingest Scanned.ingest
  cases validateName sourceName with
  | none => rfl
  | some safeName => simp only [hstage]

/-- The loop reads these chunks, and then the end of the stream. `n` chunks of `size` bytes in all
have come before. -/
inductive Reads : ℕ → ℕ → σ → List Bytes → Prop
  | ends {n size : ℕ} {s : σ} (hread : (source p.chunkBytes s).1 = .ok []) : Reads n size s []
  | more {n size : ℕ} {s s' : σ} {chunk : Bytes} {chunks : List Bytes}
      (hread : source p.chunkBytes s = (.ok chunk,s')) (hchunk : chunk ≠ [])
      (hmax : size+chunk.length ≤ p.maxBytes) (hwrite : t.write n = .ok ())
      (hrest : Reads (n+1) (size+chunk.length) s' chunks) : Reads n size s (chunk::chunks)

/-- Nothing stands in the way of the scanner, and the stream comes in these chunks. -/
structure Scans (s : σ) (d : Directory Bytes) (sourceName : String) (chunks : List Bytes) :
    Prop where
  name : (validateName sourceName).isSome
  mkdir : t.mkdir = .ok ()
  openTemp : t.openTemp = .ok ()
  fresh : d.lookup t.temp = none
  reads : Reads p t source 0 0 s chunks
  sync : t.sync = .ok ()

end Pipeline

/-- What the scanner and the port were given is what was read, with its number of bytes and its
digest, and nothing is returned before. -/
structure Faithful {σ : Type} (out : Except IngestError IngestReceipt × Area σ) : Prop where
  scanned : ∀ x ∈ out.2.scanned, x.1 = out.2.received
  handed : ∀ h ∈ out.2.handed, h.source = out.2.received ∧ h.size = out.2.received.length ∧
    h.sha256 = hexDigest out.2.received
  returned : ∀ receipt, out.1 = .ok receipt → ∃ h ∈ out.2.handed, receipt.size = h.size

section Copy

variable {σ : Type} {p : IngestPipeline} {t : Surroundings} {source : Source σ} {w : Writes}
  {a : Area σ} {inode n : ℕ} {chunks : List Bytes}

/-- What the loop has done to the state when it returns. -/
structure Copied (w : Writes) (inode n : ℕ) (a : Area σ) (chunks : List Bytes)
    (out : Except IngestError (ℕ × Bytes) × Area σ) : Prop where
  value : out.1 = .ok (out.2.received.length,out.2.received)
  received : out.2.received = a.received ++ chunks.flatten
  entries : out.2.dir.lookup = a.dir.lookup
  temp : out.2.dir.node inode = a.dir.node inode ++ w.kept n chunks
  scanned : out.2.scanned = a.scanned
  handed : out.2.handed = a.handed

/-- What a call has done that raises before it scans. -/
structure Stopped {α : Type} (a : Area σ) (out : Except IngestError α × Area σ) : Prop where
  raised : ∃ e, out.1 = .error e
  scanned : out.2.scanned = a.scanned
  handed : out.2.handed = a.handed

theorem not_reads {size : ℕ} {s : σ} {e : IngestError}
    (hread : (source p.chunkBytes s).1 = .error e) : ¬Reads p t source n size s chunks := by
  intro h
  cases h with
  | ends hend => simp [hread] at hend
  | more hmore => simp [hmore] at hread

theorem reads_cons {size : ℕ} {s s' : σ} {chunk : Bytes}
    (hread : source p.chunkBytes s = (.ok chunk,s')) (hchunk : chunk ≠ []) :
    Reads p t source n size s chunks ↔ size+chunk.length ≤ p.maxBytes ∧ t.write n = .ok () ∧
      ∃ rest, chunks = chunk::rest ∧ Reads p t source (n+1) (size+chunk.length) s' rest := by
  constructor
  · intro h
    cases h with
    | ends hend => simp [hread,hchunk] at hend
    | more hmore _ hmax hwrite hrest =>
      cases hread.symm.trans hmore
      exact ⟨hmax,hwrite,_,rfl,hrest⟩
  · rintro ⟨hmax,hwrite,rest,rfl,hrest⟩
    exact .more hread hchunk hmax hwrite hrest

theorem Reads.unique {size : ℕ} {s : σ} {chunks' : List Bytes}
    (h : Reads p t source n size s chunks) (h' : Reads p t source n size s chunks') :
    chunks = chunks' := by
  induction h generalizing chunks' with
  | ends hend =>
    cases h' with
    | ends => rfl
    | more hmore hchunk => simp [hmore,hchunk] at hend
  | more hread hchunk _ _ _ ih =>
    obtain ⟨-,-,rest,rfl,hrest⟩ := (reads_cons hread hchunk).mp h'
    rw [ih hrest]

/-- The loop ends, with what the source gives, or with an exception. -/
theorem copyChunks_cases (fuel n : ℕ) (a : Area σ)
    (hfuel : p.maxBytes+1 < fuel+a.received.length) (hsize : a.received.length ≤ p.maxBytes) :
    (∃ chunks, Reads p t source n a.received.length a.source chunks ∧ Copied w inode n a chunks
        (exec (copyChunks p t source w inode fuel n a.received.length a.received) a)) ∨
      (∀ chunks, ¬Reads p t source n a.received.length a.source chunks) ∧
        Stopped a (exec (copyChunks p t source w inode fuel n a.received.length a.received) a) := by
  induction fuel generalizing n a with
  | zero => omega
  | succ fuel ih =>
    rw [copyChunks,exec_bind,exec_readSource]
    rcases hread : source p.chunkBytes a.source with ⟨e | chunk,s⟩
    · exact .inr ⟨fun chunks => not_reads (by rw [hread]),⟨e,rfl⟩,rfl,rfl⟩
    · dsimp only
      by_cases hchunk : chunk = []
      · subst hchunk
        rw [if_pos rfl]
        refine .inl ⟨[],.ends (by rw [hread]),?_⟩
        constructor <;> simp [Writes.kept]
      · simp only [if_neg hchunk,reads_cons hread hchunk]
        by_cases hlarge : p.maxBytes < a.received.length+chunk.length
        · rw [if_pos hlarge]
          exact .inr ⟨fun chunks h => absurd h.1 (by omega),⟨_,rfl⟩,rfl,rfl⟩
        · rw [if_neg hlarge,exec_bind,writeChunk,exec_bind,exec_check]
          cases hwrite : t.write n with
          | error e => exact .inr ⟨fun chunks h => by simp at h,⟨e,rfl⟩,rfl,rfl⟩
          | ok _ =>
            have hpos := List.length_pos_of_ne_nil hchunk
            have hnext := ih (n+1) { a with
                source := s
                received := a.received ++ chunk
                dir := a.dir.write inode (a.dir.node inode ++ w.take n chunk) }
              (by simp only [List.length_append]; omega) (by simp only [List.length_append]; omega)
            simp only [List.length_append] at hnext
            rcases hnext with ⟨chunks,hreads,hcopied⟩ | ⟨hnot,hstopped⟩
            · refine .inl ⟨chunk::chunks,⟨not_lt.mp hlarge,rfl,chunks,rfl,hreads⟩,hcopied.value,?_,
                hcopied.entries,?_,hcopied.scanned,hcopied.handed⟩
              · exact hcopied.received.trans (by simp)
              · exact hcopied.temp.trans (by simp [Writes.kept])
            · refine .inr ⟨?_,hstopped.raised,hstopped.scanned,hstopped.handed⟩
              rintro chunks ⟨-,-,rest,-,hrest⟩
              exact hnot rest hrest

/-- What a call has done from the scan on, whose temporary file holds `staged`. -/
structure Offered (t : Surroundings) (a : Area σ) (staged : Bytes) (size : ℕ) (hashed : Bytes)
    (out : Except IngestError IngestReceipt × Area σ) : Prop where
  received : out.2.received = a.received
  scanned : out.2.scanned = a.scanned ++ [(staged,t.scan staged)]
  handed : ∀ h ∈ out.2.handed, h ∈ a.handed ∨
    h.source = staged ∧ h.size = size ∧ h.sha256 = hexDigest hashed
  returned : ∀ receipt, out.1 = .ok receipt → ∃ h ∈ out.2.handed, receipt.size = h.size

theorem scanAndStore_offered {staged : Bytes} (hfind : a.dir.find t.temp = some staged)
    (binding : PrincipalBinding) (safeName : String) (size : ℕ) (hashed : Bytes) :
    Offered t a staged size hashed
      (exec (scanAndStore p t binding safeName size hashed) a) := by
  have hread : ∀ scanned, exec (readTemp t) { a with scanned := scanned } =
      (.ok staged,{ a with scanned := scanned }) := by
    intro scanned
    rw [readTemp,exec_bind,exec_get]
    simp [hfind]
  have hscan : exec (scanTemp t) a =
      (t.scan staged,{ a with scanned := a.scanned ++ [(staged,t.scan staged)] }) := by
    rw [scanTemp,exec_bind,hread a.scanned]
    simp [exec_bind]
  have hstop : ∀ e : IngestError, Offered t a staged size hashed
      (.error e,{ a with scanned := a.scanned ++ [(staged,t.scan staged)] }) := fun _ =>
    ⟨rfl,rfl,fun _ h => .inl h,fun _ h => by cases h⟩
  rw [scanAndStore,exec_bind,hscan]
  cases hverdict : t.scan staged with
  | error e => simpa only [hverdict] using hstop e
  | ok verdict =>
    rw [hverdict] at hstop
    dsimp only
    rw [exec_bind,exec_check]
    cases t.recordIngest with
    | error e => exact hstop e
    | ok _ =>
      dsimp only
      rw [exec_bind,exec_check]
      cases t.reopen with
      | error e => exact hstop e
      | ok _ =>
        dsimp only
        rw [exec_bind,hread]
        dsimp only
        generalize hgiven : (⟨isClean verdict,binding,safeName,staged,size,hexDigest hashed⟩ :
          Handover) = given
        -- from here on the port has been given the stream
        have hoffered : ∀ out : Except IngestError IngestReceipt,
            (∀ receipt, out = .ok receipt → receipt.size = size) →
            Offered t a staged size hashed (out,{ a with
              scanned := a.scanned ++ [(staged,.ok verdict)], handed := a.handed ++ [given] }) := by
          intro out hout
          refine ⟨rfl,by rw [hverdict],?_,?_⟩
          · intro h hh
            rcases List.mem_append.mp hh with hh | hh
            · exact .inl hh
            · right
              rw [List.mem_singleton.mp hh,← hgiven]
              exact ⟨rfl,rfl,rfl⟩
          · intro receipt hreceipt
            refine ⟨given,by simp,?_⟩
            rw [hout receipt hreceipt,← hgiven]
        rw [exec_bind,Scanned.handOver,exec_bind,exec_modify]
        dsimp only
        rw [exec_check]
        cases p.store given with
        | error e => exact hoffered _ fun _ h => by cases h
        | ok receipt =>
          dsimp only
          rw [exec_bind,exec_check]
          cases t.recordStored with
          | error e => exact hoffered _ fun _ h => by cases h
          | ok _ =>
            dsimp only
            rw [exec_check]
            exact hoffered _ fun _ => build_size

/-- A call that stops before the scan has given nothing to anybody. -/
theorem Stopped.faithful {out : Except IngestError IngestReceipt × Area σ} (h : Stopped a out)
    (hscanned : a.scanned = []) (hhanded : a.handed = []) : Faithful out := by
  obtain ⟨e,he⟩ := h.raised
  constructor
  · simp [h.scanned,hscanned]
  · simp [h.handed,hhanded]
  · simp [he]

variable {s : σ} {d : Directory Bytes}

/-- A call that gets to the scanner gives it what the writes have kept. -/
theorem faithful_offered {out : Except IngestError IngestReceipt × Area σ} {staged : Bytes}
    (hscanned : a.scanned = []) (hhanded : a.handed = [])
    (h : Offered t a staged a.received.length a.received out) :
    Faithful out ↔ staged = a.received := by
  constructor
  · intro hfaithful
    have hgiven := hfaithful.scanned (staged,t.scan staged) (by simp [h.scanned])
    rwa [h.received] at hgiven
  · rintro rfl
    refine ⟨?_,?_,h.returned⟩
    · simp [h.scanned,hscanned,h.received]
    · intro x hx
      have hnone : x ∉ a.handed := by simp [hhanded]
      rw [h.received]
      exact (h.handed x hx).resolve_left hnone

theorem stage_faithful_iff (binding : PrincipalBinding) (safeName : String) :
    Faithful (exec (stage p t source w binding safeName) (start s d)) ↔
      ∀ chunks, t.openTemp = .ok () → d.lookup t.temp = none → Reads p t source 0 0 s chunks →
        t.sync = .ok () → w.Whole 0 chunks := by
  have hstop : ∀ (e : IngestError) (a : Area σ), a.scanned = [] → a.handed = [] →
      Faithful ((.error e : Except IngestError IngestReceipt),a) := fun e a hscanned hhanded =>
    Stopped.faithful (a:=a) ⟨⟨e,rfl⟩,rfl,rfl⟩ hscanned hhanded
  rw [stage,exec_bind,createTemp,exec_bind,exec_check]
  cases hopen : t.openTemp with
  | error e => exact iff_of_true (hstop e _ rfl rfl) (by simp)
  | ok _ =>
    simp only [exec_bind,exec_get]
    cases hlookup : d.lookup t.temp with
    | some inode =>
      have htaken : ((start s d : Area σ).dir.lookup t.temp).isSome := by simp [start,hlookup]
      rw [if_pos htaken]
      exact iff_of_true (hstop _ _ rfl rfl) (by simp)
    | none =>
      have hfree : ¬((start s d : Area σ).dir.lookup t.temp).isSome := by simp [start,hlookup]
      rw [if_neg hfree]
      have hcopy := @copyChunks_cases σ p t source w d.fresh (p.maxBytes+2) 0
        { start s d with dir := d.create t.temp [] } (by simp [start]) (by simp [start])
      simp only [exec_bind,exec_set,exec_pure,exec_check,start,List.length_nil] at hcopy ⊢
      rcases hrun : exec (copyChunks p t source w d.fresh (p.maxBytes+2) 0 0 [])
        { source := s, received := [], dir := d.create t.temp [], scanned := [], handed := [] }
        with ⟨r,a⟩
      rw [hrun] at hcopy
      rcases hcopy with ⟨chunks,hreads,hcopied⟩ | ⟨hnot,hstopped⟩
      · obtain ⟨hvalue,hreceived,hentries,htemp,hscanned,hhanded⟩ := hcopied
        dsimp only at hvalue hreceived hentries htemp hscanned hhanded ⊢
        rw [hvalue]
        cases hsync : t.sync with
        | error e => exact iff_of_true (hstop e a hscanned hhanded) (by simp)
        | ok _ =>
          have hfind : a.dir.find t.temp = some (w.kept 0 chunks) := by
            simp [Directory.find,hentries,htemp]
          rw [faithful_offered hscanned hhanded (scanAndStore_offered hfind binding safeName
            a.received.length a.received),hreceived,List.nil_append,Writes.kept_eq_iff]
          refine ⟨fun hwhole chunks' _ _ hreads' _ => ?_,
            fun h => h chunks trivial trivial hreads rfl⟩
          rwa [hreads'.unique hreads]
      · obtain ⟨⟨e,he⟩,hscanned,hhanded⟩ := hstopped
        dsimp only at he hscanned hhanded ⊢
        rw [he]
        exact iff_of_true (hstop e a hscanned hhanded) fun chunks _ _ hreads =>
          absurd hreads (hnot chunks)

theorem ingest_faithful_iff (p : IngestPipeline) (t : Surroundings) (source : Source σ) (w : Writes)
    (s : σ) (d : Directory Bytes) (binding : PrincipalBinding) (sourceName : String) :
    Faithful (exec (ingest p t source w binding sourceName) (start s d)) ↔
      ∀ chunks, Scans p t source s d sourceName chunks → w.Whole 0 chunks := by
  have hstop : ∀ e : IngestError,
      Faithful ((.error e : Except IngestError IngestReceipt),start s d) := fun e =>
    Stopped.faithful (a:=start s d) ⟨⟨e,rfl⟩,rfl,rfl⟩ rfl rfl
  unfold ingest
  cases hname : validateName sourceName with
  | none =>
    refine iff_of_true (hstop .invalidName) fun chunks h => absurd h.name (by simp [hname])
  | some safeName =>
    dsimp only
    rw [exec_bind,exec_check]
    cases hmkdir : t.mkdir with
    | error e => exact iff_of_true (hstop e) fun chunks h => absurd h.mkdir (by simp [hmkdir])
    | ok _ =>
      -- taking the temporary file away changes nothing of it
      have hunlink : Faithful (exec (ensuring (stage p t source w binding safeName) (unlinkTemp t))
            (start s d)) ↔
          Faithful (exec (stage p t source w binding safeName) (start s d)) := by
        rw [exec_ensuring]
        rcases exec (stage p t source w binding safeName) (start s d) with ⟨r,a⟩
        exact ⟨fun h => ⟨h.scanned,h.handed,h.returned⟩,fun h => ⟨h.scanned,h.handed,h.returned⟩⟩
      dsimp only
      rw [hunlink,stage_faithful_iff]
      constructor
      · exact fun h chunks hscans =>
          h chunks hscans.openTemp hscans.fresh hscans.reads hscans.sync
      · exact fun h chunks hopen hfresh hreads hsync =>
          h chunks ⟨by simp [hname],hmkdir,hopen,hfresh,hreads,hsync⟩

end Copy
end Unbuffered
end CloudFiles

namespace Storage
namespace DownloadStore

open CloudFiles
open Directories
open RawWrites

variable (store : DownloadStore) (p : String)

/-- What the results of the reads amount to, and what the writes keep of it. -/
def copyUnbuffered (limit : ℕ) (w : Writes) : ℕ → List (Except StoreError Bytes) → Bytes → Bytes →
    Except StoreError (Bytes × Bytes)
  | _, [], copied, kept => .ok (copied,kept)
  | _, .error e::_, _, _ => .error e
  | _, .ok []::_, copied, kept => .ok (copied,kept)
  | n, .ok chunk::reads, copied, kept =>
    if limit < copied.length+chunk.length then .error (.valueError "download exceeds size limit")
    else copyUnbuffered limit w (n+1) reads (copied ++ chunk) (kept ++ w.take n chunk)

/-- `quarantine`, whose file is written without a buffer. -/
def quarantineUnbuffered (name : String) (reads : List (Except StoreError Bytes)) (w : Writes)
    (now : ℤ) (disk : Disk) : Except StoreError DownloadReceipt × Disk :=
  match validateName name with
  | none => (.error unsafeName,disk)
  | some safe =>
    let key := store.ownerKey p
    if isPrincipal p = false then (.error notOwner,disk)
    else if isSafe (disk.root.find key) = false then (.error unsafeStorage,disk)
    else
      let disk := disk.mkdirTop key
      if isSafe (disk.child key quarantineDir) = false then (.error unsafeStorage,disk)
      else
        let disk := disk.mkdirSub key quarantineDir
        let f := disk.sub (key,quarantineDir)
        match ((List.range 1001).map (quarantineName safe)).find? fun c => (f.lookup c).isNone with
        | none => (.error (.valueError "quarantine name space exhausted"),disk)
        | some candidate =>
          if nameBytes < Text.utf8Length candidate then (.error .other,disk)
          else match copyUnbuffered store.maxFileBytes w 0 reads [] [] with
            | .error e => (.error e,disk)
            | .ok (content,kept) =>
              (.ok ⟨candidate,content.length,now,store.sha256 content,p⟩,
                disk.setSub key quarantineDir (f.create candidate (.file kept now)))

/-- The chunks that the reads give until the stream ends, if it does within the limit. -/
def chunksOf (limit : ℕ) : ℕ → List (Except StoreError Bytes) → Option (List Bytes)
  | _, [] => some []
  | _, .error _::_ => none
  | _, .ok []::_ => some []
  | size, .ok chunk::reads =>
    if limit < size+chunk.length then none
    else (chunksOf limit (size+chunk.length) reads).map (chunk::·)

/-- The directory that a quarantine makes where it is missing. -/
def withQuarantine (disk : Disk) : Disk :=
  (disk.mkdirTop (store.ownerKey p)).mkdirSub (store.ownerKey p) quarantineDir

/-- Nothing stands in the way of the file. -/
structure Opens (name : String) (disk : Disk) (candidate : String) : Prop where
  principal : isPrincipal p = true
  owner : isSafe (disk.root.find (store.ownerKey p)) = true
  directory : isSafe (disk.child (store.ownerKey p) quarantineDir) = true
  name : ∃ safe, validateName name = some safe ∧
    (((List.range 1001).map (quarantineName safe)).find? fun c =>
      (((store.withQuarantine p disk).sub (store.ownerKey p,quarantineDir)).lookup c).isNone) =
        some candidate
  length : Text.utf8Length candidate ≤ nameBytes

/-- A receipt is for a file with the bytes that were read, and has their number and their digest. -/
def Receives (reads : List (Except StoreError Bytes)) (now : ℤ)
    (out : Except StoreError DownloadReceipt × Disk) : Prop :=
  ∀ receipt, out.1 = .ok receipt → ∃ chunks, chunksOf store.maxFileBytes 0 reads = some chunks ∧
    (out.2.subarea (store.ownerKey p) quarantineDir).bind (·.find receipt.name) =
      some (.file chunks.flatten now) ∧
    receipt.size = chunks.flatten.length ∧ receipt.sha256 = store.sha256 chunks.flatten

variable {store p} {limit n : ℕ} {w : Writes} {reads : List (Except StoreError Bytes)} {now : ℤ}
  {name : String} {disk : Disk} {copied kept : Bytes} {chunks : List Bytes}

theorem chunksOf_cons (size : ℕ) (b : UInt8) (bs : Bytes) :
    chunksOf limit size (.ok (b::bs)::reads) =
    if limit < size+(b::bs).length then none
    else (chunksOf limit (size+(b::bs).length) reads).map ((b::bs)::·) := rfl

theorem copyUnbuffered_cons (b : UInt8) (bs : Bytes) :
    copyUnbuffered limit w n (.ok (b::bs)::reads) copied kept =
      if limit < copied.length+(b::bs).length then
        .error (.valueError "download exceeds size limit")
      else copyUnbuffered limit w (n+1) reads (copied ++ (b::bs)) (kept ++ w.take n (b::bs)) := rfl

theorem copyUnbuffered_some (h : chunksOf limit copied.length reads = some chunks) :
    copyUnbuffered limit w n reads copied kept =
      .ok (copied ++ chunks.flatten,kept ++ w.kept n chunks) := by
  induction reads generalizing n copied kept chunks with
  | nil =>
    cases h
    simp [copyUnbuffered,Writes.kept]
  | cons r reads ih =>
    rcases r with e | (_ | ⟨b,bs⟩)
    · cases h
    · cases h
      simp [copyUnbuffered,Writes.kept]
    · rw [chunksOf_cons] at h
      split_ifs at h with hlarge
      obtain ⟨rest,hrest,rfl⟩ := Option.map_eq_some_iff.mp h
      rw [copyUnbuffered_cons,if_neg hlarge,ih (by rwa [List.length_append])]
      simp [Writes.kept]

theorem copyUnbuffered_none (h : chunksOf limit copied.length reads = none) :
    ∃ e, copyUnbuffered limit w n reads copied kept = .error e := by
  induction reads generalizing n copied kept with
  | nil => cases h
  | cons r reads ih =>
    match r with
    | .error e => exact ⟨e,rfl⟩
    | .ok [] => cases h
    | .ok (b::bs) =>
      rw [chunksOf_cons] at h
      rw [copyUnbuffered_cons]
      split_ifs at h with hlarge
      · exact ⟨_,if_pos hlarge⟩
      · rw [if_neg hlarge]
        exact ih (by rwa [List.length_append,← Option.map_eq_none_iff])

theorem copyUnbuffered_whole : copyUnbuffered limit .whole n reads copied copied =
    (copyStream limit reads copied).map fun content => (content,content) := by
  induction reads generalizing n copied with
  | nil => rfl
  | cons r reads ih =>
    match r with
    | .error e => rfl
    | .ok [] => rfl
    | .ok (b::bs) =>
      have hstream : copyStream limit (.ok (b::bs)::reads) copied =
          if limit < copied.length+(b::bs).length then
            .error (.valueError "download exceeds size limit")
          else copyStream limit reads (copied ++ (b::bs)) := rfl
      rw [copyUnbuffered_cons,hstream]
      split_ifs
      · rfl
      · rw [Writes.take_whole,ih]

/-- Where every write takes everything, it is the quarantine that takes writes for whole. -/
theorem quarantineUnbuffered_whole : store.quarantineUnbuffered p name reads .whole now disk =
    store.quarantine p name reads now disk := by
  have hcopy := @copyUnbuffered_whole store.maxFileBytes 0 reads []
  unfold quarantineUnbuffered quarantine
  cases validateName name with
  | none => rfl
  | some safe =>
    dsimp only
    generalize (List.range 1001).map (quarantineName safe) = names
    rw [hcopy]
    cases copyStream store.maxFileBytes reads [] <;> rfl

/-- A receipt is given where the file can be opened and the stream ends. -/
theorem quarantineUnbuffered_cases (store : DownloadStore) (p name : String)
    (reads : List (Except StoreError Bytes)) (w : Writes) (now : ℤ) (disk : Disk) :
    (∃ candidate chunks, store.Opens p name disk candidate ∧
        chunksOf store.maxFileBytes 0 reads = some chunks ∧
        store.quarantineUnbuffered p name reads w now disk =
          (.ok ⟨candidate,chunks.flatten.length,now,store.sha256 chunks.flatten,p⟩,
            (store.withQuarantine p disk).setSub (store.ownerKey p) quarantineDir
              (((store.withQuarantine p disk).sub (store.ownerKey p,quarantineDir)).create candidate
                (.file (w.kept 0 chunks) now)))) ∨
      (∀ candidate chunks, store.Opens p name disk candidate →
        chunksOf store.maxFileBytes 0 reads ≠ some chunks) ∧
      ∃ e, (store.quarantineUnbuffered p name reads w now disk).1 = .error e := by
  unfold quarantineUnbuffered
  cases hname : validateName name with
  | none =>
    refine .inr ⟨fun candidate chunks h => ?_,_,rfl⟩
    obtain ⟨safe,hsafe,-⟩ := h.name
    simp [hname] at hsafe
  | some safe =>
    dsimp only
    by_cases hp : isPrincipal p = false
    · rw [if_pos hp]
      exact .inr ⟨fun candidate chunks h => by simp [h.principal] at hp,_,rfl⟩
    rw [if_neg hp]
    by_cases howner : isSafe (disk.root.find (store.ownerKey p)) = false
    · rw [if_pos howner]
      exact .inr ⟨fun candidate chunks h => by simp [h.owner] at howner,_,rfl⟩
    rw [if_neg howner,Disk.child_mkdirTop]
    by_cases hdirectory : isSafe (disk.child (store.ownerKey p) quarantineDir) = false
    · rw [if_pos hdirectory]
      exact .inr ⟨fun candidate chunks h => by simp [h.directory] at hdirectory,_,rfl⟩
    rw [if_neg hdirectory]
    have hmade : (disk.mkdirTop (store.ownerKey p)).mkdirSub (store.ownerKey p) quarantineDir =
      store.withQuarantine p disk := rfl
    rw [hmade]
    generalize hfind : (((List.range 1001).map (quarantineName safe)).find? fun c =>
      (((store.withQuarantine p disk).sub (store.ownerKey p,quarantineDir)).lookup c).isNone) =
        found
    have hname' : ∀ candidate, store.Opens p name disk candidate → found = some candidate := by
      intro candidate h
      obtain ⟨safe',hsafe,hcandidate⟩ := h.name
      cases hname.symm.trans hsafe
      exact hfind.symm.trans hcandidate
    cases found with
    | none => exact .inr ⟨fun candidate chunks h => by simpa using hname' candidate h,_,rfl⟩
    | some candidate =>
      dsimp only
      by_cases hlong : nameBytes < Text.utf8Length candidate
      · rw [if_pos hlong]
        refine .inr ⟨fun candidate' chunks h => ?_,_,rfl⟩
        cases hname' candidate' h
        exact absurd h.length (not_le.mpr hlong)
      · rw [if_neg hlong]
        cases hchunks : chunksOf store.maxFileBytes 0 reads with
        | none =>
          obtain ⟨e,he⟩ := @copyUnbuffered_none store.maxFileBytes 0 w reads [] [] hchunks
          rw [he]
          exact .inr ⟨by simp,e,rfl⟩
        | some chunks =>
          have hcopied := @copyUnbuffered_some store.maxFileBytes 0 w reads [] [] chunks hchunks
          rw [hcopied]
          exact .inl ⟨candidate,chunks,⟨by simpa using hp,by simpa using howner,
            by simpa using hdirectory,⟨safe,hname,hfind⟩,not_lt.mp hlong⟩,rfl,rfl⟩

theorem subarea_withQuarantine {candidate : String} (h : store.Opens p name disk candidate) :
    ((store.withQuarantine p disk).subarea (store.ownerKey p) quarantineDir).isSome := by
  rw [withQuarantine,Disk.subarea_mkdirSub (Disk.root_mkdirTop_self h.owner),Disk.child_mkdirTop]
  have hsafe := h.directory
  cases hchild : disk.child (store.ownerKey p) quarantineDir with
  | none => simp
  | some n =>
    cases n with
    | directory => simp [Disk.subarea,hchild]
    | file content mtime => simp [hchild,isSafe] at hsafe
    | link target => simp [hchild,isSafe] at hsafe

/-- A quarantine that gives a receipt has the bytes exactly if no write was short. -/
theorem receives_iff (store : DownloadStore) (p name : String)
    (reads : List (Except StoreError Bytes)) (w : Writes) (now : ℤ) (disk : Disk) :
    store.Receives p reads now (store.quarantineUnbuffered p name reads w now disk) ↔
      ∀ candidate chunks, store.Opens p name disk candidate →
        chunksOf store.maxFileBytes 0 reads = some chunks → w.Whole 0 chunks := by
  rcases quarantineUnbuffered_cases store p name reads w now disk with
    ⟨candidate,chunks,hopens,hchunks,hout⟩ | ⟨hnot,e,he⟩
  · have hfile : (((store.withQuarantine p disk).setSub (store.ownerKey p) quarantineDir
        (((store.withQuarantine p disk).sub (store.ownerKey p,quarantineDir)).create candidate
          (.file (w.kept 0 chunks) now))).subarea (store.ownerKey p) quarantineDir).bind
            (·.find candidate) = some (.file (w.kept 0 chunks) now) := by
      rw [Disk.subarea_setSub_self (subarea_withQuarantine hopens),Option.bind_some]
      exact Directory.find_create_self
    rw [hout]
    constructor
    · intro h candidate' chunks' _ hchunks'
      obtain ⟨chunks'',hsame,hkept,-,-⟩ := h _ rfl
      cases hchunks.symm.trans hchunks'
      cases hchunks.symm.trans hsame
      rw [hfile,Option.some.injEq,Node.file.injEq] at hkept
      exact Writes.kept_eq_iff.mp hkept.1
    · rintro hwhole receipt ⟨⟩
      refine ⟨chunks,hchunks,?_,rfl,rfl⟩
      rw [hfile,Writes.kept_eq_iff.mpr (hwhole candidate chunks hopens hchunks)]
  · refine iff_of_true (fun receipt h => ?_) fun candidate chunks hopens hchunks =>
      absurd hchunks (hnot candidate chunks hopens)
    rw [he] at h
    cases h

end DownloadStore
end Storage

/-! ### Both -/

namespace StagedWrites

open CloudFiles
open Directories
open RawWrites
open Storage
open Storage.DownloadStore
open Stateful

/-- Staged bytes are the bytes that were read, with their number and digest, exactly where no write
before the scan, or before the receipt, is short. -/
theorem staged_iff (w : Writes) :
    (∀ {σ : Type} (pipeline : IngestPipeline) (t : Scanned.Surroundings) (source : Scanned.Source σ)
      (s : σ) (d : Directory Bytes) (binding : PrincipalBinding) (sourceName : String),
      Unbuffered.Faithful (exec (Unbuffered.ingest pipeline t source w binding sourceName)
          (Scanned.start s d)) ↔
        ∀ chunks, Unbuffered.Scans pipeline t source s d sourceName chunks → w.Whole 0 chunks) ∧
    ∀ (store : DownloadStore) (p name : String) (reads : List (Except StoreError Bytes))
      (now : ℤ) (disk : Disk),
      store.Receives p reads now (store.quarantineUnbuffered p name reads w now disk) ↔
        ∀ candidate chunks, store.Opens p name disk candidate →
          DownloadStore.chunksOf store.maxFileBytes 0 reads = some chunks → w.Whole 0 chunks := by
  constructor
  · intro σ pipeline t source s d binding sourceName
    exact Unbuffered.ingest_faithful_iff pipeline t source w s d binding sourceName
  · intro store p name reads now disk
    exact DownloadStore.receives_iff store p name reads w now disk

/-- A file whose writes take a byte at a time. -/
def bytewise : Writes where
  accepted _ len := min 1 len
  accepted_pos _ _ h := by omega
  accepted_le _ _ := by omega

/-- A source of two bytes. -/
def twoBytes : Scanned.Source ℕ
  | _, 0 => (.ok [1,2],1)
  | _, n+1 => (.ok [],n+1)

def untroubled : Scanned.Surroundings where
  temp := ".cloudfiles-0.tmp"
  mkdir := .ok ()
  openTemp := .ok ()
  write _ := .ok ()
  sync := .ok ()
  scan _ := .ok (.str "clean")
  recordIngest := .ok ()
  reopen := .ok ()
  recordStored := .ok ()

/-- The pipeline hands over one byte of two, and the quarantine keeps one, each with the digest of
both. -/
theorem short_write_unnoticed :
    (¬∀ (pipeline : IngestPipeline) (t : Scanned.Surroundings) (source : Scanned.Source ℕ)
      (w : Writes) (s : ℕ) (d : Directory Bytes) (binding : PrincipalBinding) (sourceName : String),
      Unbuffered.Faithful (exec (Unbuffered.ingest pipeline t source w binding sourceName)
        (Scanned.start s d))) ∧
    ¬∀ (store : DownloadStore) (p name : String) (reads : List (Except StoreError Bytes))
      (w : Writes) (now : ℤ) (disk : Disk),
      store.Receives p reads now (store.quarantineUnbuffered p name reads w now disk) := by
  constructor
  · intro h
    let out := exec (Unbuffered.ingest exampleServer.pipeline untroubled twoBytes bytewise
      ⟨"alice","profile-a","browser-a","generation-a","req-1",by decide,by decide⟩ "a")
        (Scanned.start 0 ⟨.empty,fun _ => [],0⟩)
    have hgiven : out.2.handed.map Handover.source = [[1]] := by decide +kernel
    have hread : out.2.received = [1,2] := by decide +kernel
    obtain ⟨handover,hmem,hsource⟩ := List.mem_map.mp (hgiven ▸ List.mem_singleton_self [1])
    have hsame := ((h _ _ _ _ _ _ _ _).handed handover hmem).1
    rw [hsource] at hsame
    exact absurd (hsame.trans hread) (by decide)
  · intro h
    have hreceipt : (small.quarantineUnbuffered "alice" "a" [.ok [1,2]] bytewise 0 Disk.empty).1 =
        .ok ⟨"a",2,0,small.sha256 [1,2],"alice"⟩ := by decide +kernel
    obtain ⟨chunks,hchunks,hfile,-⟩ :=
      h small "alice" "a" [.ok [1,2]] bytewise 0 Disk.empty _ hreceipt
    cases hchunks
    exact absurd hfile (by decide +kernel)

end StagedWrites
end CloudBrowser
