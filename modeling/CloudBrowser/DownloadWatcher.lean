import CloudBrowser.Directories
import CloudBrowser.FileNames
import CloudBrowser.Lifecycle

/-! The watcher of the browser's download directory, step by step, and the client that submits
what it finds to the ingest receiver. -/
namespace CloudBrowser
namespace Downloads

open CloudFiles
open Directories

inductive Node
  | file (content : Bytes)
  | symlink
  | directory
  deriving DecidableEq, Repr

structure DownloadWatchConfig where
  binding : PrincipalBinding
  maxBytes : ℕ := 1024*1024*1024
  maxBytes_pos : 0 < maxBytes

/-- A completed download; its source is the descriptor, which stands for the node it was opened
on. -/
structure BrowserDownloadCompleted where
  binding : PrincipalBinding
  sourceName : String
  source : ℕ
  size : ℕ
  deriving DecidableEq

structure IngestClient where
  baseUrl : String
  sharedSecret : String
  url_http : (baseUrl.startsWith "http://" || baseUrl.startsWith "https://") = true
  secret_long : 16 ≤ Text.utf8Length sharedSecret

def IngestClient.headers (client : IngestClient) (binding : PrincipalBinding) :
    List (String × String) :=
  [("X-CB-Trusted-Secret",client.sharedSecret),("X-CB-Principal",binding.principalId),
    ("X-CB-Profile",binding.profileId),("X-CB-Browser",binding.browserId),
    ("X-CB-Generation",binding.generation),("X-CB-Request-Id",binding.requestId)]

/-- The head of the request that submits an event, where the client raises nothing; header values
go out as Latin-1. -/
def IngestClient.request (client : IngestClient) (event : BrowserDownloadCompleted) :
    Option (List (String × String)) := do
  let safe ← validateName event.sourceName
  let headers := client.headers event.binding ++
    [("Content-Length",toString event.size),("X-CB-Filename",safe)]
  if event.binding.requestId ≠ "" ∧ headers.all fun h => h.2.toList.all fun c => c.val < 0x100 then
    some headers
  else none

def chunkBytes : ℕ := 64*1024

/-- Where `emit_once` stands. The names that are still to be looked at, or to be emitted, come
last. -/
inductive Phase
  | idle
  | listing (children found : List String)
  | choosing (rest : List String)
  | bound (name : String) (binding : PrincipalBinding) (rest : List String)
  | opened (name : String) (binding : PrincipalBinding) (descriptor : ℕ) (rest : List String)
  | sending (event : BrowserDownloadCompleted) (done : Bytes) (rest : List String)
  | sent (event : BrowserDownloadCompleted) (body : Bytes) (rest : List String)
  | consuming (event : BrowserDownloadCompleted) (body : Bytes) (rest : List String)
  deriving DecidableEq

/-- The path and the descriptor that the watcher goes by, and whether it has taken the size. -/
def Phase.held : Phase → Option (String × ℕ × Bool)
  | .opened name _ descriptor _ => some (name,descriptor,false)
  | .sending event _ _ => some (event.sourceName,event.source,true)
  | .sent event _ _ => some (event.sourceName,event.source,true)
  | .consuming event _ _ => some (event.sourceName,event.source,true)
  | _ => none

/-- The binding that was read for a file and has not been sent yet. -/
def Phase.binding : Phase → Option PrincipalBinding
  | .bound _ binding _ => some binding
  | .opened _ binding _ _ => some binding
  | _ => none

structure BrowserDownloadWatcher where
  config : DownloadWatchConfig
  client : IngestClient
  closed : Bool := false
  phase : Phase := .idle

namespace BrowserDownloadWatcher

def updateBinding (w : BrowserDownloadWatcher) (binding : PrincipalBinding) :
    BrowserDownloadWatcher :=
  { w with config := { w.config with binding := binding } }

def close (w : BrowserDownloadWatcher) : BrowserDownloadWatcher := { w with closed := true }

def inPhase (w : BrowserDownloadWatcher) (phase : Phase) : BrowserDownloadWatcher :=
  { w with phase := phase }

@[simp] theorem phase_inPhase (w : BrowserDownloadWatcher) (phase : Phase) : (w.inPhase phase).phase = phase :=
  rfl

@[simp] theorem config_inPhase (w : BrowserDownloadWatcher) (phase : Phase) :
    (w.inPhase phase).config = w.config := rfl

@[simp] theorem phase_updateBinding (w : BrowserDownloadWatcher) (binding : PrincipalBinding) :
    (w.updateBinding binding).phase = w.phase := rfl

@[simp] theorem binding_updateBinding (w : BrowserDownloadWatcher) (binding : PrincipalBinding) :
    (w.updateBinding binding).config.binding = binding := rfl

end BrowserDownloadWatcher

def isPartial (name : String) : Bool := ".crdownload".toList.isSuffixOf (Text.lower name)

/-- Whether `completed_downloads` takes a child; a regular child of the directory resolves below
it. -/
def isCandidate (maxBytes : ℕ) (name : String) : Option Node → Bool
  | some (.file content) =>
    !isPartial name && (validateName name).isSome && content.length ≤ maxBytes
  | _ => false

/-- The steps of a watcher's thread, with what it does not decide itself. -/
inductive Move
  | scan
  | look
  | bind (token : String)
  | openFile
  | fstat
  | read (n : ℕ)
  | respond
  | unlink
  | fail
  deriving DecidableEq, Repr

/-- What the receiver and the directory see of a step. -/
inductive Effect
  | posted (headers : List (String × String)) (event : BrowserDownloadCompleted)
  | accepted (event : BrowserDownloadCompleted) (body : Bytes)
  | removed (name : String) (content : Bytes)
  deriving DecidableEq

/-- The chunk a read of the source gives: some of the bytes that are there now. -/
def chunkAt (d : Directory Node) (source position n : ℕ) : Bytes :=
  match d.node source with
  | .file content => (content.drop position).take (min (n+1) chunkBytes)
  | _ => []

/-- `path.unlink()`, which raises for a directory and for nothing at all. -/
def unlinkPath (d : Directory Node) (name : String) : Directory Node × Option Effect :=
  match d.find name with
  | some (.file content) => (d.unlink name,some (.removed name content))
  | some .symlink => (d.unlink name,none)
  | _ => (d,none)

/-- After the size check the request goes out, unless the client raises first. -/
def beginSubmit (w : BrowserDownloadWatcher) (event : BrowserDownloadCompleted)
    (rest : List String) : BrowserDownloadWatcher × Option Effect :=
  match w.client.request event with
  | none => (w.inPhase (.choosing rest),none)
  | some headers => (w.inPhase (.sending event [] rest),some (.posted headers event))

/-- `os.fstat` of the descriptor, and the size check. -/
def checkSize (d : Directory Node) (w : BrowserDownloadWatcher) (name : String)
    (binding : PrincipalBinding) (descriptor : ℕ) (rest : List String) :
    BrowserDownloadWatcher × Option Effect :=
  match d.node descriptor with
  | .file content =>
    if content.length ≤ w.config.maxBytes then
      beginSubmit w ⟨binding,name,descriptor,content.length⟩ rest
    else (w.inPhase (.choosing rest),none)
  | _ => (w.inPhase (.choosing rest),none)

/-- `os.open` without following a symlink. -/
def openPath (d : Directory Node) (name : String) : Option ℕ := do
  let inode ← d.lookup name
  if d.node inode = .symlink then none else some inode

/-- The directory is listed, unless the watcher is closed and raises. -/
def beginScan (d : Directory Node) (w : BrowserDownloadWatcher) : BrowserDownloadWatcher :=
  if w.closed then w else w.inPhase (.listing (d.names.mergeSort fun a b => a ≤ b) [])

/-- `lstat` of the next child. -/
def lookAt (d : Directory Node) (w : BrowserDownloadWatcher) (child : String)
    (children found : List String) : BrowserDownloadWatcher :=
  if isCandidate w.config.maxBytes child (d.find child) then
    w.inPhase (.listing children (found ++ [child]))
  else w.inPhase (.listing children found)

/-- The binding of the moment, under a fresh request id. -/
def bindNext (w : BrowserDownloadWatcher) (token name : String) (rest : List String) :
    BrowserDownloadWatcher :=
  match PrincipalBinding.build w.config.binding.principalId w.config.binding.profileId
      w.config.binding.browserId w.config.binding.generation ("req-" ++ token) with
  | none => w.inPhase .idle
  | some binding => w.inPhase (.bound name binding rest)

def openNext (d : Directory Node) (w : BrowserDownloadWatcher) (name : String)
    (binding : PrincipalBinding) (rest : List String) : BrowserDownloadWatcher :=
  match openPath d name with
  | none => w.inPhase (.choosing rest)
  | some inode => w.inPhase (.opened name binding inode rest)

/-- One chunk of the body; the receiver takes as much of it as the request announces. -/
def readChunk (d : Directory Node) (w : BrowserDownloadWatcher) (event : BrowserDownloadCompleted)
    (done : Bytes) (n : ℕ) (rest : List String) : BrowserDownloadWatcher :=
  if chunkAt d event.source done.length n = [] then
    w.inPhase (.sent event (done.take event.size) rest)
  else w.inPhase (.sending event (done ++ chunkAt d event.source done.length n) rest)

/-- One step of a scan; a step that does not come next in it changes nothing. -/
def step (d : Directory Node) (w : BrowserDownloadWatcher) (m : Move) :
    BrowserDownloadWatcher × Directory Node × Option Effect :=
  match w.phase, m with
  | .idle, .scan => (beginScan d w,d,none)
  | .listing (child::children) found, .look => (lookAt d w child children found,d,none)
  | .listing [] found, .look => (w.inPhase (.choosing found),d,none)
  | .choosing [], .bind _ => (w.inPhase .idle,d,none)
  | .choosing (name::rest), .bind token => (bindNext w token name rest,d,none)
  | .bound name binding rest, .openFile => (openNext d w name binding rest,d,none)
  | .opened name binding descriptor rest, .fstat =>
    ((checkSize d w name binding descriptor rest).1,d,(checkSize d w name binding descriptor rest).2)
  | .sending event done rest, .read n => (readChunk d w event done n rest,d,none)
  | .sent event body rest, .respond =>
    (w.inPhase (.consuming event body rest),d,some (.accepted event body))
  | .consuming event _ rest, .unlink =>
    (w.inPhase (.choosing rest),(unlinkPath d event.sourceName).1,(unlinkPath d event.sourceName).2)
  | .bound _ _ rest, .fail => (w.inPhase (.choosing rest),d,none)
  | .opened _ _ _ rest, .fail => (w.inPhase (.choosing rest),d,none)
  | .sending _ _ rest, .fail => (w.inPhase (.choosing rest),d,none)
  | .sent _ _ rest, .fail => (w.inPhase (.choosing rest),d,none)
  | .consuming _ _ rest, .fail => (w.inPhase (.choosing rest),d,none)
  | _, _ => (w,d,none)

/-- Whom a binding attributes a file to. -/
def attribution (binding : PrincipalBinding) : BrowserBinding where
  profileId := binding.profileId
  principalId := binding.principalId
  browserId := binding.browserId
  generation := binding.generation

theorem attribution_of_build {principalId profileId browserId generation requestId : String}
    {binding : PrincipalBinding}
    (h : PrincipalBinding.build principalId profileId browserId generation requestId = some binding) :
    attribution binding = ⟨profileId,principalId,browserId,generation⟩ := by
  unfold PrincipalBinding.build at h
  split_ifs at h
  cases h
  rfl

section Specifications

variable {d : Directory Node} {w : BrowserDownloadWatcher} {m : Move}

theorem openPath_some {name : String} {inode : ℕ} (h : openPath d name = some inode) :
    d.lookup name = some inode := by
  simp only [openPath,Option.bind_eq_bind,Option.bind_eq_some_iff] at h
  obtain ⟨i,hlookup,hi⟩ := h
  split_ifs at hi
  simpa [← Option.some.inj hi] using hlookup

/-- What a step can do: nothing, or go back to the list of names, or take one file one step
further. -/
inductive Outcome (d : Directory Node) (w : BrowserDownloadWatcher) (m : Move) :
    BrowserDownloadWatcher × Directory Node × Option Effect → Prop
  | same : Outcome d w m (w,d,none)
  | free (p : Phase) (hheld : p.held = none) (hbinding : p.binding = none) :
      Outcome d w m (w.inPhase p,d,none)
  | bound (name : String) (binding : PrincipalBinding) (rest : List String)
      (hconfig : attribution binding = attribution w.config.binding) :
      Outcome d w m (w.inPhase (.bound name binding rest),d,none)
  | opened (name : String) (binding : PrincipalBinding) (descriptor : ℕ) (rest : List String)
      (hphase : w.phase = .bound name binding rest) (hlookup : d.lookup name = some descriptor) :
      Outcome d w m (w.inPhase (.opened name binding descriptor rest),d,none)
  | posted (headers : List (String × String)) (event : BrowserDownloadCompleted) (content : Bytes)
      (rest : List String)
      (hphase : w.phase = .opened event.sourceName event.binding event.source rest)
      (hfile : d.node event.source = .file content) (hsize : event.size = content.length) :
      Outcome d w m (w.inPhase (.sending event [] rest),d,some (.posted headers event))
  | more (event : BrowserDownloadCompleted) (done : Bytes) (n : ℕ) (rest : List String)
      (hphase : w.phase = .sending event done rest) : Outcome d w m
        (w.inPhase (.sending event (done ++ chunkAt d event.source done.length n) rest),d,none)
  | ended (event : BrowserDownloadCompleted) (done : Bytes) (n : ℕ) (rest : List String)
      (hphase : w.phase = .sending event done rest)
      (hend : chunkAt d event.source done.length n = []) :
      Outcome d w m (w.inPhase (.sent event (done.take event.size) rest),d,none)
  | accepted (event : BrowserDownloadCompleted) (body : Bytes) (rest : List String)
      (hphase : w.phase = .sent event body rest) :
      Outcome d w m (w.inPhase (.consuming event body rest),d,some (.accepted event body))
  | unlinked (event : BrowserDownloadCompleted) (body : Bytes) (rest : List String)
      (hphase : w.phase = .consuming event body rest) (hmove : m = .unlink) :
      Outcome d w m (w.inPhase (.choosing rest),(unlinkPath d event.sourceName).1,
        (unlinkPath d event.sourceName).2)

theorem outcome_checkSize {name : String} {binding : PrincipalBinding} {descriptor : ℕ}
    {rest : List String} (hphase : w.phase = .opened name binding descriptor rest) :
    Outcome d w m ((checkSize d w name binding descriptor rest).1,d,
      (checkSize d w name binding descriptor rest).2) := by
  have hback : Outcome d w m (w.inPhase (.choosing rest),d,none) := .free _ rfl rfl
  cases hnode : d.node descriptor with
  | file content =>
    simp only [checkSize,hnode]
    split_ifs
    · unfold beginSubmit
      split
      · exact hback
      · exact .posted _ _ content rest hphase hnode rfl
    · exact hback
  | symlink =>
    simp only [checkSize,hnode]
    exact hback
  | directory =>
    simp only [checkSize,hnode]
    exact hback

theorem step_outcome (d : Directory Node) (w : BrowserDownloadWatcher) (m : Move) :
    Outcome d w m (step d w m) := by
  unfold step
  split
  case h_1 =>
    unfold beginScan
    split_ifs
    · exact .same
    · exact .free _ rfl rfl
  case h_2 =>
    unfold lookAt
    split_ifs <;> exact .free _ rfl rfl
  case h_5 =>
    unfold bindNext
    split
    · exact .free _ rfl rfl
    · rename_i hbuild
      exact .bound _ _ _ (attribution_of_build hbuild)
  case h_6 hphase =>
    unfold openNext
    split
    · exact .free _ rfl rfl
    · rename_i hopen
      exact .opened _ _ _ _ hphase (openPath_some hopen)
  case h_7 hphase => exact outcome_checkSize hphase
  case h_8 hphase =>
    unfold readChunk
    split_ifs with hend
    · exact .ended _ _ _ _ hphase hend
    · exact .more _ _ _ _ hphase
  case h_9 hphase => exact .accepted _ _ _ hphase
  case h_10 hphase => exact .unlinked _ _ _ hphase rfl
  case h_16 => exact .same
  all_goals exact .free _ rfl rfl

@[simp] theorem config_step : (step d w m).1.config = w.config := by
  have h := step_outcome d w m
  generalize step d w m = r at h ⊢
  cases h <;> rfl

/-- A binding that a watcher holds it has held before, or it is the configured one. -/
theorem binding_of_step {binding : PrincipalBinding}
    (hnext : (step d w m).1.phase.binding = some binding) :
    w.phase.binding = some binding ∨ attribution binding = attribution w.config.binding := by
  have h := step_outcome d w m
  generalize step d w m = r at h hnext
  cases h with
  | same => exact Or.inl hnext
  | free p hheld hbinding => simp [hbinding] at hnext
  | bound name b rest hconfig =>
    cases hnext
    exact Or.inr hconfig
  | opened name b descriptor rest hphase hlookup =>
    cases hnext
    exact Or.inl (by simp [hphase,Phase.binding])
  | _ => cases hnext

/-- A file that a watcher holds before its size check was opened before, or just now. -/
theorem opened_of_step {name : String} {binding : PrincipalBinding} {descriptor : ℕ}
    {rest : List String} (hnext : (step d w m).1.phase = .opened name binding descriptor rest) :
    w.phase = .opened name binding descriptor rest ∨
      w.phase = .bound name binding rest ∧ d.lookup name = some descriptor := by
  have h := step_outcome d w m
  generalize step d w m = r at h hnext
  cases h with
  | same => exact Or.inl hnext
  | free p hheld hbinding =>
    have hp : p = .opened name binding descriptor rest := hnext
    simp [hp,Phase.binding] at hbinding
  | opened name b descriptor rest hphase hlookup =>
    cases hnext
    exact Or.inr ⟨hphase,hlookup⟩
  | _ => cases hnext

theorem posted_of_step {headers : List (String × String)} {event : BrowserDownloadCompleted}
    (heffect : (step d w m).2.2 = some (.posted headers event)) :
    ∃ name rest, w.phase = .opened name event.binding event.source rest := by
  have h := step_outcome d w m
  generalize step d w m = r at h heffect
  cases h with
  | posted headers' event' content rest hphase hfile hsize =>
    cases heffect
    exact ⟨_,_,hphase⟩
  | unlinked event' body rest hphase hmove =>
    simp only [unlinkPath] at heffect
    split at heffect <;> cases heffect
  | _ => cases heffect

/-- A watcher takes entries away and adds none. -/
theorem lookup_of_step {name : String} {inode : ℕ}
    (hnext : (step d w m).2.1.lookup name = some inode) : d.lookup name = some inode := by
  have h := step_outcome d w m
  generalize step d w m = r at h hnext
  cases h with
  | unlinked event body rest hphase hmove =>
    have hunlink := d.lookup_unlink event.sourceName name
    simp only [unlinkPath] at hnext
    split at hnext <;> simp_all
  | _ => exact hnext

end Specifications

/-- What the browser does in the directory. A file it has open it can change under any name. -/
inductive BrowserMove
  | create (name : String) (n : Node)
  | write (inode : ℕ) (content : Bytes)
  | rename (source target : String)
  | remove (name : String)
  deriving DecidableEq, Repr

def BrowserMove.apply (d : Directory Node) : BrowserMove → Directory Node
  | .create name n => d.create name n
  | .write inode content =>
    match d.node inode with
    | .file _ => d.write inode (.file content)
    | _ => d
  | .rename source target => d.rename source target
  | .remove name => d.unlink name

end Downloads
end CloudBrowser
