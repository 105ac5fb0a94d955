import CloudBrowser.DownloadSight
import CloudBrowser.IsolatedOwners
import CloudBrowser.KeptDownloads
import Mathlib.Data.Fintype.EquivFin

/-! Whether a call of `ingest` that raises leaves what its principal sees as it was. -/
namespace CloudBrowser
namespace Storage
namespace DownloadStore

open CloudFiles
open Directories

/-- What may be refused to a call by the operating system, besides the opening of its temporary
file, the writes and the writing of the index. -/
inductive Operation
  | ownerDir
  | entriesDir
  | usage
  | replace
  | lstat
  | indexUnlink
  | unlink
  deriving DecidableEq

structure Attempt extends Upload where
  refused : List Operation := []

variable (store : DownloadStore) (p : String)

/-- The name is allocated, in a directory that is made where it is missing and where the operating
system lets it. -/
def startWith (refused : List Operation) (name : String) (disk : Disk) : Phase × Disk :=
  match validateName name with
  | none => (.returned [] (.error unsafeName),disk)
  | some safe =>
    let key := store.ownerKey p
    if isPrincipal p = false then (.returned [] (.error notOwner),disk)
    else if isSafe (disk.root.find key) = false then (.returned [] (.error unsafeStorage),disk)
    else if .ownerDir ∈ refused then (.returned [] (.error .other),disk)
    else
      let disk := disk.mkdirTop key
      if isSafe (disk.child key entriesDir) = false then (.returned [] (.error unsafeStorage),disk)
      else if .entriesDir ∈ refused then (.returned [] (.error .other),disk)
      else
        let disk := disk.mkdirSub key entriesDir
        match nextName (disk.sub (key,entriesDir)) safe with
        | .error e => (.returned [] (.error e),disk)
        | .ok final => (.named final,disk)

/-- A step of a call, which raises where the operating system refuses it. The index is replaced
before its own temporary name is taken away. -/
def tryMove (refused : List Operation) (m : Move) (phase : Phase) (disk : Disk) : Phase × Disk :=
  match phase,m with
  | .idle,.start name => store.startWith p refused name disk
  | .staged f,.check =>
    if .usage ∈ refused then (.closing f.temp f.copied (.error .other),disk)
    else (store.check p f disk,disk)
  | .checked f,.rename =>
    if .replace ∈ refused then (.closing f.temp f.copied (.error .other),disk)
    else store.rename p f disk
  | .renamed f,.stat =>
    if .lstat ∈ refused then (.closing f.temp f.copied (.error .other),disk)
    else (store.stat p f disk,disk)
  | .receipted f receipt,.index fault now =>
    let r := store.index p f receipt fault now disk
    if .indexUnlink ∈ refused then (.closing f.temp f.copied (.error .other),r.2) else r
  | .closing temp copied result,.unlinkTemp =>
    if .unlink ∈ refused then (.returned copied (.error .other),disk)
    else (.returned copied result,store.unlinkTemp p temp disk)
  | phase,m => store.move p m phase disk

def tries (refused : List Operation) (ms : List Move) (phase : Phase) (disk : Disk) :
    Phase × Disk :=
  ms.foldl (fun s m => store.tryMove p refused m s.1 s.2) (phase,disk)

/-- A call of `ingest` at a time. -/
def attempt (a : Attempt) (now : ℤ) (disk : Disk) : Phase × Disk :=
  store.tries p a.refused { a.toUpload with now := now }.moves .idle disk

/-- What the principal can read, its listing and its index are what they were. -/
structure Unchanged (disk disk' : Disk) : Prop where
  read : ∀ name, store.read p name disk' = store.read p name disk
  listed : store.listEntries p disk' = store.listEntries p disk
  index : ∀ top ∈ store.areas p, (disk'.area top).bind (·.find indexFile) =
    (disk.area top).bind (·.find indexFile)

/-- Whenever it is made, a call that raises changes nothing. -/
def Atomic (a : Attempt) (disk : Disk) : Prop :=
  ∀ now copied e, (store.attempt p a now disk).1 = .returned copied (.error e) →
    store.Unchanged p disk (store.attempt p a now disk).2

/-- This release's directory of a principal, as it is or as it would be made. -/
def entriesOf (disk : Disk) : Folder Node :=
  (disk.subarea (store.ownerKey p) entriesDir).getD (Folder.empty .directory)

/-- Nothing stands in the way of the rename. -/
structure Publishes (a : Attempt) (disk : Disk) (final : String) (content : Bytes) : Prop where
  name : ∃ safe, validateName a.name = some safe ∧
    nextName (store.entriesOf p disk) safe = .ok final
  principal : isPrincipal p = true
  safe : store.Safe p disk
  dirs : .ownerDir ∉ a.refused ∧ .entriesDir ∉ a.refused
  opened : a.openFault = false ∧ Text.utf8Length (tempName final a.token) ≤ nameBytes ∧
    (store.entriesOf p disk).lookup (tempName final a.token) = none
  copied : copyStream store.maxFileBytes a.reads [] = .ok content
  quota : .usage ∉ a.refused ∧ store.stored p disk+content.length ≤ store.quotaBytes
  replaced : .replace ∉ a.refused

/-- Nothing stands in the way of the index, once the file has its name. -/
def Indexes (a : Attempt) (disk : Disk) : Prop := .lstat ∉ a.refused ∧ a.indexFault = false ∧
  (disk.area (store.ownerKey p)).bind (·.find indexFile) ≠ some .directory

/-- The release before has left a file of that name with the same content, and the listing is
refused, or full before it comes to the name. -/
def Shadowed (disk : Disk) (final : String) (content : Bytes) : Prop :=
  (disk.area p).bind (regular store.maxFileBytes final) = some content ∧
    (¬store.QuarantineSafe p disk ∨
      store.maxEntries ≤ ((fileNames (store.entriesOf p disk)).takeWhile (· < final)).length)

/-- The call fails after its file has got the final name, and that can be seen. -/
def FailsLate (a : Attempt) (disk : Disk) : Prop :=
  ∃ final content, store.Publishes p a disk final content ∧
    (store.Indexes p a disk → .indexUnlink ∈ a.refused ∨ .unlink ∈ a.refused) ∧
    (¬store.Indexes p a disk → ¬store.Shadowed p disk final content)

variable {store : DownloadStore} {p : String} {refused : List Operation} {disk disk' disk'' : Disk}
  {a : Attempt} {now : ℤ} {f : Staged} {d : Folder Node} {final : String} {content : Bytes}

theorem SameSight.unchanged (h : store.SameSight p disk disk') : store.Unchanged p disk disk' :=
  ⟨h.read,h.listEntries,h.index⟩

/-- Where nothing is refused, the call is that of the store. -/
theorem attempt_ingest (u : Upload) (disk : Disk) :
    store.attempt p { u with } u.now disk = store.ingest p u disk := by
  have hstart : ∀ name disk, store.startWith p [] name disk = store.start p name disk := by
    intro name disk
    simp only [startWith,List.not_mem_nil,if_false]
    rfl
  have hmove : ∀ m phase disk, store.tryMove p [] m phase disk = store.move p m phase disk := by
    intro m phase disk
    cases phase <;> cases m <;> simp [tryMove,move,hstart]
  simp only [attempt,tries,ingest,moves,hmove]

/-! ### Calls that end before they publish -/

theorem tries_append (ms ms' : List Move) (phase : Phase) (disk : Disk) :
    store.tries p refused (ms ++ ms') phase disk = store.tries p refused ms'
      (store.tries p refused ms phase disk).1 (store.tries p refused ms phase disk).2 :=
  List.foldl_append

/-- The same is seen, and it is as much. -/
structure Still (store : DownloadStore) (p : String) (disk disk' : Disk) : Prop where
  sight : store.SameSight p disk disk'
  store : store.SameStore p disk disk'

theorem Still.refl (disk : Disk) : store.Still p disk disk := ⟨.refl _,.refl _⟩

theorem Still.trans (h : store.Still p disk disk') (h' : store.Still p disk' disk'') :
    store.Still p disk disk'' :=
  ⟨h.sight.trans h'.sight,h.store.trans h'.store⟩

/-- A call that raises before its rename: its temporary file may still be there. -/
structure Ends (store : DownloadStore) (p : String) (disk : Disk) (s : Phase × Disk) : Prop where
  still : store.Still p disk s.2
  raised : (∃ e, s.1 = .returned [] (.error e)) ∨
    ∃ temp copied e, s.1 = .closing temp copied (.error e) ∧ Hidden temp

/-- It does nothing more but take the temporary file away. -/
theorem Ends.tries {s : Phase × Disk} (h : store.Ends p disk s) {ms : List Move}
    (hms : .unlinkTemp ∉ ms) : store.tries p refused ms s.1 s.2 = s := by
  induction ms with
  | nil => rfl
  | cons m ms ih =>
    have hsame : store.tryMove p refused m s.1 s.2 = s := by
      rcases s with ⟨phase,disk'⟩
      rcases h.raised with ⟨e,rfl⟩ | ⟨temp,copied,e,rfl,-⟩
      · cases m <;> rfl
      · cases m with
        | unlinkTemp => exact absurd List.mem_cons_self hms
        | _ => rfl
    show store.tries p refused ms (store.tryMove p refused m s.1 s.2).1
      (store.tryMove p refused m s.1 s.2).2 = s
    rw [hsame]
    exact ih fun hmem => hms (List.mem_cons_of_mem _ hmem)

theorem Ends.unlink {s : Phase × Disk} (h : store.Ends p disk s) :
    store.SameSight p disk (store.tries p refused [.unlinkTemp] s.1 s.2).2 := by
  rcases s with ⟨phase,disk'⟩
  have hsight := h.still.sight
  rcases h.raised with ⟨e,rfl⟩ | ⟨temp,copied,e,rfl,hhidden⟩
  · exact hsight
  · show store.SameSight p disk (store.tryMove p refused .unlinkTemp
      (.closing temp copied (.error e)) disk').2
    unfold tryMove
    dsimp only
    split_ifs
    · exact hsight
    · exact hsight.trans (sight_unlinkTemp hhidden)

/-! ### Up to the rename -/

theorem nextName_congr {f f' : Folder Node} (h : f'.find = f.find) (safe : String) :
    nextName f' safe = nextName f safe := by
  have hexists : pathExists f' = pathExists f := by
    funext name
    rw [pathExists,pathExists,h]
  rw [nextName,nextName,hexists]

/-- The directory that is made has the names of the one that is there. -/
theorem entries_made (hkey : disk.root.find (store.ownerKey p) = some .directory)
    (hsafe : isSafe (disk.child (store.ownerKey p) entriesDir) = true) :
    ∃ d, (disk.mkdirSub (store.ownerKey p) entriesDir).subarea (store.ownerKey p) entriesDir =
        some d ∧
      d.find = (store.entriesOf p disk).find ∧ d.lookup = (store.entriesOf p disk).lookup := by
  rw [Disk.subarea_mkdirSub hkey]
  by_cases hnew : disk.child (store.ownerKey p) entriesDir = none
  · rw [if_pos ⟨rfl,hnew⟩]
    have hnone : disk.subarea (store.ownerKey p) entriesDir = none := by simp [Disk.subarea,hnew]
    refine ⟨_,rfl,?_⟩
    rw [entriesOf,hnone]
    exact ⟨rfl,rfl⟩
  · rw [if_neg fun h => hnew h.2]
    have hdirectory : disk.child (store.ownerKey p) entriesDir = some .directory := by
      cases hchild : disk.child (store.ownerKey p) entriesDir with
      | none => exact absurd hchild hnew
      | some n =>
        rw [hchild] at hsafe
        cases n with
        | directory => rfl
        | file _ _ => cases hsafe
        | link _ => cases hsafe
    have hsome : disk.subarea (store.ownerKey p) entriesDir =
        some (disk.sub (store.ownerKey p,entriesDir)) := Disk.subarea_eq_some.mpr ⟨hdirectory,rfl⟩
    refine ⟨_,hsome,?_⟩
    rw [entriesOf,hsome]
    exact ⟨rfl,rfl⟩

/-- The call has a name for its file. -/
structure Allocates (store : DownloadStore) (p : String) (a : Attempt) (disk : Disk)
    (final : String) : Prop where
  name : ∃ safe, validateName a.name = some safe ∧
    nextName (store.entriesOf p disk) safe = .ok final
  principal : isPrincipal p = true
  key : isSafe (disk.root.find (store.ownerKey p)) = true
  entries : isSafe (disk.child (store.ownerKey p) entriesDir) = true
  dirs : .ownerDir ∉ a.refused ∧ .entriesDir ∉ a.refused

/-- Where a call stands with the name it has. -/
structure Named (store : DownloadStore) (p : String) (disk : Disk) (final : String)
    (s : Phase × Disk) : Prop where
  phase : s.1 = .named final
  sound : s.1.Sound store p s.2
  still : store.Still p disk s.2
  entries : ∃ d, s.2.subarea (store.ownerKey p) entriesDir = some d ∧
    d.lookup = (store.entriesOf p disk).lookup

theorem startWith_cases (a : Attempt) (disk : Disk) :
    store.Ends p disk (store.startWith p a.refused a.name disk) ∧
        (∀ final, ¬store.Allocates p a disk final) ∨
      ∃ final, store.Allocates p a disk final ∧
        store.Named p disk final (store.startWith p a.refused a.name disk) := by
  have hends : ∀ e disk', store.Still p disk disk' →
      store.Ends p disk (.returned [] (.error e),disk') := fun e disk' h => ⟨h,.inl ⟨e,rfl⟩⟩
  unfold startWith
  cases hname : validateName a.name with
  | none =>
    left
    refine ⟨hends _ _ (.refl _),?_⟩
    rintro final h
    obtain ⟨safe,hsafe,-⟩ := h.name
    cases hname.symm.trans hsafe
  | some safe =>
    dsimp only
    split_ifs with hp hkey howner hentries hdir
    · exact .inl ⟨hends _ _ (.refl _),fun final h => by simp [h.principal] at hp⟩
    · exact .inl ⟨hends _ _ (.refl _),fun final h => by simp [h.key] at hkey⟩
    · exact .inl ⟨hends _ _ (.refl _),fun final h => h.dirs.1 howner⟩
    · refine .inl ⟨hends _ _ ⟨sight_mkdirTop,sameStore_mkdirTop⟩,fun final h => ?_⟩
      simp [h.entries] at hentries
    · exact .inl ⟨hends _ _ ⟨sight_mkdirTop,sameStore_mkdirTop⟩,fun final h => h.dirs.2 hdir⟩
    · have hkey : isSafe (disk.root.find (store.ownerKey p)) = true := by simpa using hkey
      have hentries : isSafe (disk.child (store.ownerKey p) entriesDir) = true := by
        simpa using hentries
      have hroot := Disk.root_mkdirTop_self hkey
      have hstill : store.Still p disk
          ((disk.mkdirTop (store.ownerKey p)).mkdirSub (store.ownerKey p) entriesDir) :=
        ⟨sight_mkdirTop.trans (sight_mkdirSub hroot),
          sameStore_mkdirTop.trans (sameStore_mkdirSub hroot)⟩
      obtain ⟨d,hd,hfind,hlookup⟩ := entries_made hroot (by simpa using hentries)
      have hsame : store.entriesOf p (disk.mkdirTop (store.ownerKey p)) =
          store.entriesOf p disk := by
        rw [entriesOf,entriesOf,Disk.subarea_mkdirTop]
      rw [hsame] at hfind hlookup
      have hnext := nextName_congr hfind safe
      rw [(Disk.subarea_eq_some.mp hd).2]
      cases hfinal : nextName d safe with
      | error e =>
        refine .inl ⟨hends _ _ hstill,fun final h => ?_⟩
        obtain ⟨safe',hsafe,hok⟩ := h.name
        cases hname.symm.trans hsafe
        cases (hfinal.symm.trans hnext).trans hok
      | ok final =>
        right
        refine ⟨final,⟨⟨safe,hname,hnext.symm.trans hfinal⟩,by simpa using hp,hkey,hentries,
          howner,hdir⟩,rfl,⟨a.name,safe,d,hname,hfinal⟩,hstill,d,hd,hlookup⟩

/-- The call holds its file, which is of this time. -/
structure Stages (store : DownloadStore) (p : String) (now : ℤ) (disk : Disk) (f : Staged)
    (disk' : Disk) : Prop where
  still : store.Still p disk disk'
  held : store.Held p disk' f
  dated : ∃ d, disk'.subarea (store.ownerKey p) entriesDir = some d ∧
    d.node f.inode = .file f.copied now

theorem openTemp_cases {s : Phase × Disk} (h : store.Named p disk final s) (token : UInt64)
    (fault : Bool) (now : ℤ) :
    store.Ends p disk (store.openTemp p final token fault now s.2) ∧
        ¬(fault = false ∧ Text.utf8Length (tempName final token) ≤ nameBytes ∧
          (store.entriesOf p disk).lookup (tempName final token) = none) ∨
      (fault = false ∧ Text.utf8Length (tempName final token) ≤ nameBytes ∧
          (store.entriesOf p disk).lookup (tempName final token) = none) ∧
        ∃ f disk', store.openTemp p final token fault now s.2 = (.staging f,disk') ∧
          f.final = final ∧ f.copied = [] ∧ store.Stages p now disk f disk' := by
  have hsound : (Phase.named final).Sound store p s.2 := h.phase ▸ h.sound
  have hspec := openTemp_spec hsound token fault now
  have hstill : store.Still p disk (store.openTemp p final token fault now s.2).2 :=
    h.still.trans ⟨sight_openTemp hsound token fault now,hspec.same (by simp)⟩
  obtain ⟨raw,safe,f₀,hsafe,hnext⟩ := hsound
  have hhidden : Hidden (tempName final token) := hidden_temp hsafe hnext
  obtain ⟨d,hd,hlookup⟩ := h.entries
  unfold openTemp at hspec hstill ⊢
  simp only [hd,hlookup] at hspec hstill ⊢
  by_cases hfault : fault = true ∨ nameBytes < Text.utf8Length (tempName final token) ∨
      ((store.entriesOf p disk).lookup (tempName final token)).isSome = true
  · rw [if_pos hfault] at hstill ⊢
    left
    refine ⟨⟨hstill,.inr ⟨_,_,_,rfl,hhidden⟩⟩,?_⟩
    rintro ⟨hopen,hlength,hnone⟩
    rw [hnone] at hfault
    rcases hfault with hfault | hfault | hfault
    · rw [hopen] at hfault
      cases hfault
    · omega
    · cases hfault
  · rw [if_neg hfault] at hspec hstill ⊢
    right
    simp only [not_or,not_lt,Option.not_isSome_iff_eq_none] at hfault
    refine ⟨⟨Bool.eq_false_of_not_eq_true hfault.1,hfault.2⟩,_,_,rfl,rfl,rfl,
      hstill,hspec.sound,_,Disk.subarea_setSub_self (by simp [hd]),?_⟩
    exact Function.update_self _ _ _

/-- The reads of a source, to the end of the stream. -/
def copies (reads : List (Except StoreError Bytes)) (now : ℤ) : List Move :=
  (reads ++ [Except.ok []]).map fun r => .copy r now

/-- What has been staged whole stays so while the stream is read on. -/
theorem tries_staged (refused : List Operation) (reads : List (Except StoreError Bytes)) (now : ℤ)
    (f : Staged) (disk : Disk) :
    store.tries p refused (copies reads now) (.staged f) disk = (.staged f,disk) := by
  induction reads with
  | nil => rfl
  | cons r reads ih => exact ih

theorem tries_failed (refused : List Operation) (reads : List (Except StoreError Bytes))
    {e : StoreError} (h : store.Stages p now disk f disk') : store.Ends p disk
      (store.tries p refused (copies reads now) (.closing f.temp f.copied (.error e)) disk') := by
  have hends : store.Ends p disk (.closing f.temp f.copied (.error e),disk') :=
    ⟨h.still,.inr ⟨_,_,_,rfl,h.held.hidden⟩⟩
  have hcopies : Move.unlinkTemp ∉ copies reads now := by simp [copies]
  rw [hends.tries hcopies]
  exact hends

theorem stages_copy {b : UInt8} {bs : Bytes} (h : store.Stages p now disk f disk')
    (hsize : ¬store.maxFileBytes < f.copied.length+(b::bs).length) :
    ∃ disk'', store.copy p f (.ok (b::bs)) now disk' =
        (.staging { f with copied := f.copied ++ b::bs },disk'') ∧
      store.Stages p now disk { f with copied := f.copied ++ b::bs } disk'' := by
  have hspec := copy_spec h.held (.ok (b::bs)) now
  have hstill : store.Still p disk (store.copy p f (.ok (b::bs)) now disk').2 :=
    h.still.trans ⟨sight_copy h.held (.ok (b::bs)) now,hspec.same (by simp)⟩
  obtain ⟨d,hd,-⟩ := h.dated
  unfold copy at hspec hstill ⊢
  dsimp only at hspec hstill ⊢
  rw [if_neg hsize] at hspec hstill ⊢
  refine ⟨_,rfl,hstill,hspec.sound,_,Disk.subarea_setSub_self (by simp [hd]),?_⟩
  exact Function.update_self _ _ _

/-- The source is read to its end, or the call raises what stops it. -/
theorem tries_copies (refused : List Operation) (reads : List (Except StoreError Bytes))
    (h : store.Stages p now disk f disk') :
    (∃ e, copyStream store.maxFileBytes reads f.copied = .error e ∧
      store.Ends p disk (store.tries p refused (copies reads now) (.staging f) disk')) ∨
    ∃ content disk'', copyStream store.maxFileBytes reads f.copied = .ok content ∧
      store.tries p refused (copies reads now) (.staging f) disk' =
        (.staged { f with copied := content },disk'') ∧
      store.Stages p now disk { f with copied := content } disk'' := by
  induction reads generalizing f disk' with
  | nil => exact .inr ⟨f.copied,disk',rfl,rfl,h⟩
  | cons r reads ih =>
    rcases r with e | _ | ⟨b,bs⟩
    · exact .inl ⟨e,rfl,tries_failed refused reads h⟩
    · exact .inr ⟨f.copied,disk',rfl,tries_staged refused reads now f disk',h⟩
    · have hcons : store.tries p refused (copies (.ok (b::bs)::reads) now) (.staging f) disk' =
          store.tries p refused (copies reads now) (store.copy p f (.ok (b::bs)) now disk').1
            (store.copy p f (.ok (b::bs)) now disk').2 := rfl
      rw [hcons,copyStream]
      · by_cases hsize : store.maxFileBytes < f.copied.length+(b::bs).length
        · left
          have hclosed : store.copy p f (.ok (b::bs)) now disk' = (.closing f.temp f.copied
              (.error (.valueError "download exceeds size limit")),disk') := by
            unfold copy
            dsimp only
            rw [if_pos hsize]
          rw [if_pos hsize,hclosed]
          exact ⟨_,rfl,tries_failed refused reads h⟩
        · obtain ⟨disk'',hcopy,hstages⟩ := stages_copy h hsize
          rw [if_neg hsize,hcopy]
          exact ih hstages
      · exact List.cons_ne_nil b bs

theorem SameStore.stored (h : store.SameStore p disk disk') :
    store.stored p disk' = store.stored p disk := by
  unfold DownloadStore.stored
  rw [h.entries.total,h.prior.total]

/-- The quota lets the file through. -/
def Admits (store : DownloadStore) (p : String) (a : Attempt) (disk : Disk) (content : Bytes) :
    Prop :=
  .usage ∉ a.refused ∧ store.Safe p disk ∧ store.stored p disk+content.length ≤ store.quotaBytes

theorem check_cases (hp : isPrincipal p = true) (h : store.Stages p now disk f disk')
    (a : Attempt) :
    store.Ends p disk (store.tryMove p a.refused .check (.staged f) disk') ∧
        ¬store.Admits p a disk f.copied ∨
      store.Admits p a disk f.copied ∧
        store.tryMove p a.refused .check (.staged f) disk' = (.checked f,disk') := by
  have hends : ∀ e, store.Ends p disk (.closing f.temp f.copied (.error e),disk') := fun e =>
    ⟨h.still,.inr ⟨_,_,_,rfl,h.held.hidden⟩⟩
  unfold tryMove
  dsimp only
  by_cases husage : .usage ∈ a.refused
  · rw [if_pos husage]
    exact .inl ⟨hends _,fun hadmits => hadmits.1 husage⟩
  · rw [if_neg husage,check,usageBytes_eq,if_neg (by simp [hp])]
    by_cases hsafe : store.Safe p disk
    · rw [if_pos (h.still.store.safe.mpr hsafe),h.still.store.stored]
      dsimp only
      by_cases hquota : store.quotaBytes < store.stored p disk+f.copied.length
      · rw [if_pos hquota]
        refine .inl ⟨hends _,fun hadmits => ?_⟩
        have hfits := hadmits.2.2
        omega
      · rw [if_neg hquota]
        exact .inr ⟨⟨husage,hsafe,by omega⟩,rfl⟩
    · rw [if_neg fun hsafe' => hsafe (h.still.store.safe.mp hsafe')]
      exact .inl ⟨hends _,fun hadmits => hsafe hadmits.2.1⟩

/-- The file of the call has got its name, which led to no file. -/
def Renames (store : DownloadStore) (p : String) (now : ℤ) (disk : Disk) (final : String)
    (content : Bytes) (s : Phase × Disk) : Prop :=
  ∃ f d disk', store.Stages p now disk f disk' ∧ f.final = final ∧ f.copied = content ∧
    disk'.subarea (store.ownerKey p) entriesDir = some d ∧
    s = (.renamed f,disk'.setSub (store.ownerKey p) entriesDir (d.rename f.temp f.final))

theorem find_entriesOf (disk : Disk) (name : String) : (store.entriesOf p disk).find name =
    (disk.subarea (store.ownerKey p) entriesDir).bind fun f => f.find name := by
  rw [entriesOf]
  cases disk.subarea (store.ownerKey p) entriesDir <;> rfl

/-- A name that is allocated leads to nothing, or to a link that leads to nothing. -/
theorem find_free (h : pathExists d final = false) :
    d.find final = none ∨ d.find final = some (.link none) := by
  unfold pathExists at h
  rcases hfind : d.find final with _ | ⟨content,mtime⟩ | _ | _ | target <;> simp_all

theorem rename_staged (h : store.Stages p now disk f disk')
    (hfree : pathExists (store.entriesOf p disk) f.final = false) (a : Attempt) :
    store.Ends p disk (store.tryMove p a.refused .rename (.checked f) disk') ∧
        .replace ∈ a.refused ∨
      .replace ∉ a.refused ∧ store.Renames p now disk f.final f.copied
        (store.tryMove p a.refused .rename (.checked f) disk') := by
  obtain ⟨d,hd,howns⟩ := h.held.owns
  have hfinal : d.find f.final ≠ some .directory := by
    have hvalid : (validateName f.final).isSome := by
      rw [h.held.final]
      rfl
    have hsame := h.still.sight.entries f.final hvalid
    rw [hd,Option.bind_some,← find_entriesOf] at hsame
    rw [hsame]
    rcases find_free hfree with hnone | hlink
    · rw [hnone]
      simp
    · rw [hlink]
      simp
  unfold tryMove
  dsimp only
  by_cases hreplace : .replace ∈ a.refused
  · rw [if_pos hreplace]
    exact .inl ⟨⟨h.still,.inr ⟨_,_,_,rfl,h.held.hidden⟩⟩,hreplace⟩
  · rw [if_neg hreplace]
    rcases rename_cases hd howns with ⟨hdirectory,-⟩ | ⟨-,hrename⟩
    · exact absurd hdirectory hfinal
    · exact .inr ⟨hreplace,f,d,disk',h,rfl,rfl,hd,hrename⟩

/-- Once the file is whole, the quota and the rename decide. -/
theorem tries_publish (hp : isPrincipal p = true) (h : store.Stages p now disk f disk')
    (hfree : pathExists (store.entriesOf p disk) f.final = false) (a : Attempt) :
    store.Ends p disk (store.tries p a.refused [.check,.rename] (.staged f) disk') ∧
        ¬(store.Admits p a disk f.copied ∧ .replace ∉ a.refused) ∨
      (store.Admits p a disk f.copied ∧ .replace ∉ a.refused) ∧
        store.Renames p now disk f.final f.copied
          (store.tries p a.refused [.check,.rename] (.staged f) disk') := by
  have hrun : store.tries p a.refused [.check,.rename] (.staged f) disk' =
      store.tries p a.refused [.rename] (store.tryMove p a.refused .check (.staged f) disk').1
        (store.tryMove p a.refused .check (.staged f) disk').2 := rfl
  rw [hrun]
  rcases check_cases hp h a with ⟨hend,hnot⟩ | ⟨hadmits,hchecked⟩
  · left
    rw [hend.tries (by simp)]
    exact ⟨hend,fun h => hnot h.1⟩
  · rw [hchecked]
    rcases rename_staged h hfree a with ⟨hend,hrefused⟩ | ⟨hreplace,hrenames⟩
    · exact .inl ⟨hend,fun h => h.2 hrefused⟩
    · exact .inr ⟨⟨hadmits,hreplace⟩,hrenames⟩

/-- The steps of a call up to the rename. -/
def Attempt.opening (a : Attempt) (now : ℤ) : List Move :=
  .start a.name::.openTemp a.token a.openFault now::(copies a.reads now ++ [.check,.rename])

theorem Publishes.allocates (h : store.Publishes p a disk final content) :
    store.Allocates p a disk final := by
  have hsafe := h.safe
  simp only [Safe,List.all_cons,List.all_nil,Bool.and_true,Bool.and_eq_true] at hsafe
  exact ⟨h.name,h.principal,hsafe.1,hsafe.2.1,h.dirs⟩

theorem Allocates.unique {final' : String} (h : store.Allocates p a disk final)
    (h' : store.Allocates p a disk final') : final' = final := by
  obtain ⟨safe,hsafe,hnext⟩ := h.name
  obtain ⟨safe',hsafe',hnext'⟩ := h'.name
  cases hsafe.symm.trans hsafe'
  cases hnext.symm.trans hnext'
  rfl

theorem tries_named (hnamed : store.Named p disk final
    (store.startWith p a.refused a.name disk)) (now : ℤ) :
    store.tries p a.refused (a.opening now) .idle disk =
      store.tries p a.refused (copies a.reads now ++ [.check,.rename])
        (store.openTemp p final a.token a.openFault now
          (store.startWith p a.refused a.name disk).2).1
        (store.openTemp p final a.token a.openFault now
          (store.startWith p a.refused a.name disk).2).2 := by
  have hphase := hnamed.phase
  have hrun : store.tries p a.refused (a.opening now) .idle disk = store.tries p a.refused
      (.openTemp a.token a.openFault now::(copies a.reads now ++ [.check,.rename]))
      (store.startWith p a.refused a.name disk).1 (store.startWith p a.refused a.name disk).2 := rfl
  rw [hrun,hphase]
  rfl

/-- A call ends before its rename, or its file gets its name. -/
theorem tries_opening (a : Attempt) (now : ℤ) (disk : Disk) :
    store.Ends p disk (store.tries p a.refused (a.opening now) .idle disk) ∧
        (∀ final content, ¬store.Publishes p a disk final content) ∨
      ∃ final content, store.Publishes p a disk final content ∧
        store.Renames p now disk final content
          (store.tries p a.refused (a.opening now) .idle disk) := by
  rcases startWith_cases a disk with ⟨hend,hnot⟩ | ⟨final,hallocates,hnamed⟩
  · left
    have hrun : store.tries p a.refused (a.opening now) .idle disk =
        store.startWith p a.refused a.name disk := hend.tries (by simp [copies])
    rw [hrun]
    exact ⟨hend,fun final content h => hnot final h.allocates⟩
  · rw [tries_named hnamed]
    rcases openTemp_cases hnamed a.token a.openFault now with
      ⟨hend,hnot⟩ | ⟨hopened,f,disk',hstaging,rfl,hempty,hstages⟩
    · left
      rw [hend.tries (by simp [copies])]
      refine ⟨hend,fun final' content h => hnot ?_⟩
      cases hallocates.unique h.allocates
      exact h.opened
    · have hread := tries_copies a.refused a.reads hstages
      rw [hstaging,tries_append]
      rw [hempty] at hread
      rcases hread with ⟨e,hcopied,hend⟩ | ⟨content,disk'',hcopied,hstaged,hstages'⟩
      · left
        rw [hend.tries (by simp)]
        refine ⟨hend,fun final' content h => ?_⟩
        cases hcopied.symm.trans h.copied
      · obtain ⟨safe,-,hnext⟩ := hallocates.name
        rw [hstaged]
        rcases tries_publish hallocates.principal hstages' (nextName_mem hnext).1 a with
          ⟨hend,hnot⟩ | ⟨⟨hadmits,hreplace⟩,hrenames⟩
        · refine .inl ⟨hend,fun final' content' h => hnot ?_⟩
          cases hcopied.symm.trans h.copied
          exact ⟨⟨h.quota.1,h.safe,h.quota.2⟩,h.replaced⟩
        · right
          exact ⟨f.final,content,⟨hallocates.name,hallocates.principal,hadmits.2.1,
            hallocates.dirs,hopened,hcopied,⟨hadmits.1,hadmits.2.2⟩,hreplace⟩,hrenames⟩

/-! ### From the rename on -/

/-- A file more, under a name that led to none of this release; all else is seen as before. -/
structure Adds (store : DownloadStore) (p : String) (now : ℤ) (disk : Disk) (final : String)
    (content : Bytes) (disk' : Disk) : Prop where
  valid : validateName final = some final
  size : content.length ≤ store.maxFileBytes
  safe : store.Safe p disk' ↔ store.Safe p disk
  added : ∃ d, disk'.subarea (store.ownerKey p) entriesDir = some d ∧
    d.find final = some (.file content now)
  others : ∀ d, disk'.subarea (store.ownerKey p) entriesDir = some d → ∀ name,
    (validateName name).isSome → name ≠ final → d.find name = (store.entriesOf p disk).find name
  prior : LooksAlike (disk.area p) (disk'.area p)
  index : ∀ top ∈ store.areas p, (disk'.area top).bind (·.find indexFile) =
    (disk.area top).bind (·.find indexFile)
  quarantine : ∀ q ∈ store.quarantines p, disk'.child q.1 q.2 = disk.child q.1 q.2 ∧
    disk'.subarea q.1 q.2 = disk.subarea q.1 q.2

theorem Adds.sight (h : store.Adds p now disk final content disk')
    (hs : store.SameSight p disk' disk'') :
    store.Adds p now disk final content disk'' := by
  obtain ⟨d,hd,hfile⟩ := h.added
  have hvalid : (validateName final).isSome := by
    rw [h.valid]
    rfl
  have hentries := hs.entries
  rw [hd] at hentries
  refine ⟨h.valid,h.size,hs.safe.trans h.safe,?_,?_,h.prior.trans hs.prior,?_,?_⟩
  · have hsame := hentries final hvalid
    rw [Option.bind_some,hfile] at hsame
    exact Option.bind_eq_some_iff.mp hsame
  · intro d' hd' name hname hne
    have hsame := hentries name hname
    rw [hd',Option.bind_some,Option.bind_some] at hsame
    exact hsame.trans (h.others d hd name hname hne)
  · exact fun top htop => (hs.index top htop).trans (h.index top htop)
  · exact fun q hq => ⟨(hs.quarantine q hq).1.trans (h.quarantine q hq).1,
      (hs.quarantine q hq).2.trans (h.quarantine q hq).2⟩

theorem adds_rename (h : store.Stages p now disk f disk')
    (hd : disk'.subarea (store.ownerKey p) entriesDir = some d) :
    store.Adds p now disk f.final f.copied
      (disk'.setSub (store.ownerKey p) entriesDir (d.rename f.temp f.final)) := by
  obtain ⟨d₁,hd₁,howns⟩ := h.held.owns
  obtain ⟨d₂,hd₂,hdated⟩ := h.dated
  cases hd.symm.trans hd₁
  cases hd.symm.trans hd₂
  have hsub : (disk'.setSub (store.ownerKey p) entriesDir (d.rename f.temp f.final)).subarea
      (store.ownerKey p) entriesDir = some (d.rename f.temp f.final) :=
    Disk.subarea_setSub_self (by simp [hd])
  have hsight := h.still.sight
  refine ⟨h.held.final,h.held.size,hsight.safe,⟨_,hsub,?_⟩,?_,hsight.prior,hsight.index,?_⟩
  · rw [← hdated]
    exact Directory.find_rename_target howns.lookup
  · intro d' hd' name hname hne
    cases hsub.symm.trans hd'
    have hsame := hsight.entries name hname
    rw [hd,Option.bind_some,← find_entriesOf] at hsame
    rw [← hsame]
    exact Directory.find_rename_of_ne (FindsAlike.hidden_ne h.held.hidden hname) hne
  · intro q hq
    rw [Disk.child_setSub,Disk.subarea_setSub_of_ne (entries_ne hq)]
    exact hsight.quarantine q hq

theorem Adds.root (h : store.Adds p now disk final content disk') :
    disk'.root.find (store.ownerKey p) = some .directory := by
  obtain ⟨d,hd,-⟩ := h.added
  exact (Disk.child_eq_some.mp (Disk.subarea_eq_some.mp hd).1).1

theorem find_index (h : disk.root.find (store.ownerKey p) = some .directory) (n : Node) :
    ((disk.setOwn (store.ownerKey p) ((disk.own (store.ownerKey p)).create indexFile n)).area
      (store.ownerKey p)).bind (·.find indexFile) = some n := by
  simp only [Disk.area,Disk.root_setOwn,h,if_true,Option.bind_some,Disk.own_setOwn,
    Function.update_self]
  exact Directory.find_create_self

/-- What the index file of a principal is after it was replaced. -/
theorem writeIndex_cases (h : store.Adds p now disk final content disk')
    (receipt : DownloadReceipt) :
    (disk.area (store.ownerKey p)).bind (·.find indexFile) = some .directory ∧
        store.writeIndex p receipt now disk' = (.error .other,disk') ∨
      (disk.area (store.ownerKey p)).bind (·.find indexFile) ≠ some .directory ∧
        ∃ text disk'', store.writeIndex p receipt now disk' = (.ok (),disk'') ∧
          (disk''.area (store.ownerKey p)).bind (·.find indexFile) = some (.file text now) := by
  have harea : disk'.area (store.ownerKey p) = some (disk'.own (store.ownerKey p)) :=
    Disk.area_eq_some.mpr ⟨h.root,rfl⟩
  have hindex := h.index _ key_mem
  rw [harea,Option.bind_some] at hindex
  unfold writeIndex
  rw [Disk.mkdirTop_of_some h.root]
  simp only [harea]
  rw [← hindex]
  by_cases hdirectory : (disk'.own (store.ownerKey p)).find indexFile = some .directory
  · rw [if_pos hdirectory]
    exact .inl ⟨hdirectory,rfl⟩
  · rw [if_neg hdirectory]
    exact .inr ⟨hdirectory,_,_,rfl,find_index h.root _⟩

/-- The call has raised. -/
def Raised (s : Phase × Disk) : Prop := ∃ copied e, s.1 = .returned copied (.error e)

/-- What taking the temporary file away leaves. -/
theorem tries_unlink {temp : String} (htemp : Hidden temp) (copied : Bytes)
    (result : Except StoreError DownloadReceipt) (refused : List Operation) (disk : Disk) :
    store.SameSight p disk
        (store.tries p refused [.unlinkTemp] (.closing temp copied result) disk).2 ∧
      (Raised (store.tries p refused [.unlinkTemp] (.closing temp copied result) disk) ↔
        .unlink ∈ refused ∨ ∃ e, result = .error e) := by
  have hrun : store.tries p refused [.unlinkTemp] (.closing temp copied result) disk =
      if .unlink ∈ refused then (.returned copied (.error .other),disk)
      else (.returned copied result,store.unlinkTemp p temp disk) := rfl
  rw [hrun]
  split_ifs with hrefused
  · exact ⟨.refl _,iff_of_true ⟨_,_,rfl⟩ (.inl hrefused)⟩
  · refine ⟨sight_unlinkTemp htemp,?_⟩
    simp [Raised,hrefused]

/-- The last steps of a call whose file has its name. -/
structure Closes (store : DownloadStore) (p : String) (now : ℤ) (a : Attempt) (disk : Disk)
    (final : String) (content : Bytes) (s : Phase × Disk) : Prop where
  unindexed : ¬store.Indexes p a disk → Raised s ∧ store.Adds p now disk final content s.2
  indexed : store.Indexes p a disk →
    (Raised s ↔ .indexUnlink ∈ a.refused ∨ .unlink ∈ a.refused) ∧
      ∃ text, (s.2.area (store.ownerKey p)).bind (·.find indexFile) = some (.file text now)

theorem stat_adds (h : store.Adds p now disk f.final f.copied disk') : store.stat p f disk' =
    .receipted f ⟨f.final,f.copied.length,now,store.sha256 f.copied,p⟩ := by
  obtain ⟨d,hd,hfile⟩ := h.added
  rw [stat,hd,Option.bind_some,hfile]

/-- What is left to do after the index: it is written, or the call fails before. -/
theorem tries_index (h : store.Adds p now disk f.final f.copied disk') (a : Attempt) :
    ¬store.Indexes p a disk ∧ (∃ e, store.tries p a.refused
        [.stat,.index a.indexFault now,.unlinkTemp] (.renamed f) disk' =
          store.tries p a.refused [.unlinkTemp] (.closing f.temp f.copied (.error e)) disk') ∨
      store.Indexes p a disk ∧ ∃ text disk'' result,
        store.writeIndex p ⟨f.final,f.copied.length,now,store.sha256 f.copied,p⟩ now disk' =
          (.ok (),disk'') ∧
        (disk''.area (store.ownerKey p)).bind (·.find indexFile) = some (.file text now) ∧
        ((∃ e, result = .error e) ↔ .indexUnlink ∈ a.refused) ∧
        store.tries p a.refused [.stat,.index a.indexFault now,.unlinkTemp] (.renamed f) disk' =
          store.tries p a.refused [.unlinkTemp] (.closing f.temp f.copied result) disk'' := by
  have hrun : store.tries p a.refused [.stat,.index a.indexFault now,.unlinkTemp] (.renamed f)
        disk' =
      store.tries p a.refused [.index a.indexFault now,.unlinkTemp]
        (if .lstat ∈ a.refused then (.closing f.temp f.copied (.error .other),disk')
          else (store.stat p f disk',disk')).1
        (if .lstat ∈ a.refused then (.closing f.temp f.copied (.error .other),disk')
          else (store.stat p f disk',disk')).2 := rfl
  rw [hrun]
  by_cases hlstat : .lstat ∈ a.refused
  · rw [if_pos hlstat]
    exact .inl ⟨fun hindexes => hindexes.1 hlstat,_,rfl⟩
  · rw [if_neg hlstat,stat_adds h]
    generalize (⟨f.final,f.copied.length,now,store.sha256 f.copied,p⟩ : DownloadReceipt) = receipt
    have hindex : store.tries p a.refused [.index a.indexFault now,.unlinkTemp]
        (.receipted f receipt) disk' = store.tries p a.refused [.unlinkTemp]
          (if .indexUnlink ∈ a.refused then .closing f.temp f.copied (.error .other)
            else (store.index p f receipt a.indexFault now disk').1)
          (store.index p f receipt a.indexFault now disk').2 := by
      show store.tries p a.refused [.unlinkTemp] (if .indexUnlink ∈ a.refused then
        (.closing f.temp f.copied (.error .other),
          (store.index p f receipt a.indexFault now disk').2)
        else store.index p f receipt a.indexFault now disk').1 (if .indexUnlink ∈ a.refused then
        (.closing f.temp f.copied (.error .other),
          (store.index p f receipt a.indexFault now disk').2)
        else store.index p f receipt a.indexFault now disk').2 = _
      split_ifs <;> rfl
    rw [hindex]
    by_cases hfault : a.indexFault = true
    · have hraise : store.index p f receipt a.indexFault now disk' =
          (.closing f.temp f.copied (.error .other),disk') := by
        rw [index,if_pos hfault]
      rw [hraise,ite_self]
      refine .inl ⟨fun hindexes => ?_,_,rfl⟩
      rw [hindexes.2.1] at hfault
      cases hfault
    · rcases writeIndex_cases h receipt with
        ⟨hdirectory,hwrite⟩ | ⟨hfile,text,disk'',hwrite,hwritten⟩
      · have hraise : store.index p f receipt a.indexFault now disk' =
            (.closing f.temp f.copied (.error .other),disk') := by
          rw [index,if_neg hfault,hwrite]
        rw [hraise,ite_self]
        exact .inl ⟨fun hindexes => hindexes.2.2 hdirectory,_,rfl⟩
      · have hdone : store.index p f receipt a.indexFault now disk' =
            (.closing f.temp f.copied (.ok receipt),disk'') := by
          rw [index,if_neg hfault,hwrite]
        rw [hdone]
        right
        refine ⟨⟨hlstat,Bool.eq_false_of_not_eq_true hfault,hfile⟩,text,disk'',
          if .indexUnlink ∈ a.refused then .error .other else .ok receipt,hwrite,hwritten,?_,?_⟩
        · split_ifs with hunlink <;> simp [hunlink]
        · split_ifs <;> rfl

theorem closes (h : store.Adds p now disk f.final f.copied disk') (htemp : Hidden f.temp)
    (a : Attempt) : store.Closes p now a disk f.final f.copied
      (store.tries p a.refused [.stat,.index a.indexFault now,.unlinkTemp] (.renamed f) disk') := by
  rcases tries_index h a with
    ⟨hnot,e,hrun⟩ | ⟨hindexes,text,disk'',result,-,hwritten,hresult,hrun⟩
  · obtain ⟨hsight,hraised⟩ := tries_unlink htemp f.copied (.error e) a.refused disk'
    rw [hrun]
    exact ⟨fun _ => ⟨hraised.mpr (.inr ⟨e,rfl⟩),h.sight hsight⟩,
      fun hindexes => absurd hindexes hnot⟩
  · obtain ⟨hsight,hraised⟩ := tries_unlink htemp f.copied result a.refused disk''
    rw [hrun]
    refine ⟨fun hnot => absurd hindexes hnot,fun _ => ?_⟩
    refine ⟨hraised.trans ?_,text,(hsight.index _ key_mem).trans hwritten⟩
    rw [hresult,or_comm]

/-! ### What a file more can be seen by -/

theorem mem_listed {entry : DownloadEntry} (h : entry ∈ store.addFiles p disk []
    (disk.subarea (store.ownerKey p) entriesDir)) : entry ∈ store.listed p disk := by
  have hadd : ∀ result (a : Option (Folder Node)), result <+: store.addFiles p disk result a := by
    intro result a
    cases a with
    | none => exact List.prefix_rfl
    | some f => exact prefix_foldl_addEntry _
  have hquarantine : ∀ result (a : Option (Folder Node)),
      result <+: store.addQuarantine p result a := by
    intro result a
    cases a with
    | none => exact List.prefix_rfl
    | some f => exact prefix_foldl_addQuarantined _
  exact (((hadd _ _).trans (hquarantine _ _)).trans (hquarantine _ _)).mem h

/-- Where the listing of this release's directory is full, it is the whole listing. -/
theorem listed_full (h : store.maxEntries ≤ (store.addFiles p disk []
    (disk.subarea (store.ownerKey p) entriesDir)).length) : store.listed p disk =
      store.addFiles p disk [] (disk.subarea (store.ownerKey p) entriesDir) := by
  have hadd : ∀ result (a : Option (Folder Node)), store.maxEntries ≤ result.length →
      store.addFiles p disk result a = result := by
    intro result a hfull
    cases a with
    | none => rfl
    | some f => exact foldl_addEntry_full hfull _
  have hquarantine : ∀ result (a : Option (Folder Node)), store.maxEntries ≤ result.length →
      store.addQuarantine p result a = result := by
    intro result a hfull
    cases a with
    | none => rfl
    | some f => exact foldl_addQuarantined_full hfull _
  rw [listed,listedFiles,hadd _ _ h,hquarantine _ _ h,hquarantine _ _ h]

/-- The names before a name, and those after it. -/
theorem fileNames_added (h : store.Adds p now disk final content disk')
    (hfree : fileAt final (store.entriesOf p disk) = none)
    (hd : disk'.subarea (store.ownerKey p) entriesDir = some d) :
    fileNames d = (fileNames (store.entriesOf p disk)).takeWhile (· < final) ++
      final::(fileNames (store.entriesOf p disk)).dropWhile (· < final) := by
  have hbefore : (fun name : String => decide (name < final)) =
      fun name => decide ¬final ≤ name := by
    funext name
    simp
  rw [hbefore,← List.orderedInsert_eq_take_drop]
  obtain ⟨d',hd',hfile⟩ := h.added
  cases hd.symm.trans hd'
  have hnew : final ∉ fileNames (store.entriesOf p disk) := by
    rw [mem_fileNames,hfree]
    simp
  apply fileNames_eq
  · rw [(List.perm_orderedInsert _ _ _).nodup_iff]
    exact List.nodup_cons.mpr ⟨hnew,nodup_fileNames _⟩
  · exact (pairwise_fileNames _).orderedInsert _ _
  · intro name
    rw [List.mem_orderedInsert,mem_fileNames]
    by_cases hname : name = final
    · rw [hname]
      simp [h.valid,fileAt,hfile]
    · simp only [hname,false_or]
      refine and_congr_right fun hvalid => ?_
      rw [fileAt_congr (h.others d hd name hvalid hname)]

/-- The entries of this release's directory with the file, and without it. -/
theorem addFiles_added (h : store.Adds p now disk final content disk')
    (hfree : fileAt final (store.entriesOf p disk) = none) :
    let entry := entryOf p (fun name => store.readIndexHash p name disk) (store.entriesOf p disk)
    let names := fileNames (store.entriesOf p disk)
    store.addFiles p disk [] (disk.subarea (store.ownerKey p) entriesDir) =
        ((names.takeWhile (· < final)).map entry ++
          (names.dropWhile (· < final)).map entry).take store.maxEntries ∧
      store.addFiles p disk' [] (disk'.subarea (store.ownerKey p) entriesDir) =
        ((names.takeWhile (· < final)).map entry ++
          ⟨final,content.length,now,p,false,none,store.readIndexHash p final disk⟩::
            (names.dropWhile (· < final)).map entry).take store.maxEntries := by
  intro entry names
  obtain ⟨d,hd,hfile⟩ := h.added
  have hnew : final ∉ names := by
    rw [mem_fileNames,hfree]
    simp
  constructor
  · rw [← List.map_append,List.takeWhile_append_dropWhile]
    cases hentries : disk.subarea (store.ownerKey p) entriesDir with
    | none =>
      have hnone : names = [] := by
        show fileNames (store.entriesOf p disk) = []
        rw [entriesOf,hentries]
        rfl
      rw [hnone,List.map_nil,List.take_nil]
      rfl
    | some f =>
      have hsame : store.entriesOf p disk = f := by
        rw [entriesOf,hentries]
        rfl
      rw [addFiles_first]
      show _ = ((fileNames (store.entriesOf p disk)).map
        (entryOf p _ (store.entriesOf p disk))).take _
      rw [hsame]
  · rw [hd,addFiles_first,fileNames_added h hfree hd,List.map_append,List.map_cons]
    have hhash : (fun name => store.readIndexHash p name disk') =
        fun name => store.readIndexHash p name disk := by
      funext name
      exact readIndexHash_congr h.index name
    have hother : ∀ l : List String, l ⊆ names → l.map (entryOf p
        (fun name => store.readIndexHash p name disk) d) = l.map entry := by
      intro l hl
      apply List.map_congr_left
      intro name hname
      have hmem := hl hname
      have hne : name ≠ final := by
        rintro rfl
        exact hnew hmem
      have hsame := h.others d hd name (mem_fileNames.mp hmem).1 hne
      simp only [entry,entryOf,fileAt_congr hsame]
    rw [hhash,hother _ (List.takeWhile_subset _),hother _ (List.dropWhile_subset _)]
    simp [entryOf,fileAt,hfile]

theorem fileAt_free (h : pathExists d final = false) : fileAt final d = none := by
  rcases find_free h with hfind | hfind <;> rw [fileAt,hfind]

theorem Adds.found (h : store.Adds p now disk final content disk') :
    store.found p disk' final = some content := by
  obtain ⟨d,hd,hfile⟩ := h.added
  rw [DownloadStore.found,hd,Option.bind_some,regular,hfile]
  simp [h.size]

theorem fileAt_entriesOf (disk : Disk) (name : String) : fileAt name (store.entriesOf p disk) =
    (disk.subarea (store.ownerKey p) entriesDir).bind (fileAt name) := by
  rw [entriesOf]
  cases disk.subarea (store.ownerKey p) entriesDir <;> rfl

/-- Before, only the release before can have had a file of that name. -/
theorem found_free (h : fileAt final (store.entriesOf p disk) = none) :
    store.found p disk final = (disk.area p).bind (regular store.maxFileBytes final) := by
  rw [fileAt_entriesOf] at h
  have hnone : (disk.subarea (store.ownerKey p) entriesDir).bind
      (regular store.maxFileBytes final) = none :=
    bind_regular (a:=none) h
  rw [found,hnone,Option.none_or]

theorem Adds.found_of_ne (h : store.Adds p now disk final content disk') {name : String}
    (hname : (validateName name).isSome) (hne : name ≠ final) :
    store.found p disk' name = store.found p disk name := by
  obtain ⟨d,hd,-⟩ := h.added
  have hfile := fileAt_congr (h.others d hd name hname hne)
  rw [fileAt_entriesOf] at hfile
  have hregular : (some d).bind (regular store.maxFileBytes name) =
      (disk.subarea (store.ownerKey p) entriesDir).bind (regular store.maxFileBytes name) :=
    bind_regular hfile
  rw [DownloadStore.found,DownloadStore.found,hd,hregular,bind_regular (h.prior name hname)]

theorem Adds.quarantineSafe (h : store.Adds p now disk final content disk') :
    store.QuarantineSafe p disk' ↔ store.QuarantineSafe p disk := by
  have hchild := (h.quarantine _ List.mem_cons_self).1
  have hchild' := (h.quarantine _ (List.mem_cons_of_mem _ List.mem_cons_self)).1
  dsimp only at hchild hchild'
  rw [QuarantineSafe,QuarantineSafe,hchild,hchild']

/-- A file that is in the shadow of another one, and past the end of the listing, is not seen. -/
theorem Adds.unchanged (h : store.Adds p now disk final content disk')
    (hfree : fileAt final (store.entriesOf p disk) = none)
    (hshadowed : store.Shadowed p disk final content) : store.Unchanged p disk disk' := by
  obtain ⟨hprior,hfull⟩ := hshadowed
  refine ⟨?_,?_,h.index⟩
  · intro name
    rw [read_eq,read_eq]
    cases hname : validateName name with
    | none => rfl
    | some safe =>
      have hfound : store.found p disk' safe = store.found p disk safe := by
        by_cases hfinal : safe = final
        · rw [hfinal,h.found,found_free hfree,hprior]
        · apply h.found_of_ne _ hfinal
          rw [validateName_idem hname]
          rfl
      simp only [h.safe,hfound]
  · rw [listEntries_eq,listEntries_eq]
    rcases hfull with hrefused | hfull
    · simp only [h.quarantineSafe,hrefused,and_false,if_false]
    obtain ⟨hbefore,hafter⟩ := addFiles_added h hfree
    rw [List.take_append_of_le_length (by rwa [List.length_map])] at hbefore hafter
    have hlength := List.length_take_of_le (i:=store.maxEntries) (l:=((fileNames
      (store.entriesOf p disk)).takeWhile (· < final)).map (entryOf p (fun name =>
        store.readIndexHash p name disk) (store.entriesOf p disk))) (by rwa [List.length_map])
    have hlisted : store.listed p disk' = store.listed p disk := by
      rw [listed_full,listed_full,hbefore,hafter]
      · rw [hbefore,hlength]
      · rw [hafter,hlength]
    simp only [h.safe,h.quarantineSafe,hlisted]

/-- Else it can be seen, unless there was something of that time before. -/
theorem Adds.not_unchanged (h : store.Adds p now disk final content disk')
    (hp : isPrincipal p = true) (hsafe : store.Safe p disk)
    (hfree : fileAt final (store.entriesOf p disk) = none)
    (hnow : ∀ entry ∈ store.listed p disk, entry.mtime ≠ now)
    (hshadowed : ¬store.Shadowed p disk final content) : ¬store.Unchanged p disk disk' := by
  intro hsame
  have hsafe' := h.safe.mpr hsafe
  have hprior : (disk.area p).bind (regular store.maxFileBytes final) = some content := by
    have hread := hsame.read final
    rw [read_eq_some.mpr ⟨final,h.valid,hp,hsafe',h.found⟩] at hread
    obtain ⟨safe,hvalid,-,-,hfound⟩ := read_eq_some.mp hread.symm
    cases h.valid.symm.trans hvalid
    rw [← hfound,found_free hfree]
  obtain ⟨hquarantine,hroom⟩ := not_or.mp fun hfull => hshadowed ⟨hprior,hfull⟩
  have hquarantine := not_not.mp hquarantine
  have hlisted := hsame.listed
  rw [listEntries_safe hp hsafe' (h.quarantineSafe.mpr hquarantine),
    listEntries_safe hp hsafe hquarantine] at hlisted
  have hmem : ⟨final,content.length,now,p,false,none,store.readIndexHash p final disk⟩ ∈
      store.listed p disk' := by
    obtain ⟨-,hafter⟩ := addFiles_added h hfree
    apply mem_listed
    rw [hafter,List.take_append,List.mem_append]
    right
    rw [List.length_map]
    obtain ⟨n,hn⟩ := Nat.exists_eq_succ_of_ne_zero (Nat.sub_ne_zero_of_lt (not_le.mp hroom))
    rw [hn,List.take_succ_cons]
    exact List.mem_cons_self
  have hold := (List.mem_insertionSort (fun a b : DownloadEntry => b.mtime ≤ a.mtime)).mp
    (Except.ok.inj hlisted ▸ (List.mem_insertionSort _).mpr hmem)
  exact hnow _ hold rfl

/-! ### Exactly when -/

theorem moves_eq (a : Attempt) (now : ℤ) : Upload.moves { a.toUpload with now := now } =
    a.opening now ++ [.stat,.index a.indexFault now,.unlinkTemp] := by
  simp [Upload.moves,Attempt.opening,copies]

/-- A call that ends before its rename changes nothing that is seen. -/
theorem attempt_ends (h : store.Ends p disk (store.tries p a.refused (a.opening now) .idle disk)) :
    store.SameSight p disk (store.attempt p a now disk).2 := by
  have hmiddle : Move.unlinkTemp ∉ [Move.stat,Move.index a.indexFault now] := by simp
  have hsplit : a.opening now ++ [.stat,.index a.indexFault now,.unlinkTemp] =
      a.opening now ++ ([.stat,.index a.indexFault now] ++ [.unlinkTemp]) := rfl
  rw [attempt,moves_eq,hsplit,tries_append,tries_append,h.tries hmiddle]
  exact h.unlink

/-- A call that has published, to its end. -/
theorem attempt_closes (h : store.Renames p now disk final content
    (store.tries p a.refused (a.opening now) .idle disk)) :
    store.Closes p now a disk final content (store.attempt p a now disk) := by
  obtain ⟨f,d,disk',hstages,rfl,rfl,hd,hrun⟩ := h
  rw [attempt,moves_eq,tries_append,hrun]
  exact closes (adds_rename hstages hd) hstages.held.hidden a

/-- The indexes that were written are of the time. -/
theorem index_changed {text : Bytes} (hindex : (disk'.area (store.ownerKey p)).bind
    (·.find indexFile) = some (.file text now))
    (hnow : ∀ text, (disk.area (store.ownerKey p)).bind (·.find indexFile) ≠
      some (.file text now)) :
    ¬store.Unchanged p disk disk' := fun h =>
  hnow text ((h.index _ key_mem).symm.trans hindex)

/-- There is a time of which nothing is that the principal has. -/
theorem exists_new (store : DownloadStore) (p : String) (disk : Disk) : ∃ now : ℤ,
    (∀ entry ∈ store.listed p disk, entry.mtime ≠ now) ∧
      ∀ text, (disk.area (store.ownerKey p)).bind (·.find indexFile) ≠ some (.file text now) := by
  obtain ⟨indexed,hindexed⟩ : ∃ indexed : Finset ℤ, ∀ text now,
      (disk.area (store.ownerKey p)).bind (·.find indexFile) = some (.file text now) →
        now ∈ indexed := by
    by_cases hfile : ∃ text mtime,
        (disk.area (store.ownerKey p)).bind (·.find indexFile) = some (.file text mtime)
    · obtain ⟨text,mtime,hfile⟩ := hfile
      refine ⟨{mtime},fun text' now hnow => ?_⟩
      rw [hfile] at hnow
      cases hnow
      exact Finset.mem_singleton_self mtime
    · exact ⟨∅,fun text now hnow => absurd ⟨text,now,hnow⟩ hfile⟩
  obtain ⟨now,hnow⟩ := Infinite.exists_notMem_finset
    (indexed ∪ ((store.listed p disk).map DownloadEntry.mtime).toFinset)
  rw [Finset.mem_union,not_or,List.mem_toFinset] at hnow
  refine ⟨now,?_,?_⟩
  · rintro entry hentry rfl
    exact hnow.2 (List.mem_map_of_mem hentry)
  · intro text hindex
    exact hnow.1 (hindexed text now hindex)

/-- A call of `ingest` that raises changes nothing, exactly where it does not fail late. -/
theorem atomic_iff (store : DownloadStore) (p : String) (a : Attempt) (disk : Disk) :
    store.Atomic p a disk ↔ ¬store.FailsLate p a disk := by
  constructor
  · rintro h ⟨final,content,hpublishes,hindexed,hunindexed⟩
    obtain ⟨now,hlisted,hindex⟩ := exists_new store p disk
    have hcloses : store.Closes p now a disk final content (store.attempt p a now disk) := by
      rcases tries_opening a now disk with ⟨-,hnot⟩ | ⟨final',content',hpublishes',hrenames⟩
      · exact absurd hpublishes (hnot final content)
      · cases hpublishes.allocates.unique hpublishes'.allocates
        cases hpublishes.copied.symm.trans hpublishes'.copied
        exact attempt_closes hrenames
    by_cases hindexes : store.Indexes p a disk
    · obtain ⟨hraised,text,hwritten⟩ := hcloses.indexed hindexes
      obtain ⟨copied,e,hraised⟩ := hraised.mpr (hindexed hindexes)
      exact index_changed hwritten hindex (h now copied e hraised)
    · obtain ⟨⟨copied,e,hraised⟩,hadds⟩ := hcloses.unindexed hindexes
      obtain ⟨safe,-,hnext⟩ := hpublishes.name
      exact hadds.not_unchanged hpublishes.principal hpublishes.safe
        (fileAt_free (nextName_mem hnext).1) hlisted (hunindexed hindexes) (h now copied e hraised)
  · intro h now copied e hraised
    rcases tries_opening a now disk with ⟨hend,-⟩ | ⟨final,content,hpublishes,hrenames⟩
    · exact (attempt_ends hend).unchanged
    · have hcloses := attempt_closes hrenames
      obtain ⟨safe,-,hnext⟩ := hpublishes.name
      have hfree := fileAt_free (nextName_mem hnext).1
      by_cases hindexes : store.Indexes p a disk
      · refine absurd ⟨final,content,hpublishes,fun _ => ?_,fun hnot => absurd hindexes hnot⟩ h
        exact (hcloses.indexed hindexes).1.mp ⟨copied,e,hraised⟩
      · by_cases hshadowed : store.Shadowed p disk final content
        · exact (hcloses.unindexed hindexes).2.unchanged hfree hshadowed
        · exact absurd ⟨final,content,hpublishes,fun hindexed => absurd hindexed hindexes,
            fun _ => hshadowed⟩ h

/-- An upload whose index cannot be written. -/
def unindexed : Attempt :=
  { name := "a", reads := [.ok [1,2,3]], token := 7, indexFault := true, now := 0 }

/-- The upload raises, and its file can be read. -/
theorem unindexed_stays : ¬∀ (store : DownloadStore) (disk : Disk), store.Reachable disk →
    ∀ (p : String) (a : Attempt), store.Atomic p a disk := by
  intro h
  have hreachable : small.Reachable Disk.empty := by
    refine ⟨Disk.empty,[],?_,rfl⟩
    intro top name hfind
    cases hfind
  have hraised : (small.attempt "alice" unindexed 0 Disk.empty).1 =
      .returned [1,2,3] (.error .other) := by
    decide +kernel
  have hread := (h small Disk.empty hreachable "alice" unindexed 0 _ _ hraised).read "a"
  have hafter : small.read "alice" "a" (small.attempt "alice" unindexed 0 Disk.empty).2 =
      .ok (some [1,2,3]) := by
    decide +kernel
  have hbefore : small.read "alice" "a" Disk.empty = .ok none := by
    decide +kernel
  rw [hafter,hbefore] at hread
  cases hread

end DownloadStore
end Storage
end CloudBrowser
