import CloudBrowser.CapabilityCodec
import CloudBrowser.DownloadQuota
import CloudBrowser.DownloadSight
import CloudBrowser.IsolatedOwners

/-! What a purge leaves, where two layouts may hold a file under the same name: which files it takes
away, and what is read under their names afterwards. -/
namespace CloudBrowser
namespace Storage

open CloudFiles
open Directories
open Capability (truncate)

namespace DownloadStore

theorem mem_expired {older : ℚ} {f : Folder Node} {name : String} : name ∈ expired older f ↔
    (validateName name).isSome ∧ (fileAt name f).any (fun file => (file.2 : ℚ) < older) = true := by
  have hnames : (fileAt name f).isSome → name ∈ f.names := mem_names_of_fileAt
  unfold expired
  rw [List.mem_filter]
  unfold fileAt at hnames ⊢
  cases validateName name with
  | none => simp
  | some safe =>
    rcases hfind : f.find name with _ | ⟨content,mtime⟩ | _ | target
    · simp
    · rw [hfind] at hnames
      simpa using fun _ => hnames rfl
    · simp
    · simp

theorem fileAt_unlinkAll (name : String) (f : Folder Node) (names : List String) :
    fileAt name (f.unlinkAll names) = if name ∈ names then none else fileAt name f := by
  unfold fileAt
  split_ifs with h
  · rw [Folder.find_unlinkAll_of_mem h]
  · rw [Folder.find_unlinkAll h]

/-- What a layer keeps of a file, where the file goes exactly if it is expired. -/
theorem fileAt_purged (hname : (validateName name).isSome) {gone : List String}
    (hgone : name ∈ gone ↔ name ∈ expired older f) :
    fileAt name (f.unlinkAll gone) =
      (fileAt name f).filter fun file => older ≤ (file.2 : ℚ) := by
  rw [fileAt_unlinkAll]
  cases hfile : fileAt name f with
  | none => simp
  | some file =>
    have hmem : name ∈ gone ↔ (file.2 : ℚ) < older := by simp [hgone,mem_expired,hfile,hname]
    by_cases h : (file.2 : ℚ) < older
    · simp [Option.filter,hmem,h]
    · simp [Option.filter,hmem,h,not_lt.mp h]

/-! ### The layers -/

section Layers

variable (store : DownloadStore) (p : String)

/-- This release's directory with the files of a principal, where the store serves them. -/
def canonicalLayer (disk : Disk) : Option (Folder Node) :=
  if isPrincipal p = true ∧ store.Safe p disk then disk.subarea (store.ownerKey p) entriesDir
  else none

/-- The directory of the release before it. -/
def priorLayer (disk : Disk) : Option (Folder Node) :=
  if isPrincipal p = true ∧ store.Safe p disk then disk.area p else none

/-- The modification times of the files, to the fraction of a second; the disk has what `int` makes
of them. -/
structure Times (disk : Disk) where
  canonical : String → ℚ
  prior : String → ℚ
  canonical_whole : ∀ name content mtime,
    (store.canonicalLayer p disk).bind (fileAt name) = some (content,mtime) →
      truncate (canonical name) = mtime
  prior_whole : ∀ name content mtime,
    (store.priorLayer p disk).bind (fileAt name) = some (content,mtime) →
      truncate (prior name) = mtime

/-- A file of a layer that `read` would give, with its time. -/
def entryIn (time : String → ℚ) (layer : Option (Folder Node)) (name : String) :
    Option (Bytes × ℚ) :=
  (layer.bind (regular store.maxFileBytes name)).map fun content => (content,time name)

variable {store p}

def Times.canonicalEntry {disk : Disk} (t : store.Times p disk) (disk' : Disk) (name : String) :
    Option (Bytes × ℚ) :=
  store.entryIn t.canonical (store.canonicalLayer p disk') name

def Times.priorEntry {disk : Disk} (t : store.Times p disk) (disk' : Disk) (name : String) :
    Option (Bytes × ℚ) :=
  store.entryIn t.prior (store.priorLayer p disk') name

/-- What is retrieved under a name: the file of this release, or else that of the one before. -/
def Times.entry {disk : Disk} (t : store.Times p disk) (disk' : Disk) (name : String) :
    Option (Bytes × ℚ) :=
  (t.canonicalEntry disk' name).or (t.priorEntry disk' name)

/-- The file of this release goes. -/
def goesFirst (store : DownloadStore) (p : String) (older : ℚ) (disk : Disk) (name : String) :
    Bool :=
  ((store.canonicalLayer p disk).bind (fileAt name)).any fun file => (file.2 : ℚ) < older

end Layers

variable {store : DownloadStore} {p : String} {disk : Disk} {name : String} {older : ℚ}

/-- What the principal can read is what is retrieved. -/
theorem read_entry (t : store.Times p disk) (disk' : Disk) (hp : isPrincipal p = true)
    (hsafe : store.Safe p disk') {safe : String} (hname : validateName name = some safe) :
    store.read p name disk' = .ok ((t.entry disk' safe).map Prod.fst) := by
  have hmap : ∀ (time : String → ℚ) (layer : Option (Folder Node)),
      (store.entryIn time layer safe).map Prod.fst =
        layer.bind (regular store.maxFileBytes safe) := by
    intro time layer
    rw [entryIn,Option.map_map]
    simp [Function.comp_def]
  rw [read_eq,hname]
  simp only [hp,Bool.true_eq_false,if_false,if_pos hsafe]
  rw [Times.entry,Option.map_or,Times.canonicalEntry,Times.priorEntry,hmap,hmap,canonicalLayer,
    priorLayer,if_pos ⟨hp,hsafe⟩,if_pos ⟨hp,hsafe⟩]
  rfl

/-- The layers after a purge. -/
theorem purge_layers (older : ℚ) (disk : Disk) :
    store.canonicalLayer p (store.purge p older disk).2 =
      (store.canonicalLayer p disk).map (fun f => f.unlinkAll (expired older f)) ∧
    store.priorLayer p (store.purge p older disk).2 =
      (store.priorLayer p disk).map fun f => f.unlinkAll ((expired older f).filter
        (· ∉ ((store.canonicalLayer p disk).map (expired older)).getD [])) := by
  by_cases hserved : isPrincipal p = true ∧ store.Safe p disk
  · obtain ⟨hp,hsafe⟩ := hserved
    obtain ⟨canonical,prior,hcanonical,hprior,-,hdirectory,hdisk'⟩ := purge_served older hp hsafe
    obtain ⟨hsafe',hsub,harea⟩ := purge_dirs hsafe hdirectory hdisk'
    simp only [canonicalLayer,priorLayer,hp,hsafe,hsafe',and_self,if_true,hsub,harea]
    constructor
    · cases hd : disk.subarea (store.ownerKey p) entriesDir with
      | none => rfl
      | some f => rw [Option.map_some,Option.map_some,hcanonical,hd]; rfl
    · cases hd : disk.area p with
      | none => rfl
      | some f => rw [Option.map_some,Option.map_some,hprior,hcanonical,hd]; rfl
  · rw [purge_refused older hserved,canonicalLayer,priorLayer,if_neg hserved,if_neg hserved]
    exact ⟨rfl,rfl⟩

theorem goesFirst_of_file {file : Bytes × ℤ}
    (h : (store.canonicalLayer p disk).bind (fileAt name) = some file) :
    store.goesFirst p older disk name = decide ((file.2 : ℚ) < older) := by
  rw [goesFirst,h]
  rfl

theorem mem_canonical : name ∈ ((store.canonicalLayer p disk).map (expired older)).getD [] ↔
    (validateName name).isSome ∧ store.goesFirst p older disk name = true := by
  unfold goesFirst
  cases store.canonicalLayer p disk with
  | none => simp
  | some f => simpa using mem_expired

/-- Of this release's files those that are older are taken away. -/
theorem canonical_after (hname : (validateName name).isSome) :
    (store.canonicalLayer p (store.purge p older disk).2).bind (fileAt name) =
      ((store.canonicalLayer p disk).bind (fileAt name)).filter
        fun file => older ≤ (file.2 : ℚ) := by
  rw [(purge_layers older disk).1]
  cases store.canonicalLayer p disk with
  | none => rfl
  | some f => exact fileAt_purged hname Iff.rfl

/-- Of the files of the release before it, too, but none whose namesake has gone. -/
theorem prior_after (hname : (validateName name).isSome)
    (hkept : store.goesFirst p older disk name = false) :
    (store.priorLayer p (store.purge p older disk).2).bind (fileAt name) =
      ((store.priorLayer p disk).bind (fileAt name)).filter fun file => older ≤ (file.2 : ℚ) := by
  rw [(purge_layers older disk).2]
  cases store.priorLayer p disk with
  | none => rfl
  | some f =>
    refine fileAt_purged hname ⟨fun h => (List.mem_filter.mp h).1,fun h => ?_⟩
    exact List.mem_filter.mpr ⟨h,by simp [mem_canonical,hkept]⟩

theorem prior_after_gone (hname : (validateName name).isSome)
    (hgone : store.goesFirst p older disk name = true) :
    (store.priorLayer p (store.purge p older disk).2).bind (fileAt name) =
      (store.priorLayer p disk).bind (fileAt name) := by
  rw [(purge_layers older disk).2]
  cases store.priorLayer p disk with
  | none => rfl
  | some f =>
    rw [Option.map_some,Option.bind_some,Option.bind_some,fileAt_unlinkAll,if_neg]
    intro hmem
    have hkept := (List.mem_filter.mp hmem).2
    simp [mem_canonical,hname,hgone] at hkept

theorem entryIn_eq (time : String → ℚ) (layer : Option (Folder Node)) (name : String) :
    store.entryIn time layer name = (layer.bind (fileAt name)).bind fun file =>
      if file.1.length ≤ store.maxFileBytes then some (file.1,time name) else none := by
  cases layer with
  | none => rfl
  | some f =>
    rw [entryIn,Option.bind_some,Option.bind_some,regular_eq]
    cases fileAt name f with
    | none => rfl
    | some file =>
      rw [Option.bind_some,Option.bind_some]
      split_ifs <;> rfl

/-- The files of a layer that are kept by their whole seconds are entries that are kept by these. -/
theorem entryIn_filter {time : String → ℚ} {layer layer' : Option (Folder Node)}
    (hwhole : ∀ content mtime, layer.bind (fileAt name) = some (content,mtime) →
      truncate (time name) = mtime)
    (hafter : layer'.bind (fileAt name) =
      (layer.bind (fileAt name)).filter fun file => older ≤ (file.2 : ℚ)) :
    store.entryIn time layer' name =
      (store.entryIn time layer name).filter fun e => older ≤ (truncate e.2 : ℚ) := by
  rw [entryIn_eq,entryIn_eq,hafter]
  cases hfile : layer.bind (fileAt name) with
  | none => rfl
  | some file =>
    have htime := hwhole file.1 file.2 hfile
    by_cases hold : older ≤ (file.2 : ℚ) <;> by_cases hsize : file.1.length ≤ store.maxFileBytes <;>
      simp [Option.filter,htime,hold,hsize]

theorem Times.file_of_canonicalEntry (t : store.Times p disk) {e : Bytes × ℚ}
    (h : t.canonicalEntry disk name = some e) :
    ∃ file, (store.canonicalLayer p disk).bind (fileAt name) = some file ∧
      truncate e.2 = file.2 := by
  rw [Times.canonicalEntry,entryIn_eq] at h
  obtain ⟨file,hfile,h⟩ := Option.bind_eq_some_iff.mp h
  split_ifs at h
  cases h
  exact ⟨file,hfile,t.canonical_whole name file.1 file.2 hfile⟩

/-- What is retrieved after a purge: where the file of this release has gone, that of the one before
it; and else what was retrieved, if its whole seconds are not older. -/
theorem entry_after (t : store.Times p disk) (hname : (validateName name).isSome) :
    t.entry (store.purge p older disk).2 name =
      if store.goesFirst p older disk name = true then t.priorEntry disk name
      else (t.entry disk name).filter fun e => older ≤ (truncate e.2 : ℚ) := by
  have hcanonical : t.canonicalEntry (store.purge p older disk).2 name =
      (t.canonicalEntry disk name).filter fun e => older ≤ (truncate e.2 : ℚ) :=
    entryIn_filter (t.canonical_whole name) (canonical_after hname)
  unfold Times.entry
  rw [hcanonical]
  split_ifs with hgone
  · have hnone :
        ((t.canonicalEntry disk name).filter fun e => older ≤ (truncate e.2 : ℚ)) = none := by
      rw [Option.filter_eq_none_iff]
      intro e he
      obtain ⟨file,hfile,htime⟩ := t.file_of_canonicalEntry he
      rw [goesFirst_of_file hfile] at hgone
      rw [htime]
      simpa using hgone
    rw [hnone,Option.none_or,Times.priorEntry,entryIn_eq,prior_after_gone hname hgone,← entryIn_eq]
    rfl
  · have hprior : t.priorEntry (store.purge p older disk).2 name =
        (t.priorEntry disk name).filter fun e => older ≤ (truncate e.2 : ℚ) :=
      entryIn_filter (t.prior_whole name) (prior_after hname (by simpa using hgone))
    rw [hprior]
    cases hentry : t.canonicalEntry disk name with
    | none => rfl
    | some e =>
      obtain ⟨file,hfile,htime⟩ := t.file_of_canonicalEntry hentry
      have hnew : older ≤ (truncate e.2 : ℚ) := by
        rw [goesFirst_of_file hfile] at hgone
        rw [htime]
        simpa using hgone
      simp [Option.filter,hnew]

/-! ### Exactness -/

section Exactness

variable (store : DownloadStore) (p : String)

/-- After a purge, what is retrieved is what was retrieved before and is not older. -/
def PurgesExactly (older : ℚ) (disk : Disk) (t : store.Times p disk) : Prop :=
  ∀ name, validateName name = some name →
    t.entry (store.purge p older disk).2 name =
      (t.entry disk name).filter fun e => older ≤ e.2

/-- Where the file of this release goes, the one of the release before it is not what comes in its
place; and else the entry is as old as its whole seconds say. -/
def Replaceable (older : ℚ) (disk : Disk) (t : store.Times p disk) (name : String) : Prop :=
  (store.goesFirst p older disk name = true →
    t.priorEntry disk name = none ∧ (∀ e ∈ t.entry disk name, e.2 < older) ∨
      t.priorEntry disk name = t.entry disk name ∧ ∀ e ∈ t.entry disk name, older ≤ e.2) ∧
  (store.goesFirst p older disk name = false →
    ∀ e ∈ t.entry disk name, older ≤ (truncate e.2 : ℚ) ↔ older ≤ e.2)

end Exactness

theorem filter_eq_filter_iff {α : Type} {o : Option α} {a b : α → Bool} :
    o.filter a = o.filter b ↔ ∀ e ∈ o, (a e = true ↔ b e = true) := by
  cases o with
  | none => simp
  | some e =>
    cases ha : a e <;> cases hb : b e <;> simp [Option.filter,ha,hb]

theorem eq_filter_iff {α : Type} {below shown : Option α} {kept : α → Bool} :
    below = shown.filter kept ↔ below = none ∧ (∀ e ∈ shown, kept e = false) ∨
      below = shown ∧ ∀ e ∈ shown, kept e = true := by
  cases shown with
  | none => simp
  | some e => cases h : kept e <;> simp [Option.filter,h]

theorem purge_exact_iff (store : DownloadStore) (p : String) (older : ℚ) (disk : Disk)
    (t : store.Times p disk) : store.PurgesExactly p older disk t ↔
      ∀ name, validateName name = some name → store.Replaceable p older disk t name := by
  refine forall_congr' fun name => forall_congr' fun hname => ?_
  rw [entry_after t (by simp [hname])]
  unfold Replaceable
  by_cases hgone : store.goesFirst p older disk name = true
  · rw [if_pos hgone,eq_filter_iff]
    simp [hgone]
  · rw [if_neg hgone,filter_eq_filter_iff]
    simp [hgone]

/-! ### A file that comes back -/

/-- Modification times without a fraction. -/
def Times.whole (store : DownloadStore) (p : String) (disk : Disk) : store.Times p disk where
  canonical name := (((store.canonicalLayer p disk).bind (fileAt name)).elim 0 Prod.snd : ℤ)
  prior name := (((store.priorLayer p disk).bind (fileAt name)).elim 0 Prod.snd : ℤ)
  canonical_whole name content mtime h := by
    rw [h]
    exact Capability.truncate_intCast mtime
  prior_whole name content mtime h := by
    rw [h]
    exact Capability.truncate_intCast mtime

/-- A volume on which an older release has kept a file of `alice`. -/
def olderVolume : Disk where
  root := (Folder.empty .directory).create "alice" .directory
  own := Function.update (fun _ => Folder.empty .directory) "alice"
    ((Folder.empty .directory).create "a" (.file [1] 50))
  sub _ := Folder.empty .directory

theorem inherited_olderVolume : Inherited olderVolume := by
  intro top name hfind
  by_cases htop : top = "alice"
  · have hfound : ((Folder.empty Node.directory).create "a" (.file [1] 50)).find name =
        some .directory := by simpa [olderVolume,htop] using hfind
    by_cases hname : name = "a"
    · rw [hname,Folder.toDirectory_create,Directory.find_create_self] at hfound
      cases hfound
    · have hempty := Directory.find_create_of_ne (Folder.empty Node.directory).numbered hname
        (n:=Node.file [1] 50)
      cases hempty.symm.trans hfound
  · simp only [olderVolume,Function.update_of_ne htop] at hfind
    cases hfind

def newUpload : Upload := { name := "a", reads := [.ok [2]], token := 7, now := 100 }

/-- A file has been uploaded under the name of an older one, and both are older than the time of
the purge: the older one is read afterwards. -/
theorem shadowed_file_back : ¬∀ (store : DownloadStore) (disk : Disk), store.Reachable disk →
    ∀ (p : String) (older : ℚ) (t : store.Times p disk), store.PurgesExactly p older disk t := by
  intro h
  have hreachable : marked.Reachable (marked.ingest "alice" newUpload olderVolume).2 :=
    ⟨olderVolume,[.request "alice" (.ingest newUpload)],inherited_olderVolume,rfl⟩
  have hexact := h marked _ hreachable "alice" 200 (.whole _ _ _) "a" (by decide +kernel)
  have hbefore : (Times.whole marked "alice" (marked.ingest "alice" newUpload olderVolume).2).entry
      (marked.ingest "alice" newUpload olderVolume).2 "a" = some ([2],100) := by
    decide +kernel
  have hafter : (Times.whole marked "alice" (marked.ingest "alice" newUpload olderVolume).2).entry
      (marked.purge "alice" 200 (marked.ingest "alice" newUpload olderVolume).2).2 "a" =
        some ([1],50) := by
    decide +kernel
  rw [hbefore,hafter,Option.filter_some_neg (by decide +kernel)] at hexact
  cases hexact

/-! ### The default of the service -/

section Default

variable (store : DownloadStore) (p : String)

/-- `purge_expired`, at a reading of the clock; a moment is given by its timestamp. -/
def purgeExpired (olderThan : Option ℚ) (now : ℚ) (disk : Disk) :
    Except StoreError (List String) × Disk :=
  store.purge p (olderThan.getD now) disk

/-- The 90 days of the documented default. -/
def retentionPeriod : ℚ := 90*24*60*60

/-- Modified within the retention period before a reading of the clock. -/
def Recent (now time : ℚ) : Prop := now-retentionPeriod ≤ time ∧ time ≤ now

/-- A purge that is not given a moment takes no recent file away. -/
def KeepsRecent (now : ℚ) (disk : Disk) (t : store.Times p disk) : Prop :=
  ∀ name, (validateName name).isSome →
    (∀ file, (store.canonicalLayer p disk).bind (fileAt name) = some file →
      Recent now (t.canonical name) →
        (store.canonicalLayer p (store.purgeExpired p none now disk).2).bind (fileAt name) =
          some file) ∧
    ∀ file, (store.priorLayer p disk).bind (fileAt name) = some file → Recent now (t.prior name) →
      (store.priorLayer p (store.purgeExpired p none now disk).2).bind (fileAt name) = some file

/-- The recent files are from the very second of the clock reading, or behind a file that goes. -/
def NothingRecent (now : ℚ) (disk : Disk) (t : store.Times p disk) : Prop :=
  ∀ name, (validateName name).isSome →
    (∀ file, (store.canonicalLayer p disk).bind (fileAt name) = some file →
      Recent now (t.canonical name) → now ≤ (file.2 : ℚ)) ∧
    ∀ file, (store.priorLayer p disk).bind (fileAt name) = some file → Recent now (t.prior name) →
      store.goesFirst p now disk name = true ∨ now ≤ (file.2 : ℚ)

end Default

theorem filter_keeps_iff {α : Type} {o : Option α} {x : α} {kept : α → Bool} (h : o = some x) :
    o.filter kept = some x ↔ kept x = true := by
  rw [h,Option.filter_some_eq_some]

theorem keeps_recent_iff (store : DownloadStore) (p : String) (now : ℚ) (disk : Disk)
    (t : store.Times p disk) :
    store.KeepsRecent p now disk t ↔ store.NothingRecent p now disk t := by
  refine forall_congr' fun name => forall_congr' fun hname => and_congr ?_ ?_
  · refine forall_congr' fun file => forall_congr' fun hfile => forall_congr' fun _ => ?_
    have hafter := @canonical_after store p disk name now hname
    rw [purgeExpired,Option.getD_none,hafter,filter_keeps_iff hfile,decide_eq_true_eq]
  · refine forall_congr' fun file => forall_congr' fun hfile => forall_congr' fun _ => ?_
    rw [purgeExpired,Option.getD_none]
    cases hgone : store.goesFirst p now disk name with
    | true => simp [prior_after_gone hname hgone,hfile]
    | false =>
      rw [prior_after hname hgone,filter_keeps_iff hfile]
      simp

def recentUpload : Upload := { name := "a", reads := [.ok [2]], token := 7, now := 1000 }

/-- A file that is a day old is gone. -/
theorem recent_file_gone : ¬∀ (store : DownloadStore) (disk : Disk), store.Reachable disk →
    ∀ (p : String) (now : ℚ) (t : store.Times p disk), store.KeepsRecent p now disk t := by
  intro h
  have hreachable : marked.Reachable (marked.ingest "alice" recentUpload olderVolume).2 :=
    ⟨olderVolume,[.request "alice" (.ingest recentUpload)],inherited_olderVolume,rfl⟩
  have hfile : (marked.canonicalLayer "alice"
      (marked.ingest "alice" recentUpload olderVolume).2).bind (fileAt "a") = some ([2],1000) := by
    decide +kernel
  have hkept := (h marked _ hreachable "alice" (1000+24*60*60) (.whole _ _ _) "a"
    (by decide +kernel)).1 _ hfile ?_
  · have hgone : (marked.canonicalLayer "alice" (marked.purgeExpired "alice" none (1000+24*60*60)
        (marked.ingest "alice" recentUpload olderVolume).2).2).bind (fileAt "a") = none := by
      decide +kernel
    rw [hgone] at hkept
    cases hkept
  · show Recent _ (((Option.elim _ _ _ : ℤ)) : ℚ)
    rw [hfile]
    unfold Recent
    decide +kernel

end DownloadStore
end Storage
end CloudBrowser
