import CloudBrowser.DownloadAreas

/-! What a principal sees of the store: the files of the two directories, the quarantine, and the
index files. -/
namespace CloudBrowser
namespace Storage

open CloudFiles
open Directories

/-- A regular file with its time. -/
def fileAt (name : String) (f : Folder Node) : Option (Bytes × ℤ) :=
  match f.find name with
  | some (.file content mtime) => some (content,mtime)
  | _ => none

/-- The names under which a directory has a file that can be asked for, in order. -/
def fileNames (f : Folder Node) : List String :=
  (sortedNames f).filter fun name => (validateName name).isSome && (fileAt name f).isSome

/-- Under the names that can be asked for there is the same. -/
def FindsAlike (a a' : Option (Folder Node)) : Prop :=
  ∀ name, (validateName name).isSome → (a'.bind fun f => f.find name) = a.bind fun f => f.find name

/-- Under the names that can be asked for there are the same files. -/
def LooksAlike (a a' : Option (Folder Node)) : Prop :=
  ∀ name, (validateName name).isSome → a'.bind (fileAt name) = a.bind (fileAt name)

theorem bind_fileAt (a : Option (Folder Node)) (name : String) :
    a.bind (fileAt name) = (a.bind fun f => f.find name).bind fun n =>
      match n with
      | .file content mtime => some (content,mtime)
      | _ => none := by
  cases a with
  | none => rfl
  | some f =>
    simp only [Option.bind_some,fileAt]
    rcases f.find name with _ | ⟨content,mtime⟩ | _ | target <;> rfl

theorem fileAt_congr {name : String} {f f' : Folder Node} (h : f'.find name = f.find name) :
    fileAt name f' = fileAt name f := by
  rw [fileAt,fileAt,h]

namespace FindsAlike

variable {a a' a'' : Option (Folder Node)} {f f' : Folder Node} {name : String} {inode : ℕ}
  {n : Node}

theorem refl (a : Option (Folder Node)) : FindsAlike a a := fun _ _ => rfl

theorem trans (h : FindsAlike a a') (h' : FindsAlike a' a'') : FindsAlike a a'' :=
  fun name hname => (h' name hname).trans (h name hname)

theorem clear : FindsAlike none (some f.clear) := fun _ _ => rfl

theorem looks (h : FindsAlike a a') : LooksAlike a a' := by
  intro name hname
  rw [bind_fileAt,bind_fileAt,h name hname]

theorem hidden_ne (h : Hidden name) {other : String} (hother : (validateName other).isSome) :
    other ≠ name := by
  rintro rfl
  rw [h.1] at hother
  cases hother

theorem create_hidden (h : Hidden name) : FindsAlike (some f) (some (f.create name n)) :=
  fun _ hother => Directory.find_create_of_ne f.numbered (hidden_ne h hother)

theorem unlink_hidden (h : Hidden name) : FindsAlike (some f) (some (f.unlink name)) :=
  fun _ hother => Directory.find_unlink_of_ne (hidden_ne h hother)

theorem write_hidden (h : ∀ name, f.lookup name = some inode → Hidden name) :
    FindsAlike (some f) (some (f.write inode n)) := by
  intro other hother
  apply Directory.find_write_of_ne
  intro hlookup
  exact hidden_ne (h other hlookup) hother rfl

end FindsAlike

namespace LooksAlike

variable {a a' a'' : Option (Folder Node)} {f : Folder Node} {name : String}

theorem refl (a : Option (Folder Node)) : LooksAlike a a := fun _ _ => rfl

theorem trans (h : LooksAlike a a') (h' : LooksAlike a' a'') : LooksAlike a a'' :=
  fun name hname => (h' name hname).trans (h name hname)

theorem clear : LooksAlike none (some f.clear) := fun _ _ => rfl

theorem create_directory (h : f.find name = none) :
    LooksAlike (some f) (some (f.create name .directory)) := by
  intro other _
  by_cases hname : other = name
  · rw [hname,Option.bind_some,Option.bind_some,fileAt,fileAt,h,Folder.toDirectory_create,
      Directory.find_create_self]
  · exact fileAt_congr (Directory.find_create_of_ne f.numbered hname)

end LooksAlike

/-! ### The names of the files -/

theorem mem_names_of_fileAt {name : String} {f : Folder Node} (h : (fileAt name f).isSome) :
    name ∈ f.names := by
  unfold fileAt at h
  cases hfind : f.find name with
  | none => simp [hfind] at h
  | some n =>
    obtain ⟨inode,hlookup,-⟩ := Directory.find_eq_some.mp hfind
    exact List.mem_map.mpr ⟨_,Directory.mem_of_lookup hlookup,rfl⟩

theorem mem_fileNames {name : String} {f : Folder Node} :
    name ∈ fileNames f ↔ (validateName name).isSome ∧ (fileAt name f).isSome := by
  simp only [fileNames,sortedNames,List.mem_filter,List.mem_insertionSort,Bool.and_eq_true]
  constructor
  · exact fun h => h.2
  · exact fun h => ⟨mem_names_of_fileAt h.2,h⟩

theorem nodup_fileNames (f : Folder Node) : (fileNames f).Nodup := by
  have hnames : f.names.Nodup := f.entries.distinct
  exact ((List.perm_insertionSort _ _).nodup_iff.mpr hnames).filter _

theorem pairwise_fileNames (f : Folder Node) : (fileNames f).Pairwise (·≤·) :=
  (List.pairwise_insertionSort _ _).filter _

/-- The names of the files are told by what is found under them. -/
theorem fileNames_eq {f : Folder Node} {names : List String} (hnodup : names.Nodup)
    (hsorted : names.Pairwise (·≤·))
    (h : ∀ name, name ∈ names ↔ (validateName name).isSome ∧ (fileAt name f).isSome) :
    fileNames f = names := by
  have hperm : (fileNames f).Perm names :=
    (List.perm_ext_iff_of_nodup (nodup_fileNames f) hnodup).mpr fun name =>
      mem_fileNames.trans (h name).symm
  exact hperm.eq_of_pairwise' (pairwise_fileNames f) hsorted

namespace DownloadStore

variable {store : DownloadStore} {p : String} {disk disk' disk'' : Disk} {f : Folder Node}
  {result : List DownloadEntry} {name : String}

/-- What the listing says of a file, by the hashes of the index. -/
def entryOf (p : String) (hash : String → Option String) (f : Folder Node) (name : String) :
    DownloadEntry :=
  let file := (fileAt name f).getD ([],0)
  { name := name, size := file.1.length, mtime := file.2, owner := p, sha256 := hash name }

theorem addEntry_file (h : name ∈ fileNames f) : store.addEntry p disk f result name =
    if store.maxEntries ≤ result.length ∨ name ∈ result.map DownloadEntry.name then result
    else result ++ [entryOf p (fun name => store.readIndexHash p name disk) f name] := by
  obtain ⟨hvalid,hfile⟩ := mem_fileNames.mp h
  have hname : validateName name ≠ none := Option.isSome_iff_ne_none.mp hvalid
  simp only [addEntry,hname,or_false]
  by_cases hfull : store.maxEntries ≤ result.length ∨ name ∈ result.map DownloadEntry.name
  · rw [if_pos hfull,if_pos hfull]
  · rw [if_neg hfull,if_neg hfull]
    unfold entryOf
    unfold fileAt at hfile ⊢
    rcases hfind : f.find name with _ | ⟨content,mtime⟩ | _ | target <;> simp_all

theorem addEntry_other (h : name ∉ fileNames f) : store.addEntry p disk f result name = result := by
  rw [mem_fileNames,not_and_or] at h
  unfold addEntry
  split_ifs with hskip
  · rfl
  · simp only [not_or] at hskip
    have hvalid : (validateName name).isSome := Option.isSome_iff_ne_none.mpr hskip.2.2
    have hfile : ¬(fileAt name f).isSome := h.resolve_left (not_not_intro hvalid)
    unfold fileAt at hfile
    split
    · next heq =>
      rw [heq] at hfile
      exact absurd rfl hfile
    · rfl

/-- The names that are no files of the principal add nothing. -/
theorem foldl_addEntry (f : Folder Node) (disk : Disk) (result : List DownloadEntry) :
    (sortedNames f).foldl (store.addEntry p disk f) result =
      (fileNames f).foldl (store.addEntry p disk f) result := by
  rw [fileNames,List.foldl_filter]
  apply List.foldl_ext
  intro result name hname
  split_ifs with hfile
  · rfl
  · apply addEntry_other
    rw [mem_fileNames]
    simpa using hfile

/-- The files of one directory are listed in the order of their names, up to the limit. -/
theorem foldl_addEntry_take {names : List String} (hfiles : ∀ name ∈ names, name ∈ fileNames f)
    (hnodup : names.Nodup) (hnew : ∀ name ∈ names, name ∉ result.map DownloadEntry.name)
    (hlength : result.length ≤ store.maxEntries) :
    names.foldl (store.addEntry p disk f) result = (result ++
      names.map (entryOf p (fun name => store.readIndexHash p name disk) f)).take
        store.maxEntries := by
  induction names generalizing result with
  | nil =>
    rw [List.foldl_nil,List.map_nil,List.append_nil,List.take_of_length_le hlength]
  | cons name names ih =>
    obtain ⟨hfirst,hrest⟩ := List.nodup_cons.mp hnodup
    rw [List.foldl_cons,addEntry_file (hfiles name List.mem_cons_self)]
    by_cases hfull : store.maxEntries ≤ result.length
    · have hskip := @ih result (fun n hn => hfiles n (List.mem_cons_of_mem _ hn)) hrest
        (fun n hn => hnew n (List.mem_cons_of_mem _ hn)) hlength
      rw [if_pos (.inl hfull),hskip,List.take_append_of_le_length hfull,
        List.take_append_of_le_length hfull]
    · have hadd : ¬(store.maxEntries ≤ result.length ∨ name ∈ result.map DownloadEntry.name) :=
        not_or.mpr ⟨hfull,hnew name List.mem_cons_self⟩
      rw [if_neg hadd,ih (fun n hn => hfiles n (List.mem_cons_of_mem _ hn)) hrest,List.map_cons,
        List.append_assoc,List.singleton_append]
      · intro n hn
        have hne : n ≠ name := by
          rintro rfl
          exact hfirst hn
        rw [List.map_append,List.mem_append,not_or]
        exact ⟨hnew n (List.mem_cons_of_mem _ hn),by simpa [entryOf] using hne⟩
      · rw [List.length_append,List.length_singleton]
        omega

theorem foldl_addEntry_full (h : store.maxEntries ≤ result.length) (names : List String) :
    names.foldl (store.addEntry p disk f) result = result := by
  induction names with
  | nil => rfl
  | cons name names ih =>
    rw [List.foldl_cons,addEntry,if_pos (Or.inl h)]
    exact ih

/-- Entries are only added. -/
theorem prefix_foldl_addEntry (names : List String) :
    result <+: names.foldl (store.addEntry p disk f) result := by
  induction names generalizing result with
  | nil => exact List.prefix_rfl
  | cons name names ih =>
    rw [List.foldl_cons]
    refine List.IsPrefix.trans ?_ ih
    unfold addEntry
    split_ifs
    · exact List.prefix_rfl
    · split
      · exact List.prefix_append _ _
      · exact List.prefix_rfl

theorem prefix_foldl_addQuarantined (names : List String) :
    result <+: names.foldl (store.addQuarantined p f) result := by
  induction names generalizing result with
  | nil => exact List.prefix_rfl
  | cons name names ih =>
    rw [List.foldl_cons]
    refine List.IsPrefix.trans ?_ ih
    unfold addQuarantined
    split_ifs
    · exact List.prefix_rfl
    · split
      · exact List.prefix_append _ _
      · exact List.prefix_rfl

theorem foldl_addQuarantined_full (h : store.maxEntries ≤ result.length) (names : List String) :
    names.foldl (store.addQuarantined p f) result = result := by
  induction names with
  | nil => rfl
  | cons name names ih =>
    rw [List.foldl_cons,addQuarantined,if_pos h]
    exact ih

/-! ### The same sight -/

/-- Where the quarantines of a principal are. -/
def quarantines (store : DownloadStore) (p : String) : List (String × String) :=
  [(store.ownerKey p,quarantineDir),(p,priorQuarantineDir)]

/-- What has changed is nothing that the principal sees. -/
structure SameSight (store : DownloadStore) (p : String) (disk disk' : Disk) : Prop where
  safe : store.Safe p disk' ↔ store.Safe p disk
  entries : FindsAlike (disk.subarea (store.ownerKey p) entriesDir)
    (disk'.subarea (store.ownerKey p) entriesDir)
  prior : LooksAlike (disk.area p) (disk'.area p)
  index : ∀ top ∈ store.areas p, (disk'.area top).bind (·.find indexFile) =
    (disk.area top).bind (·.find indexFile)
  quarantine : ∀ q ∈ store.quarantines p, disk'.child q.1 q.2 = disk.child q.1 q.2 ∧
    disk'.subarea q.1 q.2 = disk.subarea q.1 q.2

theorem SameSight.refl (disk : Disk) : store.SameSight p disk disk :=
  ⟨Iff.rfl,.refl _,.refl _,fun _ _ => rfl,fun _ _ => ⟨rfl,rfl⟩⟩

theorem SameSight.trans (h : store.SameSight p disk disk') (h' : store.SameSight p disk' disk'') :
    store.SameSight p disk disk'' where
  safe := h'.safe.trans h.safe
  entries := h.entries.trans h'.entries
  prior := h.prior.trans h'.prior
  index top htop := (h'.index top htop).trans (h.index top htop)
  quarantine q hq := ⟨(h'.quarantine q hq).1.trans (h.quarantine q hq).1,
    (h'.quarantine q hq).2.trans (h.quarantine q hq).2⟩

/-- What can be read comes from the files. -/
theorem regular_eq (limit : ℕ) (name : String) (f : Folder Node) : regular limit name f =
    (fileAt name f).bind fun file => if file.1.length ≤ limit then some file.1 else none := by
  unfold regular fileAt
  rcases f.find name with _ | ⟨content,mtime⟩ | _ | target <;> rfl

theorem bind_regular {limit : ℕ} {a a' : Option (Folder Node)}
    (h : a'.bind (fileAt name) = a.bind (fileAt name)) :
    a'.bind (regular limit name) = a.bind (regular limit name) := by
  have heq : ∀ a : Option (Folder Node), a.bind (regular limit name) =
      (a.bind (fileAt name)).bind fun file =>
        if file.1.length ≤ limit then some file.1 else none := by
    intro a
    cases a with
    | none => rfl
    | some f => exact regular_eq limit name f
  rw [heq,heq,h]

theorem SameSight.read (h : store.SameSight p disk disk') (name : String) :
    store.read p name disk' = store.read p name disk := by
  rw [read_eq,read_eq]
  cases hname : validateName name with
  | none => rfl
  | some safe =>
    have hvalid : (validateName safe).isSome := by
      rw [validateName_idem hname]
      rfl
    have hfound : store.found p disk' safe = store.found p disk safe := by
      rw [found,found,bind_regular (h.entries.looks safe hvalid),bind_regular (h.prior safe hvalid)]
    simp only [h.safe,hfound]

theorem indexHash_of_find {node : Option Node} (h : f.find indexFile = node) (name : String) :
    indexHash name f = node.bind fun n =>
      indexHash name ((Folder.empty .directory).create indexFile n) := by
  unfold indexHash
  rw [h]
  cases node with
  | none => rfl
  | some n =>
    rw [Option.bind_some,Folder.toDirectory_create,Directory.find_create_self]

theorem bind_indexHash (a : Option (Folder Node)) (name : String) : a.bind (indexHash name) =
    (a.bind (·.find indexFile)).bind fun n =>
      indexHash name ((Folder.empty .directory).create indexFile n) := by
  cases a with
  | none => rfl
  | some f => exact indexHash_of_find rfl name

/-- The hashes come from the index files. -/
theorem readIndexHash_congr
    (h : ∀ top ∈ store.areas p, (disk'.area top).bind (·.find indexFile) =
      (disk.area top).bind (·.find indexFile)) (name : String) :
    store.readIndexHash p name disk' = store.readIndexHash p name disk := by
  unfold readIndexHash
  simp only [bind_indexHash]
  rw [h _ key_mem,h _ prior_mem]

/-- The files of a directory that may be missing. -/
def filesOf (a : Option (Folder Node)) : List String := a.elim [] fileNames

theorem filesOf_congr {a a' : Option (Folder Node)} (h : LooksAlike a a') :
    filesOf a' = filesOf a := by
  cases a' with
  | none =>
    cases a with
    | none => rfl
    | some f =>
      apply (fileNames_eq List.nodup_nil List.Pairwise.nil ?_).symm
      intro name
      simp only [List.not_mem_nil,false_iff,not_and]
      intro hname
      have hfile := h name hname
      rw [Option.bind_none,Option.bind_some] at hfile
      rw [← hfile]
      exact Bool.false_ne_true
  | some f' =>
    cases a with
    | none =>
      apply fileNames_eq List.nodup_nil List.Pairwise.nil
      intro name
      simp only [List.not_mem_nil,false_iff,not_and]
      intro hname
      have hfile := h name hname
      rw [Option.bind_none,Option.bind_some] at hfile
      rw [hfile]
      exact Bool.false_ne_true
    | some f =>
      apply fileNames_eq (nodup_fileNames f) (pairwise_fileNames f)
      intro name
      rw [mem_fileNames]
      refine and_congr_right fun hname => ?_
      have hfile := h name hname
      rw [Option.bind_some,Option.bind_some] at hfile
      rw [hfile]

/-- The entries of one directory, after those that are listed already. -/
def addFiles (store : DownloadStore) (p : String) (disk : Disk) (result : List DownloadEntry)
    (a : Option (Folder Node)) : List DownloadEntry :=
  a.elim result fun f => (sortedNames f).foldl (store.addEntry p disk f) result

theorem addFiles_first (disk : Disk) (f : Folder Node) : store.addFiles p disk [] (some f) =
    ((fileNames f).map (entryOf p (fun name => store.readIndexHash p name disk) f)).take
      store.maxEntries := by
  have htake := @foldl_addEntry_take store p disk f [] (fileNames f) (fun _ h => h)
    (nodup_fileNames f) (by simp) (Nat.zero_le _)
  rw [addFiles,Option.elim_some,foldl_addEntry,htake,List.nil_append]

theorem addFiles_congr {a a' : Option (Folder Node)} (h : LooksAlike a a')
    (hhash : ∀ name, store.readIndexHash p name disk' = store.readIndexHash p name disk) :
    store.addFiles p disk' result a' = store.addFiles p disk result a := by
  have hfiles := filesOf_congr h
  cases a' with
  | none =>
    cases a with
    | none => rfl
    | some f =>
      have hnone : fileNames f = [] := hfiles.symm
      rw [addFiles,addFiles,Option.elim_none,Option.elim_some,foldl_addEntry,hnone,List.foldl_nil]
  | some f' =>
    cases a with
    | none =>
      have hnone : fileNames f' = [] := hfiles
      rw [addFiles,addFiles,Option.elim_none,Option.elim_some,foldl_addEntry,hnone,List.foldl_nil]
    | some f =>
      have hsame : fileNames f' = fileNames f := hfiles
      rw [addFiles,addFiles,Option.elim_some,Option.elim_some,foldl_addEntry,foldl_addEntry,hsame]
      apply List.foldl_ext
      intro result name hname
      have hvalid := (mem_fileNames.mp hname).1
      have hfile := h name hvalid
      rw [Option.bind_some,Option.bind_some] at hfile
      rw [addEntry_file hname,addEntry_file (hsame ▸ hname)]
      simp only [entryOf,hfile,hhash]

/-- The quarantined entries of one directory, after those that are listed already. -/
def addQuarantine (store : DownloadStore) (p : String) (result : List DownloadEntry)
    (a : Option (Folder Node)) : List DownloadEntry :=
  a.elim result fun f => (sortedNames f).foldl (store.addQuarantined p f) result

/-- The files, in the order in which they are found. -/
def listedFiles (store : DownloadStore) (p : String) (disk : Disk) : List DownloadEntry :=
  store.addFiles p disk (store.addFiles p disk [] (disk.subarea (store.ownerKey p) entriesDir))
    (disk.area p)

def listed (store : DownloadStore) (p : String) (disk : Disk) : List DownloadEntry :=
  store.addQuarantine p (store.addQuarantine p (store.listedFiles p disk)
    (disk.subarea (store.ownerKey p) quarantineDir)) (disk.subarea p priorQuarantineDir)

def QuarantineSafe (store : DownloadStore) (p : String) (disk : Disk) : Prop :=
  [disk.child (store.ownerKey p) quarantineDir,disk.child p priorQuarantineDir].all isSafe = true

instance (disk : Disk) : Decidable (store.QuarantineSafe p disk) :=
  inferInstanceAs (Decidable (_ = true))

theorem listEntries_eq (disk : Disk) : store.listEntries p disk =
    if isPrincipal p = false then .error notOwner
    else if store.Safe p disk ∧ store.QuarantineSafe p disk then
      .ok ((store.listed p disk).insertionSort fun a b => b.mtime ≤ a.mtime)
    else .error unsafeStorage := by
  unfold listEntries
  rw [storageDirs_eq]
  by_cases hp : isPrincipal p = false
  · rw [if_pos hp,if_pos hp]
    rfl
  · rw [if_neg hp,if_neg hp]
    by_cases hsafe : store.Safe p disk
    · rw [if_pos hsafe]
      by_cases hquarantine : store.QuarantineSafe p disk
      · rw [if_pos ⟨hsafe,hquarantine⟩]
        unfold QuarantineSafe at hquarantine
        simp only [bind,Except.bind,pure,Except.pure]
        rw [if_pos hquarantine]
        unfold listed listedFiles addFiles addQuarantine
        cases disk.subarea (store.ownerKey p) entriesDir <;> cases disk.area p <;>
          cases disk.subarea (store.ownerKey p) quarantineDir <;>
          cases disk.subarea p priorQuarantineDir <;> rfl
      · rw [if_neg fun h => hquarantine h.2]
        unfold QuarantineSafe at hquarantine
        simp only [bind,Except.bind]
        rw [if_neg hquarantine]
    · rw [if_neg hsafe,if_neg fun h => hsafe h.1]
      rfl

theorem listEntries_safe (hp : isPrincipal p = true) (hsafe : store.Safe p disk)
    (hquarantine : store.QuarantineSafe p disk) : store.listEntries p disk =
      .ok ((store.listed p disk).insertionSort fun a b => b.mtime ≤ a.mtime) := by
  rw [listEntries_eq,if_neg (by simp [hp]),if_pos ⟨hsafe,hquarantine⟩]

theorem SameSight.listed (h : store.SameSight p disk disk') :
    store.listed p disk' = store.listed p disk := by
  have hhash := readIndexHash_congr h.index
  have hsub := (h.quarantine _ List.mem_cons_self).2
  have hsub' := (h.quarantine _ (List.mem_cons_of_mem _ List.mem_cons_self)).2
  unfold DownloadStore.listed listedFiles
  rw [addFiles_congr h.entries.looks hhash,addFiles_congr h.prior hhash]
  dsimp only at hsub hsub'
  rw [hsub,hsub']

theorem SameSight.quarantineSafe (h : store.SameSight p disk disk') :
    store.QuarantineSafe p disk' ↔ store.QuarantineSafe p disk := by
  have hchild := (h.quarantine _ List.mem_cons_self).1
  have hchild' := (h.quarantine _ (List.mem_cons_of_mem _ List.mem_cons_self)).1
  dsimp only at hchild hchild'
  rw [QuarantineSafe,QuarantineSafe,hchild,hchild']

theorem SameSight.listEntries (h : store.SameSight p disk disk') :
    store.listEntries p disk' = store.listEntries p disk := by
  rw [listEntries_eq,listEntries_eq]
  simp only [h.safe,h.quarantineSafe,h.listed]

/-! ### What the operations on the disk leave -/

theorem index_mkdirTop {top : String} (top' : String) :
    ((disk.mkdirTop top).area top').bind (·.find indexFile) =
      (disk.area top').bind (·.find indexFile) :=
  Disk.rel_mkdirTop (R:=fun a a' => a'.bind (·.find indexFile) = a.bind (·.find indexFile))
    (fun _ => rfl) fun _ => rfl

theorem sight_mkdirTop : store.SameSight p disk (disk.mkdirTop (store.ownerKey p)) where
  safe := by simp [Safe]
  entries := by
    rw [Disk.subarea_mkdirTop]
    exact .refl _
  prior := Disk.rel_mkdirTop .refl fun _ => .clear
  index top _ := index_mkdirTop top
  quarantine q _ := ⟨Disk.child_mkdirTop,Disk.subarea_mkdirTop⟩

theorem entries_ne {q : String × String} (hq : q ∈ store.quarantines p) :
    q ≠ (store.ownerKey p,entriesDir) := by
  have hne : quarantineDir ≠ entriesDir := by decide
  have hne' : priorQuarantineDir ≠ entriesDir := by decide
  intro h
  have hname : q.2 = entriesDir := congrArg Prod.snd h
  simp only [quarantines,List.mem_cons,List.not_mem_nil,or_false] at hq
  rcases hq with rfl | rfl
  · exact hne hname
  · exact hne' hname

theorem finds_mkdirSub {top name : String} (h : disk.root.find top = some .directory)
    (top' name' : String) :
    FindsAlike (disk.subarea top' name') ((disk.mkdirSub top name).subarea top' name') :=
  Disk.rel_subarea_mkdirSub .refl (fun _ => .clear) h

theorem looks_mkdirSub {top name : String} (h : disk.root.find top = some .directory)
    (top' : String) : LooksAlike (disk.area top') ((disk.mkdirSub top name).area top') :=
  Disk.rel_area_mkdirSub .refl (fun _ => .create_directory) h

theorem index_mkdirSub {top name : String} (h : disk.root.find top = some .directory)
    (hne : indexFile ≠ name) (top' : String) :
    ((disk.mkdirSub top name).area top').bind (·.find indexFile) =
      (disk.area top').bind (·.find indexFile) :=
  Disk.rel_area_mkdirSub (R:=fun a a' => a'.bind (·.find indexFile) = a.bind (·.find indexFile))
    (fun _ => rfl) (fun f _ => Directory.find_create_of_ne f.numbered hne) h

theorem sight_mkdirSub (hkey : disk.root.find (store.ownerKey p) = some .directory) :
    store.SameSight p disk (disk.mkdirSub (store.ownerKey p) entriesDir) where
  safe := by simp [Safe,Disk.isSafe_child_mkdirSub hkey]
  entries := finds_mkdirSub hkey _ _
  prior := looks_mkdirSub hkey _
  index top _ := index_mkdirSub hkey (by decide) top
  quarantine q hq := by
    have hne : ¬((q.1,q.2) = (store.ownerKey p,entriesDir) ∧
        disk.child (store.ownerKey p) entriesDir = none) := fun h => entries_ne hq h.1
    constructor
    · rw [Disk.child_mkdirSub hkey,if_neg hne]
    · rw [Disk.subarea_mkdirSub hkey,if_neg hne]

/-- Another state of the directory with this release's files. -/
theorem sight_setSub {d d' : Folder Node}
    (hd : disk.subarea (store.ownerKey p) entriesDir = some d) (h : FindsAlike (some d) (some d')) :
    store.SameSight p disk (disk.setSub (store.ownerKey p) entriesDir d') where
  safe := Iff.rfl
  entries := by
    rw [Disk.subarea_setSub_self (by simp [hd]),hd]
    exact h
  prior := .refl _
  index _ _ := rfl
  quarantine _ hq := ⟨rfl,Disk.subarea_setSub_of_ne (entries_ne hq)⟩

/-! ### The steps of a call before it publishes -/

theorem sight_openTemp {final : String} (hphase : (Phase.named final).Sound store p disk)
    (token : UInt64) (fault : Bool) (now : ℤ) :
    store.SameSight p disk (store.openTemp p final token fault now disk).2 := by
  obtain ⟨raw,safe,f₀,hsafe,hnext⟩ := hphase
  unfold openTemp
  dsimp only
  cases hd : disk.subarea (store.ownerKey p) entriesDir with
  | none => exact .refl _
  | some d =>
    dsimp only
    split_ifs
    · exact .refl _
    · exact sight_setSub hd (.create_hidden (hidden_temp hsafe hnext))

theorem sight_copy {f : Staged} (hphase : store.Held p disk f) (r : Except StoreError Bytes)
    (now : ℤ) : store.SameSight p disk (store.copy p f r now disk).2 := by
  obtain ⟨d,hd,howns⟩ := hphase.owns
  have hsub : disk.sub (store.ownerKey p,entriesDir) = d := (Disk.subarea_eq_some.mp hd).2
  unfold copy
  dsimp only
  split
  · exact .refl _
  · exact .refl _
  · split_ifs
    · exact .refl _
    · rw [hsub]
      apply sight_setSub hd
      apply FindsAlike.write_hidden
      intro name hname
      rw [howns.only name hname]
      exact hphase.hidden

theorem sight_unlinkTemp {temp : String} (h : Hidden temp) :
    store.SameSight p disk (store.unlinkTemp p temp disk) := by
  unfold unlinkTemp
  cases hd : disk.subarea (store.ownerKey p) entriesDir with
  | none => exact .refl _
  | some d => exact sight_setSub hd (.unlink_hidden h)

end DownloadStore
end Storage
end CloudBrowser
