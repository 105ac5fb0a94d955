import CloudBrowser.AtomicIngest
import CloudBrowser.ListedDownloads
import CloudBrowser.Retention
import CloudBrowser.Runs

/-! Whether the digests in a listing are those of the files: the index of a principal over a history
of uploads, quarantines, purges and erasures. -/
namespace CloudBrowser
namespace Storage

open CloudFiles
open Directories

/-! ### The digests of an index -/

/-- The digest that the members of an index have for a name. -/
def digestIn (name : String) (fields : List (String × Json)) : Option String :=
  match (fields.lookup name).getD (.obj []) with
  | .obj entry =>
    match entry.lookup "sha256" with
    | some (.str value) => if value.length = 64 then some value else none
    | _ => none
  | _ => none

theorem indexHash_eq (name : String) (f : Folder Node) :
    indexHash name f = digestIn name (DownloadStore.indexFields f) := by
  have hempty : digestIn name [] = none := rfl
  simp only [indexHash,DownloadStore.indexFields]
  cases f.find indexFile with
  | none => rfl
  | some n =>
    simp only [Option.bind_eq_bind,Option.bind_some]
    cases n.text with
    | none => rfl
    | some bytes =>
      simp only [Option.bind_some]
      cases Text.decodeUtf8 bytes with
      | none => rfl
      | some text =>
        simp only [Option.bind_some]
        rcases Json.loads text with _ | _ | _ | _ | _ | _ | _ | fields <;> rfl

/-- The members of an object in the order in which they are written. -/
def written (fields : List (String × Json)) : List (String × Json) :=
  (Json.sortFields fields).insertionSort fun f g => f.1 ≤ g.1

theorem plain_written {fields : List (String × Json)} (h : Json.Plain (.obj fields)) :
    Json.Plain (.obj (written fields)) :=
  Json.plain_sortKeys h

theorem digestIn_written {fields : List (String × Json)} (h : Json.Plain (.obj fields))
    (name : String) : digestIn name (written fields) = digestIn name fields := by
  obtain ⟨hfields,hdistinct⟩ := Json.plain_members h
  rw [digestIn,digestIn,written,Json.lookup_sortFields hdistinct]
  cases hv : fields.lookup name with
  | none => rfl
  | some v =>
    have hplain : Json.Plain v := hfields _ (Json.mem_of_lookup hv)
    rw [Option.map_some,Option.getD_some,Option.getD_some]
    cases v with
    | obj entry =>
      simp only [Json.sortKeys,Json.lookup_sortFields (Json.plain_members hplain).2]
      rcases entry.lookup "sha256" with _ | _ | _ | _ | _ | _ | _ | _ <;> rfl
    | _ => rfl

namespace DownloadStore

variable {store : DownloadStore}

/-- A new index is read as it was written. -/
theorem indexFields_written {data : List (String × Json)} (h : Json.Plain (.obj data))
    (f : Folder Node) (now : ℤ) :
    indexFields (f.create indexFile (.file (Text.encodeUtf8 (String.ofList
      (Json.dump store.floatRepr (.obj data)))) now)) = written data := by
  have hfind : (f.create indexFile (.file (Text.encodeUtf8 (String.ofList
      (Json.dump store.floatRepr (.obj data)))) now)).find indexFile = some (.file
        (Text.encodeUtf8 (String.ofList (Json.dump store.floatRepr (.obj data)))) now) :=
    Directory.find_create_self
  simp only [indexFields,hfind,Option.bind_eq_bind,Option.bind_some,Node.text,
    Text.decodeUtf8_encodeUtf8,Json.loads_dump h]
  rfl

/-- The members of the index in a directory, where there is one. -/
def fieldsAt (disk : Disk) (top : String) : List (String × Json) :=
  (disk.area top).elim [] indexFields

theorem bind_indexHash_eq (disk : Disk) (top name : String) :
    (disk.area top).bind (indexHash name) = digestIn name (fieldsAt disk top) := by
  unfold fieldsAt
  cases disk.area top with
  | none => rfl
  | some f => exact indexHash_eq name f

theorem fieldsAt_congr {disk disk' : Disk} {top : String}
    (h : (disk'.area top).bind (·.find indexFile) = (disk.area top).bind (·.find indexFile)) :
    fieldsAt disk' top = fieldsAt disk top := by
  have hfields : ∀ a : Option (Folder Node), a.elim [] indexFields =
      indexFields ((a.bind (·.find indexFile)).elim (Folder.empty .directory)
        fun n => (Folder.empty .directory).create indexFile n) := by
    intro a
    cases a with
    | none => rfl
    | some f =>
      simp only [Option.elim_some,Option.bind_some,indexFields]
      cases hfind : f.find indexFile with
      | none => rfl
      | some n => simp only [Option.elim_some,Folder.toDirectory_create,Directory.find_create_self]
  rw [fieldsAt,fieldsAt,hfields,hfields,h]

theorem readIndexHash_eq (store : DownloadStore) (p name : String) (disk : Disk) :
    store.readIndexHash p name disk =
      (digestIn name (fieldsAt disk (store.ownerKey p))).or (digestIn name (fieldsAt disk p)) := by
  rw [← bind_indexHash_eq,← bind_indexHash_eq,readIndexHash,Option.or_eq_orElse]
  rfl

/-! ### True digests -/

/-- A digest, if there is one, is that of this content, and the content can be read under the
name. -/
def Vouches (store : DownloadStore) (name : String) (content : Bytes) (digest : Option String) :
    Prop :=
  ∀ hash, digest = some hash → hash = store.sha256 content ∧
    content.length ≤ store.maxFileBytes ∧ validateName name = some name

/-- Every digest in the listing is that of what is read under the name. -/
def ListsTruly (store : DownloadStore) (p : String) (disk : Disk) : Prop :=
  ∀ entries, store.listEntries p disk = .ok entries → ∀ entry ∈ entries, ∀ hash,
    entry.sha256 = some hash → ∃ content, store.read p entry.name disk = .ok (some content) ∧
      hash = store.sha256 content

/-- The index of this release has been written by the store, and the digests that are found for the
files are theirs. A file of the release before is found through its own index, and through this
release's where it is not hidden by a namesake. -/
structure Truthful (store : DownloadStore) (p : String) (disk : Disk) : Prop where
  plain : Json.Plain (.obj (fieldsAt disk (store.ownerKey p)))
  canonical : ∀ name file, (validateName name).isSome →
    (store.canonicalLayer p disk).bind (fileAt name) = some file →
      store.Vouches name file.1 (store.readIndexHash p name disk)
  prior : ∀ name file, (validateName name).isSome →
    (store.priorLayer p disk).bind (fileAt name) = some file →
      store.Vouches name file.1 (digestIn name (fieldsAt disk p))
  exposed : ∀ name file, (validateName name).isSome →
    (store.priorLayer p disk).bind (fileAt name) = some file →
      (store.canonicalLayer p disk).bind (fileAt name) = none →
        store.Vouches name file.1 (digestIn name (fieldsAt disk (store.ownerKey p)))

variable {p name : String} {disk disk' : Disk} {entry : DownloadEntry} {content : Bytes}

theorem Vouches.or {digest digest' : Option String} (h : store.Vouches name content digest)
    (h' : store.Vouches name content digest') : store.Vouches name content (digest.or digest') := by
  cases digest with
  | none => exact h'
  | some hash => exact h

/-- A digest that is listed is the one that the indexes have for the name of a file. -/
theorem sha256_of_listed {entries : List DownloadEntry} {hash : String}
    (h : store.listEntries p disk = .ok entries) (hentry : entry ∈ entries)
    (hhash : entry.sha256 = some hash) :
    entry.quarantined = false ∧ store.readIndexHash p entry.name disk = some hash := by
  rw [listEntries_eq] at h
  split_ifs at h with howner hsafe
  cases h
  have hlisted : entry ∈ store.listedFiles p disk := by
    rcases cases_addQuarantine (List.mem_insertionSort _ |>.mp hentry) with hmem | ⟨-,hnone⟩
    · rcases cases_addQuarantine hmem with hmem | ⟨-,hnone⟩
      · exact hmem
      · simp [hnone] at hhash
    · simp [hnone] at hhash
  have hfile : ∀ f : Folder Node, entry = entryOf p (fun name => store.readIndexHash p name disk) f
      entry.name → entry.quarantined = false ∧
        store.readIndexHash p entry.name disk = some hash := by
    intro f hf
    rw [hf] at hhash ⊢
    exact ⟨rfl,hhash⟩
  rcases mem_addFiles hlisted with hfirst | ⟨-,-,f,-,-,hf⟩
  · rcases mem_addFiles hfirst with hnone | ⟨-,-,f,-,-,hf⟩
    · cases hnone
    · exact hfile f hf
  · exact hfile f hf

theorem principal_of_listed {entries : List DownloadEntry}
    (h : store.listEntries p disk = .ok entries) : isPrincipal p = true ∧ store.Safe p disk := by
  rw [listEntries_eq] at h
  split_ifs at h with howner hsafe
  exact ⟨by simpa using howner,hsafe.1⟩

theorem Truthful.lists (h : store.Truthful p disk) : store.ListsTruly p disk := by
  intro entries hlist entry hentry hash hhash
  obtain ⟨hclean,hindex⟩ := sha256_of_listed hlist hentry hhash
  obtain ⟨hp,hsafe⟩ := principal_of_listed hlist
  obtain ⟨-,hvalid,content,hcontent,-⟩ := content_of_listed hlist hentry hclean
  have hvouches : store.Vouches entry.name content (store.readIndexHash p entry.name disk) := by
    have hcanonical := h.canonical entry.name
    have hprior := h.prior entry.name
    have hexposed := h.exposed entry.name
    simp only [canonicalLayer,priorLayer,hp,hsafe,and_self,if_true] at hcanonical hprior hexposed
    rw [contentOf] at hcontent
    cases hfirst : (disk.subarea (store.ownerKey p) entriesDir).bind (fileAt entry.name) with
    | some file =>
      rw [hfirst] at hcontent
      cases hcontent
      exact hcanonical file hvalid hfirst
    | none =>
      rw [hfirst,Option.none_or] at hcontent
      obtain ⟨file,hfile,rfl⟩ := Option.map_eq_some_iff.mp hcontent
      rw [readIndexHash_eq]
      exact (hexposed file hvalid hfile hfirst).or (hprior file hvalid hfile)
  obtain ⟨hsha,hlength,hself⟩ := hvouches hash hindex
  refine ⟨content,read_eq_some.mpr ⟨entry.name,hself,hp,hsafe,?_⟩,hsha⟩
  exact (found_iff hcontent).mpr hlength

/-! ### What the requests leave -/

/-- The files and the indexes are the same. -/
structure SameDigests (store : DownloadStore) (p : String) (disk disk' : Disk) : Prop where
  safe : store.Safe p disk' ↔ store.Safe p disk
  entries : LooksAlike (disk.subarea (store.ownerKey p) entriesDir)
    (disk'.subarea (store.ownerKey p) entriesDir)
  prior : LooksAlike (disk.area p) (disk'.area p)
  index : ∀ top ∈ store.areas p, (disk'.area top).bind (·.find indexFile) =
    (disk.area top).bind (·.find indexFile)

variable {disk'' : Disk}

theorem SameDigests.refl (disk : Disk) : store.SameDigests p disk disk :=
  ⟨Iff.rfl,.refl _,.refl _,fun _ _ => rfl⟩

theorem SameDigests.trans (h : store.SameDigests p disk disk')
    (h' : store.SameDigests p disk' disk'') : store.SameDigests p disk disk'' where
  safe := h'.safe.trans h.safe
  entries := h.entries.trans h'.entries
  prior := h.prior.trans h'.prior
  index top htop := (h'.index top htop).trans (h.index top htop)

theorem SameSight.digests (h : store.SameSight p disk disk') : store.SameDigests p disk disk' :=
  ⟨h.safe,h.entries.looks,h.prior,h.index⟩

theorem digests_of_agree (h : Agree (store.areas p) disk disk') :
    store.SameDigests p disk disk' where
  safe := by simp only [Safe,h.root _ key_mem,h.root _ prior_mem,h.child key_mem]
  entries := by
    rw [h.subarea key_mem]
    exact .refl _
  prior := by
    rw [h.area prior_mem]
    exact .refl _
  index top htop := by rw [h.area htop]

theorem canonical_congr (hsafe : store.Safe p disk' ↔ store.Safe p disk)
    (hname : (validateName name).isSome) (h : LooksAlike
      (disk.subarea (store.ownerKey p) entriesDir) (disk'.subarea (store.ownerKey p) entriesDir)) :
    (store.canonicalLayer p disk').bind (fileAt name) =
      (store.canonicalLayer p disk).bind (fileAt name) := by
  simp only [canonicalLayer,hsafe]
  split_ifs
  · exact h name hname
  · rfl

theorem prior_congr (hsafe : store.Safe p disk' ↔ store.Safe p disk)
    (hname : (validateName name).isSome) (h : LooksAlike (disk.area p) (disk'.area p)) :
    (store.priorLayer p disk').bind (fileAt name) =
      (store.priorLayer p disk).bind (fileAt name) := by
  simp only [priorLayer,hsafe]
  split_ifs
  · exact h name hname
  · rfl

theorem Truthful.congr (h : store.Truthful p disk) (hsame : store.SameDigests p disk disk') :
    store.Truthful p disk' := by
  have hkey := fieldsAt_congr (hsame.index _ key_mem)
  have hprior := fieldsAt_congr (hsame.index _ prior_mem)
  have hhash := readIndexHash_congr hsame.index
  constructor
  · rw [hkey]
    exact h.plain
  · intro name file hname hfile
    rw [canonical_congr hsame.safe hname hsame.entries] at hfile
    rw [hhash]
    exact h.canonical name file hname hfile
  · intro name file hname hfile
    rw [prior_congr hsame.safe hname hsame.prior] at hfile
    rw [hprior]
    exact h.prior name file hname hfile
  · intro name file hname hfile hnone
    rw [prior_congr hsame.safe hname hsame.prior] at hfile
    rw [canonical_congr hsame.safe hname hsame.entries] at hnone
    rw [hkey]
    exact h.exposed name file hname hfile hnone

/-- A quarantine touches neither files nor indexes. -/
theorem digests_quarantine (store : DownloadStore) (p : String) (disk : Disk) (name : String)
    (reads : List (Except StoreError Bytes)) (now : ℤ) :
    store.SameDigests p disk (store.quarantine p name reads now disk).2 := by
  have hmkdir : ∀ {disk : Disk}, disk.root.find (store.ownerKey p) = some .directory →
      store.SameDigests p disk (disk.mkdirSub (store.ownerKey p) quarantineDir) := fun hkey =>
    ⟨by simp [Safe,Disk.isSafe_child_mkdirSub hkey],(finds_mkdirSub hkey _ _).looks,
      looks_mkdirSub hkey _,fun top _ => index_mkdirSub hkey (by decide) top⟩
  have hset : ∀ (disk : Disk) (d : Folder Node), store.SameDigests p disk
      (disk.setSub (store.ownerKey p) quarantineDir d) := by
    intro disk d
    refine ⟨Iff.rfl,?_,.refl _,fun _ _ => rfl⟩
    rw [Disk.subarea_setSub_of_ne (by simp [entriesDir,quarantineDir])]
    exact .refl _
  unfold quarantine
  cases validateName name with
  | none => exact .refl _
  | some safe =>
    dsimp only
    split_ifs with hp howner hdirectory
    · exact .refl _
    · exact .refl _
    · exact sight_mkdirTop.digests
    · have hmade := (@sight_mkdirTop store p disk).digests.trans
        (hmkdir (Disk.root_mkdirTop_self (by simpa using howner)))
      split
      · exact hmade
      · split_ifs
        · exact hmade
        · split
          · exact hmade
          · exact hmade.trans (hset _ _)

/-- A volume on which this release has nothing of a principal yet, and the index of the release
before has no digest but that of its file. -/
structure OlderVolume (store : DownloadStore) (p : String) (disk : Disk) : Prop where
  fresh : disk.area (store.ownerKey p) = none
  prior : ∀ name file, (validateName name).isSome →
    (store.priorLayer p disk).bind (fileAt name) = some file →
      store.Vouches name file.1 (digestIn name (fieldsAt disk p))

theorem OlderVolume.truthful (h : store.OlderVolume p disk) : store.Truthful p disk := by
  have hfields : fieldsAt disk (store.ownerKey p) = [] := by
    rw [fieldsAt,h.fresh]
    rfl
  have hroot : disk.root.find (store.ownerKey p) ≠ some .directory := by
    intro hroot
    simpa [Disk.area,hroot] using h.fresh
  have hcanonical : store.canonicalLayer p disk = none := by
    simp [canonicalLayer,Disk.subarea,Disk.child,hroot]
  refine ⟨?_,?_,h.prior,?_⟩
  · rw [hfields]
    exact .obj [] (by simp) (by simp)
  · simp [hcanonical]
  · intro name file _ _ _ hash hhash
    rw [hfields] at hhash
    cases hhash

theorem olderVolume_of_none (hkey : disk.area (store.ownerKey p) = none)
    (hprior : disk.area p = none) : store.OlderVolume p disk :=
  ⟨hkey,by simp [priorLayer,hprior]⟩

/-- After an erasure there is nothing. -/
theorem erased_areas (hp : isPrincipal p = true) {top : String} (htop : top ∈ store.areas p) :
    (store.erase p disk).2.area top = none := by
  have hroot : ((disk.remove (store.ownerKey p)).remove p).root.find top ≠ some .directory := by
    by_cases hdirectory : disk.root.find top = some .directory
    · have hnone : ((disk.remove (store.ownerKey p)).remove p).root.find top = none := by
        rcases htop with rfl | rfl
        · exact Disk.root_remove_of_none (Disk.root_remove_self hdirectory)
        · exact Disk.root_remove_second hdirectory
      simp [hnone]
    · intro h
      rcases (disk.remove (store.ownerKey p)).root_remove p top with hnone | hsame
      · simp [hnone] at h
      · rcases disk.root_remove (store.ownerKey p) top with hnone | hsame'
        · simp [hsame,hnone] at h
        · exact hdirectory ((hsame.trans hsame').symm.trans h)
  unfold erase
  rw [if_neg (by simp [hp]),Disk.area,if_neg hroot]

theorem truthful_erase (h : store.Truthful p disk) : store.Truthful p (store.erase p disk).2 := by
  by_cases hp : isPrincipal p = true
  · exact (olderVolume_of_none (erased_areas hp key_mem) (erased_areas hp prior_mem)).truthful
  · have hsame : (store.erase p disk).2 = disk := by
      unfold erase
      rw [if_pos (by simpa using hp)]
    rw [hsame]
    exact h

/-- A purge of a file that had a namesake in the release before leaves the digest that the index has
for the name to the namesake. -/
def LeavesDigest (store : DownloadStore) (p : String) (older : ℚ) (disk : Disk) : Prop :=
  ∀ name file, (validateName name).isSome → store.goesFirst p older disk name = true →
    (store.priorLayer p disk).bind (fileAt name) = some file →
      store.Vouches name file.1 (digestIn name (fieldsAt disk (store.ownerKey p)))

theorem index_purge (older : ℚ) (disk : Disk) (top : String) :
    ((store.purge p older disk).2.area top).bind (·.find indexFile) =
      (disk.area top).bind (·.find indexFile) := by
  by_cases hserved : isPrincipal p = true ∧ store.Safe p disk
  · obtain ⟨canonical,prior,-,-,-,hprior,hdisk'⟩ := purge_served older hserved.1 hserved.2
    have hindex : indexFile ∉ prior := fun hmem => (hprior _ hmem).1 hidden_index.1
    rw [hdisk']
    by_cases htop : top = p
    · simp only [htop,Disk.area,Disk.root_setOwn,Disk.root_setSub,Disk.own_setOwn,
        Function.update_self]
      split_ifs
      · exact Folder.find_unlinkAll hindex
      · rfl
    · simp [Disk.area,htop]
  · rw [purge_refused older hserved]

theorem truthful_purge {older : ℚ} (h : store.Truthful p disk)
    (hleaves : store.LeavesDigest p older disk) :
    store.Truthful p (store.purge p older disk).2 := by
  have hkey := fieldsAt_congr (@index_purge store p older disk (store.ownerKey p))
  have hprior := fieldsAt_congr (@index_purge store p older disk p)
  have hhash : ∀ name, store.readIndexHash p name (store.purge p older disk).2 =
      store.readIndexHash p name disk := by
    intro name
    rw [readIndexHash_eq,readIndexHash_eq,hkey,hprior]
  have hpriorFile : ∀ name file, (validateName name).isSome →
      (store.priorLayer p (store.purge p older disk).2).bind (fileAt name) = some file →
        (store.priorLayer p disk).bind (fileAt name) = some file := by
    intro name file hname hfile
    cases hgone : store.goesFirst p older disk name with
    | true => rwa [prior_after_gone hname hgone] at hfile
    | false =>
      rw [prior_after hname hgone] at hfile
      exact (Option.filter_eq_some_iff.mp hfile).1
  constructor
  · rw [hkey]
    exact h.plain
  · intro name file hname hfile
    rw [canonical_after hname] at hfile
    rw [hhash]
    exact h.canonical name file hname (Option.filter_eq_some_iff.mp hfile).1
  · intro name file hname hfile
    rw [hprior]
    exact h.prior name file hname (hpriorFile name file hname hfile)
  · intro name file hname hfile hnone
    rw [hkey]
    have hold := hpriorFile name file hname hfile
    cases hcanonical : (store.canonicalLayer p disk).bind (fileAt name) with
    | none => exact h.exposed name file hname hold hcanonical
    | some file' =>
      refine hleaves name file hname ?_ hold
      rw [canonical_after hname,hcanonical,Option.filter_eq_none_iff] at hnone
      rw [goesFirst_of_file hcanonical]
      simpa using hnone file' rfl

/-! ### Uploads -/

variable {now : ℤ} {final : String} {added : Disk} {u : Upload}

/-- A file more, and an index that differs at most in its name. -/
theorem truthful_added (h : store.Truthful p disk)
    (hadds : store.Adds p now disk final content added)
    (hsafe : store.Safe p disk' ↔ store.Safe p added)
    (hentries : disk'.subarea (store.ownerKey p) entriesDir =
      added.subarea (store.ownerKey p) entriesDir)
    (hprior : LooksAlike (disk.area p) (disk'.area p))
    (hplain : Json.Plain (.obj (fieldsAt disk' (store.ownerKey p))))
    (hkey : ∀ name, name ≠ final → digestIn name (fieldsAt disk' (store.ownerKey p)) =
      digestIn name (fieldsAt disk (store.ownerKey p)))
    (hfields : fieldsAt disk' p = fieldsAt disk p)
    (hnew : store.Vouches final content (store.readIndexHash p final disk')) :
    store.Truthful p disk' := by
  have hsafe := hsafe.trans hadds.safe
  obtain ⟨d,hd,hfile⟩ := hadds.added
  have hothers : ∀ name, (validateName name).isSome → name ≠ final →
      (store.canonicalLayer p disk').bind (fileAt name) =
        (store.canonicalLayer p disk).bind (fileAt name) := by
    intro name hname hne
    simp only [canonicalLayer,hsafe]
    split_ifs
    · rw [hentries,hd,Option.bind_some,fileAt_congr (hadds.others d hd name hname hne),
        fileAt_entriesOf]
    · rfl
  constructor
  · exact hplain
  · intro name file hname hcanonical
    by_cases hfinal : name = final
    · simp only [canonicalLayer] at hcanonical
      split_ifs at hcanonical
      · rw [hentries,hd,Option.bind_some,hfinal,fileAt,hfile] at hcanonical
        cases hcanonical
        rw [hfinal]
        exact hnew
      · cases hcanonical
    · rw [hothers name hname hfinal] at hcanonical
      rw [readIndexHash_eq,hkey name hfinal,hfields,← readIndexHash_eq]
      exact h.canonical name file hname hcanonical
  · intro name file hname hold
    rw [prior_congr hsafe hname hprior] at hold
    rw [hfields]
    exact h.prior name file hname hold
  · intro name file hname hold hnone
    rw [prior_congr hsafe hname hprior] at hold
    by_cases hfinal : name = final
    · simp only [priorLayer] at hold
      split_ifs at hold with hserved
      · simp [canonicalLayer,hserved.1,hsafe.mpr hserved.2,hentries,hd,hfinal,fileAt,hfile] at hnone
      · cases hold
    · rw [hothers name hname hfinal] at hnone
      rw [hkey name hfinal]
      exact h.exposed name file hname hold hnone

/-- What the index has of a receipt. -/
def indexEntry (receipt : DownloadReceipt) : Json :=
  .obj [("size",.int receipt.size),("mtime",.int receipt.mtime),("sha256",.str receipt.sha256)]

/-- The numerals of a receipt can be written into an index. -/
def Writable (now : ℤ) (content : Bytes) : Prop :=
  Json.Plain (.int now) ∧ Json.Plain (.int content.length)

theorem plain_indexEntry {receipt : DownloadReceipt} (hsize : Json.Plain (.int receipt.size))
    (hmtime : Json.Plain (.int receipt.mtime)) : Json.Plain (indexEntry receipt) := by
  refine .obj _ ?_ (by simp)
  simp [hsize,hmtime,Json.Plain.str]

/-- A new index has what the old one had, and the receipt. -/
theorem fields_writeIndex {receipt : DownloadReceipt} {d : Folder Node}
    (hd : disk.area (store.ownerKey p) = some d)
    (hplain : Json.Plain (.obj (Json.assign (indexFields d) (receipt.name,indexEntry receipt))))
    (hwrite : store.writeIndex p receipt now disk = (.ok (),disk')) :
    (∃ n, disk' = disk.setOwn (store.ownerKey p) (d.create indexFile n)) ∧
      fieldsAt disk' (store.ownerKey p) =
        written (Json.assign (indexFields d) (receipt.name,indexEntry receipt)) := by
  have hroot := (Disk.area_eq_some.mp hd).1
  unfold writeIndex at hwrite
  rw [Disk.mkdirTop_of_some hroot] at hwrite
  simp only [hd] at hwrite
  split_ifs at hwrite
  · cases hwrite
  cases hwrite
  have harea : ∀ n, (disk.setOwn (store.ownerKey p) (d.create indexFile n)).area
      (store.ownerKey p) = some (d.create indexFile n) := fun n =>
    Disk.area_eq_some.mpr ⟨hroot,by simp⟩
  refine ⟨⟨_,rfl⟩,?_⟩
  rw [fieldsAt,harea,Option.elim_some]
  exact indexFields_written hplain d now

/-- The index that is written has the digest of the new file. -/
theorem truthful_written (hhex : ∀ b, (store.sha256 b).length = 64) (hp : store.ownerKey p ≠ p)
    (h : store.Truthful p disk) (hadds : store.Adds p now disk final content added)
    (hnumerals : Writable now content)
    (hwrite : store.writeIndex p ⟨final,content.length,now,store.sha256 content,p⟩ now added =
      (.ok (),disk')) : store.Truthful p disk' := by
  have hd : added.area (store.ownerKey p) = some (added.own (store.ownerKey p)) :=
    Disk.area_eq_some.mpr ⟨hadds.root,rfl⟩
  have hold : indexFields (added.own (store.ownerKey p)) = fieldsAt disk (store.ownerKey p) := by
    rw [← fieldsAt_congr (hadds.index _ key_mem),fieldsAt,hd]
    rfl
  have hplain := Json.plain_assign (f:=(final,indexEntry
    ⟨final,content.length,now,store.sha256 content,p⟩)) h.plain
      (plain_indexEntry hnumerals.2 hnumerals.1)
  obtain ⟨⟨n,rfl⟩,hfields⟩ := fields_writeIndex hd (by rw [hold]; exact hplain) hwrite
  rw [hold] at hfields
  have hdigest : ∀ name, digestIn name (fieldsAt (added.setOwn (store.ownerKey p)
      ((added.own (store.ownerKey p)).create indexFile n)) (store.ownerKey p)) =
        if name = final then some (store.sha256 content)
        else digestIn name (fieldsAt disk (store.ownerKey p)) := by
    intro name
    rw [hfields,digestIn_written hplain,digestIn,digestIn,Json.lookup_assign]
    split_ifs with hname
    · simp [indexEntry,Json.lookup_cons_ite,hhex]
    · rfl
  have harea : (added.setOwn (store.ownerKey p)
      ((added.own (store.ownerKey p)).create indexFile n)).area p = added.area p := by
    simp [Disk.area,Function.update_of_ne hp.symm]
  refine truthful_added h hadds (sameStore_setOwn hd hidden_index).safe
    (subarea_setOwn hd hidden_index).2 ?_ ?_ ?_ ?_ ?_
  · rw [harea]
    exact hadds.prior
  · rw [hfields]
    exact plain_written hplain
  · intro name hname
    rw [hdigest,if_neg hname]
  · rw [fieldsAt,harea]
    exact fieldsAt_congr (hadds.index _ prior_mem)
  · intro hash hhash
    rw [readIndexHash_eq,hdigest,if_pos rfl,Option.some_or,Option.some.injEq] at hhash
    exact ⟨hhash.symm,hadds.size,hadds.valid⟩

/-- An upload whose file is published gets its digest into the index, or finds there none but the
right one for its name. -/
def KnowsDigest (store : DownloadStore) (p : String) (u : Upload) (disk : Disk) : Prop :=
  ∀ final content, store.Publishes p { u with } disk final content →
    (store.Indexes p { u with } disk → Writable u.now content) ∧
    (¬store.Indexes p { u with } disk → ∀ hash, store.readIndexHash p final disk = some hash →
      hash = store.sha256 content)

theorem attempt_written {a : Attempt} (hindexes : store.Indexes p a disk)
    (h : store.Renames p now disk final content
      (store.tries p a.refused (a.opening now) .idle disk)) :
    ∃ added disk', store.Adds p now disk final content added ∧
      store.writeIndex p ⟨final,content.length,now,store.sha256 content,p⟩ now added =
        (.ok (),disk') ∧ store.SameSight p disk' (store.attempt p a now disk).2 := by
  obtain ⟨f,d,disk₁,hstages,rfl,rfl,hd,hrun⟩ := h
  have hadds := adds_rename hstages hd
  rw [attempt,moves_eq,tries_append,hrun]
  rcases tries_index hadds a with
    ⟨hnot,-⟩ | ⟨-,text,disk₂,result,hwrite,-,-,hclose⟩
  · exact absurd hindexes hnot
  · refine ⟨_,disk₂,hadds,hwrite,?_⟩
    dsimp only
    rw [hclose]
    exact (tries_unlink hstages.held.hidden _ _ _ _).1

theorem truthful_ingest (hhex : ∀ b, (store.sha256 b).length = 64) (hp : store.ownerKey p ≠ p)
    (h : store.Truthful p disk) (hknows : store.KnowsDigest p u disk) :
    store.Truthful p (store.ingest p u disk).2 := by
  rw [← attempt_ingest]
  rcases tries_opening { u with } u.now disk with ⟨hend,-⟩ | ⟨final,content,hpublishes,hrenames⟩
  · exact h.congr (attempt_ends hend).digests
  · obtain ⟨hwritable,hstale⟩ := hknows final content hpublishes
    by_cases hindexes : store.Indexes p { u with } disk
    · obtain ⟨added,disk',hadds,hwrite,hsight⟩ := attempt_written hindexes hrenames
      exact (truthful_written hhex hp h hadds (hwritable hindexes) hwrite).congr hsight.digests
    · have hadds := ((attempt_closes hrenames).unindexed hindexes).2
      have hkey := fieldsAt_congr (hadds.index _ key_mem)
      refine truthful_added h hadds Iff.rfl rfl hadds.prior ?_ ?_
        (fieldsAt_congr (hadds.index _ prior_mem)) ?_
      · rw [hkey]
        exact h.plain
      · intro name _
        rw [hkey]
      · intro hash hhash
        rw [readIndexHash_congr hadds.index] at hhash
        exact ⟨hstale hindexes hash hhash,hadds.size,hadds.valid⟩

/-! ### Histories -/

/-- The requests of principals, one after the other. -/
def serve (store : DownloadStore) (disk : Disk) (request : String × Request) : Disk :=
  (store.perform request.1 request.2 disk).2

/-- A request of the principal that leaves no digest to another file. -/
def KeepsDigests (store : DownloadStore) (p : String) (disk : Disk) : Request → Prop
  | .ingest u => store.KnowsDigest p u disk
  | .purge older => store.LeavesDigest p older disk
  | _ => True

/-- Such a request, or one of a principal with other directories. -/
def Heeds (store : DownloadStore) (p : String) (disk : Disk) (request : String × Request) : Prop :=
  if request.1 = p then store.KeepsDigests p disk request.2
  else Disjoint (store.areas p) (store.areas request.1)

theorem heeds_own {r : Request} (h : store.KeepsDigests p disk r) : store.Heeds p disk (p,r) := by
  rw [Heeds,if_pos rfl]
  exact h

theorem truthful_serve (hhex : ∀ b, (store.sha256 b).length = 64) (hp : store.ownerKey p ≠ p)
    {request : String × Request} (h : store.Truthful p disk)
    (hheeds : store.Heeds p disk request) : store.Truthful p (store.serve disk request) := by
  rcases request with ⟨q,r⟩
  by_cases hq : q = p
  · subst hq
    have hkeeps : store.KeepsDigests q disk r := by simpa [Heeds] using hheeds
    cases r with
    | list => exact h
    | read name => exact h
    | ingest u => exact truthful_ingest hhex hp h hkeeps
    | quarantine name reads now =>
      rw [serve,perform,Prod.map_snd]
      exact h.congr (store.digests_quarantine q disk name reads now)
    | purge older => exact truthful_purge h hkeeps
    | erase => exact truthful_erase h
  · have hdisjoint : Disjoint (store.areas p) (store.areas q) := by simpa [Heeds,hq] using hheeds
    exact h.congr (digests_of_agree
      (((store.confined_perform q r).frame disk).mono hdisjoint.subset_compl_right))

/-- Every digest that is listed, after any history whose requests leave no digest to another
file, is that of what is read under the name. -/
theorem lists_truly (hhex : ∀ b, (store.sha256 b).length = 64) (hp : store.ownerKey p ≠ p)
    (hdisk : store.OlderVolume p disk) (history : List (String × Request))
    (h : Runs.Each store.serve (store.Heeds p) disk history) :
    Runs.Always store.serve (store.ListsTruly p) disk history :=
  (Runs.always_of_each hdisk.truthful (fun _ _ => truthful_serve hhex hp) h).mono
    fun _ => Truthful.lists

def oldUpload : Upload := { name := "a", reads := [.ok [1]], token := 0, now := 0 }

/-- A file is uploaded and, when it is old, purged. -/
def uploadThenPurge : List (String × Request) :=
  [("alice",.ingest oldUpload),("alice",.purge 100)]

theorem area_empty (top : String) : Disk.empty.area top = none := rfl

theorem lists_truly_emptied :
    Runs.Always hashed.serve (hashed.ListsTruly "alice") Disk.empty uploadThenPurge := by
  have hupload : hashed.KnowsDigest "alice" oldUpload Disk.empty := by
    intro final content hpublishes
    have hcopied : copyStream hashed.maxFileBytes [.ok [1]] [] = .ok content := hpublishes.copied
    cases hcopied
    exact ⟨fun _ => ⟨.int _ (by decide),.int _ (by decide)⟩,
      fun hnot => absurd ⟨by simp,rfl,by simp [area_empty]⟩ hnot⟩
  have hpurge : hashed.LeavesDigest "alice" 100
      (hashed.serve Disk.empty ("alice",.ingest oldUpload)) := by
    intro name file _ _ hprior
    have hlayer : hashed.priorLayer "alice"
        (hashed.serve Disk.empty ("alice",.ingest oldUpload)) = none :=
      Option.isNone_iff_eq_none.mp (by decide +kernel)
    rw [hlayer] at hprior
    cases hprior
  exact @lists_truly hashed "alice" Disk.empty length_hexDigest (by decide +kernel)
    (olderVolume_of_none (area_empty _) (area_empty _)) uploadThenPurge
    ⟨heeds_own hupload,heeds_own hpurge,trivial⟩

/-- A file is uploaded under the name of one that the release before has left, and purged. -/
def uploadOverOlder : List (String × Request) :=
  [("alice",.ingest newUpload),("alice",.purge 200)]

/-- The older file is back, and it is listed with the digest of the other one. -/
theorem stale_digest_listed : ¬∀ (store : DownloadStore) (p : String) (disk : Disk),
    (∀ b, (store.sha256 b).length = 64) → store.ownerKey p ≠ p → store.OlderVolume p disk →
      ∀ history, Runs.Always store.serve (store.ListsTruly p) disk history := by
  intro h
  have hvolume : hashed.OlderVolume "alice" olderVolume := by
    have hindex : indexFields (olderVolume.own "alice") = [] := by
      have hnone : (olderVolume.own "alice").find indexFile = none := by decide +kernel
      simp only [indexFields,hnone,Option.bind_eq_bind,Option.bind_none]
    have hfields : fieldsAt olderVolume "alice" = [] := by
      have harea : olderVolume.area "alice" = some (olderVolume.own "alice") :=
        Disk.area_eq_some.mpr ⟨by decide +kernel,rfl⟩
      rw [fieldsAt,harea,Option.elim_some,hindex]
    refine ⟨Option.isNone_iff_eq_none.mp (by decide +kernel),?_⟩
    intro name file _ _ hash hhash
    rw [hfields] at hhash
    cases hhash
  have htruly := (h hashed "alice" olderVolume length_hexDigest (by decide +kernel) hvolume
    uploadOverOlder).last
  have hlisted : hashed.listEntries "alice" (uploadOverOlder.foldl hashed.serve olderVolume) =
      .ok [⟨"a",1,50,"alice",false,none,some (hexDigest [2])⟩] := by
    decide +kernel
  obtain ⟨content,hread,hhash⟩ := htruly _ hlisted _ List.mem_cons_self _ rfl
  have hback : hashed.read "alice" "a" (uploadOverOlder.foldl hashed.serve olderVolume) =
      .ok (some [1]) := by
    decide +kernel
  cases hback.symm.trans hread
  revert hhash
  decide +kernel

end DownloadStore
end Storage
end CloudBrowser
