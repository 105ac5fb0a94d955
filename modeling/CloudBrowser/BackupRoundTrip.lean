import CloudBrowser.Backup
import CloudBrowser.Stateful

/-! When a backup is restored as the tree that it was made of. -/
namespace CloudBrowser
namespace Backup

open Stateful

/-! ### Names of files -/

theorem slash_not_mem {c : Bytes} (h : legalName c = true) : slash ∉ c := by
  simp only [legalName,Bool.and_eq_true,Bool.not_eq_true'] at h
  simpa using h.1.2

theorem legalName_ne {c : Bytes} (h : legalName c = true) : c ≠ [] ∧ c ≠ dot ∧ c ≠ dotdot := by
  simp only [legalName,Bool.and_eq_true,decide_eq_true_eq] at h
  exact ⟨h.1.1.1.1,h.1.1.1.2,h.1.1.2⟩

variable {parts : List Bytes}

theorem components_posix (hne : parts ≠ []) (h : ∀ c ∈ parts, legalName c = true) :
    components (posix parts) = parts :=
  List.splitOn_intercalate slash (fun c hc => slash_not_mem (h c hc)) hne

theorem proper_posix (hne : parts ≠ []) (h : ∀ c ∈ parts, legalName c = true) :
    proper (posix parts) = parts := by
  rw [proper,components_posix hne h]
  apply List.filter_eq_self.mpr
  intro c hc
  have hc' := legalName_ne (h c hc)
  simp [hc'.1,hc'.2.1]

theorem takeWhile_posix (h : ∀ c ∈ parts, legalName c = true) :
    (posix parts).takeWhile (· = slash) = [] := by
  cases parts with
  | nil => rfl
  | cons c cs =>
    have hc := h c (by simp)
    obtain ⟨b,bs,rfl⟩ := List.exists_cons_of_ne_nil (legalName_ne hc).1
    have hb : b ≠ slash := fun heq => slash_not_mem hc (by simp [heq])
    cases cs <;> simp [posix,List.intercalate,hb]

theorem purePath_posix (hne : parts ≠ []) (h : ∀ c ∈ parts, legalName c = true) :
    purePath (posix parts) = ⟨0,parts⟩ := by
  rw [purePath,leadingSlashes,takeWhile_posix h,proper_posix hne h]

theorem normalizeParts_plain (rooted : Bool) (done cs : List Bytes) (h : ∀ c ∈ cs, c ≠ dotdot) :
    normalizeParts rooted done cs = done.reverse ++ cs := by
  induction cs generalizing done with
  | nil => simp [normalizeParts]
  | cons c cs ih =>
    rw [normalizeParts,if_pos (Or.inl (h c (by simp))),ih _ fun x hx => h x (by simp [hx])]
    simp

theorem normpath_posix (hne : parts ≠ []) (h : ∀ c ∈ parts, legalName c = true) :
    normpath (posix parts) = ⟨0,parts⟩ := by
  have hplain := normalizeParts_plain false [] parts fun c hc => (legalName_ne (h c hc)).2.2
  rw [normpath,leadingSlashes,takeWhile_posix h,proper_posix hne h]
  simpa using hplain

theorem dropWhile_posix (h : ∀ c ∈ parts, legalName c = true) :
    (posix parts).dropWhile (· = slash) = posix parts := by
  have hsplit := List.takeWhile_append_dropWhile (p:=(· = slash)) (l:=posix parts)
  rwa [takeWhile_posix h,List.nil_append] at hsplit

theorem slash_not_mem_manifestName : slash ∉ manifestName := by decide +kernel

theorem posix_eq_manifestName (hne : parts ≠ []) (h : ∀ c ∈ parts, legalName c = true) :
    posix parts = manifestName ↔ parts = [manifestName] := by
  constructor
  · intro heq
    have hsplit : ([slash].intercalate [manifestName]).splitOn slash = [manifestName] :=
      List.splitOn_intercalate slash (by simpa using slash_not_mem_manifestName) (by simp)
    rw [← components_posix hne h,heq]
    simpa [components,List.intercalate] using hsplit
  · rintro rfl
    simp [posix,List.intercalate]

/-! ### The manifest -/

/-- `json.loads`, of bytes that are UTF-8. -/
def loadsUtf8 (b : Bytes) : Option Json := (Text.decodeUtf8 b).bind Json.loads

/-- The fields of a manifest, with their texts. -/
def Manifest.texts (m : Manifest) : List Json.TextField :=
  [("file_count",Json.writeInt m.fileCount,.int m.fileCount),
    ("instance_id",Json.dumpString m.instanceId,.str m.instanceId),
    ("sha256",Json.dumpString m.sha256,.str m.sha256)]

def Manifest.fields (m : Manifest) : List (String × Json) := m.texts.map Json.TextField.value

theorem loads_dumps {m : Manifest} {text : Bytes} (h : m.dumps = some text) :
    loadsUtf8 text = some (.obj m.fields) := by
  unfold Manifest.dumps at h
  split_ifs at h with hwritable
  cases h
  have hreads : ∀ f ∈ m.texts, Json.Reads f.2.1 f.2.2 := by
    intro f hf
    simp only [Manifest.texts,List.mem_cons,List.not_mem_nil,or_false] at hf
    rcases hf with rfl | rfl | rfl
    · exact Json.reads_atom hwritable
    · exact Json.reads_dumpString _
    · exact Json.reads_dumpString _
  have hnames : (m.texts.map Prod.fst).Nodup := by
    show ["file_count","instance_id","sha256"].Nodup
    decide
  have htexts : [("file_count",Json.writeInt m.fileCount),("instance_id",Json.dumpString m.instanceId),
      ("sha256",Json.dumpString m.sha256)] = m.texts.map Json.TextField.text := rfl
  rw [htexts,loadsUtf8,Text.decodeUtf8_encodeUtf8,Option.bind_some,Json.loads_objectText hreads hnames]
  rfl

/-! ### The digest -/

section Digest

variable {α : Type} {sha256 : Bytes → String} {entry : α → Except BackupError (Bytes × Bytes)}
  {files : List α}

def chunk (e : Bytes × Bytes) : Bytes := e.1 ++ 0 :: (e.2 ++ [0])

theorem digest_eq {e : α → Bytes × Bytes} (hentry : ∀ f ∈ files, entry f = .ok (e f))
    (hname : ∀ f ∈ files, (Text.decodeUtf8 (e f).1).isSome) :
    digest sha256 entry files = .ok (sha256 (files.map fun f => chunk (e f)).flatten) := by
  have hchunks := mapM_eq_ok (f:=fun f => do
    let e ← entry f
    if (Text.decodeUtf8 e.1).isNone then throw .unicodeEncodeError
    else return e.1 ++ 0 :: (e.2 ++ [0])) (g:=fun f => chunk (e f)) (l:=files) ?_
  · rw [digest,hchunks]
    rfl
  · intro f hf
    have hsome := hname f hf
    rw [hentry f hf]
    show (if (Text.decodeUtf8 (e f).1).isNone then _ else _) = _
    rw [if_neg (by simpa [Option.isSome_iff_ne_none] using hsome)]
    rfl

theorem decodes_of_digest {e : α → Bytes × Bytes} (hentry : ∀ f ∈ files, entry f = .ok (e f))
    {found : String} (h : digest sha256 entry files = .ok found) :
    ∀ f ∈ files, (Text.decodeUtf8 (e f).1).isSome := by
  obtain ⟨chunks,hchunks,-⟩ := bind_ok h
  intro f hf
  obtain ⟨c,hc⟩ := mapM_ok hchunks f hf
  rw [hentry f hf] at hc
  by_contra hnone
  have hthrow : (if (Text.decodeUtf8 (e f).1).isNone then Except.error BackupError.unicodeEncodeError
    else .ok ((e f).1 ++ 0 :: ((e f).2 ++ [0]))) = .ok c := hc
  rw [if_pos (by simpa using hnone)] at hthrow
  cases hthrow

end Digest

/-! ### The extraction -/

def SourceFile.member (f : SourceFile) : Member := ⟨f.name,true,f.content,none⟩

def SourceFile.placed (f : SourceFile) (root : List Bytes) : StoredFile := ⟨root ++ f.parts,f.content⟩

/-- An empty directory, on a file system that works: what is below it is found below it. -/
structure EmptyDestination (t : Surroundings) (destination : PurePath) (disk : Disk)
    (root : List Bytes) : Prop where
  mkdir : t.mkdir = true
  manifestFault : t.manifestFault = false
  fault : ∀ k, t.fault k = none
  readable : ∀ location, t.unreadable location = false
  loads : t.loads = loadsUtf8
  resolve : t.resolve destination = some root
  below : ∀ parts, (∀ c ∈ parts, legalName c = true) →
    t.resolve (destination.join ⟨0,parts⟩) = some (root ++ parts)
  files : ∀ f ∈ disk.files, ¬root <+: f.location ∧ ¬f.location <+: root
  dirs : ∀ d ∈ disk.dirs, root <+: d → d = root

variable {t : Surroundings} {destination : PurePath} {disk : Disk} {root : List Bytes}
  {f : SourceFile} {fs : List SourceFile}

def SourceFile.Legal (f : SourceFile) : Prop := f.parts ≠ [] ∧ ∀ c ∈ f.parts, legalName c = true

/-- Neither file is in a directory of the other's name. -/
def SourceFile.Apart (f g : SourceFile) : Prop := ¬f.parts <+: g.parts ∧ ¬g.parts <+: f.parts

theorem blocked_empty (h : EmptyDestination t destination disk root) (hne : parts ≠ []) :
    disk.blocked (root ++ parts) = false := by
  have hdirs : root ++ parts ∉ disk.dirs := by
    intro hmem
    have hroot := h.dirs _ hmem (List.prefix_append _ _)
    exact hne (List.append_right_eq_self.mp hroot)
  have hfiles : ∀ f ∈ disk.files.rows, ¬(f.location <+: root ++ parts ∨ root ++ parts <+: f.location) := by
    rintro f hf (hbelow | habove)
    · rcases List.prefix_or_prefix_of_prefix hbelow (List.prefix_append root parts) with hp | hp
      · exact (h.files f hf).2 hp
      · exact (h.files f hf).1 hp
    · exact (h.files f hf).1 ((List.prefix_append root parts).trans habove)
  simp only [Disk.blocked,Bool.or_eq_false_iff,List.any_eq_false,Bool.and_eq_true,Bool.or_eq_true,
    List.isPrefixOf_iff_prefix,not_and]
  exact ⟨by simpa using hdirs,fun f hf _ => hfiles f hf⟩

theorem blocked_write {x : StoredFile} {location : List Bytes} (hfree : disk.blocked location = false)
    (hfar : ¬x.location <+: location ∧ ¬location <+: x.location) :
    (disk.write x).blocked location = false := by
  simp only [Disk.blocked,Disk.write,Bool.or_eq_false_iff,List.any_eq_false,Bool.and_eq_true,
    Bool.or_eq_true,List.isPrefixOf_iff_prefix] at hfree ⊢
  refine ⟨hfree.1,?_⟩
  intro f hf
  rcases Keyed.Table.mem_put.mp hf with rfl | ⟨hold,-⟩
  · rintro ⟨-,hp | hp⟩
    · exact hfar.1 hp
    · exact hfar.2 hp
  · exact hfree.2 f hold

theorem extraction_member (h : EmptyDestination t destination disk root) (hf : f.Legal) (k : ℕ)
    {disk' : Disk} (hfree : disk'.blocked (root ++ f.parts) = false) :
    extraction t destination root k disk' f.member = (some (f.placed root),true) := by
  have hresolve : t.resolve (destination.join
      ⟨0,proper (f.member.name.dropWhile (· = slash))⟩) = some (root ++ f.parts) := by
    rw [SourceFile.member,SourceFile.name,dropWhile_posix hf.2,proper_posix hf.1 hf.2]
    exact h.below f.parts hf.2
  have hbelow : root.isPrefixOf (root ++ f.parts) = true := by simp
  unfold extraction
  rw [hresolve]
  dsimp only
  rw [if_neg (by simp [hbelow,hfree]),h.fault]
  rfl

/-- The members of a tree, of which none is in the way of another, are all extracted. -/
theorem extractAll_members (h : EmptyDestination t destination disk root)
    (hlegal : ∀ f ∈ fs, f.Legal) (hapart : fs.Pairwise SourceFile.Apart) (k : ℕ) {disk' : Disk}
    (hfree : ∀ f ∈ fs, disk'.blocked (root ++ f.parts) = false) :
    ∃ disk'', extractAll t destination root k disk' (fs.map SourceFile.member) = (.ok (),disk'') ∧
      ∀ x, x ∈ disk''.files ↔ x ∈ disk'.files ∧ (∀ f ∈ fs, root ++ f.parts ≠ x.location) ∨
        ∃ f ∈ fs, x = f.placed root := by
  induction fs generalizing k disk' with
  | nil => exact ⟨disk',rfl,by simp⟩
  | cons f fs ih =>
    obtain ⟨hfar,hapart⟩ := List.pairwise_cons.mp hapart
    have hnext : ∀ g ∈ fs, (disk'.write (f.placed root)).blocked (root ++ g.parts) = false := by
      intro g hg
      apply blocked_write (hfree g (by simp [hg]))
      simpa [SourceFile.placed,SourceFile.Apart] using hfar g hg
    obtain ⟨disk'',hall,hfiles⟩ := ih (fun g hg => hlegal g (by simp [hg])) hapart (k+1) hnext
    refine ⟨disk'',?_,?_⟩
    · rw [List.map_cons,extractAll,extraction_member h (hlegal f (by simp)) k (hfree f (by simp))]
      exact hall
    · intro x
      have hself : ∀ g ∈ fs, root ++ g.parts ≠ root ++ f.parts := by
        intro g hg heq
        have hparts := List.append_cancel_left heq
        apply (hfar g hg).1
        simp [hparts]
      rw [hfiles,Disk.write,Keyed.Table.mem_put]
      constructor
      · rintro (⟨rfl | ⟨hold,hne⟩,hothers⟩ | ⟨g,hg,rfl⟩)
        · exact Or.inr ⟨f,by simp,rfl⟩
        · refine Or.inl ⟨hold,?_⟩
          intro g hg
          rcases List.mem_cons.mp hg with rfl | hg
          · exact fun heq => hne heq.symm
          · exact hothers g hg
        · exact Or.inr ⟨g,by simp [hg],rfl⟩
      · rintro (⟨hold,hothers⟩ | ⟨g,hg,rfl⟩)
        · refine Or.inl ⟨Or.inr ⟨hold,fun heq => hothers f (by simp) heq.symm⟩,?_⟩
          exact fun g hg => hothers g (by simp [hg])
        · rcases List.mem_cons.mp hg with rfl | hg
          · exact Or.inl ⟨Or.inl rfl,hself⟩
          · exact Or.inr ⟨g,hg,rfl⟩

theorem readBack_member (h : EmptyDestination t destination disk root) (hf : f.Legal)
    {disk' : Disk} (hplaced : f.placed root ∈ disk'.files) :
    readBack t destination disk' f.member = .ok (f.name,f.content) := by
  have hpath : destination.join (purePath f.member.name) = destination.join ⟨0,f.parts⟩ := by
    rw [SourceFile.member,SourceFile.name,purePath_posix hf.1 hf.2]
  have hrelative : (destination.join ⟨0,f.parts⟩).relativeTo destination = some f.name := by
    obtain ⟨c,cs,hparts⟩ := List.exists_cons_of_ne_nil hf.1
    simp [PurePath.join,PurePath.relativeTo,SourceFile.name,hparts]
  have hfind : disk'.files.find (root ++ f.parts) = some (f.placed root) :=
    Keyed.Table.find_eq_some.mpr ⟨hplaced,rfl⟩
  unfold readBack
  rw [hpath]
  dsimp only
  rw [hrelative,h.below f.parts hf.2]
  simp [hfind,h.readable,SourceFile.placed]

theorem checkMember_member (h : EmptyDestination t destination disk root) (hf : f.Legal) :
    checkMember t destination root f.member = .ok () := by
  have hhead : f.parts.head? ≠ some dotdot := by
    intro hhead
    exact (legalName_ne (hf.2 _ (List.mem_of_mem_head? hhead))).2.2 rfl
  unfold checkMember
  rw [SourceFile.member,SourceFile.name,normpath_posix hf.1 hf.2,h.below f.parts hf.2]
  simp [hf.1,hhead]

/-! ### The round trip -/

variable {tree : Tree} {instanceId : String}

theorem mem_sorted : f ∈ tree.sorted ↔ f ∈ tree.files := List.mem_insertionSort _

theorem legal_of_sorted (hf : f ∈ tree.sorted) : f.Legal := tree.legal f (mem_sorted.mp hf)

theorem apart_sorted (tree : Tree) : tree.sorted.Pairwise SourceFile.Apart := by
  have hnodup : tree.sorted.Nodup :=
    (List.perm_insertionSort _ _).nodup_iff.mpr (List.Nodup.of_map _ tree.files.distinct)
  apply List.Pairwise.imp_of_mem _ hnodup
  intro f g hf hg hne
  constructor
  · intro hp
    exact hne (tree.apart f (mem_sorted.mp hf) g (mem_sorted.mp hg) hp)
  · intro hp
    exact hne (tree.apart g (mem_sorted.mp hg) f (mem_sorted.mp hf) hp).symm

/-- The files that are put into the archive. -/
def Tree.archived (tree : Tree) : List SourceFile :=
  tree.sorted.filter fun f => f.name ≠ manifestName

theorem filterMap_addMember (fs : List SourceFile) : fs.filterMap addMember =
    (fs.filter fun f => f.name ≠ manifestName).map SourceFile.member := by
  induction fs with
  | nil => rfl
  | cons f fs ih =>
    by_cases hname : f.name = manifestName
    · simp [addMember,hname,ih]
    · simp [addMember,hname,ih,SourceFile.member]

/-- The digest of files as they are read from a tree. -/
def chunks (fs : List SourceFile) : Bytes := (fs.map fun f => chunk (f.name,f.content)).flatten

/-- What a backup is, where it is made. -/
theorem backupStore_eq_ok {sha256 : Bytes → String} {manifest : Manifest} {archive : List Member} :
    backupStore sha256 tree instanceId = .ok (manifest,archive) ↔
      validInstance instanceId = true ∧ (∀ f ∈ tree.sorted, (Text.decodeUtf8 f.name).isSome) ∧
      manifest = ⟨instanceId,tree.sorted.length,sha256 (chunks tree.sorted)⟩ ∧
      ∃ text, manifest.dumps = some text ∧
        archive = ⟨manifestName,true,text,none⟩ :: tree.archived.map SourceFile.member := by
  have hentry : ∀ f ∈ tree.sorted,
      (fun f : SourceFile => (.ok (f.name,f.content) : Except BackupError _)) f =
        .ok (f.name,f.content) := fun _ _ => rfl
  constructor
  · intro h
    obtain ⟨_,hinstance,h⟩ := bind_ok h
    obtain ⟨found,hfound,h⟩ := bind_ok h
    have hdecodes := decodes_of_digest hentry hfound
    rw [digest_eq hentry hdecodes] at hfound
    cases hfound
    refine ⟨?_,hdecodes,?_⟩
    · by_contra hinvalid
      rw [validateInstance,if_neg hinvalid] at hinstance
      cases hinstance
    · dsimp only at h
      split at h
      case h_1 => cases h
      case h_2 text htext =>
        cases h
        refine ⟨rfl,text,htext,?_⟩
        rw [filterMap_addMember,Tree.archived]
  · rintro ⟨hinstance,hdecodes,rfl,text,htext,rfl⟩
    unfold backupStore
    rw [validateInstance,if_pos hinstance,digest_eq hentry hdecodes,filterMap_addMember]
    simp only [bind,Except.bind]
    rw [chunks] at htext
    rw [htext]
    rfl

theorem archived_eq_sorted : tree.archived = tree.sorted ↔ ∀ f ∈ tree.files, f.parts ≠ [manifestName] := by
  have hname : ∀ f ∈ tree.files, (f.name = manifestName ↔ f.parts = [manifestName]) := by
    intro f hf
    exact posix_eq_manifestName (tree.legal f hf).1 (tree.legal f hf).2
  rw [Tree.archived,List.filter_eq_self]
  constructor
  · intro h f hf
    have hne := h f (mem_sorted.mpr hf)
    simpa [hname f hf] using hne
  · intro h f hf
    have hne := h f (mem_sorted.mp hf)
    simpa [hname f (mem_sorted.mp hf)] using hne

/-- The conditions under which what `restore_store` looks at before it extracts is in order. -/
theorem inspect_archive (h : EmptyDestination t destination disk root) {m : Manifest} {text : Bytes}
    (htext : m.dumps = some text) (hinstance : validInstance m.instanceId = true) :
    inspect t destination (some (⟨manifestName,true,text,none⟩ :: tree.archived.map SourceFile.member))
      m.instanceId =
        if dotdot ∈ destination.parts then
          .error (.valueError "destination must not contain parent traversal")
        else .ok (root,m.fields,tree.archived.map SourceFile.member) := by
  have hnames : ∀ x ∈ tree.archived.map SourceFile.member, x.name ≠ manifestName := by
    intro x hx
    obtain ⟨f,hf,rfl⟩ := List.mem_map.mp hx
    simpa [SourceFile.member] using (List.mem_filter.mp hf).2
  have hmanifest : readManifest t (⟨manifestName,true,text,none⟩ :: tree.archived.map SourceFile.member) =
      .ok (.obj m.fields) := by
    have hnone : (tree.archived.map SourceFile.member).filter (fun x => x.name = manifestName) = [] := by
      rw [List.filter_eq_nil_iff]
      intro x hx
      simpa using hnames x hx
    unfold readManifest
    rw [List.filter_cons_of_pos (by simp),hnone]
    simp [readMember,h.manifestFault,h.loads,loads_dumps htext,bind,Except.bind,pure,Except.pure]
  have hfiles : (⟨manifestName,true,text,none⟩ :: tree.archived.map SourceFile.member).filter
      (fun x => x.name ≠ manifestName) = tree.archived.map SourceFile.member := by
    rw [List.filter_cons_of_neg (by simp),List.filter_eq_self]
    intro x hx
    simpa using hnames x hx
  have hchecked : (tree.archived.map SourceFile.member).mapM (checkMember t destination root) =
      .ok ((tree.archived.map SourceFile.member).map fun _ => ()) := by
    apply mapM_eq_ok
    intro x hx
    obtain ⟨f,hf,rfl⟩ := List.mem_map.mp hx
    exact checkMember_member h (legal_of_sorted (List.mem_filter.mp hf).1)
  have hid : (Json.get m.fields "instance_id").asString = some m.instanceId := rfl
  unfold inspect
  rw [validateInstance,if_pos hinstance]
  simp only [bind,Except.bind]
  by_cases hdots : dotdot ∈ destination.parts
  · rw [if_pos hdots,if_pos hdots]
    rfl
  · rw [if_neg hdots,if_neg hdots,h.mkdir]
    simp only [Bool.not_true,Bool.false_eq_true,if_false,hmanifest]
    rw [if_neg (by simp [hid]),h.resolve,hfiles]
    simp only [hchecked]
    rfl

/-- What comes of the members of an archive in an empty directory. -/
theorem restore_members (h : EmptyDestination t destination disk root) (fs : List SourceFile)
    (hfs : fs.Sublist tree.sorted) (hdecodes : ∀ f ∈ fs, (Text.decodeUtf8 f.name).isSome)
    (m : Manifest) : ∃ disk', extractAll t destination root 0 disk (fs.map SourceFile.member) =
        (.ok (),disk') ∧
      (∀ x, x ∈ disk'.files ↔ x ∈ disk.files ∨ ∃ f ∈ fs, x = f.placed root) ∧
      verify t destination disk' m.fields (fs.map SourceFile.member) instanceId =
        if fs.length = m.fileCount ∧ m.sha256 = t.sha256 (chunks fs) then
          .ok ⟨instanceId,fs.length,t.sha256 (chunks fs)⟩
        else .error (.valueError "backup integrity check failed") := by
  have hlegal : ∀ f ∈ fs, f.Legal := fun f hf => legal_of_sorted (hfs.subset hf)
  obtain ⟨disk',hall,hfiles⟩ := extractAll_members h hlegal ((apart_sorted tree).sublist hfs) 0
    (fun f hf => blocked_empty h (hlegal f hf).1)
  refine ⟨disk',hall,?_,?_⟩
  · intro x
    rw [hfiles]
    constructor
    · exact Or.imp_left And.left
    · apply Or.imp_left
      intro hx
      refine ⟨hx,?_⟩
      intro f _ heq
      exact (h.files x hx).1 (heq ▸ List.prefix_append _ _)
  · have hread : ∀ x ∈ fs.map SourceFile.member, readBack t destination disk' x = .ok (x.name,x.content) := by
      intro x hx
      obtain ⟨f,hf,rfl⟩ := List.mem_map.mp hx
      exact readBack_member h (hlegal f hf) ((hfiles _).mpr (Or.inr ⟨f,hf,rfl⟩))
    have hnames : ∀ x ∈ fs.map SourceFile.member, (Text.decodeUtf8 x.name).isSome := by
      intro x hx
      obtain ⟨f,hf,rfl⟩ := List.mem_map.mp hx
      exact hdecodes f hf
    have hchunks : ((fs.map SourceFile.member).map fun x => chunk (x.name,x.content)).flatten =
        chunks fs := by
      rw [List.map_map]
      rfl
    have hcount : Json.get m.fields "file_count" = .int m.fileCount := rfl
    have hdigest : Json.get m.fields "sha256" = .str m.sha256 := rfl
    unfold verify
    rw [digest_eq hread hnames,hchunks,hcount,hdigest]
    simp only [bind,Except.bind,countMatches,List.length_map,Json.asString,Option.some.injEq,
      decide_eq_true_eq,Nat.cast_inj]
    by_cases hsame : m.fileCount = fs.length ∧ m.sha256 = t.sha256 (chunks fs)
    · rw [if_pos hsame,if_pos ⟨hsame.1.symm,hsame.2⟩]
      rfl
    · rw [if_neg hsame,if_neg fun h => hsame ⟨h.1.symm,h.2⟩]
      rfl

/-- The backup is restored as the tree that it was made of. -/
def RoundTrips (t : Surroundings) (destination : PurePath) (disk : Disk) (root : List Bytes)
    (tree : Tree) (instanceId : String) : Prop :=
  ∃ manifest archive restored disk', backupStore t.sha256 tree instanceId = .ok (manifest,archive) ∧
    restoreStore t destination (some archive) instanceId disk = (.ok restored,disk') ∧
    ∀ x, x ∈ disk'.files ↔ x ∈ disk.files ∨ ∃ f ∈ tree.files, x = f.placed root

/-- The instance and the destination are accepted, the names of the files are UTF-8, the files can be
counted in a numeral, and none of them has the name of the manifest. -/
structure Restorable (destination : PurePath) (tree : Tree) (instanceId : String) : Prop where
  accepted : validInstance instanceId = true
  forward : dotdot ∉ destination.parts
  countable : (Json.Atom.int tree.files.rows.length).writable = true
  decodes : ∀ f ∈ tree.files, (Text.decodeUtf8 f.name).isSome
  ordinary : ∀ f ∈ tree.files, f.parts ≠ [manifestName]

theorem length_sorted (tree : Tree) : tree.sorted.length = tree.files.rows.length :=
  List.length_insertionSort _ _

theorem restorable_of_roundTrips (h : EmptyDestination t destination disk root)
    (hround : RoundTrips t destination disk root tree instanceId) :
    Restorable destination tree instanceId := by
  have hsublist : tree.archived.Sublist tree.sorted := List.filter_sublist
  obtain ⟨manifest,archive,restored,disk',hbackup,hrestore,-⟩ := hround
  obtain ⟨hinstance,hdecodes,rfl,text,htext,rfl⟩ := backupStore_eq_ok.mp hbackup
  have hinspect := @inspect_archive t destination disk root tree h _ text htext hinstance
  have hforward : dotdot ∉ destination.parts := by
    intro hdots
    rw [if_pos hdots] at hinspect
    unfold restoreStore at hrestore
    rw [hinspect] at hrestore
    cases hrestore
  obtain ⟨disk'',hall,-,hverify⟩ := @restore_members t destination disk root tree instanceId h
    tree.archived hsublist (fun f hf => hdecodes f (hsublist.subset hf))
    ⟨instanceId,tree.sorted.length,t.sha256 (chunks tree.sorted)⟩
  rw [if_neg hforward] at hinspect
  unfold restoreStore at hrestore
  rw [hinspect] at hrestore
  dsimp only at hrestore
  rw [hall] at hrestore
  dsimp only at hrestore
  rw [hverify] at hrestore
  have hlength : tree.archived.length = tree.sorted.length := by
    by_contra hne
    rw [if_neg fun hsame => hne hsame.1] at hrestore
    cases hrestore
  refine ⟨hinstance,hforward,?_,fun f hf => hdecodes f (mem_sorted.mpr hf),?_⟩
  · rw [← length_sorted]
    by_contra hlong
    rw [Manifest.dumps,if_neg hlong] at htext
    cases htext
  · exact archived_eq_sorted.mp (hsublist.eq_of_length hlength)

theorem roundTrips_of_restorable (h : EmptyDestination t destination disk root)
    (hok : Restorable destination tree instanceId) :
    RoundTrips t destination disk root tree instanceId := by
  have hall := archived_eq_sorted.mpr hok.ordinary
  have hdecodes : ∀ f ∈ tree.sorted, (Text.decodeUtf8 f.name).isSome :=
    fun f hf => hok.decodes f (mem_sorted.mp hf)
  have hcountable := hok.countable
  rw [← length_sorted] at hcountable
  obtain ⟨text,htext⟩ : ∃ text, Manifest.dumps
      ⟨instanceId,tree.sorted.length,t.sha256 (chunks tree.sorted)⟩ = some text :=
    ⟨_,if_pos hcountable⟩
  have hinspect := @inspect_archive t destination disk root tree h _ text htext hok.accepted
  obtain ⟨disk',hextract,hfiles,hverify⟩ := @restore_members t destination disk root tree instanceId h
    tree.sorted (List.Sublist.refl _) hdecodes
    ⟨instanceId,tree.sorted.length,t.sha256 (chunks tree.sorted)⟩
  have hbackup := backupStore_eq_ok.mpr ⟨hok.accepted,hdecodes,rfl,text,htext,rfl⟩
  refine ⟨_,_,⟨instanceId,tree.sorted.length,t.sha256 (chunks tree.sorted)⟩,disk',hbackup,?_,?_⟩
  · unfold restoreStore
    rw [hinspect,if_neg hok.forward]
    dsimp only
    rw [hall,hextract]
    dsimp only
    rw [hverify,if_pos ⟨rfl,rfl⟩]
  · intro x
    rw [hfiles]
    simp only [mem_sorted]

/-- Into an empty directory, exactly these backups are restored as they were. -/
theorem round_trips_iff (h : EmptyDestination t destination disk root) (tree : Tree)
    (instanceId : String) : RoundTrips t destination disk root tree instanceId ↔
      Restorable destination tree instanceId :=
  ⟨restorable_of_roundTrips h,roundTrips_of_restorable h⟩

/-! ### Two stores of one file -/

/-- A file system without links, and the digests that SHA-256 has for the two stores. -/
def plain : Surroundings where
  sha256 b :=
    if b = [] then "e3b0c44298fc1c149afbf4c8996fb92427ae41e4649b934ca495991b7852b855"
    else if b = chunk (Text.encodeUtf8 "report.txt",[1,2]) then
      "56706817623975bcce736cd2139edd6f9886cc63b3f5186f31b8d8d47dd3ecff"
    else "127e548dad84b807e3c331d98dcd87ccfa5b3a88c652bf24fff1b660208463af"
  loads := loadsUtf8
  resolve path := some path.parts

/-- `/srv`, which is there and is empty. -/
def srv : PurePath := ⟨1,[Text.encodeUtf8 "srv"]⟩

def emptyDisk : Disk := ⟨Keyed.Table.empty,[srv.parts]⟩

theorem plain_empty : EmptyDestination plain srv emptyDisk srv.parts where
  mkdir := rfl
  manifestFault := rfl
  fault _ := rfl
  readable _ := rfl
  loads := rfl
  resolve := rfl
  below _ _ := rfl
  files _ hf := absurd hf Keyed.Table.mem_empty
  dirs d hd _ := by simpa [emptyDisk] using hd

/-- A store of one file of two bytes. -/
def single (name : Bytes) (hname : legalName name = true) : Tree where
  files := ⟨[⟨[name],[1,2]⟩],List.nodup_singleton _⟩
  legal f hf := by
    rw [List.mem_singleton.mp hf]
    simpa using hname
  apart f hf g hg _ := (List.mem_singleton.mp hf).trans (List.mem_singleton.mp hg).symm

def report : Tree := single (Text.encodeUtf8 "report.txt") (by decide +kernel)

theorem report_round_trips : RoundTrips plain srv emptyDisk srv.parts report "cloudfiles" := by
  apply (round_trips_iff plain_empty report "cloudfiles").mpr
  constructor
  · decide
  · decide +kernel
  · decide
  · intro f hf
    rw [List.mem_singleton.mp hf]
    simp [SourceFile.name,posix,List.intercalate,Text.decodeUtf8_encodeUtf8]
  · intro f hf
    rw [List.mem_singleton.mp hf]
    decide +kernel

def manifestNamed : Tree := single manifestName (by decide +kernel)

/-- The file with the name of the manifest is counted, and left out of the archive. -/
theorem manifest_name_lost :
    ¬RoundTrips plain srv emptyDisk srv.parts manifestNamed "cloudfiles" := by
  intro hround
  have hrestorable := restorable_of_roundTrips plain_empty hround
  exact hrestorable.ordinary _ (List.mem_singleton.mpr rfl) rfl

end Backup
end CloudBrowser
