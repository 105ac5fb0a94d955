import CloudBrowser.BackupRoundTrip
import CloudBrowser.Delimited
import CloudBrowser.Latin1
import Mathlib.Data.List.Pairwise

/-! Which trees the manifest of a backup stands for: the digest is taken over names and contents
with a NUL after each, and a content may have such bytes of its own. -/
namespace CloudBrowser
namespace Backup

open Delimited (Record readings mem_readings)

/-! ### The stream of a digest -/

def SourceFile.record (f : SourceFile) : Record UInt8 := (f.name,f.content)

/-- The names and the contents of a tree, as they are digested. -/
def Tree.records (tree : Tree) : List (Record UInt8) := tree.sorted.map SourceFile.record

theorem chunks_eq (fs : List SourceFile) :
    chunks fs = Delimited.encode 0 (fs.map SourceFile.record) := by
  unfold chunks Delimited.encode
  rw [List.map_map]
  rfl

/-- A name that a store can have a file under, and that can be digested. -/
def legalPath (name : Bytes) : Bool :=
  (components name).all legalName && (Text.decodeUtf8 name).isSome

/-- Two names in the order of the walk, neither of which is a directory of the other. -/
def Follows (name name' : Bytes) : Prop :=
  components name ≤ components name' ∧ ¬components name <+: components name' ∧
    ¬components name' <+: components name

instance (name name' : Bytes) : Decidable (Follows name name') :=
  inferInstanceAs (Decidable (_ ∧ _))

/-- The records are those of a store. -/
structure Storable (r : List (Record UInt8)) : Prop where
  legal : ∀ e ∈ r, legalPath e.1 = true
  ordered : r.Pairwise fun e e' => Follows e.1 e'.1

/-- Neither of two names is a directory of the other. -/
def NameApart (e e' : Record UInt8) : Prop :=
  ¬components e.1 <+: components e'.1 ∧ ¬components e'.1 <+: components e.1

instance : Std.Symm NameApart := ⟨fun _ _ h => h.symm⟩

theorem Storable.apart {r : List (Record UInt8)} (h : Storable r) : r.Pairwise NameApart :=
  h.ordered.imp fun hfollows => hfollows.2

instance (r : List (Record UInt8)) : Decidable (Storable r) :=
  decidable_of_iff ((∀ e ∈ r, legalPath e.1 = true) ∧ r.Pairwise fun e e' => Follows e.1 e'.1)
    ⟨fun h => ⟨h.1,h.2⟩,fun h => ⟨h.1,h.2⟩⟩

/-- The stream of a tree can be read in no other way, as many files of a store. -/
def Tree.Unambiguous (tree : Tree) : Prop :=
  ∀ r ∈ readings 0 tree.sorted.length (chunks tree.sorted), Storable r → r = tree.records

instance (tree : Tree) : Decidable tree.Unambiguous :=
  inferInstanceAs (Decidable (∀ r ∈ _, _ → _))

/-! ### Trees and records -/

theorem components_ne_nil (name : Bytes) : components name ≠ [] := List.splitOn_ne_nil slash name

theorem posix_components (name : Bytes) : posix (components name) = name :=
  List.intercalate_splitOn slash

theorem legal_of_legalPath {name : Bytes} (h : legalPath name = true) :
    ∀ c ∈ components name, legalName c = true := by
  simp only [legalPath,Bool.and_eq_true,List.all_eq_true] at h
  exact h.1

theorem components_name {f : SourceFile} (hf : f.Legal) : components f.name = f.parts :=
  components_posix hf.1 hf.2

theorem record_injective {f g : SourceFile} (hf : f.Legal) (hg : g.Legal)
    (h : f.record = g.record) : f = g := by
  have hname : f.name = g.name := congrArg Prod.fst h
  have hcontent : f.content = g.content := congrArg Prod.snd h
  have hparts : f.parts = g.parts := by rw [← components_name hf,hname,components_name hg]
  cases f
  cases g
  simp_all

theorem ordered_sorted (tree : Tree) : tree.sorted.Pairwise fun f g => f.parts ≤ g.parts :=
  List.pairwise_insertionSort _ _

theorem storable_records {tree : Tree}
    (h : ∀ f ∈ tree.sorted, (Text.decodeUtf8 f.name).isSome) : Storable tree.records := by
  constructor
  · intro e he
    obtain ⟨f,hf,rfl⟩ := List.mem_map.mp he
    have hlegal := legal_of_sorted hf
    have hparts : (components f.name).all legalName = true := by
      rw [components_name hlegal]
      exact List.all_eq_true.mpr hlegal.2
    simp only [legalPath,SourceFile.record,hparts,h f hf,Bool.and_self]
  · unfold Tree.records
    rw [List.pairwise_map]
    apply ((ordered_sorted tree).and (apart_sorted tree)).imp_of_mem
    intro f g hf hg hfg
    unfold Follows
    rw [SourceFile.record,SourceFile.record,components_name (legal_of_sorted hf),
      components_name (legal_of_sorted hg)]
    exact ⟨hfg.1,hfg.2⟩

theorem mem_posix {b : UInt8} {parts : List Bytes} (h : b ∈ posix parts) :
    b = slash ∨ ∃ c ∈ parts, b ∈ c := by
  induction parts with
  | nil => cases h
  | cons c cs ih =>
    cases cs with
    | nil => exact .inr ⟨c,by simp,by simpa [posix,List.intercalate] using h⟩
    | cons c' cs =>
      have hsplit : b ∈ c ∨ b = slash ∨ b ∈ posix (c' :: cs) := by
        simpa [posix,List.intercalate] using h
      rcases hsplit with hc | hslash | hrest
      · exact .inr ⟨c,by simp,hc⟩
      · exact .inl hslash
      · rcases ih hrest with hslash | ⟨c'',hmem,hc⟩
        · exact .inl hslash
        · exact .inr ⟨c'',by simp [hmem],hc⟩

/-- No path has a NUL. -/
theorem zero_not_mem_posix {parts : List Bytes} (h : ∀ c ∈ parts, legalName c = true) :
    (0 : UInt8) ∉ posix parts := by
  intro hmem
  rcases mem_posix hmem with hslash | ⟨c,hc,hb⟩
  · exact absurd hslash (by decide)
  · have hlegal := h c hc
    simp [legalName,hb] at hlegal

theorem head_plain {name : Bytes} (h : legalPath name = true) : (0 : UInt8) ∉ name := by
  rw [← posix_components name]
  exact zero_not_mem_posix (legal_of_legalPath h)

/-- The file of a record. -/
def fileOf (e : Record UInt8) : SourceFile := ⟨components e.1,e.2⟩

theorem record_fileOf (e : Record UInt8) : (fileOf e).record = e := by
  rw [SourceFile.record,SourceFile.name,fileOf,posix_components]

/-- The tree of the records of a store. -/
def treeOf (r : List (Record UInt8)) (h : Storable r) : Tree where
  files := ⟨r.map fileOf,by
    rw [List.map_map]
    apply List.Pairwise.map _ _ (h.ordered)
    intro e e' hfollows heq
    have hsame : components e.1 = components e'.1 := heq
    exact hfollows.2.1 (hsame ▸ List.prefix_rfl)⟩
  legal f hf := by
    obtain ⟨e,he,rfl⟩ := List.mem_map.mp hf
    exact ⟨components_ne_nil _,legal_of_legalPath (h.legal e he)⟩
  apart f hf g hg hprefix := by
    obtain ⟨e,he,rfl⟩ := List.mem_map.mp hf
    obtain ⟨e',he',rfl⟩ := List.mem_map.mp hg
    by_contra hne
    have hentries : e ≠ e' := fun heq => hne (congrArg fileOf heq)
    exact (h.apart.forall he he' hentries).1 hprefix

theorem sorted_treeOf {r : List (Record UInt8)} (h : Storable r) :
    (treeOf r h).sorted = r.map fileOf := by
  have hordered : (r.map fileOf).Pairwise fun f g => f.parts ≤ g.parts := by
    rw [List.pairwise_map]
    exact h.ordered.imp fun hfollows => hfollows.1
  exact hordered.insertionSort_eq

theorem records_treeOf {r : List (Record UInt8)} (h : Storable r) : (treeOf r h).records = r := by
  rw [Tree.records,sorted_treeOf,List.map_map]
  simp [Function.comp_def,record_fileOf]

/-- Two trees with the same files are walked as the same list. -/
theorem sorted_eq_iff {tree other : Tree} :
    (∀ f, f ∈ other.files ↔ f ∈ tree.files) ↔ other.records = tree.records := by
  constructor
  · intro h
    have hnodup : ∀ tree : Tree, tree.sorted.Nodup := fun tree =>
      (List.perm_insertionSort _ _).nodup_iff.mpr (List.Nodup.of_map _ tree.files.distinct)
    have hperm : other.sorted.Perm tree.sorted := by
      apply (List.perm_ext_iff_of_nodup (hnodup other) (hnodup tree)).mpr
      intro f
      rw [mem_sorted,mem_sorted,h f]
    have hsorted : other.sorted = tree.sorted := by
      apply hperm.eq_of_pairwise _ (ordered_sorted other) (ordered_sorted tree)
      intro f g hf hg hle hge
      have hf' : f ∈ tree.files := (h f).mp (mem_sorted.mp hf)
      exact Keyed.Table.eq_of_key hf' (mem_sorted.mp hg) (List.le_antisymm hle hge)
    rw [Tree.records,Tree.records,hsorted]
  · intro h
    have hmem : ∀ {t t' : Tree}, t.records = t'.records → ∀ f ∈ t.files, f ∈ t'.files := by
      intro t t' heq f hf
      have hrecord : f.record ∈ t'.records := by
        rw [← heq]
        exact List.mem_map_of_mem (mem_sorted.mpr hf)
      obtain ⟨g,hg,hsame⟩ := List.mem_map.mp hrecord
      rw [← record_injective (legal_of_sorted hg) (t.legal f hf) hsame]
      exact mem_sorted.mp hg
    exact fun f => ⟨hmem h f,hmem h.symm f⟩

/-! ### What the manifest stands for -/

/-- No other tree has a manifest with this count and this digest. -/
def Pins (sha256 : Bytes → String) (tree : Tree) (manifest : Manifest) : Prop :=
  ∀ (other : Tree) (instanceId : String) (manifest' : Manifest) (archive : List Member),
    backupStore sha256 other instanceId = .ok (manifest',archive) →
      manifest'.fileCount = manifest.fileCount → manifest'.sha256 = manifest.sha256 →
        ∀ f, f ∈ other.files ↔ f ∈ tree.files

/-- Contents without NUL bytes leave no other reading. -/
theorem unambiguous_of_plain {tree : Tree} (h : ∀ f ∈ tree.files, (0 : UInt8) ∉ f.content) :
    tree.Unambiguous := by
  intro r hr _
  obtain ⟨hlength,hheads,hencode⟩ := mem_readings.mp hr
  apply Delimited.reading_unique _ hheads (by rw [Tree.records,List.length_map,hlength])
  · rw [hencode,chunks_eq]
    rfl
  · intro e he
    obtain ⟨f,hf,rfl⟩ := List.mem_map.mp he
    exact ⟨zero_not_mem_posix (legal_of_sorted hf).2,h f (mem_sorted.mp hf)⟩

/-- The first of two files holds what could be the end of its content, the name of a second file
and the beginning of that one's. -/
def nested : Tree := treeOf [([0x61],[1,0,0x62,0,2]),([0x63],[3])] (by decide +kernel)

def unnested : Tree := treeOf [([0x61],[1]),([0x62],[2,0,0x63,0,3])] (by decide +kernel)

end Backup
end CloudBrowser
