import CloudBrowser.FilesGateway
import Mathlib.Data.List.SplitBy

/-! What is listed by the gateway, and what a GET of a listed name gives. -/
namespace CloudBrowser

namespace CloudFiles

variable {s value name : String}

/-! ### Decoded texts -/

theorem forall₂_of_mapM {α β : Type} {f : α → Option β} {l : List α} {l' : List β}
    (h : l.mapM f = some l') : List.Forall₂ (fun x y => f x = some y) l l' := by
  induction l generalizing l' with
  | nil =>
    cases h
    exact .nil
  | cons x l ih =>
    rw [List.mapM_cons] at h
    obtain ⟨y,hy,h⟩ := Option.bind_eq_some_iff.mp h
    obtain ⟨ys,hys,h⟩ := Option.bind_eq_some_iff.mp h
    cases h
    exact .cons hy (ih hys)

/-- The runs of a text, and what strict decoding makes of one. -/
def runs (s : String) : List (List Char) := s.toList.splitBy fun a b => isAscii a == isAscii b

def decodeRun (run : List Char) : Option String :=
  if run.all isAscii then Text.decodeUtf8 (unquoteToBytes run) else some (String.ofList run)

theorem unquote_cases (h : unquote s = some value) : '%' ∉ s.toList ∧ value = s ∨
    '%' ∈ s.toList ∧ ∃ parts,
      List.Forall₂ (fun run part => decodeRun run = some part) (runs s) parts ∧
      value = String.join parts := by
  rw [unquote] at h
  by_cases hpercent : '%' ∈ s.toList
  · rw [if_neg (not_not_intro hpercent)] at h
    obtain ⟨parts,hparts,hvalue⟩ := Option.bind_eq_some_iff.mp h
    cases hvalue
    exact Or.inr ⟨hpercent,parts,forall₂_of_mapM hparts,rfl⟩
  · rw [if_pos hpercent] at h
    exact Or.inl ⟨hpercent,(Option.some.inj h).symm⟩

theorem mem_decoded {l : List (List Char)} {parts : List String} {c : Char}
    (h : List.Forall₂ (fun run part => decodeRun run = some part) l parts) (hc : c ∈ l.flatten)
    (hascii : isAscii c = false) : c ∈ parts.flatMap String.toList := by
  induction h with
  | nil => exact hc
  | @cons run part l parts hrun _ ih =>
    rw [List.flatten_cons,List.mem_append] at hc
    rw [List.flatMap_cons,List.mem_append]
    refine hc.imp (fun hc => ?_) ih
    have hall : ¬run.all isAscii = true := fun hall => by
      simp [List.all_eq_true.mp hall c hc] at hascii
    rw [decodeRun,if_neg hall] at hrun
    cases hrun
    simpa using hc

/-- What is no ASCII is not escaped, and stays. -/
theorem mem_unquote {c : Char} (h : unquote s = some value) (hc : c ∈ s.toList)
    (hascii : isAscii c = false) : c ∈ value.toList := by
  obtain ⟨-,rfl⟩ | ⟨-,parts,hparts,rfl⟩ := unquote_cases h
  · exact hc
  · rw [String.toList_join]
    apply mem_decoded hparts _ hascii
    rw [runs,List.flatten_splitBy]
    exact hc

theorem isAscii_of_validateName (h : validateName s = some value)
    (hascii : value.toList.all isAscii = true) : s.toList.all isAscii = true := by
  rw [List.all_eq_true]
  intro c hc
  by_contra hother
  rw [Bool.not_eq_true] at hother
  unfold validateName at h
  split_ifs at h
  obtain ⟨decoded,hdecoded,h⟩ := Option.bind_eq_some_iff.mp h
  split_ifs at h
  cases h
  have hstays := List.all_eq_true.mp hascii c (mem_unquote hdecoded hc hother)
  rw [hother] at hstays
  cases hstays

end CloudFiles

namespace Storage
namespace DownloadStore

open CloudFiles
open Directories

variable {store : DownloadStore} {p name : String} {disk : Disk} {f : Folder Node}
  {result : List DownloadEntry} {entry : DownloadEntry}

/-- The content that the listing speaks of: this release's file, or else that of the one before. -/
def contentOf (store : DownloadStore) (p : String) (disk : Disk) (name : String) : Option Bytes :=
  (((disk.subarea (store.ownerKey p) entriesDir).bind (fileAt name)).or
    ((disk.area p).bind (fileAt name))).map Prod.fst

theorem mem_foldl_addEntry {names : List String} (hfiles : ∀ name ∈ names, name ∈ fileNames f)
    (h : entry ∈ names.foldl (store.addEntry p disk f) result) : entry ∈ result ∨
      result.length < store.maxEntries ∧ entry.name ∉ result.map DownloadEntry.name ∧
      entry.name ∈ names ∧
      entry = entryOf p (fun name => store.readIndexHash p name disk) f entry.name := by
  induction names generalizing result with
  | nil => exact Or.inl h
  | cons name names ih =>
    rw [List.foldl_cons] at h
    have hrest := @ih _ (fun n hn => hfiles n (List.mem_cons_of_mem _ hn)) h
    rw [addEntry_file (hfiles name List.mem_cons_self)] at hrest
    split_ifs at hrest with hskip
    · exact hrest.imp_right fun h => ⟨h.1,h.2.1,List.mem_cons_of_mem _ h.2.2.1,h.2.2.2⟩
    · rw [not_or,Nat.not_le] at hskip
      rw [List.mem_append,List.mem_singleton,List.length_append,List.map_append,List.mem_append,
        not_or] at hrest
      rcases hrest with (hold | rfl) | ⟨hlength,hnew,hname,hentry⟩
      · exact Or.inl hold
      · exact Or.inr ⟨hskip.1,hskip.2,List.mem_cons_self,rfl⟩
      · exact Or.inr ⟨hskip.1,hnew.1,List.mem_cons_of_mem _ hname,hentry⟩

theorem mem_addFiles {a : Option (Folder Node)} (h : entry ∈ store.addFiles p disk result a) :
    entry ∈ result ∨ result.length < store.maxEntries ∧
      entry.name ∉ result.map DownloadEntry.name ∧ ∃ f, a = some f ∧ entry.name ∈ fileNames f ∧
      entry = entryOf p (fun name => store.readIndexHash p name disk) f entry.name := by
  cases a with
  | none => exact Or.inl h
  | some f =>
    rw [addFiles,Option.elim_some,foldl_addEntry] at h
    refine (mem_foldl_addEntry (fun _ h => h) h).imp_right fun h => ?_
    exact ⟨h.1,h.2.1,f,rfl,h.2.2⟩

/-- What is listed from a quarantine says so, and has no digest. -/
theorem cases_addQuarantine {a : Option (Folder Node)}
    (h : entry ∈ store.addQuarantine p result a) :
    entry ∈ result ∨ entry.quarantined = true ∧ entry.sha256 = none := by
  cases a with
  | none => exact Or.inl h
  | some f =>
    rw [addQuarantine,Option.elim_some] at h
    generalize sortedNames f = names at h
    induction names generalizing result with
    | nil => exact Or.inl h
    | cons name names ih =>
      rw [List.foldl_cons] at h
      rcases ih h with hadd | hquarantined
      · unfold addQuarantined at hadd
        split_ifs at hadd with hfull
        · exact Or.inl hadd
        · split at hadd
          · rw [List.mem_append,List.mem_singleton] at hadd
            rcases hadd with hold | rfl
            · exact Or.inl hold
            · exact Or.inr ⟨rfl,rfl⟩
          · exact Or.inl hadd
      · exact Or.inr hquarantined

theorem mem_addQuarantine {a : Option (Folder Node)} (h : entry ∈ store.addQuarantine p result a)
    (hclean : entry.quarantined = false) : entry ∈ result := by
  rcases cases_addQuarantine h with hmem | ⟨hquarantined,-⟩
  · exact hmem
  · simp [hclean] at hquarantined

theorem size_entryOf {hash : String → Option String} (h : name ∈ fileNames f) :
    ∃ file, fileAt name f = some file ∧ (entryOf p hash f name).size = file.1.length := by
  obtain ⟨file,hfile⟩ := Option.isSome_iff_exists.mp (mem_fileNames.mp h).2
  exact ⟨file,hfile,by rw [entryOf,hfile]; rfl⟩

/-- What is listed from the directory of the release before is not in this release's. -/
theorem fileAt_first {a : Option (Folder Node)} (hvalid : (validateName name).isSome)
    (hlength : (store.addFiles p disk [] a).length < store.maxEntries)
    (hnew : name ∉ (store.addFiles p disk [] a).map DownloadEntry.name) :
    a.bind (fileAt name) = none := by
  cases a with
  | none => rfl
  | some f =>
    rw [addFiles_first,List.length_take,List.length_map] at hlength
    rw [addFiles_first,List.take_of_length_le (by rw [List.length_map]; omega),List.map_map] at hnew
    have hfile : name ∉ fileNames f := fun h => hnew (List.mem_map.mpr ⟨name,h,rfl⟩)
    rw [mem_fileNames,not_and] at hfile
    exact Option.not_isSome_iff_eq_none.mp (hfile hvalid)

/-- Every file that is listed is there, with the size that is listed. -/
theorem content_of_listed {all : List DownloadEntry} (h : store.listEntries p disk = .ok all)
    (hentry : entry ∈ all) (hclean : entry.quarantined = false) :
    store.Safe p disk ∧ (validateName entry.name).isSome ∧
      ∃ content, store.contentOf p disk entry.name = some content ∧
        entry.size = content.length := by
  rw [listEntries_eq] at h
  split_ifs at h with howner hsafe
  cases h
  have hlisted := mem_addQuarantine
    (mem_addQuarantine (List.mem_insertionSort _ |>.mp hentry) hclean) hclean
  refine ⟨hsafe.1,?_⟩
  unfold contentOf
  rcases mem_addFiles hlisted with hfirst | ⟨hlength,hnew,f,harea,hname,hsize⟩
  · rcases mem_addFiles hfirst with hnone | ⟨-,-,f,hsub,hname,hsize⟩
    · cases hnone
    · obtain ⟨file,hfile,hlength⟩ :=
        @size_entryOf p _ _ (fun n => store.readIndexHash p n disk) hname
      refine ⟨(mem_fileNames.mp hname).1,file.1,?_,hsize ▸ hlength⟩
      rw [hsub,Option.bind_some,hfile]
      rfl
  · obtain ⟨file,hfile,hlength'⟩ :=
      @size_entryOf p _ _ (fun n => store.readIndexHash p n disk) hname
    refine ⟨(mem_fileNames.mp hname).1,file.1,?_,hsize ▸ hlength'⟩
    rw [fileAt_first (mem_fileNames.mp hname).1 hlength hnew,harea,Option.bind_some,hfile]
    rfl

/-- Under a name that is its own the listed content is found, unless it is too long. -/
theorem found_iff {content : Bytes} (h : store.contentOf p disk name = some content) :
    store.found p disk name = some content ↔ content.length ≤ store.maxFileBytes := by
  have hregular : ∀ a : Option (Folder Node), a.bind (regular store.maxFileBytes name) =
      (a.bind (fileAt name)).bind fun file =>
        if file.1.length ≤ store.maxFileBytes then some file.1 else none := by
    intro a
    cases a with
    | none => rfl
    | some f => exact regular_eq store.maxFileBytes name f
  rw [found,hregular,hregular]
  unfold contentOf at h
  generalize (disk.subarea (store.ownerKey p) entriesDir).bind (fileAt name) = first at h ⊢
  generalize (disk.area p).bind (fileAt name) = second at h ⊢
  cases first with
  | none =>
    cases second with
    | none => cases h
    | some file =>
      cases h
      by_cases hle : file.1.length ≤ store.maxFileBytes <;> simp [hle]
  | some file =>
    cases h
    by_cases hle : file.1.length ≤ store.maxFileBytes
    · simp [hle]
    · cases second with
      | none => simp [hle]
      | some other =>
        simp only [Option.bind_some,hle,if_false,Option.none_or,iff_false]
        intro hother
        split_ifs at hother with hle'
        rw [Option.some.inj hother] at hle'
        exact hle hle'

end DownloadStore
end Storage

namespace FilesGateway

open CloudFiles
open Storage

variable {decode : Bytes → String} {s value name : String}

/-- Where strict decoding succeeds, so does one that puts something for what is no text. -/
theorem unquoteWith_of_unquote (h : unquote s = some value)
    (hdecode : ∀ b text, Text.decodeUtf8 b = some text → decode b = text) :
    unquoteWith decode s = value := by
  obtain ⟨hpercent,rfl⟩ | ⟨hpercent,parts,hparts,rfl⟩ := unquote_cases h
  · rw [unquoteWith,if_pos hpercent]
  · rw [unquoteWith,if_neg (not_not_intro hpercent)]
    congr 1
    show (runs s).map _ = parts
    generalize runs s = l at hparts
    clear h
    induction hparts with
    | nil => rfl
    | @cons run part l parts hrun _ ih =>
      rw [List.map_cons,ih]
      congr 1
      unfold decodeRun at hrun
      split_ifs at hrun ⊢ with hall
      · exact hdecode _ _ hrun
      · exact Option.some.inj hrun

/-- A text of ASCII is decoded as a whole. -/
theorem unquoteWith_ascii (hascii : s.toList.all isAscii = true)
    (hdecode : ∀ cs : List Char, cs.all isAscii = true →
      decode (cs.map fun c => UInt8.ofNat c.toNat) = String.ofList cs) :
    unquoteWith decode s = decode (unquoteToBytes s.toList) := by
  by_cases hpercent : '%' ∈ s.toList
  · have hne : s.toList ≠ [] := List.ne_nil_of_mem hpercent
    have hchain : List.IsChain (fun a b => (isAscii a == isAscii b) = true) s.toList := by
      apply List.Pairwise.isChain
      apply List.pairwise_of_forall_mem_list
      intro a ha b hb
      rw [List.all_eq_true] at hascii
      rw [hascii a ha,hascii b hb]
      rfl
    rw [unquoteWith,if_neg (not_not_intro hpercent),List.splitBy_of_isChain hne hchain,
      List.map_singleton,if_pos hascii,String.join_cons,String.join_nil,String.append_empty]
  · rw [unquoteWith,if_pos hpercent,unquoteToBytes_unescaped hpercent,hdecode _ hascii,
      String.ofList_toList]

theorem byteChar_ascii {c : Char} (h : isAscii c = true) :
    Text.byteChar (UInt8.ofNat c.toNat) = c := by
  have hlt : c.toNat < 0x80 := UInt32.lt_iff_toNat_lt.mp (of_decide_eq_true h)
  apply Char.toNat_inj.mp
  rw [Text.toNat_byteChar,UInt8.toNat_ofNat',Nat.mod_eq_of_lt (by omega)]

theorem decodeLatin1_ascii {cs : List Char} (h : cs.all isAscii = true) :
    Text.decodeLatin1 (cs.map fun c => UInt8.ofNat c.toNat) = String.ofList cs := by
  rw [Text.decodeLatin1,List.map_map]
  congr 1
  rw [List.all_eq_true] at h
  exact (List.map_congr_left fun c hc => byteChar_ascii (h c hc)).trans (List.map_id cs)

/-- What the gateway is given for a name: its bytes, each as a character. -/
def asLatin1 (name : String) : String := Text.decodeLatin1 (Text.encodeUtf8 name)

theorem encodeUtf8_of_ascii (h : name.toList.all isAscii = true) :
    Text.encodeUtf8 name = name.toList.map fun c => UInt8.ofNat c.toNat := by
  rw [← encodeUtf8_ascii (List.all_eq_true.mp h),String.ofList_toList]

theorem asLatin1_ascii (h : name.toList.all isAscii = true) : asLatin1 name = name := by
  rw [asLatin1,encodeUtf8_of_ascii h,decodeLatin1_ascii h,String.ofList_toList]

/-- Only names of ASCII come out as ASCII. -/
theorem isAscii_of_asLatin1 (h : (asLatin1 name).toList.all isAscii = true) :
    name.toList.all isAscii = true := by
  have hbytes : Text.encodeUtf8 (asLatin1 name) = Text.encodeUtf8 name := by
    rw [encodeUtf8_of_ascii h,asLatin1,Text.decodeLatin1,String.toList_ofList,List.map_map]
    apply List.map_id''
    intro b
    rw [Function.comp_apply,Text.toNat_byteChar,UInt8.ofNat_toNat]
  rwa [Text.encodeUtf8_injective hbytes] at h

/-! ### Routes -/

theorem length_route : fileRoute.toList.length = fileRoute.length := String.length_toList

theorem fileName_route (s : String) : fileName (fileRoute ++ s) = some s := by
  rw [fileName,String.toList_append,if_pos (List.prefix_append _ _),List.drop_left' length_route,
    String.ofList_toList]

theorem unquoteToBytes_append {cs : List Char} (h : '%' ∉ cs) (rest : List Char) :
    unquoteToBytes (cs ++ rest) = cs.map (fun c => UInt8.ofNat c.toNat) ++ unquoteToBytes rest := by
  induction cs with
  | nil => rfl
  | cons c cs ih =>
    rw [List.mem_cons,not_or] at h
    rw [List.cons_append,unquoteToBytes_plain (Ne.symm h.1),ih h.2]
    rfl

theorem quoted_ascii (name : String) : (quote name).toList.all isAscii = true := by
  rw [quote,String.toList_ofList,List.all_eq_true]
  exact fun c hc => isAscii_of_isQuoted (isQuoted_quoted hc)

theorem link_ascii (name : String) : (fileLink name).toList.all isAscii = true := by
  have hroute : fileRoute.toList.all isAscii = true := rfl
  rw [fileLink,String.toList_append,List.all_append,hroute,quoted_ascii]
  rfl

theorem unquoteToBytes_link (name : String) : unquoteToBytes (fileLink name).toList =
    Text.encodeUtf8 fileRoute ++ Text.encodeUtf8 name := by
  have hroute : '%' ∉ fileRoute.toList := by decide
  rw [fileLink,String.toList_append,unquoteToBytes_append hroute,quote,String.toList_ofList,
    unquoteToBytes_quoted]
  rfl

/-- The gateway does not get the name back, but the bytes of the name. -/
theorem pathInfo_link (name : String) : pathInfo (fileLink name) = fileRoute ++ asLatin1 name := by
  have hroute : asLatin1 fileRoute = fileRoute := asLatin1_ascii rfl
  rw [pathInfo,unquoteWith_ascii (link_ascii name) fun cs hcs => decodeLatin1_ascii hcs,
    unquoteToBytes_link,Text.decodeLatin1_append]
  show asLatin1 fileRoute ++ asLatin1 name = _
  rw [hroute]

/-- A path below the route of the files is no other route. -/
theorem fileRoute_append_ne {path : String} (h : ¬fileRoute.toList <+: path.toList)
    (rest : String) : fileRoute ++ rest ≠ path := by
  intro heq
  apply h
  rw [← heq,String.toList_append]
  exact List.prefix_append _ _

theorem get_link (g : Gateway) (binding : PrincipalBinding) (disk : Disk) (name : String) :
    g.get binding disk (fileLink name) = g.file binding disk (asLatin1 name) := by
  have hlist : ¬(fileRoute ++ asLatin1 name = "/" ∨ fileRoute ++ asLatin1 name = "/api/files") :=
    not_or.mpr ⟨fileRoute_append_ne (by decide) _,fileRoute_append_ne (by decide) _⟩
  unfold Gateway.get
  dsimp only
  rw [pathInfo_link,if_neg (fileRoute_append_ne (by decide) _),
    if_neg (fileRoute_append_ne (by decide) _),if_neg hlist,fileName_route]

theorem extractName_link (service : DownloadsService) (name : String) :
    service.extractName (fileLink name) = some name := by
  rw [DownloadsService.extractName,fileLink,fileName_route,Option.map_some,
    unquoteWith_of_unquote (unquote_quote name)]
  intro b text h
  rw [h]
  rfl

/-! ### The header -/

theorem isPrintable_of_ascii {c : Char} (h : isAscii c = true)
    (hcontrol : Text.isControl c = false) : isPrintable c = true := by
  have hlt : c.toNat < 0x80 := UInt32.lt_iff_toNat_lt.mp (of_decide_eq_true h)
  simp only [Text.isControl,Bool.or_eq_false_iff,decide_eq_false_iff_not,beq_eq_false_iff_ne]
    at hcontrol
  have hlow : ¬c.toNat < 0x20 := fun hlt => hcontrol.1 (UInt32.lt_iff_toNat_lt.mpr hlt)
  have hne : c.toNat ≠ 0x7F := fun heq => hcontrol.2 (UInt32.toNat_inj.mp heq)
  simp only [isPrintable,Bool.and_eq_true,decide_eq_true_eq]
  exact ⟨UInt32.le_iff_toNat_le.mpr (by simpa using hlow),
    UInt32.le_iff_toNat_le.mpr (show c.toNat ≤ 0x7E by omega)⟩

theorem isAscii_of_isPrintable {c : Char} (h : isPrintable c = true) : isAscii c = true := by
  simp only [isPrintable,Bool.and_eq_true,decide_eq_true_eq] at h
  have hle : c.toNat ≤ 0x7E := UInt32.le_iff_toNat_le.mp h.2
  exact decide_eq_true (UInt32.lt_iff_toNat_lt.mpr (show c.toNat < 0x80 by omega))

/-- The header takes the names of ASCII, and no others. -/
theorem safeContentDisposition_isSome (h : validateName s = some name) :
    (safeContentDisposition name).isSome = name.toList.all isAscii := by
  have hplain := validateName_plain h
  simp only [plainName,Bool.and_eq_true,Bool.not_eq_true',List.any_eq_false,Bool.or_eq_true,not_or,
    Bool.not_eq_true] at hplain
  have hall : name.toList.all isPrintable = name.toList.all isAscii := by
    rw [Bool.eq_iff_iff,List.all_eq_true,List.all_eq_true]
    exact forall₂_congr fun c hc =>
      ⟨isAscii_of_isPrintable,fun h => isPrintable_of_ascii h (hplain.2 c hc).2⟩
  rw [safeContentDisposition,validateName_idem h,← hall]
  dsimp only
  cases name.toList.all isPrintable <;> rfl

/-! ### One request to the service -/

/-- The service lets the client in, for the principal of the binding. -/
def Admitted (g : Gateway) (binding : PrincipalBinding) : Prop :=
  checkTrustedSecret g.client.sharedSecret g.service.trustedSecret = true ∧
    (defaultIdentityResolver (g.client.headers binding (requestOf binding))).isSome

theorem principal_of_resolver {h : TrustedHeaders} {identity : PrincipalIdentity}
    (hidentity : defaultIdentityResolver h = some identity) :
    identity.principalId = h.principal := by
  unfold defaultIdentityResolver at hidentity
  split_ifs at hidentity
  cases hidentity
  rfl

theorem requestOf_ne (binding : PrincipalBinding) : requestOf binding ≠ "" := by
  unfold requestOf
  split_ifs with h
  · decide
  · exact h

section Requests

variable {g : Gateway} {binding : PrincipalBinding} {disk : Disk} {content : Bytes}

theorem doGet_admitted (h : Admitted g binding) {path : String} (hhealth : path ≠ "/health")
    (hlist : path ≠ "/api/files") : ∃ identity : PrincipalIdentity,
      identity.principalId = binding.principalId ∧
      g.service.doGet (g.client.headers binding (requestOf binding)) path disk =
        g.service.getFile identity path disk := by
  obtain ⟨identity,hidentity⟩ := Option.isSome_iff_exists.mp h.2
  have hsecret : ¬checkTrustedSecret (g.client.headers binding (requestOf binding)).trustedSecret
      g.service.trustedSecret = false := by simp [DownloadsClient.headers,h.1]
  refine ⟨identity,principal_of_resolver hidentity,?_⟩
  rw [DownloadsService.doGet,if_neg hhealth,if_neg hsecret,hidentity]
  dsimp only
  rw [if_neg hlist]

theorem readFile_plain {identity : PrincipalIdentity} (hname : validateName s = some name)
    (hidentity : identity.principalId = binding.principalId)
    (hstore : g.service.store.Safe binding.principalId disk) :
    g.service.readFile identity name disk =
      .ok (g.service.store.found binding.principalId disk name) := by
  have hplain := validateName_plain hname
  simp only [plainName,Bool.and_eq_true,Bool.not_eq_true',List.any_eq_false,Bool.or_eq_true,not_or,
    Bool.not_eq_true,decide_eq_true_eq,nameMax] at hplain
  have hmark : ∀ c ∈ ['/','\\'], c ∉ name.toList := by
    intro c hmark hc
    have hfalse := (hplain.2 c hc).1
    rw [List.contains_iff_mem.mpr hmark] at hfalse
    cases hfalse
  have hdots : name ≠ ".." := by
    rintro rfl
    exact hplain.1.2 rfl
  have hlength : ¬(name = "" ∨ 1024 < name.length) := by
    have hbound : name.length ≤ 255 := of_decide_eq_true hplain.1.1.2
    rw [not_or]
    exact ⟨hplain.1.1.1,by omega⟩
  have hpath : ¬('/' ∈ name.toList ∨ '\\' ∈ name.toList ∨ name = "..") :=
    not_or.mpr ⟨hmark _ (by simp),not_or.mpr ⟨hmark _ (by simp),hdots⟩⟩
  have hprincipal : ¬isPrincipal binding.principalId = false := by simp [binding.principal]
  have hagain := validateName_idem hname
  rw [DownloadsService.readFile,if_neg hlength,if_neg hpath,hagain]
  dsimp only
  rw [hidentity,DownloadStore.read_eq,hagain]
  dsimp only
  rw [if_neg hprincipal,if_pos hstore]

/-- The path of a file has a route, and of what a query or a fragment begins with there is none. -/
theorem not_mem_link {c : Char} (hroute : c ∉ fileRoute.toList) (hquoted : isQuoted c = false) :
    c ∉ (fileLink name).toList := by
  intro h
  rw [fileLink,String.toList_append,List.mem_append,quote,String.toList_ofList] at h
  rcases h with h | h
  · exact hroute h
  · rw [isQuoted_quoted h] at hquoted
    cases hquoted

/-- What the service answers about a name that is plain. -/
theorem doGet_link (h : Admitted g binding) (hname : validateName s = some name)
    (hstore : g.service.store.Safe binding.principalId disk) :
    g.service.doGet (g.client.headers binding (requestOf binding)) (fileLink name) disk =
      (g.service.store.found binding.principalId disk name).elim (.error 404 "not_found")
        fun payload => DownloadsService.bytes payload name := by
  obtain ⟨identity,hidentity,hget⟩ := @doGet_admitted g binding disk h (fileLink name)
    (fileRoute_append_ne (by decide) _) (fileRoute_append_ne (by decide) _)
  rw [hget,DownloadsService.getFile,extractName_link]
  dsimp only
  rw [validateName_idem hname]
  dsimp only
  rw [readFile_plain hname hidentity hstore]
  cases g.service.store.found binding.principalId disk name <;> rfl

theorem request_eq {path : String} (hhead : path.toList.head? = some '/')
    (hquery : '?' ∉ path.toList) (hfragment : '#' ∉ path.toList) :
    g.client.request g.service binding (requestOf binding) disk path = g.client.received
      (g.service.doGet (g.client.headers binding (requestOf binding)) path disk) := by
  rw [DownloadsClient.request,if_neg (by simp [hhead,hquery,hfragment]),
    if_neg (requestOf_ne binding)]

/-- For a name of ASCII the client gets the file that is found, if that is not too long. -/
theorem readFile_ascii (h : Admitted g binding) (hname : validateName s = some name)
    (hascii : name.toList.all isAscii = true)
    (hstore : g.service.store.Safe binding.principalId disk) :
    g.client.readFile g.service binding (requestOf binding) disk name = .ok (some content) ↔
      g.service.store.found binding.principalId disk name = some content ∧
        content.length ≤ g.client.maxResponseBytes := by
  have hlatin1 : name.toList.all Text.isLatin1 = true := by
    rw [List.all_eq_true] at hascii ⊢
    intro c hc
    have hlt : c.toNat < 0x80 := UInt32.lt_iff_toNat_lt.mp (of_decide_eq_true (hascii c hc))
    exact decide_eq_true (UInt32.lt_iff_toNat_lt.mpr (show c.toNat < 0x100 by omega))
  have hhead : (fileLink name).toList.head? = some '/' := by
    rw [fileLink,String.toList_append]
    rfl
  have hrequest := @request_eq g binding disk (fileLink name) hhead
    (not_mem_link (by decide) (by decide)) (not_mem_link (by decide) (by decide))
  rw [doGet_link h hname hstore] at hrequest
  rw [DownloadsClient.readFile,validateName_idem hname]
  dsimp only
  rw [hrequest]
  cases hfound : g.service.store.found binding.principalId disk name with
  | none => simp [DownloadsClient.received]
  | some payload =>
    rw [Option.elim_some,DownloadsService.bytes,if_pos hlatin1,DownloadsClient.received]
    by_cases hlong : g.client.maxResponseBytes < payload.length
    · simp only [if_pos hlong]
      constructor
      · intro h
        cases h
      · rintro ⟨h,hle⟩
        cases h
        exact absurd hle (Nat.not_le.mpr hlong)
    · simp only [if_neg hlong]
      constructor
      · intro h
        cases h
        exact ⟨rfl,Nat.not_lt.mp hlong⟩
      · rintro ⟨h,-⟩
        cases h
        rfl

/-- The gateway gives a file out only under a name that the header takes. -/
theorem file_eq {raw disposition : String} : g.file binding disk raw = .file disposition content ↔
    ∃ valid, validateName raw = some valid ∧
      g.client.readFile g.service binding (requestOf binding) disk valid = .ok (some content) ∧
      safeContentDisposition valid = some disposition := by
  unfold Gateway.file
  cases validateName raw with
  | none => simp
  | some valid =>
    dsimp only
    rcases hread : g.client.readFile g.service binding (requestOf binding) disk valid with
      e | _ | payload
    · simp [hread]
    · simp [hread]
    · dsimp only
      cases hdisposition : safeContentDisposition valid with
      | none => simp [hdisposition]
      | some value => simp [hread,hdisposition,and_comm]

/-- What a GET of the link gives: the file found under the name that the link's decodes to. -/
theorem get_link_iff (h : Admitted g binding)
    (hstore : g.service.store.Safe binding.principalId disk) :
    (∃ disposition, g.get binding disk (fileLink name) = .file disposition content) ↔
      name.toList.all isAscii = true ∧ ∃ valid, validateName name = some valid ∧
        valid.toList.all isAscii = true ∧
        g.service.store.found binding.principalId disk valid = some content ∧
        content.length ≤ g.client.maxResponseBytes := by
  simp only [get_link,file_eq]
  constructor
  · rintro ⟨disposition,valid,hvalid,hread,hdisposition⟩
    have hascii := safeContentDisposition_isSome hvalid
    rw [hdisposition] at hascii
    have hname := isAscii_of_asLatin1 (isAscii_of_validateName hvalid hascii.symm)
    rw [asLatin1_ascii hname] at hvalid
    exact ⟨hname,valid,hvalid,hascii.symm,(readFile_ascii h hvalid hascii.symm hstore).mp hread⟩
  · rintro ⟨hname,valid,hvalid,hascii,hfound⟩
    have hsome : (safeContentDisposition valid).isSome :=
      (safeContentDisposition_isSome hvalid).trans hascii
    obtain ⟨disposition,hdisposition⟩ := Option.isSome_iff_exists.mp hsome
    refine ⟨disposition,valid,?_,(readFile_ascii h hvalid hascii hstore).mpr hfound,hdisposition⟩
    rw [asLatin1_ascii hname,hvalid]

/-! ### The listing -/

theorem list_cases {entries : List PublicEntry}
    (h : g.get binding disk "/api/files" = .listing entries) : Admitted g binding ∧
      ∃ all, g.service.store.listEntries binding.principalId disk = .ok all ∧
        entries = buildListingResponse all := by
  have hpath : pathInfo "/api/files" = "/api/files" := by
    rw [pathInfo,unquoteWith,if_pos (by decide)]
  have hlist : g.get binding disk "/api/files" = g.list binding disk := by
    unfold Gateway.get
    dsimp only
    rw [hpath,if_neg (by decide),if_neg (by decide),if_pos (Or.inr rfl)]
  have hrequest := @request_eq g binding disk "/api/files" rfl (by decide) (by decide)
  rw [hlist,Gateway.list,DownloadsClient.listFiles,hrequest,DownloadsService.doGet,
    if_neg (by decide)] at h
  by_cases hsecret : checkTrustedSecret g.client.sharedSecret g.service.trustedSecret = true
  · rw [if_neg (by simp [DownloadsClient.headers,hsecret])] at h
    cases hidentity : defaultIdentityResolver (g.client.headers binding (requestOf binding)) with
    | none =>
      rw [hidentity] at h
      cases h
    | some identity =>
      rw [hidentity] at h
      dsimp only at h
      rw [if_pos rfl,DownloadsService.listFiles,principal_of_resolver hidentity] at h
      refine ⟨⟨hsecret,by simp [hidentity]⟩,?_⟩
      have hprincipal : (g.client.headers binding (requestOf binding)).principal =
        binding.principalId := rfl
      rw [hprincipal] at h
      cases hall : g.service.store.listEntries binding.principalId disk with
      | error e =>
        rw [hall] at h
        cases h
      | ok all =>
        rw [hall] at h
        cases h
        exact ⟨all,rfl,rfl⟩
  · rw [if_pos (by simpa [DownloadsClient.headers] using hsecret)] at h
    cases h

/-- Which listed files a GET of the link gives out: under names of ASCII, and no longer than both
servers take. Where the name has an escape, the name that it stands for decides. -/
def Served (g : Gateway) (binding : PrincipalBinding) (disk : Disk) (name : String)
    (content : Bytes) : Prop :=
  name.toList.all isAscii = true ∧ content.length ≤ g.client.maxResponseBytes ∧
    if '%' ∈ name.toList then
      ∃ valid, validateName name = some valid ∧ valid.toList.all isAscii = true ∧
        g.service.store.found binding.principalId disk valid = some content
    else content.length ≤ g.service.store.maxFileBytes

theorem servedContent_iff (hvalid : (validateName name).isSome)
    (hcontent : g.service.store.contentOf binding.principalId disk name = some content) :
    Served g binding disk name content ↔ name.toList.all isAscii = true ∧
      ∃ valid, validateName name = some valid ∧ valid.toList.all isAscii = true ∧
        g.service.store.found binding.principalId disk valid = some content ∧
        content.length ≤ g.client.maxResponseBytes := by
  unfold Served
  by_cases hpercent : '%' ∈ name.toList
  · rw [if_pos hpercent]
    constructor
    · rintro ⟨hascii,hlength,valid,hname,hvalid,hfound⟩
      exact ⟨hascii,valid,hname,hvalid,hfound,hlength⟩
    · rintro ⟨hascii,valid,hname,hvalid,hfound,hlength⟩
      exact ⟨hascii,hlength,valid,hname,hvalid,hfound⟩
  · obtain ⟨valid,hname⟩ := Option.isSome_iff_exists.mp hvalid
    have hself : valid = name := validateName_self hname hpercent
    subst hself
    rw [if_neg hpercent,← DownloadStore.found_iff hcontent]
    constructor
    · rintro ⟨hascii,hlength,hfound⟩
      exact ⟨hascii,valid,hname,hascii,hfound,hlength⟩
    · rintro ⟨hascii,other,hother,-,hfound,hlength⟩
      rw [hname] at hother
      cases hother
      exact ⟨hascii,hlength,hfound⟩

/-- A file that is listed is given out under the link to it just where that is served. -/
theorem listed_served_iff {entries : List PublicEntry} {entry : PublicEntry}
    (hlist : g.get binding disk "/api/files" = .listing entries) (hentry : entry ∈ entries) :
    ∃ content, g.service.store.contentOf binding.principalId disk entry.name = some content ∧
      entry.size = content.length ∧
      ((∃ disposition, g.get binding disk (fileLink entry.name) = .file disposition content) ↔
        Served g binding disk entry.name content) := by
  obtain ⟨hadmitted,all,hall,rfl⟩ := list_cases hlist
  obtain ⟨e,he,rfl⟩ := List.mem_map.mp hentry
  obtain ⟨hmem,hclean⟩ := List.mem_filter.mp he
  obtain ⟨hsafe,hvalid,content,hcontent,hsize⟩ := DownloadStore.content_of_listed hall hmem
    (by simpa using hclean)
  exact ⟨content,hcontent,hsize,
    (get_link_iff hadmitted hsafe).trans (servedContent_iff hvalid hcontent).symm⟩

end Requests

/-! ### Two uploads -/

/-- A gateway and a service with one secret, over a small store. -/
def office : Gateway where
  client := { sharedSecret := "0123456789abcdef", garbled := .error (.client "") }
  service := ⟨DownloadStore.small,Text.encodeUtf8 "0123456789abcdef",fun _ => ""⟩
  instanceId := "office"
  ready := true

def alice : PrincipalBinding where
  principalId := "alice"
  requestId := "req-0"
  principal := by decide +kernel
  tokens := by decide +kernel

/-- The disk after one upload. -/
def after (name : String) : Disk :=
  (office.service.store.ingest "alice" ⟨name,[.ok [0x61]],0,false,false,7⟩ Disk.empty).2

theorem listed_served_iff_report : ∃ content,
    office.service.store.contentOf "alice" (after "report.txt") "report.txt" = some content ∧
      1 = content.length ∧
      ((∃ disposition, office.get alice (after "report.txt") (fileLink "report.txt") =
        .file disposition content) ↔
          Served office alice (after "report.txt") "report.txt" content) :=
  @listed_served_iff office alice (after "report.txt") [⟨"report.txt",1,7⟩] ⟨"report.txt",1,7⟩
    (by decide +kernel) (by simp)

theorem accented_not_served :
    ¬∀ (name : String) (entries : List PublicEntry) (entry : PublicEntry),
      office.get alice (after name) "/api/files" = .listing entries → entry ∈ entries →
        ∃ content disposition,
          office.service.store.contentOf "alice" (after name) entry.name = some content ∧
          office.get alice (after name) (fileLink entry.name) = .file disposition content := by
  intro h
  obtain ⟨content,disposition,-,hget⟩ := h "é.txt" [⟨"é.txt",1,7⟩] ⟨"é.txt",1,7⟩ (by decide +kernel)
    (by simp)
  have hmissing : office.get alice (after "é.txt") (fileLink "é.txt") =
      .failed "not_found" "req-0" := by decide +kernel
  rw [hmissing] at hget
  cases hget

end FilesGateway

end CloudBrowser
