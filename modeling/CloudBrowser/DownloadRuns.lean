import CloudBrowser.StoredNames

/-! Calls of `ingest` that run at the same time for one principal: what their steps leave as it is,
and what each call has of its own. -/
namespace CloudBrowser
namespace Storage

open CloudFiles
open Directories

/-- No name that is asked for leads there. -/
def Hidden (name : String) : Prop := validateName name = none ∧ name.toList.head? = some '.'

theorem hidden_index : Hidden indexFile := by
  have hhead : indexFile.toList.head? = some '.' := by decide
  exact ⟨validateName_hidden hhead (by decide),hhead⟩

theorem Hidden.ne {name raw safe : String} (h : Hidden name) (hsafe : validateName raw = some safe) :
    safe ≠ name := visible_ne_hidden hsafe h.2

theorem retrievable_hidden {name : String} (h : Hidden name) (n : Node) : retrievable name n = 0 := by
  cases n <;> simp [retrievable,h.1]

theorem weight_hidden {name : String} (h : Hidden name) (d : Directory Node) :
    d.weight retrievable name = 0 := by
  unfold Directory.weight
  cases d.find name with
  | none => rfl
  | some n => exact retrievable_hidden h n

/-- Two states of a directory from which the same can be read, and that hold as much. -/
structure Alike (a a' : Option (Folder Node)) : Prop where
  regular : ∀ limit raw safe, validateName raw = some safe →
    a'.bind (Storage.regular limit safe) = a.bind (Storage.regular limit safe)
  total : (a'.elim 0 fun f => f.total retrievable) = a.elim 0 fun f => f.total retrievable

namespace Alike

variable {a a' a'' : Option (Folder Node)} {f : Folder Node} {name : String} {inode : ℕ} {n : Node}

theorem refl (a : Option (Folder Node)) : Alike a a := ⟨fun _ _ _ _ => rfl,rfl⟩

theorem trans (h : Alike a a') (h' : Alike a' a'') : Alike a a'' :=
  ⟨fun limit raw safe hsafe => (h'.regular limit raw safe hsafe).trans (h.regular limit raw safe hsafe),
    h'.total.trans h.total⟩

theorem clear : Alike none (some f.clear) := ⟨fun _ _ _ _ => rfl,rfl⟩

theorem regular_congr {f' : Folder Node} {limit : ℕ} {safe : String}
    (h : f'.find safe = f.find safe) : Storage.regular limit safe f' = Storage.regular limit safe f := by
  unfold Storage.regular
  rw [h]

theorem create_hidden (h : Hidden name) : Alike (some f) (some (f.create name n)) where
  regular limit raw safe hsafe := regular_congr (Directory.find_create_of_ne f.numbered (h.ne hsafe))
  total := by
    have hcreate := @Directory.total_create _ retrievable _ name n f.numbered
    rw [weight_hidden h,retrievable_hidden h] at hcreate
    exact hcreate

theorem create_directory (h : f.find name = none) :
    Alike (some f) (some (f.create name .directory)) where
  regular limit raw safe hsafe := by
    by_cases hname : safe = name
    · rw [hname,Option.bind_some,Option.bind_some]
      unfold Storage.regular
      rw [h,Folder.toDirectory_create,Directory.find_create_self]
    · exact regular_congr (Directory.find_create_of_ne f.numbered hname)
  total := by
    have hcreate := @Directory.total_create _ retrievable _ name .directory f.numbered
    rw [Directory.weight,h] at hcreate
    exact hcreate

theorem unlink_hidden (h : Hidden name) : Alike (some f) (some (f.unlink name)) where
  regular limit raw safe hsafe := regular_congr (Directory.find_unlink_of_ne (h.ne hsafe))
  total := by
    have hunlink := Directory.total_unlink retrievable f.toDirectory name
    rw [weight_hidden h] at hunlink
    exact hunlink

/-- A file that only hidden names lead to may be written. -/
theorem write_hidden (h : ∀ name, f.lookup name = some inode → Hidden name) :
    Alike (some f) (some (f.write inode n)) where
  regular limit raw safe hsafe := by
    apply regular_congr
    apply Directory.find_write_of_ne
    intro hlookup
    exact (h safe hlookup).ne hsafe rfl
  total := by
    apply Directory.total_write
    intro e he hinode
    have hlookup : f.lookup e.name = some inode := by
      rw [← hinode]
      exact Directory.lookup_of_mem he
    rw [retrievable_hidden (h e.name hlookup),retrievable_hidden (h e.name hlookup)]

end Alike

namespace Disk

variable {disk : Disk} {top top' name name' : String}

theorem mkdirTop_of_some {n : Node} (h : disk.root.find top = some n) : disk.mkdirTop top = disk := by
  simp [mkdirTop,h]

theorem root_mkdirTop_self (h : isSafe (disk.root.find top) = true) :
    (disk.mkdirTop top).root.find top = some .directory := by
  cases hfind : disk.root.find top with
  | none =>
    have hself : (disk.root.create top .directory).find top = some .directory :=
      Directory.find_create_self
    simpa [mkdirTop,hfind] using hself
  | some n =>
    rw [mkdirTop_of_some hfind,hfind]
    rw [hfind] at h
    cases n with
    | directory => rfl
    | file _ _ => cases h
    | link _ => cases h

theorem root_mkdirTop_of_ne (h : top' ≠ top) :
    (disk.mkdirTop top).root.find top' = disk.root.find top' := by
  unfold mkdirTop
  cases disk.root.find top with
  | none => exact Directory.find_create_of_ne disk.root.numbered h
  | some n => rfl

@[simp] theorem isSafe_mkdirTop :
    isSafe ((disk.mkdirTop top).root.find top') = isSafe (disk.root.find top') := by
  by_cases h : top' = top
  · rw [h]
    cases hfind : disk.root.find top with
    | none =>
      rw [root_mkdirTop_self (by simp [hfind,isSafe])]
      rfl
    | some n => rw [mkdirTop_of_some hfind,hfind]
  · rw [root_mkdirTop_of_ne h]

@[simp] theorem child_mkdirTop : (disk.mkdirTop top).child top' name = disk.child top' name := by
  cases hfind : disk.root.find top with
  | some n => rw [mkdirTop_of_some hfind]
  | none =>
    unfold child
    by_cases h : top' = top
    · simp [h,mkdirTop,hfind]
    · rw [root_mkdirTop_of_ne h]
      simp [mkdirTop,hfind,h]

@[simp] theorem sub_mkdirTop : (disk.mkdirTop top).sub = disk.sub := by
  unfold mkdirTop
  split <;> rfl

theorem subarea_mkdirTop : (disk.mkdirTop top).subarea top' name = disk.subarea top' name := by
  simp [subarea]

theorem area_mkdirTop : (disk.mkdirTop top).area top' =
    if top' = top ∧ disk.root.find top = none then some (disk.own top).clear else disk.area top' := by
  cases hfind : disk.root.find top with
  | some n => simp [mkdirTop_of_some hfind]
  | none =>
    by_cases h : top' = top
    · have hself : (disk.mkdirTop top).root.find top = some .directory :=
        root_mkdirTop_self (by rw [hfind]; rfl)
      rw [if_pos ⟨h,rfl⟩,h,area,if_pos hself]
      simp [mkdirTop,hfind]
    · rw [if_neg (by simp [h]),area,area,root_mkdirTop_of_ne h]
      simp [mkdirTop,hfind,h]

theorem root_remove (disk : Disk) (top top' : String) :
    (disk.remove top).root.find top' = none ∨ (disk.remove top).root.find top' = disk.root.find top' := by
  unfold remove
  split
  · by_cases h : top' = top
    · rw [h]
      exact Or.inl Directory.find_unlink_self
    · exact Or.inr (Directory.find_unlink_of_ne h)
  · exact Or.inr rfl

theorem root_remove_of_none (h : disk.root.find top' = none) :
    (disk.remove top).root.find top' = none := by
  rcases disk.root_remove top top' with hnone | hsame
  · exact hnone
  · exact hsame.trans h

theorem root_remove_self (h : disk.root.find top = some .directory) :
    (disk.remove top).root.find top = none := by
  rw [remove,if_pos h]
  exact Directory.find_unlink_self

/-- Gone after the second, whichever of the two it was. -/
theorem root_remove_second (h : disk.root.find top = some .directory) :
    ((disk.remove top').remove top).root.find top = none := by
  rcases disk.root_remove top' top with hnone | hsame
  · exact root_remove_of_none hnone
  · exact root_remove_self (hsame.trans h)

theorem mkdirSub_of_some {n : Node} (h : (disk.own top).find name = some n) :
    disk.mkdirSub top name = disk := by
  simp [mkdirSub,h]

@[simp] theorem root_mkdirSub : (disk.mkdirSub top name).root = disk.root := by
  unfold mkdirSub
  split <;> rfl

/-- A directory is made where there was nothing. -/
theorem child_mkdirSub (h : disk.root.find top = some .directory) :
    (disk.mkdirSub top name).child top' name' =
      if (top',name') = (top,name) ∧ disk.child top name = none then some .directory
      else disk.child top' name' := by
  have hchild : disk.child top name = (disk.own top).find name := by simp [child,h]
  cases hfind : (disk.own top).find name with
  | some n => simp [mkdirSub_of_some hfind,hchild,hfind]
  | none =>
    have hself : ((disk.own top).create name .directory).find name = some .directory :=
      Directory.find_create_self
    by_cases htop : top' = top
    · by_cases hname : name' = name
      · rw [if_pos ⟨by rw [htop,hname],by rw [hchild,hfind]⟩,htop,hname]
        simpa [child,mkdirSub,hfind,h] using hself
      · have hother : ((disk.own top).create name .directory).find name' = (disk.own top).find name' :=
          Directory.find_create_of_ne (disk.own top).numbered hname
        rw [if_neg (by simp [hname]),htop]
        simpa [child,mkdirSub,hfind,h] using hother
    · rw [if_neg (by simp [htop])]
      simp [child,mkdirSub,hfind,htop]

theorem isSafe_child_mkdirSub (h : disk.root.find top = some .directory) :
    isSafe ((disk.mkdirSub top name).child top' name') = isSafe (disk.child top' name') := by
  rw [child_mkdirSub h]
  split
  · next hnew =>
    cases hnew.1
    rw [hnew.2]
    rfl
  · rfl

theorem subarea_mkdirSub (h : disk.root.find top = some .directory) :
    (disk.mkdirSub top name).subarea top' name' =
      if (top',name') = (top,name) ∧ disk.child top name = none then some (disk.sub (top,name)).clear
      else disk.subarea top' name' := by
  have hchild : disk.child top name = (disk.own top).find name := by simp [child,h]
  unfold subarea
  rw [child_mkdirSub h]
  by_cases hnew : (top',name') = (top,name) ∧ disk.child top name = none
  · have hfind := hchild.symm.trans hnew.2
    cases hnew.1
    simp [hnew.2,mkdirSub,hfind]
  · rw [if_neg hnew,if_neg hnew]
    cases hfind : (disk.own top).find name with
    | some n => rw [mkdirSub_of_some hfind]
    | none =>
      have hne : (top',name') ≠ (top,name) := fun heq => hnew ⟨heq,hchild.trans hfind⟩
      simp [mkdirSub,hfind,Function.update_of_ne hne]

theorem area_mkdirSub (h : disk.root.find top = some .directory) :
    (disk.mkdirSub top name).area top' =
      if top' = top ∧ disk.child top name = none then some ((disk.own top).create name .directory)
      else disk.area top' := by
  have hchild : disk.child top name = (disk.own top).find name := by simp [child,h]
  unfold area
  rw [root_mkdirSub,hchild]
  cases hfind : (disk.own top).find name with
  | some n => simp [mkdirSub_of_some hfind]
  | none =>
    by_cases htop : top' = top
    · simp [htop,h,mkdirSub,hfind]
    · simp [htop,mkdirSub,hfind]

section Made

variable {R : Option (Folder Node) → Option (Folder Node) → Prop}

/-- What an empty directory in the place of none is no different by, no `mkdir` makes different. -/
theorem rel_mkdirTop (hrefl : ∀ a, R a a) (hclear : ∀ f : Folder Node, R none (some f.clear)) :
    R (disk.area top') ((disk.mkdirTop top).area top') := by
  rw [area_mkdirTop]
  split_ifs with hnew
  · have harea : disk.area top' = none := by simp [area,hnew.1,hnew.2]
    rw [harea]
    exact hclear _
  · exact hrefl _

theorem rel_subarea_mkdirSub (hrefl : ∀ a, R a a)
    (hclear : ∀ f : Folder Node, R none (some f.clear)) (h : disk.root.find top = some .directory) :
    R (disk.subarea top' name') ((disk.mkdirSub top name).subarea top' name') := by
  rw [subarea_mkdirSub h]
  split_ifs with hnew
  · cases hnew.1
    have hsub : disk.subarea top name = none := by simp [subarea,hnew.2]
    rw [hsub]
    exact hclear _
  · exact hrefl _

theorem rel_area_mkdirSub (hrefl : ∀ a, R a a) (hcreate : ∀ f : Folder Node, f.find name = none →
      R (some f) (some (f.create name .directory))) (h : disk.root.find top = some .directory) :
    R (disk.area top') ((disk.mkdirSub top name).area top') := by
  rw [area_mkdirSub h]
  split_ifs with hnew
  · have hnone : (disk.own top).find name = none := by simpa [child,h] using hnew.2
    rw [hnew.1,area,if_pos h]
    exact hcreate _ hnone
  · exact hrefl _

end Made

theorem alike_mkdirTop : Alike (disk.area top') ((disk.mkdirTop top).area top') :=
  rel_mkdirTop .refl fun _ => .clear

theorem alike_subarea_mkdirSub (h : disk.root.find top = some .directory) :
    Alike (disk.subarea top' name') ((disk.mkdirSub top name).subarea top' name') :=
  rel_subarea_mkdirSub .refl (fun _ => .clear) h

theorem alike_area_mkdirSub (h : disk.root.find top = some .directory) :
    Alike (disk.area top') ((disk.mkdirSub top name).area top') :=
  rel_area_mkdirSub .refl (fun _ => .create_directory) h

theorem alike_setOwn {d d' : Folder Node} (hd : disk.area top = some d)
    (h : Alike (some d) (some d')) : Alike (disk.area top') ((disk.setOwn top d').area top') := by
  by_cases htop : top' = top
  · have harea : (disk.setOwn top d').area top = some d' :=
      area_eq_some.mpr ⟨(area_eq_some.mp hd).1,by simp⟩
    rw [htop,hd,harea]
    exact h
  · have harea : (disk.setOwn top d').area top' = disk.area top' := by simp [area,htop]
    rw [harea]
    exact .refl _

end Disk

namespace DownloadStore

variable (store : DownloadStore) (p : String)

/-- Nothing but directories is in the way of the two layouts. -/
def Safe (disk : Disk) : Prop := [disk.root.find (store.ownerKey p),
  disk.child (store.ownerKey p) entriesDir,disk.root.find p].all isSafe = true

instance (disk : Disk) : Decidable (store.Safe p disk) := inferInstanceAs (Decidable (_ = true))

/-- The same can be read for a principal, and it is as much. -/
structure SameStore (disk disk' : Disk) : Prop where
  safe : store.Safe p disk' ↔ store.Safe p disk
  entries : Alike (disk.subarea (store.ownerKey p) entriesDir) (disk'.subarea (store.ownerKey p) entriesDir)
  prior : Alike (disk.area p) (disk'.area p)

variable {store : DownloadStore} {p name : String} {disk disk' disk'' : Disk}

theorem SameStore.refl (disk : Disk) : store.SameStore p disk disk := ⟨Iff.rfl,.refl _,.refl _⟩

theorem SameStore.trans (h : store.SameStore p disk disk') (h' : store.SameStore p disk' disk'') :
    store.SameStore p disk disk'' :=
  ⟨h'.safe.trans h.safe,h.entries.trans h'.entries,h.prior.trans h'.prior⟩

theorem storageDirs_eq (disk : Disk) : store.storageDirs p disk =
    if isPrincipal p = false then .error notOwner
    else if store.Safe p disk then .ok ((disk.subarea (store.ownerKey p) entriesDir).toList ++
      (disk.area p).toList)
    else .error unsafeStorage := rfl

/-- What is found under a name, in this release's directory or else in the one before. -/
def found (store : DownloadStore) (p : String) (disk : Disk) (safe : String) : Option Bytes :=
  ((disk.subarea (store.ownerKey p) entriesDir).bind (regular store.maxFileBytes safe)).or
    ((disk.area p).bind (regular store.maxFileBytes safe))

/-- The bytes of the files that can be asked for. -/
def stored (store : DownloadStore) (p : String) (disk : Disk) : ℕ :=
  ((disk.subarea (store.ownerKey p) entriesDir).elim 0 fun f => f.total retrievable)+
    (disk.area p).elim 0 fun f => f.total retrievable

theorem findSome_toList {α β : Type} (g : α → Option β) (a b : Option α) :
    (a.toList ++ b.toList).findSome? g = (a.bind g).or (b.bind g) := by
  have hone : ∀ a : Option α, a.toList.findSome? g = a.bind g := by
    intro a
    cases a with
    | none => rfl
    | some x => cases h : g x <;> simp [h]
  rw [List.findSome?_append,hone,hone]

theorem read_eq (name : String) (disk : Disk) : store.read p name disk =
    match validateName name with
    | none => .error unsafeName
    | some safe =>
      if isPrincipal p = false then .error notOwner
      else if store.Safe p disk then .ok (store.found p disk safe) else .error unsafeStorage := by
  unfold read
  cases validateName name with
  | none => rfl
  | some safe =>
    simp only [storageDirs_eq]
    split_ifs
    · rfl
    · show Except.ok _ = _
      rw [findSome_toList]
      rfl
    · rfl

theorem read_eq_some {content : Bytes} :
    store.read p name disk = .ok (some content) ↔ ∃ safe, validateName name = some safe ∧
      isPrincipal p = true ∧ store.Safe p disk ∧ store.found p disk safe = some content := by
  rw [read_eq]
  cases hname : validateName name with
  | none => simp
  | some safe =>
    by_cases hp : isPrincipal p = false
    · simp [hp]
    · by_cases hsafe : store.Safe p disk
      · simp [hp,hsafe]
      · simp [hp,hsafe]

theorem usageBytes_eq (disk : Disk) : store.usageBytes p disk =
    if isPrincipal p = false then .error notOwner
    else if store.Safe p disk then .ok (store.stored p disk) else .error unsafeStorage := by
  unfold usageBytes
  rw [storageDirs_eq]
  split_ifs
  · rfl
  · show Except.ok _ = _
    unfold stored
    cases disk.subarea (store.ownerKey p) entriesDir <;> cases disk.area p <;> simp
  · rfl

theorem SameStore.read (h : store.SameStore p disk disk') (name : String) :
    store.read p name disk' = store.read p name disk := by
  rw [read_eq,read_eq]
  cases hname : validateName name with
  | none => rfl
  | some safe =>
    have hfound : store.found p disk' safe = store.found p disk safe := by
      unfold found
      rw [h.entries.regular _ name safe hname,h.prior.regular _ name safe hname]
    simp only [h.safe,hfound]

theorem SameStore.usageBytes (h : store.SameStore p disk disk') :
    store.usageBytes p disk' = store.usageBytes p disk := by
  rw [usageBytes_eq,usageBytes_eq]
  have hstored : store.stored p disk' = store.stored p disk := by
    unfold stored
    rw [h.entries.total,h.prior.total]
  simp only [h.safe,hstored]

/-! ### What the operations on the disk leave -/

theorem sameStore_mkdirTop : store.SameStore p disk (disk.mkdirTop (store.ownerKey p)) := by
  refine ⟨by simp [Safe],?_,Disk.alike_mkdirTop⟩
  rw [Disk.subarea_mkdirTop]
  exact .refl _

theorem sameStore_mkdirSub (hkey : disk.root.find (store.ownerKey p) = some .directory) :
    store.SameStore p disk (disk.mkdirSub (store.ownerKey p) name) :=
  ⟨by simp [Safe,Disk.isSafe_child_mkdirSub hkey],Disk.alike_subarea_mkdirSub hkey,
    Disk.alike_area_mkdirSub hkey⟩

/-- Another state of the directory with this release's files. -/
theorem sameStore_setSub {d d' : Folder Node}
    (hd : disk.subarea (store.ownerKey p) entriesDir = some d) (h : Alike (some d) (some d')) :
    store.SameStore p disk (disk.setSub (store.ownerKey p) entriesDir d') := by
  refine ⟨Iff.rfl,?_,.refl _⟩
  rw [Disk.subarea_setSub_self (by simp [hd]),hd]
  exact h

theorem subarea_setOwn {d : Folder Node} {n : Node} (hd : disk.area (store.ownerKey p) = some d)
    (hname : Hidden name) : (disk.setOwn (store.ownerKey p) (d.create name n)).child
      (store.ownerKey p) entriesDir = disk.child (store.ownerKey p) entriesDir ∧
    (disk.setOwn (store.ownerKey p) (d.create name n)).subarea (store.ownerKey p) entriesDir =
      disk.subarea (store.ownerKey p) entriesDir := by
  obtain ⟨hroot,hown⟩ := Disk.area_eq_some.mp hd
  have hentries : validateName entriesDir = some entriesDir := by decide +kernel
  have hne : entriesDir ≠ name := hname.ne hentries
  have hfind : (d.create name n).find entriesDir = d.find entriesDir :=
    Directory.find_create_of_ne d.numbered hne
  have hchild : (disk.setOwn (store.ownerKey p) (d.create name n)).child (store.ownerKey p) entriesDir =
      disk.child (store.ownerKey p) entriesDir := by
    simpa [Disk.child,hroot,hown] using hfind
  refine ⟨hchild,?_⟩
  rw [Disk.subarea,Disk.subarea,hchild]
  rfl

/-- A hidden file in the owner's directory. -/
theorem sameStore_setOwn {d : Folder Node} {n : Node}
    (hd : disk.area (store.ownerKey p) = some d) (hname : Hidden name) :
    store.SameStore p disk (disk.setOwn (store.ownerKey p) (d.create name n)) := by
  obtain ⟨hchild,hsub⟩ := subarea_setOwn (n:=n) hd hname
  refine ⟨?_,?_,Disk.alike_setOwn hd (.create_hidden hname)⟩
  · simp [Safe,hchild]
  · rw [hsub]
    exact .refl _

/-! ### The calls -/

/-- The temporary name leads to the file of the call, which no other name leads to. -/
structure Owns (d : Folder Node) (f : Staged) : Prop where
  lookup : d.lookup f.temp = some f.inode
  only : ∀ name, d.lookup name = some f.inode → name = f.temp
  content : ∃ mtime, d.node f.inode = .file f.copied mtime

namespace Owns

variable {d : Folder Node} {f : Staged} {source target : String} {inode : ℕ} {n : Node}

theorem lt (h : Owns d f) : f.inode < d.fresh := Directory.lookup_lt d.numbered h.lookup

theorem create (h : Owns d f) (hne : f.temp ≠ target) : Owns (d.create target n) f := by
  have hinode : f.inode ≠ d.fresh := Nat.ne_of_lt h.lt
  refine ⟨?_,?_,?_⟩
  · rw [Folder.toDirectory_create,Directory.lookup_create_of_ne hne]
    exact h.lookup
  · intro name hname
    by_cases htarget : name = target
    · rw [htarget,Folder.toDirectory_create,Directory.lookup_create_self] at hname
      exact absurd (Option.some.inj hname).symm hinode
    · rw [Folder.toDirectory_create,Directory.lookup_create_of_ne htarget] at hname
      exact h.only name hname
  · obtain ⟨mtime,hnode⟩ := h.content
    exact ⟨mtime,by simp [hinode,hnode]⟩

theorem write (h : Owns d f) (hne : f.inode ≠ inode) : Owns (d.write inode n) f := by
  obtain ⟨mtime,hnode⟩ := h.content
  exact ⟨h.lookup,h.only,mtime,by simp [hne,hnode]⟩

/-- A write of the call to its own file. -/
theorem write_self {content : Bytes} {now : ℤ} (h : Owns d f) :
    Owns (d.write f.inode (.file content now)) { f with copied := content } :=
  ⟨h.lookup,h.only,now,by simp⟩

theorem unlink (h : Owns d f) (hne : f.temp ≠ target) : Owns (d.unlink target) f := by
  refine ⟨?_,?_,h.content⟩
  · rw [Folder.toDirectory_unlink,Directory.lookup_unlink_of_ne hne]
    exact h.lookup
  · intro name hname
    by_cases htarget : name = target
    · simp [htarget] at hname
    · rw [Folder.toDirectory_unlink,Directory.lookup_unlink_of_ne htarget] at hname
      exact h.only name hname

theorem rename (h : Owns d f) (hsource : f.temp ≠ source) (htarget : f.temp ≠ target) :
    Owns (d.rename source target) f := by
  refine ⟨?_,?_,?_⟩
  · rw [Folder.toDirectory_rename,Directory.lookup_rename_of_ne hsource htarget]
    exact h.lookup
  · intro name hname
    rcases d.lookup_rename name source target with hsame | hnone | ⟨-,hmoved⟩
    · exact h.only name (hsame.symm.trans hname)
    · cases hnone.symm.trans hname
    · exact absurd (h.only source (hmoved.symm.trans hname)) hsource.symm
  · obtain ⟨mtime,hnode⟩ := h.content
    exact ⟨mtime,by simpa using hnode⟩

end Owns

/-- What a call has that is copying: its file, within the limit, for a name that can be read. -/
structure Held (store : DownloadStore) (p : String) (disk : Disk) (f : Staged) : Prop where
  owns : ∃ d, disk.subarea (store.ownerKey p) entriesDir = some d ∧ Owns d f
  hidden : Hidden f.temp
  final : validateName f.final = some f.final
  size : f.copied.length ≤ store.maxFileBytes

/-- What holds of a call, whatever the others do. -/
def Phase.Sound (store : DownloadStore) (p : String) (disk : Disk) : Phase → Prop
  | .idle => True
  | .named final => ∃ raw safe f, validateName raw = some safe ∧ nextName f safe = .ok final
  | .staging f => store.Held p disk f
  | .staged f => store.Held p disk f
  | .checked f => store.Held p disk f ∧ store.Safe p disk ∧ isPrincipal p = true
  | .renamed f => Hidden f.temp
  | .receipted f _ => Hidden f.temp
  | .closing temp _ _ => Hidden temp
  | .returned _ _ => True

/-- The name that a call has in use for its temporary file. -/
def Phase.temp : Phase → Option String
  | .staging f => some f.temp
  | .staged f => some f.temp
  | .checked f => some f.temp
  | .renamed f => some f.temp
  | .receipted f _ => some f.temp
  | .closing temp _ _ => some temp
  | _ => none

theorem hidden_temp {raw safe final : String} {f : Folder Node} {token : UInt64}
    (hsafe : validateName raw = some safe) (hnext : nextName f safe = .ok final) :
    Hidden (tempName final token) :=
  ⟨validateName_temp (final_no_percent hsafe hnext),tempName_head⟩

/-- The same can be read, and the files that the calls hold are theirs as before, but for that of
one temporary name. -/
structure Leaves (store : DownloadStore) (p : String) (temp : Option String) (disk disk' : Disk) :
    Prop where
  same : store.SameStore p disk disk'
  held : ∀ f, store.Held p disk f → some f.temp ≠ temp → store.Held p disk' f

theorem Leaves.refl (temp : Option String) (disk : Disk) : store.Leaves p temp disk disk :=
  ⟨.refl disk,fun _ h _ => h⟩

theorem Leaves.trans {temp : Option String} (h : store.Leaves p temp disk disk')
    (h' : store.Leaves p temp disk' disk'') : store.Leaves p temp disk disk'' :=
  ⟨h.same.trans h'.same,fun f hf hne => h'.held f (h.held f hf hne) hne⟩

/-- Where the directory with this release's files stays as it is. -/
theorem Leaves.of_subarea {temp : Option String} (h : store.SameStore p disk disk')
    (hsub : ∀ d, disk.subarea (store.ownerKey p) entriesDir = some d →
      disk'.subarea (store.ownerKey p) entriesDir = some d) : store.Leaves p temp disk disk' where
  same := h
  held f hf _ := by
    obtain ⟨d,hd,howns⟩ := hf.owns
    exact ⟨⟨d,hsub d hd,howns⟩,hf.hidden,hf.final,hf.size⟩

theorem Leaves.setSub {temp : Option String} {d d' : Folder Node}
    (hd : disk.subarea (store.ownerKey p) entriesDir = some d) (h : Alike (some d) (some d'))
    (howns : ∀ f, Owns d f → some f.temp ≠ temp → Owns d' f) :
    store.Leaves p temp disk (disk.setSub (store.ownerKey p) entriesDir d') where
  same := sameStore_setSub hd h
  held f hf hne := by
    obtain ⟨d₁,hd₁,howns₁⟩ := hf.owns
    cases hd.symm.trans hd₁
    exact ⟨⟨d',Disk.subarea_setSub_self (by simp [hd]),howns f howns₁ hne⟩,hf.hidden,hf.final,hf.size⟩

theorem leaves_mkdirTop (temp : Option String) :
    store.Leaves p temp disk (disk.mkdirTop (store.ownerKey p)) :=
  .of_subarea sameStore_mkdirTop fun d hd => by rw [Disk.subarea_mkdirTop,hd]

theorem leaves_mkdirs (temp : Option String) (name : String)
    (hkey : isSafe (disk.root.find (store.ownerKey p)) = true) : store.Leaves p temp disk
      ((disk.mkdirTop (store.ownerKey p)).mkdirSub (store.ownerKey p) name) := by
  have hroot := Disk.root_mkdirTop_self hkey
  apply (leaves_mkdirTop temp).trans
  apply Leaves.of_subarea (sameStore_mkdirSub hroot)
  intro d hd
  rw [Disk.subarea_mkdirSub hroot,if_neg]
  · exact hd
  · rintro ⟨heq,hnone⟩
    cases heq
    simp [Disk.subarea,hnone] at hd

/-- The name that a call draws for its temporary file. -/
def drawn : Phase → Move → Option String
  | .named final,.openTemp token _ _ => some (tempName final token)
  | _,_ => none

/-- What a move of one call does: it is sound for the call and leaves the files of the others, and
but for the rename it changes nothing that can be read. -/
structure MoveSpec (store : DownloadStore) (p : String) (m : Move) (phase : Phase) (disk : Disk)
    (r : Phase × Disk) : Prop where
  sound : r.1.Sound store p r.2
  held : ∀ f, store.Held p disk f → some f.temp ≠ phase.temp.or r.1.temp → store.Held p r.2 f
  temp : ∀ t, r.1.temp = some t → phase.temp = some t ∨ drawn phase m = some t
  safe : store.Safe p r.2 ↔ store.Safe p disk
  same : (∀ f, phase = .checked f → m ≠ .rename) → store.SameStore p disk r.2

theorem MoveSpec.of_leaves {m : Move} {phase : Phase} {r : Phase × Disk}
    (hsound : r.1.Sound store p r.2) (hleaves : store.Leaves p (phase.temp.or r.1.temp) disk r.2)
    (htemp : ∀ t, r.1.temp = some t → phase.temp = some t ∨ drawn phase m = some t) :
    store.MoveSpec p m phase disk r :=
  ⟨hsound,hleaves.held,htemp,hleaves.same.safe,fun _ => hleaves.same⟩

attribute [local simp] start openTemp copy check rename stat index unlinkTemp move writeIndex
  Phase.temp drawn

theorem start_spec (name : String) :
    store.MoveSpec p (.start name) .idle disk (store.start p name disk) := by
  have hreturned : ∀ e disk', store.Leaves p none disk disk' →
      store.MoveSpec p (.start name) .idle disk (.returned [] (.error e),disk') :=
    fun e disk' hleaves => .of_leaves trivial hleaves (by simp [Phase.temp])
  unfold start
  cases hname : validateName name with
  | none => exact hreturned _ _ (.refl _ _)
  | some safe =>
    by_cases hp : isPrincipal p = false
    · simpa [hp] using hreturned notOwner disk (.refl _ _)
    · by_cases hkey : isSafe (disk.root.find (store.ownerKey p)) = false
      · simpa [hp,hkey] using hreturned unsafeStorage disk (.refl _ _)
      · by_cases hsub : isSafe ((disk.mkdirTop (store.ownerKey p)).child (store.ownerKey p)
            entriesDir) = false
        · simp only [if_neg hp,if_neg hkey,if_pos hsub]
          exact hreturned _ _ (leaves_mkdirTop none)
        · simp only [if_neg hp,if_neg hkey,if_neg hsub]
          have hleaves := leaves_mkdirs (p:=p) none entriesDir (by simpa using hkey)
          cases hnext : nextName _ safe with
          | error e => exact hreturned _ _ hleaves
          | ok final => exact .of_leaves ⟨name,safe,_,hname,hnext⟩ hleaves (by simp [Phase.temp])

theorem openTemp_spec {final : String} (hphase : (Phase.named final).Sound store p disk)
    (token : UInt64) (fault : Bool) (now : ℤ) :
    store.MoveSpec p (.openTemp token fault now) (.named final) disk
      (store.openTemp p final token fault now disk) := by
  obtain ⟨raw,safe,f₀,hsafe,hnext⟩ := hphase
  have hhidden : Hidden (tempName final token) := hidden_temp hsafe hnext
  have hfailed : store.MoveSpec p (.openTemp token fault now) (.named final) disk
      (.closing (tempName final token) [] (.error .other),disk) :=
    .of_leaves hhidden (.refl _ _) (by simp [Phase.temp,drawn])
  unfold openTemp
  dsimp only
  cases hd : disk.subarea (store.ownerKey p) entriesDir with
  | none => exact hfailed
  | some d =>
    dsimp only
    split_ifs with hfault
    · exact hfailed
    · simp only [not_or,not_lt,Option.not_isSome_iff_eq_none] at hfault
      apply MoveSpec.of_leaves
      · refine ⟨⟨_,Disk.subarea_setSub_self (by simp [hd]),?_⟩,hhidden,
          validateName_final hsafe hnext hfault.2.1,Nat.zero_le _⟩
        have hlookup : (d.create (tempName final token) (.file [] now)).lookup
            (tempName final token) = some d.fresh := Directory.lookup_create_self
        refine ⟨hlookup,?_,now,by simp⟩
        intro name hname
        by_contra hne
        rw [Folder.toDirectory_create,Directory.lookup_create_of_ne hne] at hname
        exact Nat.lt_irrefl _ (Directory.lookup_lt d.numbered hname)
      · apply Leaves.setSub hd (.create_hidden hhidden)
        intro f howns hne
        exact howns.create fun heq => hne (by simp [Phase.temp,heq])
      · simp [Phase.temp,drawn]

theorem copy_spec {f : Staged} (hphase : (Phase.staging f).Sound store p disk)
    (r : Except StoreError Bytes) (now : ℤ) :
    store.MoveSpec p (.copy r now) (.staging f) disk (store.copy p f r now disk) := by
  have hclosed : ∀ e, store.MoveSpec p (.copy r now) (.staging f) disk
      (.closing f.temp f.copied (.error e),disk) := fun e =>
    .of_leaves hphase.hidden (.refl _ _) (by simp [Phase.temp])
  obtain ⟨d,hd,howns⟩ := hphase.owns
  match r with
  | .error e => exact hclosed e
  | .ok [] =>
    show store.MoveSpec p _ _ disk (.staged f,disk)
    exact .of_leaves hphase (.refl _ _) (by simp [Phase.temp])
  | .ok (b::bs) =>
    unfold copy
    dsimp only
    split_ifs with hsize
    · exact hclosed _
    · have hsub : disk.sub (store.ownerKey p,entriesDir) = d := (Disk.subarea_eq_some.mp hd).2
      apply MoveSpec.of_leaves
      · rw [hsub]
        refine ⟨⟨_,Disk.subarea_setSub_self (by simp [hd]),howns.write_self⟩,hphase.hidden,
          hphase.final,?_⟩
        simp only [List.length_append]
        omega
      · rw [hsub]
        apply Leaves.setSub hd
        · apply Alike.write_hidden
          intro name hname
          rw [howns.only name hname]
          exact hphase.hidden
        · intro f' howns' hne
          apply howns'.write
          intro hinode
          apply hne
          rw [howns.only f'.temp (howns'.lookup.trans (congrArg some hinode))]
          rfl
      · simp [Phase.temp]

theorem check_spec {f : Staged} (hphase : (Phase.staged f).Sound store p disk) :
    store.MoveSpec p .check (.staged f) disk (store.check p f disk,disk) := by
  have hclosed : ∀ e, store.MoveSpec p .check (.staged f) disk
      (.closing f.temp f.copied (.error e),disk) := fun e =>
    .of_leaves hphase.hidden (.refl _ _) (by simp [Phase.temp])
  unfold check
  rw [usageBytes_eq]
  by_cases hp : isPrincipal p = false
  · simpa [hp] using hclosed notOwner
  · by_cases hsafe : store.Safe p disk
    · simp only [if_neg hp,if_pos hsafe]
      split_ifs
      · exact hclosed _
      · exact .of_leaves ⟨hphase,hsafe,by simpa using hp⟩ (.refl _ _) (by simp [Phase.temp])
    · simpa [hp,hsafe] using hclosed unsafeStorage

theorem stat_spec {f : Staged} (hphase : (Phase.renamed f).Sound store p disk) :
    store.MoveSpec p .stat (.renamed f) disk (store.stat p f disk,disk) := by
  unfold stat
  split
  · exact .of_leaves hphase (.refl _ _) (by simp [Phase.temp])
  · exact .of_leaves hphase (.refl _ _) (by simp [Phase.temp])

theorem leaves_writeIndex (store : DownloadStore) (p : String) (disk : Disk)
    (temp : Option String) (receipt : DownloadReceipt) (now : ℤ) :
    store.Leaves p temp disk (store.writeIndex p receipt now disk).2 := by
  apply (leaves_mkdirTop temp).trans
  unfold writeIndex
  dsimp only
  cases hd : (disk.mkdirTop (store.ownerKey p)).area (store.ownerKey p) with
  | none => exact .refl _ _
  | some d =>
    dsimp only
    split_ifs
    · exact .refl _ _
    · apply Leaves.of_subarea (sameStore_setOwn hd hidden_index)
      intro d' hd'
      rw [(subarea_setOwn hd hidden_index).2]
      exact hd'

theorem index_spec {f : Staged} {receipt : DownloadReceipt}
    (hphase : (Phase.receipted f receipt).Sound store p disk) (fault : Bool) (now : ℤ) :
    store.MoveSpec p (.index fault now) (.receipted f receipt) disk
      (store.index p f receipt fault now disk) := by
  have hleaves := fun temp => store.leaves_writeIndex p disk temp receipt now
  unfold index
  split_ifs
  · exact .of_leaves hphase (.refl _ _) (by simp [Phase.temp])
  · rcases hwrite : store.writeIndex p receipt now disk with ⟨_ | _,disk'⟩
    · rw [hwrite] at hleaves
      exact .of_leaves hphase (hleaves _) (by simp [Phase.temp])
    · rw [hwrite] at hleaves
      exact .of_leaves hphase (hleaves _) (by simp [Phase.temp])

theorem unlinkTemp_spec {temp : String} {copied : Bytes} {result : Except StoreError DownloadReceipt}
    (hphase : (Phase.closing temp copied result).Sound store p disk) :
    store.MoveSpec p .unlinkTemp (.closing temp copied result) disk
      (.returned copied result,store.unlinkTemp p temp disk) := by
  apply MoveSpec.of_leaves
  · trivial
  · unfold unlinkTemp
    cases hd : disk.subarea (store.ownerKey p) entriesDir with
    | none => exact .refl _ _
    | some d =>
      apply Leaves.setSub hd (.unlink_hidden hphase)
      intro f howns hne
      exact howns.unlink fun heq => hne (by simp [Phase.temp,heq])
  · simp [Phase.temp]

/-- A rename fails on a directory, else it takes the final name for the file of the call. -/
theorem rename_cases {f : Staged} {d : Folder Node}
    (hd : disk.subarea (store.ownerKey p) entriesDir = some d) (howns : Owns d f) :
    d.find f.final = some .directory ∧
        store.rename p f disk = (.closing f.temp f.copied (.error .other),disk) ∨
      d.find f.final ≠ some .directory ∧ store.rename p f disk =
        (.renamed f,disk.setSub (store.ownerKey p) entriesDir (d.rename f.temp f.final)) := by
  have hsome : d.find f.temp ≠ none := by simp [Directory.find,howns.lookup]
  unfold rename
  simp only [hd]
  by_cases hfinal : d.find f.final = some .directory
  · left
    simp [hfinal]
  · right
    simp [hfinal,hsome]

theorem rename_spec {f : Staged} (hphase : (Phase.checked f).Sound store p disk) :
    store.MoveSpec p .rename (.checked f) disk (store.rename p f disk) := by
  obtain ⟨d,hd,howns⟩ := hphase.1.owns
  have hsame : (∀ f', Phase.checked f = .checked f' → Move.rename ≠ .rename) →
      ∀ disk', store.SameStore p disk disk' := fun h => absurd rfl (h f rfl)
  rcases rename_cases hd howns with ⟨-,hrename⟩ | ⟨-,hrename⟩
  · rw [hrename]
    exact .of_leaves hphase.1.hidden (.refl _ _) (by simp [Phase.temp])
  · rw [hrename]
    refine ⟨hphase.1.hidden,?_,by simp [Phase.temp],Iff.rfl,fun h => hsame h _⟩
    intro f' hf' hne
    obtain ⟨d',hd',howns'⟩ := hf'.owns
    cases hd.symm.trans hd'
    refine ⟨⟨_,Disk.subarea_setSub_self (by simp [hd]),?_⟩,hf'.hidden,hf'.final,hf'.size⟩
    apply howns'.rename
    · intro heq
      exact hne (by simp [Phase.temp,heq])
    · exact (hf'.hidden.ne hphase.1.final).symm

theorem move_spec {phase : Phase} (hphase : phase.Sound store p disk) (m : Move) :
    store.MoveSpec p m phase disk (store.move p m phase disk) := by
  have hidle : store.move p m phase disk = (phase,disk) →
      store.MoveSpec p m phase disk (store.move p m phase disk) := by
    intro heq
    rw [heq]
    exact .of_leaves hphase (.refl _ _) fun t ht => Or.inl ht
  cases phase <;> cases m
  case idle.start name => exact start_spec name
  case named.openTemp final token fault now => exact openTemp_spec hphase token fault now
  case staging.copy f r now => exact copy_spec hphase r now
  case staged.check f => exact check_spec hphase
  case checked.rename f => exact rename_spec hphase
  case renamed.stat f => exact stat_spec hphase
  case receipted.index f receipt fault now => exact index_spec hphase fault now
  case closing.unlinkTemp temp copied result => exact unlinkTemp_spec hphase
  all_goals exact hidle rfl

/-! ### Where a step takes a call -/

theorem start_phase (store : DownloadStore) (p : String) (disk : Disk) (name : String) :
    (∃ e, (store.start p name disk).1 = .returned [] (.error e)) ∨
    ∃ final, (store.start p name disk).1 = .named final := by
  unfold start
  cases validateName name with
  | none => exact Or.inl ⟨_,rfl⟩
  | some safe =>
    dsimp only
    split_ifs
    · exact Or.inl ⟨_,rfl⟩
    · exact Or.inl ⟨_,rfl⟩
    · exact Or.inl ⟨_,rfl⟩
    · cases nextName _ safe with
      | error e => exact Or.inl ⟨_,rfl⟩
      | ok final => exact Or.inr ⟨_,rfl⟩

theorem openTemp_phase (store : DownloadStore) (p : String) (disk : Disk) (final : String)
    (token : UInt64) (fault : Bool) (now : ℤ) :
    (store.openTemp p final token fault now disk).1 =
        .closing (tempName final token) [] (.error .other) ∨
      ∃ f, (store.openTemp p final token fault now disk).1 = .staging f := by
  unfold openTemp
  dsimp only
  cases disk.subarea (store.ownerKey p) entriesDir with
  | none => exact Or.inl rfl
  | some d =>
    dsimp only
    split_ifs
    · exact Or.inl rfl
    · exact Or.inr ⟨_,rfl⟩

theorem copy_phase (store : DownloadStore) (p : String) (disk : Disk) (f : Staged)
    (r : Except StoreError Bytes) (now : ℤ) :
    (∃ e, (store.copy p f r now disk).1 = .closing f.temp f.copied (.error e)) ∨
      (store.copy p f r now disk).1 = .staged f ∨
        ∃ f', (store.copy p f r now disk).1 = .staging f' := by
  unfold copy
  dsimp only
  split
  · exact Or.inl ⟨_,rfl⟩
  · exact Or.inr (Or.inl rfl)
  · split_ifs
    · exact Or.inl ⟨_,rfl⟩
    · exact Or.inr (Or.inr ⟨_,rfl⟩)

theorem check_phase (store : DownloadStore) (p : String) (disk : Disk) (f : Staged) :
    (∃ e, store.check p f disk = .closing f.temp f.copied (.error e)) ∨
      store.check p f disk = .checked f ∧ ∃ usage, store.usageBytes p disk = .ok usage ∧
        usage+f.copied.length ≤ store.quotaBytes := by
  unfold check
  cases store.usageBytes p disk with
  | error e => exact Or.inl ⟨e,rfl⟩
  | ok usage =>
    dsimp only
    split_ifs with hquota
    · exact Or.inl ⟨_,rfl⟩
    · exact Or.inr ⟨rfl,usage,rfl,by omega⟩

theorem rename_phase (store : DownloadStore) (p : String) (disk : Disk) (f : Staged) :
    (store.rename p f disk).1 = .closing f.temp f.copied (.error .other) ∨
      (store.rename p f disk).1 = .renamed f := by
  unfold rename
  dsimp only
  cases disk.subarea (store.ownerKey p) entriesDir with
  | none => exact Or.inl rfl
  | some d =>
    dsimp only
    split_ifs
    · exact Or.inl rfl
    · exact Or.inr rfl

theorem stat_phase (store : DownloadStore) (p : String) (disk : Disk) (f : Staged) :
    store.stat p f disk = .closing f.temp f.copied (.error .other) ∨
      ∃ receipt, store.stat p f disk = .receipted f receipt ∧ receipt.name = f.final := by
  unfold stat
  split
  · exact Or.inr ⟨_,rfl,rfl⟩
  · exact Or.inl rfl

theorem index_phase (store : DownloadStore) (p : String) (disk : Disk) (f : Staged)
    (receipt : DownloadReceipt) (fault : Bool) (now : ℤ) :
    (∃ e, (store.index p f receipt fault now disk).1 = .closing f.temp f.copied (.error e)) ∨
      (store.index p f receipt fault now disk).1 = .closing f.temp f.copied (.ok receipt) := by
  unfold index
  split
  · exact Or.inl ⟨_,rfl⟩
  · split
    · exact Or.inl ⟨_,rfl⟩
    · exact Or.inr rfl

/-! ### Calls at the same time -/

/-- The disk, and the calls that are made. -/
structure State where
  disk : Disk
  calls : List Phase

def State.move (store : DownloadStore) (p : String) (s : State) (i : ℕ) (m : Move) : State :=
  match s.calls[i]? with
  | none => s
  | some phase =>
    let r := store.move p m phase s.disk
    ⟨r.2,s.calls.set i r.1⟩

/-- Each call is sound, and no two of them have one temporary name. -/
structure State.Sound (store : DownloadStore) (p : String) (s : State) : Prop where
  calls : ∀ (i : ℕ) (phase : Phase), s.calls[i]? = some phase → phase.Sound store p s.disk
  apart : ∀ (i j : ℕ) (phase phase' : Phase) (t : String), s.calls[i]? = some phase →
    s.calls[j]? = some phase' → phase.temp = some t → phase'.temp = some t → i = j

/-- A temporary name that is drawn is not in use. -/
def State.DrawsFresh (s : State) (i : ℕ) (m : Move) : Prop :=
  ∀ phase ∈ s.calls[i]?, ∀ t ∈ drawn phase m, ∀ phase' ∈ s.calls, phase'.temp ≠ some t

instance (s : State) (i : ℕ) (m : Move) : Decidable (s.DrawsFresh i m) :=
  inferInstanceAs (Decidable (∀ phase ∈ s.calls[i]?, ∀ t ∈ drawn phase m, ∀ phase' ∈ s.calls,
    phase'.temp ≠ some t))

theorem State.sound_idle {s : State} (h : ∀ phase ∈ s.calls, phase = .idle) : s.Sound store p where
  calls i phase hphase := by
    rw [h phase (List.mem_of_getElem? hphase)]
    trivial
  apart i j phase phase' t hphase hphase' ht := by
    rw [h phase (List.mem_of_getElem? hphase)] at ht
    cases ht

theorem Phase.Sound.mono {phase : Phase} (h : phase.Sound store p disk)
    (hsafe : store.Safe p disk' ↔ store.Safe p disk)
    (hheld : ∀ f, phase.temp = some f.temp → store.Held p disk f → store.Held p disk' f) :
    phase.Sound store p disk' := by
  cases phase with
  | staging f => exact hheld f rfl h
  | staged f => exact hheld f rfl h
  | checked f => exact ⟨hheld f rfl h.1,hsafe.mpr h.2.1,h.2.2⟩
  | _ => exact h

theorem State.move_of_some {s : State} {i : ℕ} {phase : Phase} (h : s.calls[i]? = some phase)
    (m : Move) : s.move store p i m = ⟨(store.move p m phase s.disk).2,
      s.calls.set i (store.move p m phase s.disk).1⟩ := by
  simp [State.move,h]

theorem State.move_of_none {s : State} {i : ℕ} (h : s.calls[i]? = none) (m : Move) :
    s.move store p i m = s := by
  simp [State.move,h]

/-- A call after a move: the one that has moved, or another one that has not. -/
theorem calls_set {calls : List Phase} {i j : ℕ} {phase phase' new : Phase}
    (h : calls[i]? = some phase) (hj : (calls.set i new)[j]? = some phase') :
    j = i ∧ phase' = new ∨ j ≠ i ∧ calls[j]? = some phase' := by
  obtain ⟨hlt,-⟩ := List.getElem?_eq_some_iff.mp h
  by_cases hji : j = i
  · left
    rw [hji,List.getElem?_set_self hlt] at hj
    exact ⟨hji,(Option.some.inj hj).symm⟩
  · right
    rw [List.getElem?_set_ne (Ne.symm hji)] at hj
    exact ⟨hji,hj⟩

theorem State.sound_move {s : State} {i : ℕ} {m : Move} (h : s.Sound store p)
    (hfresh : s.DrawsFresh i m) : (s.move store p i m).Sound store p := by
  cases hi : s.calls[i]? with
  | none =>
    rw [State.move_of_none hi]
    exact h
  | some phase =>
    have hspec := move_spec (h.calls i phase hi) m
    have hother : ∀ (j : ℕ) (phase' : Phase) (t : String), j ≠ i → s.calls[j]? = some phase' →
        phase'.temp = some t → phase.temp ≠ some t ∧ drawn phase m ≠ some t := by
      intro j phase' t hji hj ht
      refine ⟨fun heq => hji (h.apart j i phase' phase t hj hi ht heq),fun heq => ?_⟩
      exact hfresh phase hi t heq phase' (List.mem_of_getElem? hj) ht
    rw [State.move_of_some hi]
    constructor
    · intro j phase' hj
      rcases calls_set hi hj with ⟨-,rfl⟩ | ⟨hji,hold⟩
      · exact hspec.sound
      · apply (h.calls j phase' hold).mono hspec.safe
        intro f htemp hheld
        apply hspec.held f hheld
        intro heq
        obtain ⟨hphase,hdrawn⟩ := hother j phase' f.temp hji hold htemp
        cases hold' : phase.temp with
        | some t =>
          rw [hold',Option.some_or] at heq
          exact hphase (hold'.trans heq.symm)
        | none =>
          rw [hold',Option.none_or] at heq
          rcases hspec.temp f.temp heq.symm with hsome | hsome
          · exact hphase hsome
          · exact hdrawn hsome
    · intro j k phase' phase'' t hj hk ht ht'
      rcases calls_set hi hj with ⟨rfl,rfl⟩ | ⟨hji,hold⟩ <;>
        rcases calls_set hi hk with ⟨rfl,rfl⟩ | ⟨hki,hold'⟩
      · rfl
      · obtain ⟨hphase,hdrawn⟩ := hother k phase'' t hki hold' ht'
        rcases hspec.temp t ht with hsome | hsome
        · exact absurd hsome hphase
        · exact absurd hsome hdrawn
      · obtain ⟨hphase,hdrawn⟩ := hother j phase' t hji hold ht
        rcases hspec.temp t ht' with hsome | hsome
        · exact absurd hsome hphase
        · exact absurd hsome hdrawn
      · exact h.apart j k phase' phase'' t hold hold' ht ht'

/-- A small store whose hash is the content itself. -/
def small : DownloadStore where
  sha256 b := String.ofList (b.map fun x => Char.ofNat x.toNat)
  floatRepr _ := []
  maxFileBytes := 10
  maxEntries := 10
  quotaBytes := 5

def twoCalls : State := ⟨Disk.empty,[.idle,.idle]⟩

end DownloadStore
end Storage
end CloudBrowser
