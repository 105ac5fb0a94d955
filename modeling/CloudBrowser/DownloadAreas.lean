import CloudBrowser.DownloadRuns

/-! The directories that an operation of the downloads store keeps to: those of the principal that
it is performed for. -/
namespace CloudBrowser
namespace Storage

open CloudFiles
open Directories

/-- The disks are the same in the directories of a set, and in what is below them. -/
structure Agree (T : Set String) (disk disk' : Disk) : Prop where
  root : ∀ top ∈ T, disk'.root.find top = disk.root.find top
  own : ∀ top ∈ T, disk'.own top = disk.own top
  sub : ∀ top ∈ T, ∀ name, disk'.sub (top,name) = disk.sub (top,name)

namespace Agree

variable {T T' : Set String} {disk disk' disk'' : Disk} {top top' name : String} {f : Folder Node}

theorem refl (disk : Disk) : Agree T disk disk :=
  ⟨fun _ _ => rfl,fun _ _ => rfl,fun _ _ _ => rfl⟩

theorem trans (h : Agree T disk disk') (h' : Agree T disk' disk'') : Agree T disk disk'' :=
  ⟨fun top ht => (h'.root top ht).trans (h.root top ht),
    fun top ht => (h'.own top ht).trans (h.own top ht),
    fun top ht name => (h'.sub top ht name).trans (h.sub top ht name)⟩

theorem mono (h : Agree T disk disk') (hsub : T' ⊆ T) : Agree T' disk disk' :=
  ⟨fun top ht => h.root top (hsub ht),fun top ht => h.own top (hsub ht),
    fun top ht name => h.sub top (hsub ht) name⟩

section Reading

variable (h : Agree T disk disk') (ht : top ∈ T)

include h ht

theorem child : disk'.child top name = disk.child top name := by
  simp only [Disk.child,h.root top ht,h.own top ht]

theorem area : disk'.area top = disk.area top := by
  simp only [Disk.area,h.root top ht,h.own top ht]

theorem subarea : disk'.subarea top name = disk.subarea top name := by
  simp only [Disk.subarea,h.child ht,h.sub top ht]

end Reading

/-! ### Elsewhere nothing changes -/

theorem away_setOwn (ht : top ∉ T) : Agree T disk (disk.setOwn top f) where
  root _ _ := rfl
  own _ ht' := Function.update_of_ne (ne_of_mem_of_not_mem ht' ht) _ _
  sub _ _ _ := rfl

theorem away_setSub (ht : top ∉ T) : Agree T disk (disk.setSub top name f) where
  root _ _ := rfl
  own _ _ := rfl
  sub _ ht' _ := Function.update_of_ne
    (fun heq => ne_of_mem_of_not_mem ht' ht (congrArg Prod.fst heq)) _ _

theorem away_mkdirTop (ht : top ∉ T) : Agree T disk (disk.mkdirTop top) := by
  refine ⟨?_,?_,?_⟩
  · intro top' ht'
    exact Disk.root_mkdirTop_of_ne (ne_of_mem_of_not_mem ht' ht)
  · intro top' ht'
    unfold Disk.mkdirTop
    split
    · exact Function.update_of_ne (ne_of_mem_of_not_mem ht' ht) _ _
    · rfl
  · intro top' _ name
    rw [Disk.sub_mkdirTop]

theorem away_mkdirSub (ht : top ∉ T) : Agree T disk (disk.mkdirSub top name) := by
  unfold Disk.mkdirSub
  split
  · exact (away_setOwn ht).trans (away_setSub ht)
  · exact .refl disk

theorem away_remove (ht : top ∉ T) : Agree T disk (disk.remove top) := by
  unfold Disk.remove
  split
  · refine ⟨?_,fun _ _ => rfl,fun _ _ _ => rfl⟩
    intro top' ht'
    exact Directory.find_unlink_of_ne (ne_of_mem_of_not_mem ht' ht)
  · exact .refl disk

/-! ### The same is done to both -/

section Both

variable (h : Agree T disk disk') (ht : top ∈ T)

include h

theorem setOwn : Agree T (disk.setOwn top f) (disk'.setOwn top f) where
  root := h.root
  own top' ht' := by
    by_cases heq : top' = top
    · simp [heq]
    · simp [heq,h.own top' ht']
  sub := h.sub

theorem setSub : Agree T (disk.setSub top name f) (disk'.setSub top name f) where
  root := h.root
  own := h.own
  sub top' ht' name' := by
    by_cases heq : (top',name') = (top,name)
    · rw [heq]
      simp
    · simp only [Disk.sub_setSub,Function.update_of_ne heq]
      exact h.sub top' ht' name'

include ht

theorem mkdirTop : Agree T (disk.mkdirTop top) (disk'.mkdirTop top) := by
  have hroot := h.root top ht
  cases hfind : disk.root.find top with
  | some n =>
    rw [Disk.mkdirTop_of_some hfind,Disk.mkdirTop_of_some (hroot.trans hfind)]
    exact h
  | none =>
    rw [hfind] at hroot
    refine ⟨?_,?_,?_⟩
    · intro top' ht'
      by_cases heq : top' = top
      · have hmade : (disk.mkdirTop top).root.find top = some .directory :=
          Disk.root_mkdirTop_self (by rw [hfind]; rfl)
        have hmade' : (disk'.mkdirTop top).root.find top = some .directory :=
          Disk.root_mkdirTop_self (by rw [hroot]; rfl)
        rw [heq,hmade,hmade']
      · rw [Disk.root_mkdirTop_of_ne heq,Disk.root_mkdirTop_of_ne heq,h.root top' ht']
    · intro top' ht'
      simp only [Disk.mkdirTop,hfind,hroot,h.own top ht]
      by_cases heq : top' = top
      · simp [heq]
      · simp [heq,h.own top' ht']
    · intro top' ht' name'
      rw [Disk.sub_mkdirTop,Disk.sub_mkdirTop,h.sub top' ht']

theorem mkdirSub (name : String) : Agree T (disk.mkdirSub top name) (disk'.mkdirSub top name) := by
  unfold Disk.mkdirSub
  rw [h.own top ht,h.sub top ht]
  split
  · exact h.setOwn.setSub
  · exact h

theorem remove : Agree T (disk.remove top) (disk'.remove top) := by
  unfold Disk.remove
  rw [h.root top ht]
  split
  · refine ⟨?_,h.own,h.sub⟩
    intro top' ht'
    by_cases heq : top' = top
    · rw [heq]
      exact Directory.find_unlink_self.trans Directory.find_unlink_self.symm
    · exact (Directory.find_unlink_of_ne heq).trans
        ((h.root top' ht').trans (Directory.find_unlink_of_ne heq).symm)
  · exact h

end Both

end Agree
namespace DownloadStore

/-- The directories at the root that are a principal's: in this layout, and in the one before. -/
def areas (store : DownloadStore) (p : String) : Set String :=
  {top | top = store.ownerKey p ∨ top = p}

/-- An operation that changes nothing outside a set of directories, and depends on nothing there. -/
structure Confined {α : Type} (T : Set String) (op : Disk → α × Disk) : Prop where
  frame : ∀ disk, Agree Tᶜ disk (op disk).2
  answer : ∀ disk disk', Agree T disk disk' → (op disk').1 = (op disk).1
  agree : ∀ disk disk', Agree T disk disk' → Agree T (op disk).2 (op disk').2

variable {store : DownloadStore} {p q : String} {T : Set String} {disk disk' : Disk}

theorem key_mem : store.ownerKey p ∈ store.areas p := Or.inl rfl

theorem prior_mem : p ∈ store.areas p := Or.inr rfl

theorem key_away : store.ownerKey p ∉ (store.areas p)ᶜ := fun h => h key_mem

theorem prior_away : p ∉ (store.areas p)ᶜ := fun h => h prior_mem

/-- An operation that only looks. -/
theorem Confined.of_read {α : Type} {f : Disk → α}
    (h : ∀ disk disk', Agree T disk disk' → f disk' = f disk) :
    Confined T fun disk => (f disk,disk) :=
  ⟨fun disk => .refl disk,h,fun _ _ hagree => hagree⟩

section Reads

variable (h : Agree (store.areas p) disk disk')

include h

theorem storageDirs_agree : store.storageDirs p disk' = store.storageDirs p disk := by
  simp only [storageDirs,h.root _ key_mem,h.root _ prior_mem,h.child key_mem,h.subarea key_mem,
    h.area prior_mem]

theorem readIndexHash_agree (name : String) :
    store.readIndexHash p name disk' = store.readIndexHash p name disk := by
  simp only [readIndexHash,h.area key_mem,h.area prior_mem]

theorem listEntries_agree : store.listEntries p disk' = store.listEntries p disk := by
  have hadd : store.addEntry p disk' = store.addEntry p disk := by
    funext f result name
    simp only [addEntry,readIndexHash_agree h]
  simp only [listEntries,storageDirs_agree h,hadd,h.child key_mem,h.child prior_mem,
    h.subarea key_mem,h.subarea prior_mem]

theorem read_agree (name : String) : store.read p name disk' = store.read p name disk := by
  simp only [read,storageDirs_agree h]

theorem usageBytes_agree : store.usageBytes p disk' = store.usageBytes p disk := by
  simp only [usageBytes,storageDirs_agree h]

end Reads

theorem confined_purge (older : ℚ) : Confined (store.areas p) (store.purge p older) := by
  refine ⟨?_,?_,?_⟩
  · intro disk
    unfold purge
    split
    · exact .refl disk
    · exact (Agree.away_setSub key_away).trans (Agree.away_setOwn prior_away)
  · intro disk disk' h
    simp only [purge,storageDirs_agree h,h.subarea key_mem,h.area prior_mem]
    split <;> rfl
  · intro disk disk' h
    simp only [purge,storageDirs_agree h,h.subarea key_mem,h.area prior_mem,h.sub _ key_mem,
      Disk.own_setSub,h.own _ prior_mem]
    split
    · exact h
    · exact h.setSub.setOwn

theorem confined_erase : Confined (store.areas p) (store.erase p) := by
  refine ⟨?_,?_,?_⟩
  · intro disk
    unfold erase
    split
    · exact .refl disk
    · exact (Agree.away_remove key_away).trans (Agree.away_remove prior_away)
  · intro disk disk' h
    unfold erase
    split <;> rfl
  · intro disk disk' h
    unfold erase
    split
    · exact h
    · exact (h.remove key_mem).remove prior_mem

theorem Confined.of_both {α : Type} {op : Disk → α × Disk}
    (hframe : ∀ disk, Agree Tᶜ disk (op disk).2)
    (hboth : ∀ disk disk', Agree T disk disk' →
      (op disk').1 = (op disk).1 ∧ Agree T (op disk).2 (op disk').2) : Confined T op :=
  ⟨hframe,fun disk disk' h => (hboth disk disk' h).1,fun disk disk' h => (hboth disk disk' h).2⟩

theorem Confined.map {α β : Type} {op : Disk → α × Disk} (h : Confined T op) (g : α → β) :
    Confined T fun disk => (op disk).map g id :=
  ⟨h.frame,fun disk disk' hagree => congrArg g (h.answer disk disk' hagree),h.agree⟩

/-- The two directories that a principal's files go through are made. -/
theorem away_mkdirs (store : DownloadStore) (p : String) (disk : Disk) (name : String) :
    Agree (store.areas p)ᶜ disk
      ((disk.mkdirTop (store.ownerKey p)).mkdirSub (store.ownerKey p) name) :=
  (Agree.away_mkdirTop key_away).trans (Agree.away_mkdirSub key_away)

theorem confined_quarantine (name : String) (reads : List (Except StoreError Bytes)) (now : ℤ) :
    Confined (store.areas p) (store.quarantine p name reads now) := by
  apply Confined.of_both
  · intro disk
    unfold quarantine
    cases validateName name with
    | none => exact .refl disk
    | some safe =>
      dsimp only
      split_ifs
      · exact .refl disk
      · exact .refl disk
      · exact .away_mkdirTop key_away
      · have hmade := store.away_mkdirs p disk quarantineDir
        split
        · exact hmade
        · split_ifs
          · exact hmade
          · split
            · exact hmade
            · exact hmade.trans (Agree.away_setSub key_away)
  · intro disk disk' h
    unfold quarantine
    cases validateName name with
    | none => exact ⟨rfl,h⟩
    | some safe =>
      have htop := h.mkdirTop key_mem
      have hmade := htop.mkdirSub key_mem quarantineDir
      simp only [h.root _ key_mem,htop.child key_mem,hmade.sub _ key_mem]
      split_ifs
      · exact ⟨rfl,h⟩
      · exact ⟨rfl,h⟩
      · exact ⟨rfl,htop⟩
      · split
        · exact ⟨rfl,hmade⟩
        · split_ifs
          · exact ⟨rfl,hmade⟩
          · split
            · exact ⟨rfl,hmade⟩
            · exact ⟨rfl,hmade.setSub⟩

theorem confined_start (name : String) : Confined (store.areas p) (store.start p name) := by
  apply Confined.of_both
  · intro disk
    unfold start
    cases validateName name with
    | none => exact .refl disk
    | some safe =>
      dsimp only
      split_ifs
      · exact .refl disk
      · exact .refl disk
      · exact .away_mkdirTop key_away
      · have hmade := store.away_mkdirs p disk entriesDir
        split <;> exact hmade
  · intro disk disk' h
    unfold start
    cases validateName name with
    | none => exact ⟨rfl,h⟩
    | some safe =>
      have htop := h.mkdirTop key_mem
      have hmade := htop.mkdirSub key_mem entriesDir
      simp only [h.root _ key_mem,htop.child key_mem,hmade.sub _ key_mem]
      split_ifs
      · exact ⟨rfl,h⟩
      · exact ⟨rfl,h⟩
      · exact ⟨rfl,htop⟩
      · split <;> exact ⟨rfl,hmade⟩

theorem confined_openTemp (final : String) (token : UInt64) (fault : Bool) (now : ℤ) :
    Confined (store.areas p) (store.openTemp p final token fault now) := by
  apply Confined.of_both
  · intro disk
    unfold openTemp
    dsimp only
    split
    · exact .refl disk
    · split_ifs
      · exact .refl disk
      · exact .away_setSub key_away
  · intro disk disk' h
    simp only [openTemp,h.subarea key_mem]
    split
    · exact ⟨rfl,h⟩
    · split_ifs
      · exact ⟨rfl,h⟩
      · exact ⟨rfl,h.setSub⟩

theorem confined_copy (f : Staged) (r : Except StoreError Bytes) (now : ℤ) :
    Confined (store.areas p) (store.copy p f r now) := by
  apply Confined.of_both
  · intro disk
    unfold copy
    dsimp only
    split
    · exact .refl disk
    · exact .refl disk
    · split_ifs
      · exact .refl disk
      · exact .away_setSub key_away
  · intro disk disk' h
    simp only [copy,h.sub _ key_mem]
    split
    · exact ⟨rfl,h⟩
    · exact ⟨rfl,h⟩
    · split_ifs
      · exact ⟨rfl,h⟩
      · exact ⟨rfl,h.setSub⟩

theorem confined_rename (f : Staged) : Confined (store.areas p) (store.rename p f) := by
  apply Confined.of_both
  · intro disk
    unfold rename
    dsimp only
    split
    · exact .refl disk
    · split_ifs
      · exact .refl disk
      · exact .away_setSub key_away
  · intro disk disk' h
    simp only [rename,h.subarea key_mem]
    split
    · exact ⟨rfl,h⟩
    · split_ifs
      · exact ⟨rfl,h⟩
      · exact ⟨rfl,h.setSub⟩

theorem confined_writeIndex (store : DownloadStore) (p : String) (receipt : DownloadReceipt)
    (now : ℤ) :
    Confined (store.areas p) (store.writeIndex p receipt now) := by
  apply Confined.of_both
  · intro disk
    have htop : Agree (store.areas p)ᶜ disk (disk.mkdirTop (store.ownerKey p)) :=
      .away_mkdirTop key_away
    unfold writeIndex
    dsimp only
    split
    · exact htop
    · split_ifs
      · exact htop
      · exact htop.trans (.away_setOwn key_away)
  · intro disk disk' h
    have htop := h.mkdirTop key_mem
    simp only [writeIndex,htop.area key_mem]
    split
    · exact ⟨rfl,htop⟩
    · split_ifs
      · exact ⟨rfl,htop⟩
      · exact ⟨rfl,htop.setOwn⟩

theorem confined_index (f : Staged) (receipt : DownloadReceipt) (fault : Bool) (now : ℤ) :
    Confined (store.areas p) (store.index p f receipt fault now) := by
  have hwrite := store.confined_writeIndex p receipt now
  apply Confined.of_both
  · intro disk
    have hframe := hwrite.frame disk
    unfold index
    split_ifs
    · exact .refl disk
    · rcases hr : store.writeIndex p receipt now disk with ⟨_ | _,disk₁⟩
      · rw [hr] at hframe
        exact hframe
      · rw [hr] at hframe
        exact hframe
  · intro disk disk' h
    have hanswer := hwrite.answer disk disk' h
    have hagree := hwrite.agree disk disk' h
    unfold index
    split_ifs
    · exact ⟨rfl,h⟩
    · rcases hr : store.writeIndex p receipt now disk with ⟨r,disk₁⟩
      rcases hr' : store.writeIndex p receipt now disk' with ⟨r',disk₁'⟩
      rw [hr,hr'] at hanswer hagree
      cases hanswer
      cases r with
      | error e => exact ⟨rfl,hagree⟩
      | ok u => exact ⟨rfl,hagree⟩

theorem confined_unlinkTemp (store : DownloadStore) (p : String) (temp : String) :
    Confined (store.areas p) fun disk => ((),store.unlinkTemp p temp disk) := by
  apply Confined.of_both
  · intro disk
    unfold unlinkTemp
    dsimp only
    split
    · exact .refl disk
    · exact .away_setSub key_away
  · intro disk disk' h
    simp only [unlinkTemp,h.subarea key_mem]
    split
    · exact ⟨trivial,h⟩
    · exact ⟨trivial,h.setSub⟩

theorem check_agree (f : Staged) (h : Agree (store.areas p) disk disk') :
    store.check p f disk' = store.check p f disk := by
  simp only [check,usageBytes_agree h]

theorem stat_agree (f : Staged) (h : Agree (store.areas p) disk disk') :
    store.stat p f disk' = store.stat p f disk := by
  simp only [stat,h.subarea key_mem]

/-- Every step of a call of `ingest` keeps to the directories of its principal. -/
theorem confined_move (store : DownloadStore) (p : String) (m : Move) (phase : Phase) :
    Confined (store.areas p) (store.move p m phase) := by
  have hidle : Confined (store.areas p) fun disk => (phase,disk) := .of_read fun _ _ _ => rfl
  cases phase <;> cases m
  case idle.start name => exact confined_start name
  case named.openTemp final token fault now => exact confined_openTemp final token fault now
  case staging.copy f r now => exact confined_copy f r now
  case staged.check f => exact .of_read fun _ _ h => check_agree f h
  case checked.rename f => exact confined_rename f
  case renamed.stat f => exact .of_read fun _ _ h => stat_agree f h
  case receipted.index f receipt fault now => exact confined_index f receipt fault now
  case closing.unlinkTemp temp copied result =>
    have hunlink := store.confined_unlinkTemp p temp
    exact ⟨hunlink.frame,fun _ _ _ => rfl,hunlink.agree⟩
  all_goals exact hidle

theorem moves_cons (m : Move) (ms : List Move) (phase : Phase) : store.moves p (m::ms) phase disk =
    store.moves p ms (store.move p m phase disk).1 (store.move p m phase disk).2 := rfl

theorem confined_moves (ms : List Move) (phase : Phase) :
    Confined (store.areas p) (store.moves p ms phase) := by
  induction ms generalizing phase with
  | nil => exact .of_read fun _ _ _ => rfl
  | cons m ms ih =>
    have hmove := store.confined_move p m phase
    apply Confined.of_both
    · intro disk
      exact (hmove.frame disk).trans ((ih _).frame _)
    · intro disk disk' h
      have hanswer := hmove.answer disk disk' h
      have hagree := hmove.agree disk disk' h
      rw [moves_cons,moves_cons,hanswer]
      exact ⟨(ih _).answer _ _ hagree,(ih _).agree _ _ hagree⟩

theorem confined_perform (store : DownloadStore) (p : String) (request : Request) :
    Confined (store.areas p) (store.perform p request) := by
  cases request with
  | list => exact .of_read fun _ _ h => congrArg Answer.entries (listEntries_agree h)
  | read name => exact .of_read fun _ _ h => congrArg Answer.bytes (read_agree h name)
  | ingest u => exact (confined_moves u.moves .idle).map _
  | quarantine name reads now => exact (confined_quarantine name reads now).map _
  | purge older => exact (confined_purge older).map _
  | erase => exact confined_erase.map _

end DownloadStore
end Storage
end CloudBrowser
