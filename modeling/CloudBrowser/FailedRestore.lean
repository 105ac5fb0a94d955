import CloudBrowser.BackupRoundTrip
import Mathlib.Data.List.Induction

/-! What a restore that fails leaves behind: everything that it had extracted until then. -/
namespace CloudBrowser
namespace Backup

open Stateful

/-! ### Writes -/

/-- The file that a list of writes leaves at its place. -/
def Leaves (ws : List StoredFile) (x : StoredFile) : Prop :=
  ∃ before after, ws = before ++ x :: after ∧ ∀ y ∈ after, y.location ≠ x.location

theorem leaves_snoc {ws : List StoredFile} {w x : StoredFile} :
    Leaves (ws ++ [w]) x ↔ x = w ∨ Leaves ws x ∧ w.location ≠ x.location := by
  constructor
  · rintro ⟨before,after,hws,hafter⟩
    rcases List.eq_nil_or_concat after with rfl | ⟨after,y,rfl⟩
    · have hlast := List.append_inj' hws rfl
      simp at hlast
      exact Or.inl hlast.2.symm
    · rw [List.concat_eq_append,← List.cons_append,← List.append_assoc] at hws
      obtain ⟨hold,hy⟩ := List.append_inj' hws rfl
      simp at hy
      subst hy
      refine Or.inr ⟨⟨before,after,hold,?_⟩,?_⟩
      · intro y hy
        exact hafter y (by simp [hy])
      · exact hafter w (by simp)
  · rintro (rfl | ⟨⟨before,after,rfl,hafter⟩,hw⟩)
    · exact ⟨ws,[],rfl,by simp⟩
    · refine ⟨before,after ++ [w],by simp,?_⟩
      intro y hy
      rcases List.mem_append.mp hy with hy | hy
      · exact hafter y hy
      · rw [List.mem_singleton.mp hy]
        exact hw

/-- A place that is written has a file there in the end. -/
theorem leaves_of_mem {ws : List StoredFile} {w : StoredFile} (hw : w ∈ ws) :
    ∃ x, Leaves ws x ∧ x.location = w.location := by
  induction ws using List.reverseRecOn with
  | nil => cases hw
  | append_singleton ws v ih =>
    by_cases hv : v.location = w.location
    · exact ⟨v,leaves_snoc.mpr (Or.inl rfl),hv⟩
    · have hold : w ∈ ws := by
        rcases List.mem_append.mp hw with hold | hnew
        · exact hold
        · rw [List.mem_singleton.mp hnew] at hv
          exact absurd rfl hv
      obtain ⟨x,hx,hlocation⟩ := ih hold
      exact ⟨x,leaves_snoc.mpr (Or.inr ⟨hx,by rwa [hlocation]⟩),hlocation⟩

variable {disk : Disk} {ws : List StoredFile} {x : StoredFile}

theorem mem_writes : x ∈ (ws.foldl Disk.write disk).files ↔
    Leaves ws x ∨ x ∈ disk.files ∧ ∀ w ∈ ws, w.location ≠ x.location := by
  induction ws using List.reverseRecOn with
  | nil =>
    have hnone : ¬Leaves [] x := by
      rintro ⟨before,after,h,-⟩
      simp at h
    simp [hnone]
  | append_singleton ws w ih =>
    rw [List.foldl_append,List.foldl_cons,List.foldl_nil,Disk.write,Keyed.Table.mem_put,ih,leaves_snoc]
    have hsymm : x.location ≠ w.location ↔ w.location ≠ x.location := ne_comm
    simp only [List.mem_append,List.mem_singleton,or_imp,forall_and,forall_eq,hsymm]
    tauto

/-- Writes change nothing exactly if what they leave was there before. -/
theorem writes_idle : (∀ x, x ∈ (ws.foldl Disk.write disk).files ↔ x ∈ disk.files) ↔
    ∀ x, Leaves ws x → x ∈ disk.files := by
  constructor
  · intro h x hx
    exact (h x).mp (mem_writes.mpr (Or.inl hx))
  · intro h x
    rw [mem_writes]
    constructor
    · rintro (hx | ⟨hx,-⟩)
      · exact h x hx
      · exact hx
    · intro hx
      by_cases hwritten : ∃ w ∈ ws, w.location = x.location
      · obtain ⟨w,hw,hlocation⟩ := hwritten
        obtain ⟨y,hy,hyw⟩ := leaves_of_mem hw
        have hsame := Keyed.Table.eq_of_key (h y hy) hx (hyw.trans hlocation)
        exact Or.inl (hsame ▸ hy)
      · refine Or.inr ⟨hx,?_⟩
        intro w hw hlocation
        exact hwritten ⟨w,hw,hlocation⟩

/-! ### The restore -/

variable (t : Surroundings) (destination : PurePath)

/-- What the extraction writes until a member fails. -/
def writes (root : List Bytes) : ℕ → Disk → List Member → List StoredFile
  | _, _, [] => []
  | k, disk, m::members =>
    let e := extraction t destination root k disk m
    e.1.toList ++ if e.2 then writes root (k+1) (disk.after e.1) members else []

theorem extractAll_disk (root : List Bytes) (k : ℕ) (disk : Disk) (members : List Member) :
    (extractAll t destination root k disk members).2 =
      (writes t destination root k disk members).foldl Disk.write disk := by
  induction members generalizing k disk with
  | nil => rfl
  | cons m members ih =>
    have hafter (w : Option StoredFile) : w.toList.foldl Disk.write disk = disk.after w := by
      cases w <;> rfl
    simp only [extractAll,writes,List.foldl_append,hafter]
    split_ifs
    · exact ih _ _
    · rfl

/-- The members are all extracted, and are what the manifest says of them. -/
def Intact (root : List Bytes) (manifest : List (String × Json)) (files : List Member)
    (disk : Disk) : Prop :=
  ∃ disk' found, extractAll t destination root 0 disk files = (.ok (),disk') ∧
    digest t.sha256 (readBack t destination disk') files = .ok found ∧
    countMatches files.length (Json.get manifest "file_count") = true ∧
    (Json.get manifest "sha256").asString = some found

/-- A restore that raises leaves the files of the file system, and with it of the destination, as
they were. -/
def FailsCleanly (archive : Option (List Member)) (instanceId : String) (disk : Disk) : Prop :=
  ∀ e disk', restoreStore t destination archive instanceId disk = (.error e,disk') →
    ∀ x, x ∈ disk'.files ↔ x ∈ disk.files

variable {t destination} {root : List Bytes} {manifest : List (String × Json)} {files : List Member}
  {instanceId : String}

theorem verify_ok {disk' : Disk} {found : String}
    (hfound : digest t.sha256 (readBack t destination disk') files = .ok found) :
    (∃ m, verify t destination disk' manifest files instanceId = .ok m) ↔
      countMatches files.length (Json.get manifest "file_count") = true ∧
      (Json.get manifest "sha256").asString = some found := by
  unfold verify
  rw [hfound]
  simp only [bind,Except.bind]
  split_ifs with hmatch
  · exact ⟨fun _ => hmatch,fun _ => ⟨_,rfl⟩⟩
  · exact ⟨fun ⟨_,h⟩ => (by cases h),fun h => absurd h hmatch⟩

/-- The archive that passed what is checked first is restored exactly if it is intact. -/
theorem restored_iff {archive : Option (List Member)}
    (hinspect : inspect t destination archive instanceId = .ok (root,manifest,files)) :
    (∃ m, (restoreStore t destination archive instanceId disk).1 = .ok m) ↔
      Intact t destination root manifest files disk := by
  unfold restoreStore Intact
  rw [hinspect]
  dsimp only
  rcases extractAll t destination root 0 disk files with ⟨e | _,disk'⟩
  · constructor
    · rintro ⟨m,hm⟩
      cases hm
    · rintro ⟨disk'',found,h,-⟩
      cases h
  · constructor
    · rintro ⟨m,hm⟩
      obtain ⟨found,hfound,-⟩ := bind_ok hm
      have hmatch := (verify_ok hfound).mp ⟨m,hm⟩
      exact ⟨disk',found,rfl,hfound,hmatch.1,hmatch.2⟩
    · rintro ⟨disk'',found,h,hfound,hmatch⟩
      cases h
      exact (verify_ok hfound).mpr hmatch

theorem restoreStore_disk {archive : Option (List Member)}
    (hinspect : inspect t destination archive instanceId = .ok (root,manifest,files)) :
    (restoreStore t destination archive instanceId disk).2 =
      (writes t destination root 0 disk files).foldl Disk.write disk := by
  have hdisk := extractAll_disk t destination root 0 disk files
  unfold restoreStore
  rw [hinspect]
  dsimp only
  rcases hall : extractAll t destination root 0 disk files with ⟨e | _,disk'⟩
  · rw [hall] at hdisk
    exact hdisk
  · rw [hall] at hdisk
    exact hdisk

/-- An archive of one file whose manifest speaks of two. -/
def miscounted : List Member :=
  [⟨manifestName,true,(Manifest.dumps ⟨"cloudfiles",2,""⟩).getD [],none⟩,
    ⟨Text.encodeUtf8 "report.txt",true,[1,2],none⟩]

end Backup
end CloudBrowser
