import CloudBrowser.DownloadAreas
import CloudBrowser.IngestPipeline
import CloudBrowser.Latin1
import Mathlib.Data.Set.BooleanAlgebra
import Mathlib.Order.CompletePartialOrder

/-! Whether one principal can touch, or learn, what another one has stored. -/
namespace CloudBrowser
namespace Storage
namespace DownloadStore

open CloudFiles
open Directories

/-- The disk of the service, and the calls of `ingest` that are under way with their principals. -/
structure Service where
  disk : Disk
  calls : List (String × Phase)

inductive ServiceEvent
  | request (p : String) (r : Request)
  | call (p : String)
  | move (i : ℕ) (m : Move)

def Service.step (store : DownloadStore) (s : Service) : ServiceEvent → Service
  | .request p r => { s with disk := (store.perform p r s.disk).2 }
  | .call p => { s with calls := s.calls ++ [(p,.idle)] }
  | .move i m =>
    match s.calls[i]? with
    | none => s
    | some (p,phase) =>
      let r := store.move p m phase s.disk
      ⟨r.2,s.calls.set i (p,r.1)⟩

/-- A volume as older releases leave it, without directories below those of the principals but for
the quarantine. -/
def Inherited (disk : Disk) : Prop :=
  ∀ top name, (disk.own top).find name = some .directory → name = priorQuarantineDir

def Reachable (store : DownloadStore) (disk : Disk) : Prop :=
  ∃ (disk₀ : Disk) (events : List ServiceEvent), Inherited disk₀ ∧
    disk = (events.foldl (Service.step store) ⟨disk₀,[]⟩).disk

/-- An operation does not change what `q` lists and reads, and it answers what it would with
anything else in the directories of `q`. -/
structure Spares {α : Type} (store : DownloadStore) (q : String) (op : Disk → α × Disk)
    (disk : Disk) : Prop where
  listed : store.listEntries q (op disk).2 = store.listEntries q disk
  readable : ∀ name, store.read q name (op disk).2 = store.read q name disk
  unseen : ∀ disk', Agree (store.areas q)ᶜ disk disk' → (op disk').1 = (op disk).1

/-- So it is with every request of `p`, and with every step of a call of `ingest`. -/
structure Isolated (store : DownloadStore) (p q : String) (disk : Disk) : Prop where
  request : ∀ r, store.Spares q (store.perform p r) disk
  move : ∀ m phase, store.Spares q (store.move p m phase) disk

variable {store : DownloadStore} {p q : String} {disk : Disk}

theorem Confined.spares {α : Type} {op : Disk → α × Disk} (hop : Confined (store.areas p) op)
    (h : Disjoint (store.areas p) (store.areas q)) (disk : Disk) : store.Spares q op disk := by
  have hq : store.areas q ⊆ (store.areas p)ᶜ := h.subset_compl_left
  have hp : store.areas p ⊆ (store.areas q)ᶜ := h.subset_compl_right
  have hkept := (hop.frame disk).mono hq
  exact ⟨listEntries_agree hkept,read_agree hkept,
    fun disk' hagree => hop.answer disk disk' (hagree.mono hp)⟩

theorem isolated_of_disjoint (h : Disjoint (store.areas p) (store.areas q)) (disk : Disk) :
    store.Isolated p q disk where
  request r := (store.confined_perform p r).spares h disk
  move m phase := (store.confined_move p m phase).spares h disk

/-- Four directories, two of them named by hashes. -/
theorem disjoint_areas (hinj : Function.Injective store.sha256) (hne : p ≠ q)
    (hpq : p ≠ store.ownerKey q) (hqp : q ≠ store.ownerKey p) :
    Disjoint (store.areas p) (store.areas q) := by
  rw [Set.disjoint_left]
  rintro top (rfl | rfl) (heq | heq)
  · exact hne (Text.encodeUtf8_injective (hinj heq))
  · exact hqp heq.symm
  · exact hpq heq
  · exact hne heq

/-- A directory with the one file `a`, and the first name that is free in an empty one. -/
theorem single_file : validateName "a" = some "a" ∧
    (((List.range 1001).map (quarantineName "a")).find? fun c =>
      ((Folder.empty Node.directory).clear.lookup c).isNone) = some "a" ∧
    sortedNames ((Folder.empty Node.directory).clear.create "a" (.file [] 0)) = ["a"] :=
  ⟨by decide +kernel,by decide +kernel,by decide +kernel⟩

theorem read_missing {name : String} (hq : isPrincipal q = true) (hname : (validateName name).isSome)
    (hkey : disk.root.find (store.ownerKey q) = none) (hprior : disk.root.find q = none) :
    store.read q name disk = .ok none := by
  obtain ⟨safe,hsafe⟩ := Option.isSome_iff_exists.mp hname
  have hall : store.Safe q disk := by simp [Safe,Disk.child,hkey,hprior,isSafe]
  have hfound : store.found q disk safe = none := by
    simp [found,Disk.subarea,Disk.child,Disk.area,hkey,hprior]
  rw [read_eq,hsafe]
  simp [hq,hall,hfound]

theorem read_prior (hq : isPrincipal q = true)
    (hkey : disk.root.find (store.ownerKey q) = none) (hroot : disk.root.find q = some .directory)
    (hfind : (disk.own q).find "a" = some (.file [] 0)) : store.read q "a" disk = .ok (some []) := by
  have hname := single_file.1
  have hall : store.Safe q disk := by simp [Safe,Disk.child,hkey,hroot,isSafe]
  have hfound : store.found q disk "a" = some [] := by
    simp [found,Disk.subarea,Disk.child,Disk.area,hkey,hroot,regular,hfind]
  exact read_eq_some.mpr ⟨"a",hname,hq,hall,hfound⟩

theorem listEntries_missing (hq : isPrincipal q = true)
    (hkey : disk.root.find (store.ownerKey q) = none) (hprior : disk.root.find q = none) :
    store.listEntries q disk = .ok [] := by
  have hsafe : store.Safe q disk := by simp [Safe,Disk.child,hkey,hprior,isSafe]
  unfold listEntries
  rw [storageDirs_eq,if_neg (by simp [hq]),if_pos hsafe]
  have hsub : ∀ top name, disk.root.find top = none → disk.subarea top name = none := by
    intro top name htop
    simp [Disk.subarea,Disk.child,htop]
  have harea : disk.area q = none := by simp [Disk.area,hprior]
  rw [hsub _ _ hkey,harea]
  simp [Disk.child,hkey,hprior,isSafe,hsub,bind,Except.bind,pure,Except.pure]

/-- The quarantine of the one file is what is listed. -/
theorem listEntries_quarantined {f : Folder Node} (hq : isPrincipal q = true)
    (hkey : disk.root.find (store.ownerKey q) = some .directory) (hprior : disk.root.find q = none)
    (hentries : disk.child (store.ownerKey q) entriesDir = none)
    (hquarantine : disk.subarea (store.ownerKey q) quarantineDir = some f)
    (hnames : sortedNames f = ["a"]) (hfind : f.find "a" = some (.file [] 0)) :
    store.listEntries q disk ≠ .ok [] := by
  have hsafe : store.Safe q disk := by simp [Safe,hentries,hkey,hprior,isSafe]
  have hchild : disk.child (store.ownerKey q) quarantineDir = some .directory :=
    (Disk.subarea_eq_some.mp hquarantine).1
  have hsub : disk.subarea (store.ownerKey q) entriesDir = none := by simp [Disk.subarea,hentries]
  have harea : disk.area q = none := by simp [Disk.area,hprior]
  have hname := single_file.1
  have hmax : ¬store.maxEntries ≤ 0 := by
    have hpos := store.maxEntries_pos
    omega
  have hadd : store.addQuarantined q f [] "a" = [⟨"a",0,0,q,true,some "a",none⟩] := by
    simp [addQuarantined,hmax,hname,hfind]
  unfold listEntries
  rw [storageDirs_eq,if_neg (by simp [hq]),if_pos hsafe,hsub,harea]
  have hpriorQ : disk.subarea q priorQuarantineDir = none := by simp [Disk.subarea,Disk.child,hprior]
  have hpriorC : disk.child q priorQuarantineDir = none := by simp [Disk.child,hprior]
  simp [hchild,hpriorC,isSafe,hquarantine,hpriorQ,hnames,hadd,bind,Except.bind,pure,Except.pure]

/-- The first name is free in an empty directory. -/
theorem quarantine_empty (hq : isPrincipal q = true) :
    (store.quarantine q "a" [] 0 Disk.empty).2 =
      ((Disk.empty.mkdirTop (store.ownerKey q)).mkdirSub (store.ownerKey q) quarantineDir).setSub
        (store.ownerKey q) quarantineDir
        ((Folder.empty Node.directory).clear.create "a" (.file [] 0)) := by
  have hname := single_file.1
  have hroot : Disk.empty.root.find (store.ownerKey q) = none := rfl
  have hchild :
      (Disk.empty.mkdirTop (store.ownerKey q)).child (store.ownerKey q) quarantineDir = none := by
    rw [Disk.child_mkdirTop]
    rfl
  have hown : ((Disk.empty.mkdirTop (store.ownerKey q)).own (store.ownerKey q)).find quarantineDir =
      none := by
    simp [Disk.mkdirTop,hroot]
  have hsub : ((Disk.empty.mkdirTop (store.ownerKey q)).mkdirSub (store.ownerKey q) quarantineDir).sub
      (store.ownerKey q,quarantineDir) = (Folder.empty Node.directory).clear := by
    rw [Disk.mkdirSub,hown]
    simp only [Disk.sub_setSub,Function.update_self,Disk.sub_mkdirTop]
    rfl
  have hfree : (((List.range 1001).map (quarantineName "a")).find? fun c =>
      ((Folder.empty Node.directory).clear.lookup c).isNone) = some "a" := single_file.2.1
  have hshort : ¬nameBytes < Text.utf8Length "a" := by decide
  unfold quarantine
  simp only [hname,hq,hroot,hchild,hsub,hfree,isSafe,Bool.true_eq_false,if_false,copyStream]
  rw [if_neg hshort]

/-- Where `p` is named as the hash of `q`, erasing `p` takes the directory of `q` away. -/
theorem not_isolated_hashed (hp : isPrincipal p = true) (hq : isPrincipal q = true)
    (hpq : p = store.ownerKey q) (hne : p ≠ q) :
    ∃ disk, store.Reachable disk ∧ ¬store.Isolated p q disk := by
  let made := Disk.empty.mkdirTop (store.ownerKey q)
  let g := (Folder.empty Node.directory).clear.create "a" (.file [] 0)
  let disk := (made.mkdirSub (store.ownerKey q) quarantineDir).setSub (store.ownerKey q) quarantineDir g
  have htop : made.root.find (store.ownerKey q) = some .directory := Disk.root_mkdirTop_self rfl
  have hroot : disk.root.find (store.ownerKey q) = some .directory := by
    simp [disk,htop]
  have hprior : disk.root.find q = none := by
    have hother : made.root.find q = none := Disk.root_mkdirTop_of_ne (hpq ▸ hne.symm)
    simp [disk,hother]
  have hmade : ∀ name, made.child (store.ownerKey q) name = none := by
    intro name
    rw [Disk.child_mkdirTop]
    rfl
  have hentries : disk.child (store.ownerKey q) entriesDir = none := by
    have hne : (store.ownerKey q,entriesDir) ≠ (store.ownerKey q,quarantineDir) := by
      simp [entriesDir,quarantineDir]
    rw [Disk.child_setSub,Disk.child_mkdirSub htop,if_neg (fun h => hne h.1)]
    exact hmade _
  have hquarantine : disk.subarea (store.ownerKey q) quarantineDir = some g := by
    apply Disk.subarea_setSub_self
    rw [Disk.subarea_mkdirSub htop,if_pos ⟨rfl,hmade _⟩]
    rfl
  have hrun : (store.quarantine q "a" [] 0 Disk.empty).2 = disk := quarantine_empty hq
  refine ⟨disk,⟨Disk.empty,[.request q (.quarantine "a" [] 0)],?_,?_⟩,?_⟩
  · intro top name hfind
    cases hfind
  · simp only [List.foldl_cons,List.foldl_nil,Service.step,perform,Prod.map_snd,id]
    exact hrun.symm
  · intro hisolated
    have hlisted := (hisolated.request .erase).listed
    have hafter : store.listEntries q (store.perform p .erase disk).2 = .ok [] := by
      have herase : (store.perform p .erase disk).2 = (disk.remove (store.ownerKey p)).remove p := by
        simp [perform,erase,hp]
      rw [herase]
      apply listEntries_missing hq
      · rw [← hpq] at hroot ⊢
        exact Disk.root_remove_second hroot
      · exact Disk.root_remove_of_none (Disk.root_remove_of_none hprior)
    rw [hafter] at hlisted
    exact listEntries_quarantined hq hroot hprior hentries hquarantine single_file.2.2
      Directory.find_create_self hlisted.symm

/-- Where `q` is named as the hash of `p`, erasing `p` takes the older directory of `q` away. -/
theorem not_isolated_hashing (hp : isPrincipal p = true) (hq : isPrincipal q = true)
    (hqp : q = store.ownerKey p) (hkey : store.ownerKey q ≠ q) :
    ∃ disk, store.Reachable disk ∧ ¬store.Isolated p q disk := by
  let g : Folder Node := (Folder.empty Node.directory).create "a" (.file [] 0)
  let disk : Disk := { Disk.empty with
    root := Disk.empty.root.create q .directory
    own := Function.update Disk.empty.own q g }
  have hroot : disk.root.find q = some .directory := Directory.find_create_self
  have hother : disk.root.find (store.ownerKey q) = none :=
    Directory.find_create_of_ne (Folder.empty Node.directory).numbered hkey
  have hinherited : Inherited disk := by
    intro top name hdirectory
    by_cases htop : top = q
    · have hcreated : g.find name = some .directory := by simpa [disk,htop] using hdirectory
      by_cases hname : name = "a"
      · have hfile : g.find name = some (.file [] 0) := by
          rw [hname]
          exact Directory.find_create_self
        cases hfile.symm.trans hcreated
      · have hempty : g.find name = none :=
          Directory.find_create_of_ne (Folder.empty Node.directory).numbered hname
        cases hempty.symm.trans hcreated
    · have hempty : (disk.own top).find name = none := by
        simp only [disk,Function.update_of_ne htop]
        rfl
      cases hempty.symm.trans hdirectory
  refine ⟨disk,⟨disk,[],hinherited,rfl⟩,?_⟩
  intro hisolated
  have hsame := (hisolated.request .erase).readable "a"
  have hread : store.read q "a" disk = .ok (some []) :=
    read_prior hq hother hroot (by simp [disk,g,Directory.find_create_self])
  have herase : (store.perform p .erase disk).2 = (disk.remove (store.ownerKey p)).remove p := by
    simp [perform,erase,hp]
  have hgone : store.read q "a" (store.perform p .erase disk).2 = .ok none := by
    rw [herase]
    apply read_missing hq (by rw [single_file.1]; rfl)
    · exact Disk.root_remove_of_none (Disk.root_remove_of_none hother)
    · rw [← hqp]
      exact Disk.root_remove_of_none (Disk.root_remove_self hroot)
  rw [hread,hgone] at hsame
  cases hsame

/-- Isolation of two principals, exactly. -/
theorem isolated_iff (hinj : Function.Injective store.sha256) (hp : isPrincipal p = true)
    (hq : isPrincipal q = true) (hne : p ≠ q) :
    (∀ disk, store.Reachable disk → store.Isolated p q disk) ↔
      p ≠ store.ownerKey q ∧ q ≠ store.ownerKey p := by
  constructor
  · intro h
    have hpq : p ≠ store.ownerKey q := by
      intro hpq
      obtain ⟨disk,hreachable,hnot⟩ := not_isolated_hashed hp hq hpq hne
      exact hnot (h disk hreachable)
    refine ⟨hpq,?_⟩
    intro hqp
    have hkey : store.ownerKey q ≠ q := by
      intro hkey
      exact hne (Text.encodeUtf8_injective (hinj (hqp.symm.trans hkey.symm)))
    obtain ⟨disk,hreachable,hnot⟩ := not_isolated_hashing hp hq hqp hkey
    exact hnot (h disk hreachable)
  · rintro ⟨hpq,hqp⟩ disk -
    exact isolated_of_disjoint (disjoint_areas hinj hne hpq hqp) disk

/-- A store whose hash is the content itself behind a mark. -/
def marked : DownloadStore := { small with sha256 := fun b => "#" ++ Text.decodeLatin1 b }

theorem marked_injective : Function.Injective marked.sha256 := fun _ _ h =>
  Text.decodeLatin1_injective (String.append_right_inj "#" |>.mp h)

theorem isolated_names : (∀ disk, marked.Reachable disk → marked.Isolated "alice" "bob" disk) ↔
    "alice" ≠ marked.ownerKey "bob" ∧ "bob" ≠ marked.ownerKey "alice" :=
  isolated_iff marked_injective (by decide +kernel) (by decide +kernel) (by decide)

/-- A store with the hash that is deployed. -/
def hashed : DownloadStore := { small with sha256 := hexDigest }

def aliceUpload : ServiceEvent :=
  .request "alice" (.ingest { name := "a", reads := [.ok [1]], token := 0, now := 0 })

/-- The principal who is named as the hash of another one's name takes that one's files away. -/
theorem erased_by_hash : isPrincipal (hashed.ownerKey "alice") = true ∧
    hashed.ownerKey "alice" ≠ "alice" ∧
    ¬∀ disk, hashed.Reachable disk → hashed.Isolated (hashed.ownerKey "alice") "alice" disk := by
  refine ⟨by decide +kernel,by decide +kernel,?_⟩
  intro h
  let disk := (Service.step hashed ⟨Disk.empty,[]⟩ aliceUpload).disk
  have hreachable : hashed.Reachable disk := by
    refine ⟨Disk.empty,[aliceUpload],?_,rfl⟩
    intro top name hfind
    cases hfind
  have hsame := ((h disk hreachable).request .erase).readable "a"
  have hbefore : hashed.read "alice" "a" disk = .ok (some [1]) := by decide +kernel
  have hafter : hashed.read "alice" "a" (hashed.perform (hashed.ownerKey "alice") .erase disk).2 =
      .ok none := by
    decide +kernel
  rw [hbefore,hafter] at hsame
  cases hsame

end DownloadStore
end Storage
end CloudBrowser
