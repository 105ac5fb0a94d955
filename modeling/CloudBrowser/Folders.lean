import CloudBrowser.Directories
import Mathlib.Algebra.BigOperators.Group.List.Basic

/-! Directories whose entries lead to numbers that are in use, and sums over what they hold. -/
namespace Keyed
namespace Table

variable {ρ κ : Type} {key : ρ → κ} [DecidableEq κ]

/-- A sum over all records but the one with a key. -/
theorem sum_keep (t : Table key) (k : κ) (g : ρ → ℕ) :
    ((t.keep fun r => key r ≠ k).rows.map g).sum+(t.find k).elim 0 g = (t.rows.map g).sum := by
  obtain ⟨rows,hdistinct⟩ := t
  simp only [keep,find]
  induction rows with
  | nil => simp
  | cons r rows ih =>
    rw [List.map_cons,List.nodup_cons,List.mem_map] at hdistinct
    have ih := ih hdistinct.2
    by_cases hr : key r = k
    · have hkeep : rows.filter (fun r => key r ≠ k) = rows := by
        apply List.filter_eq_self.mpr
        intro r' hr'
        have hne : key r' ≠ k := fun heq => hdistinct.1 ⟨r',hr',heq.trans hr.symm⟩
        simpa using hne
      rw [List.filter_cons_of_neg (by simp [hr]),List.find?_cons_of_pos (by simp [hr]),hkeep]
      simp only [Option.elim_some,List.map_cons,List.sum_cons]
      omega
    · rw [List.filter_cons_of_pos (by simp [hr]),List.find?_cons_of_neg (by simp [hr])]
      simp only [List.map_cons,List.sum_cons]
      omega

theorem keep_put (t : Table key) (x : ρ) :
    (t.put x).keep (fun r => key r ≠ key x) = t.keep fun r => key r ≠ key x := by
  ext : 1
  show (putRows key t.rows x).filter _ = t.rows.filter _
  have hmap : ∀ rows : List ρ, (rows.map fun r => if key r = key x then x else r).filter
      (fun r => key r ≠ key x) = rows.filter fun r => key r ≠ key x := by
    intro rows
    induction rows with
    | nil => rfl
    | cons r rows ih => by_cases hr : key r = key x <;> simpa [hr] using ih
  unfold putRows
  split
  · exact hmap t.rows
  · simp

/-- A sum over the records once one is stored. -/
theorem sum_put (t : Table key) (x : ρ) (g : ρ → ℕ) :
    ((t.put x).rows.map g).sum+(t.find (key x)).elim 0 g = (t.rows.map g).sum+g x := by
  have hold := t.sum_keep (key x) g
  have hnew := (t.put x).sum_keep (key x) g
  rw [t.keep_put x,t.find_put_self x,Option.elim_some] at hnew
  omega

end Table
end Keyed

namespace Directories
namespace Directory

variable {ν : Type}

/-- Every entry leads to a number that is in use. -/
def Numbered (d : Directory ν) : Prop := ∀ e ∈ d.entries.rows, e.inode < d.fresh

/-- What is found under a name, weighed. -/
def weight (w : String → ν → ℕ) (d : Directory ν) (name : String) : ℕ := (d.find name).elim 0 (w name)

def total (w : String → ν → ℕ) (d : Directory ν) : ℕ :=
  (d.entries.rows.map fun e => w e.name (d.node e.inode)).sum

variable {w : String → ν → ℕ} {d : Directory ν} {name source target : String} {inode : ℕ} {n : ν}

theorem weight_eq (w : String → ν → ℕ) (d : Directory ν) (name : String) : d.weight w name =
    (d.entries.find name).elim 0 fun e => w e.name (d.node e.inode) := by
  unfold weight find lookup
  cases h : d.entries.find name with
  | none => rfl
  | some e =>
    obtain ⟨-,rfl⟩ := Keyed.Table.find_eq_some.mp h
    rfl

theorem lookup_of_mem {e : Entry} (he : e ∈ d.entries.rows) : d.lookup e.name = some e.inode := by
  have hfind : d.entries.find e.name = some e := Keyed.Table.find_eq_some.mpr ⟨he,rfl⟩
  simp [lookup,hfind]

theorem total_unlink (w : String → ν → ℕ) (d : Directory ν) (name : String) :
    (d.unlink name).total w+d.weight w name = d.total w := by
  rw [weight_eq]
  exact d.entries.sum_keep name fun e => w e.name (d.node e.inode)

theorem total_link (w : String → ν → ℕ) (d : Directory ν) (name : String) (inode : ℕ) :
    (d.link name inode).total w+d.weight w name = d.total w+w name (d.node inode) := by
  rw [weight_eq]
  exact d.entries.sum_put ⟨name,inode⟩ fun e => w e.name (d.node e.inode)

/-- A node that counts for nothing under the names that lead to it may change. -/
theorem total_write (h : ∀ e ∈ d.entries.rows, e.inode = inode → w e.name n = w e.name (d.node inode)) :
    (d.write inode n).total w = d.total w := by
  unfold total
  congr 1
  apply List.map_congr_left
  intro e he
  by_cases hinode : e.inode = inode
  · simp [write,hinode,h e he hinode]
  · simp [write,hinode]

theorem total_create (hd : d.Numbered) :
    (d.create name n).total w+d.weight w name = d.total w+w name n := by
  have hlink := total_link w (d.write d.fresh n) name d.fresh
  have hlt : ∀ e ∈ d.entries.rows, e.inode ≠ d.fresh := fun e he => Nat.ne_of_lt (hd e he)
  have hwrite : (d.write d.fresh n).total w = d.total w :=
    total_write fun e he heq => absurd heq (hlt e he)
  have hweight : (d.write d.fresh n).weight w name = d.weight w name := by
    rw [weight_eq,weight_eq]
    show (d.entries.find name).elim 0 _ = _
    cases hfind : d.entries.find name with
    | none => rfl
    | some e =>
      have hne := hlt e (Keyed.Table.find_eq_some.mp hfind).1
      simp [write,hne]
  rw [hwrite,hweight,node_write,Function.update_self] at hlink
  exact hlink

theorem weight_unlink_of_ne (h : target ≠ source) :
    (d.unlink source).weight w target = d.weight w target := by
  simp [weight,find,lookup_unlink_of_ne h]

/-- A rename takes the weights of both names away and gives the target that of the node. -/
theorem total_rename (hsource : d.lookup source = some inode) (hne : source ≠ target) :
    (d.rename source target).total w+d.weight w source+d.weight w target =
      d.total w+w target (d.node inode) := by
  have hunlink := total_unlink w d source
  have hlink := total_link w (d.unlink source) target inode
  rw [weight_unlink_of_ne hne.symm,node_unlink] at hlink
  simp only [rename,hsource,if_neg hne]
  omega

theorem numbered_link (hd : d.Numbered) (hinode : inode < d.fresh) : (d.link name inode).Numbered := by
  intro e he
  rcases Keyed.Table.mem_put.mp he with rfl | ⟨hold,-⟩
  · exact hinode
  · exact hd e hold

theorem numbered_unlink (hd : d.Numbered) : (d.unlink name).Numbered := by
  intro e he
  exact hd e (Keyed.Table.mem_keep.mp he).1

theorem lookup_lt (hd : d.Numbered) (h : d.lookup name = some inode) : inode < d.fresh :=
  hd _ (mem_of_lookup h)

theorem numbered_create (hd : d.Numbered) : (d.create name n).Numbered := by
  intro e he
  rcases Keyed.Table.mem_put.mp he with rfl | ⟨hold,-⟩
  · exact Nat.lt_succ_self _
  · have hlt := hd e hold
    show e.inode < d.fresh+1
    omega

theorem numbered_rename (hd : d.Numbered) : (d.rename source target).Numbered := by
  unfold rename
  split
  · exact hd
  · next inode hsource =>
    split
    · exact hd
    · have hlt : inode < d.fresh := lookup_lt hd hsource
      exact numbered_link (numbered_unlink hd) hlt

theorem find_create_self : (d.create name n).find name = some n := by simp [find]

theorem find_create_of_ne (hd : d.Numbered) (h : source ≠ name) :
    (d.create name n).find source = d.find source := by
  unfold find
  rw [lookup_create_of_ne h]
  cases hlookup : d.lookup source with
  | none => rfl
  | some inode =>
    have hne : inode ≠ d.fresh := Nat.ne_of_lt (lookup_lt hd hlookup)
    simp [hne]

@[simp] theorem find_unlink_self : (d.unlink name).find name = none := by simp [find]

theorem find_unlink_of_ne (h : source ≠ name) : (d.unlink name).find source = d.find source := by
  simp [find,lookup_unlink_of_ne h]

theorem find_write_of_ne (h : d.lookup name ≠ some inode) :
    (d.write inode n).find name = d.find name := by
  unfold find
  rw [lookup_write]
  cases hlookup : d.lookup name with
  | none => rfl
  | some inode' =>
    have hne : inode' ≠ inode := by
      rintro rfl
      exact h hlookup
    simp [hne]

theorem lookup_rename_target (hsource : d.lookup source = some inode) :
    (d.rename source target).lookup target = some inode := by
  unfold rename
  rw [hsource]
  by_cases h : source = target
  · simp [h,← hsource]
  · simp [h]

theorem find_rename_target (hsource : d.lookup source = some inode) :
    (d.rename source target).find target = some (d.node inode) := by
  simp [find,lookup_rename_target hsource]

theorem lookup_rename_of_ne (hs : name ≠ source) (ht : name ≠ target) :
    (d.rename source target).lookup name = d.lookup name := by
  unfold rename
  split
  · rfl
  · split
    · rfl
    · rw [lookup_link_of_ne ht,lookup_unlink_of_ne hs]

theorem find_rename_of_ne (hs : name ≠ source) (ht : name ≠ target) :
    (d.rename source target).find name = d.find name := by
  simp [find,lookup_rename_of_ne hs ht]

end Directory

/-- A directory that makes no number twice. -/
structure Folder (ν : Type) extends Directory ν where
  numbered : toDirectory.Numbered

namespace Folder

variable {ν : Type}

def empty (n : ν) : Folder ν := ⟨⟨Keyed.Table.empty,fun _ => n,0⟩,by simp [Directory.Numbered]⟩

/-- Without its entries; the nodes stay for those who have them open. -/
def clear (f : Folder ν) : Folder ν :=
  ⟨{ f.toDirectory with entries := Keyed.Table.empty },by simp [Directory.Numbered]⟩

def create (f : Folder ν) (name : String) (n : ν) : Folder ν :=
  ⟨f.toDirectory.create name n,Directory.numbered_create f.numbered⟩

def unlink (f : Folder ν) (name : String) : Folder ν :=
  ⟨f.toDirectory.unlink name,Directory.numbered_unlink f.numbered⟩

def rename (f : Folder ν) (source target : String) : Folder ν :=
  ⟨f.toDirectory.rename source target,Directory.numbered_rename f.numbered⟩

def write (f : Folder ν) (inode : ℕ) (n : ν) : Folder ν := ⟨f.toDirectory.write inode n,f.numbered⟩

variable {f : Folder ν} {name name' source target : String} {names : List String} {inode : ℕ} {n : ν}

@[simp] theorem toDirectory_create : (f.create name n).toDirectory = f.toDirectory.create name n := rfl

@[simp] theorem toDirectory_unlink : (f.unlink name).toDirectory = f.toDirectory.unlink name := rfl

@[simp] theorem toDirectory_rename :
    (f.rename source target).toDirectory = f.toDirectory.rename source target := rfl

@[simp] theorem toDirectory_write : (f.write inode n).toDirectory = f.toDirectory.write inode n := rfl

@[simp] theorem lookup_empty : (empty n).lookup name = none := rfl

@[simp] theorem lookup_clear : f.clear.lookup name = none := rfl

@[simp] theorem find_empty : (empty n).find name = none := rfl

@[simp] theorem find_clear : f.clear.find name = none := rfl

def unlinkAll (f : Folder ν) (names : List String) : Folder ν := names.foldl unlink f

theorem lookup_unlinkAll (h : name ∉ names) : (f.unlinkAll names).lookup name = f.lookup name := by
  unfold unlinkAll
  induction names generalizing f with
  | nil => rfl
  | cons n names ih =>
    simp only [List.mem_cons,not_or] at h
    rw [List.foldl_cons,ih h.2]
    exact Directory.lookup_unlink_of_ne h.1

/-- Taking entries away leads no name anywhere else. -/
theorem lookup_of_unlinkAll {inode : ℕ} (h : (f.unlinkAll names).lookup name = some inode) :
    f.lookup name = some inode := by
  unfold unlinkAll at h
  induction names generalizing f with
  | nil => exact h
  | cons n names ih =>
    have hrest := ih h
    rcases f.lookup_unlink n name with hnone | hsame
    · cases hnone.symm.trans hrest
    · exact hsame.symm.trans hrest

theorem node_unlinkAll : (f.unlinkAll names).node = f.node := by
  unfold unlinkAll
  induction names generalizing f with
  | nil => rfl
  | cons n names ih => exact ih

theorem find_unlinkAll (h : name ∉ names) : (f.unlinkAll names).find name = f.find name := by
  rw [Directory.find,lookup_unlinkAll h,node_unlinkAll]
  rfl

theorem find_unlinkAll_of_mem (h : name ∈ names) : (f.unlinkAll names).find name = none := by
  unfold unlinkAll
  induction names generalizing f with
  | nil => cases h
  | cons n names ih =>
    rw [List.foldl_cons]
    by_cases hmem : name ∈ names
    · exact ih hmem
    · have hhead : name = n := by simpa [hmem] using h
      have hgone : (f.unlink n).find name = none := by
        rw [hhead]
        exact Directory.find_unlink_self
      have hrest := find_unlinkAll (f:=f.unlink n) hmem
      exact hrest.trans hgone

theorem find_unlinkAll_of_none (h : f.find name = none) : (f.unlinkAll names).find name = none := by
  simp only [Directory.find,Option.map_eq_none_iff] at h ⊢
  cases hlookup : (f.unlinkAll names).lookup name with
  | none => rfl
  | some inode =>
    rw [lookup_of_unlinkAll hlookup] at h
    cases h

theorem total_unlinkAll (w : String → ν → ℕ) : (f.unlinkAll names).total w ≤ f.total w := by
  unfold unlinkAll
  induction names generalizing f with
  | nil => exact Nat.le_refl _
  | cons n names ih =>
    have hunlink := Directory.total_unlink w f.toDirectory n
    have hrest := ih (f:=f.unlink n)
    rw [toDirectory_unlink] at hrest
    rw [List.foldl_cons]
    omega

end Folder
end Directories
