import CloudBrowser.KeyedTable
import Mathlib.Logic.Function.Basic

/-! A directory as file systems have it: its entries lead from names to numbered nodes, and a
node stays what it is under another name, or under none. -/
namespace Directories

structure Entry where
  name : String
  inode : ℕ
  deriving DecidableEq, Repr

/-- The entries, and what every number stands for; from `fresh` on the numbers are unused. -/
structure Directory (ν : Type) where
  entries : Keyed.Table Entry.name
  node : ℕ → ν
  fresh : ℕ

namespace Directory

variable {ν : Type}

def names (d : Directory ν) : List String := d.entries.rows.map Entry.name

def lookup (d : Directory ν) (name : String) : Option ℕ := (d.entries.find name).map Entry.inode

/-- What is found under a name. -/
def find (d : Directory ν) (name : String) : Option ν := (d.lookup name).map d.node

/-- Let a name lead to a node, in place of the one it leads to. -/
def link (d : Directory ν) (name : String) (inode : ℕ) : Directory ν :=
  { d with entries := d.entries.put ⟨name,inode⟩ }

def unlink (d : Directory ν) (name : String) : Directory ν :=
  { d with entries := d.entries.keep fun e => e.name ≠ name }

/-- A new node under a name. -/
def create (d : Directory ν) (name : String) (n : ν) : Directory ν :=
  { d.link name d.fresh with node := Function.update d.node d.fresh n, fresh := d.fresh+1 }

/-- `rename`; the target is replaced if there is one. -/
def rename (d : Directory ν) (source target : String) : Directory ν :=
  match d.lookup source with
  | none => d
  | some inode => if source = target then d else (d.unlink source).link target inode

def write (d : Directory ν) (inode : ℕ) (n : ν) : Directory ν :=
  { d with node := Function.update d.node inode n }

variable {d : Directory ν} {name name' : String} {inode inode' : ℕ} {n : ν}

@[simp] theorem node_link : (d.link name inode).node = d.node := rfl

@[simp] theorem node_unlink : (d.unlink name).node = d.node := rfl

@[simp] theorem node_create : (d.create name n).node = Function.update d.node d.fresh n := rfl

@[simp] theorem node_write : (d.write inode n).node = Function.update d.node inode n := rfl

@[simp] theorem node_rename : (d.rename name name').node = d.node := by
  unfold rename
  split
  · rfl
  · split <;> rfl

@[simp] theorem lookup_write : (d.write inode n).lookup = d.lookup := rfl

@[simp] theorem lookup_link_self : (d.link name inode).lookup name = some inode := by
  have hfind := Keyed.Table.find_put_self d.entries ⟨name,inode⟩
  simp only [lookup,link]
  rw [hfind]
  rfl

theorem lookup_link_of_ne (h : name' ≠ name) : (d.link name inode).lookup name' = d.lookup name' := by
  have hfind := Keyed.Table.find_put_of_ne d.entries (x:=⟨name,inode⟩) h
  simp [lookup,link,hfind]

@[simp] theorem lookup_unlink_self : (d.unlink name).lookup name = none := by
  simp [lookup,unlink]

theorem lookup_unlink_of_ne (h : name' ≠ name) : (d.unlink name).lookup name' = d.lookup name' := by
  have hfind : (d.unlink name).entries.find name' = d.entries.find name' := by
    ext e
    simp only [unlink,Keyed.Table.find_eq_some,Keyed.Table.mem_keep,decide_eq_true_eq]
    constructor
    · intro he
      exact ⟨he.1.1,he.2⟩
    · intro he
      have hne : e.name ≠ name := by simpa [he.2] using h
      exact ⟨⟨he.1,hne⟩,he.2⟩
  simp [lookup,hfind]

/-- Taking an entry away leads no name anywhere else. -/
theorem lookup_unlink (d : Directory ν) (name name' : String) : (d.unlink name).lookup name' = none ∨
    (d.unlink name).lookup name' = d.lookup name' := by
  by_cases h : name' = name
  · left
    simp [h]
  · right
    exact lookup_unlink_of_ne h

@[simp] theorem lookup_create_self : (d.create name n).lookup name = some d.fresh :=
  lookup_link_self

theorem lookup_create_of_ne (h : name' ≠ name) : (d.create name n).lookup name' = d.lookup name' :=
  lookup_link_of_ne h

theorem mem_of_lookup (h : d.lookup name = some inode) : ⟨name,inode⟩ ∈ d.entries.rows := by
  simp only [lookup,Option.map_eq_some_iff,Keyed.Table.find_eq_some] at h
  obtain ⟨e,⟨he,rfl⟩,rfl⟩ := h
  exact he

theorem find_eq_some : d.find name = some n ↔ ∃ i, d.lookup name = some i ∧ d.node i = n := by
  simp [find]

/-- A rename leads a name to where the source led, or nowhere, or leaves it alone. -/
theorem lookup_rename (d : Directory ν) (name source target : String) :
    (d.rename source target).lookup name = d.lookup name ∨
      (d.rename source target).lookup name = none ∨
      name = target ∧ (d.rename source target).lookup name = d.lookup source := by
  unfold rename
  cases hsource : d.lookup source with
  | none => simp
  | some i =>
    by_cases hsame : source = target
    · simp [hsame]
    · by_cases htarget : name = target
      · simp [hsame,htarget]
      · have hlink : ((d.unlink source).link target i).lookup name = (d.unlink source).lookup name :=
          lookup_link_of_ne htarget
        have hunlink := d.lookup_unlink source name
        simp only [hsame,if_false,hlink]
        tauto

end Directory
end Directories
