import Mathlib.Data.List.Nodup
import Mathlib.Data.List.Perm.Subperm
import Mathlib.Algebra.GroupWithZero.Nat

/-! Tables of records in insertion order, at most one record to a key: a dictionary of
records keyed by one of their own fields, or a database table with its primary key. -/
namespace Keyed

structure Table {ρ κ : Type} (key : ρ → κ) where
  rows : List ρ
  distinct : (rows.map key).Nodup

namespace Table

variable {ρ κ : Type} {key : ρ → κ}

instance : Membership ρ (Table key) := ⟨fun t r => r ∈ t.rows⟩

theorem mem_rows {t : Table key} {r : ρ} : r ∈ t.rows ↔ r ∈ t := Iff.rfl

@[ext] theorem ext {t t' : Table key} (h : t.rows = t'.rows) : t = t' := by
  cases t
  cases t'
  cases h
  rfl

/-- A key determines its record. -/
theorem eq_of_key {t : Table key} {r r' : ρ} (hr : r ∈ t) (hr' : r' ∈ t) (h : key r = key r') :
    r = r' :=
  List.inj_on_of_nodup_map t.distinct hr hr' h

def empty : Table key := ⟨[],List.nodup_nil⟩

@[simp] theorem mem_empty {r : ρ} : ¬r ∈ (empty : Table key) := List.not_mem_nil

@[simp] theorem empty_rows : (empty : Table key).rows = [] := rfl

/-- Rewrite every record, none of which changes its key. -/
def mapRows (t : Table key) (f : ρ → ρ) (hf : ∀ r, key (f r) = key r) : Table key where
  rows := t.rows.map f
  distinct := by
    have hkeys : key ∘ f = key := funext hf
    rw [List.map_map,hkeys]
    exact t.distinct

@[simp] theorem mem_mapRows {t : Table key} {f : ρ → ρ} {hf : ∀ r, key (f r) = key r} {r : ρ} :
    r ∈ t.mapRows f hf ↔ ∃ r' ∈ t, f r' = r := List.mem_map

/-- A property that determines the key holds of at most one record. -/
theorem countP_le_one (t : Table key) {p : ρ → Bool}
    (h : ∀ r ∈ t, ∀ r' ∈ t, p r → p r' → key r = key r') : t.rows.countP p ≤ 1 := by
  rw [List.countP_eq_length_filter]
  have hnodup : (t.rows.filter p).Nodup := (List.Nodup.of_map key t.distinct).filter p
  have heq : ∀ r ∈ t.rows.filter p, ∀ r' ∈ t.rows.filter p, r = r' := by
    intro r hr r' hr'
    rw [List.mem_filter] at hr hr'
    exact eq_of_key hr.1 hr'.1 (h r hr.1 r' hr'.1 hr.2 hr'.2)
  match hl : t.rows.filter p with
  | [] => simp
  | [_] => simp
  | a::b::_ =>
    rw [hl] at hnodup heq
    have hab : a = b := heq a (by simp) b (by simp)
    simp [hab] at hnodup

/-- Keep the records that satisfy `p`. -/
def keep (t : Table key) (p : ρ → Bool) : Table key where
  rows := t.rows.filter p
  distinct := (List.filter_sublist.map key).nodup t.distinct

@[simp] theorem mem_keep {t : Table key} {p : ρ → Bool} {r : ρ} :
    r ∈ t.keep p ↔ r ∈ t ∧ p r = true := List.mem_filter

section Lookup

variable [DecidableEq κ]

def find (t : Table key) (k : κ) : Option ρ := t.rows.find? fun r => key r = k

@[simp] theorem find_eq_some {t : Table key} {k : κ} {r : ρ} :
    t.find k = some r ↔ r ∈ t ∧ key r = k := by
  constructor
  · intro h
    exact ⟨List.mem_of_find?_eq_some h,by simpa using List.find?_some h⟩
  · rintro ⟨hr,rfl⟩
    obtain ⟨r',hr'⟩ : ∃ r', t.find (key r) = some r' :=
      Option.isSome_iff_exists.mp (List.find?_isSome.mpr ⟨r,hr,by simp⟩)
    have hkey : key r' = key r := by simpa using List.find?_some hr'
    rw [hr',eq_of_key (List.mem_of_find?_eq_some hr') hr hkey]

@[simp] theorem find_eq_none {t : Table key} {k : κ} :
    t.find k = none ↔ ∀ r ∈ t, key r ≠ k := by
  simp [find,List.find?_eq_none,mem_rows]

@[simp] theorem find_mapRows (t : Table key) (f : ρ → ρ) (hf : ∀ r, key (f r) = key r) (k : κ) :
    (t.mapRows f hf).find k = (t.find k).map f := by
  have hkey : (fun r => decide (key r = k)) ∘ f = fun r => decide (key r = k) := by
    funext r
    simp [hf]
  rw [find,mapRows,List.find?_map,hkey]
  rfl

/-- Store a record under its key: in place of the one already there, else at the end. -/
def putRows (key : ρ → κ) (rows : List ρ) (x : ρ) : List ρ :=
  if ∃ r ∈ rows, key r = key x then rows.map fun r => if key r = key x then x else r
  else rows ++ [x]

theorem nodup_putRows {rows : List ρ} (h : (rows.map key).Nodup) (x : ρ) :
    ((putRows key rows x).map key).Nodup := by
  by_cases hx : ∃ r ∈ rows, key r = key x
  · have hkeys : key ∘ (fun r => if key r = key x then x else r) = key := by
      funext r
      by_cases hr : key r = key x <;> simp [hr]
    rw [putRows,if_pos hx,List.map_map,hkeys]
    exact h
  · rw [putRows,if_neg hx,List.map_append]
    apply List.Nodup.append h (List.nodup_singleton _)
    intro k hk hkx
    obtain ⟨r,hr,rfl⟩ := List.mem_map.mp hk
    exact hx ⟨r,hr,by simpa using hkx⟩

theorem mem_putRows {rows : List ρ} {x r : ρ} :
    r ∈ putRows key rows x ↔ r = x ∨ r ∈ rows ∧ key r ≠ key x := by
  by_cases h : ∃ r ∈ rows, key r = key x
  · rw [putRows,if_pos h,List.mem_map]
    constructor
    · rintro ⟨y,hy,rfl⟩
      by_cases hk : key y = key x
      · simp [hk]
      · right
        simpa [hk] using hy
    · rintro (rfl | ⟨hr,hk⟩)
      · obtain ⟨y,hy,hk⟩ := h
        exact ⟨y,hy,by simp [hk]⟩
      · exact ⟨r,hr,by simp [hk]⟩
  · rw [putRows,if_neg h,List.mem_append,List.mem_singleton]
    constructor
    · rintro (hr | rfl)
      · exact Or.inr ⟨hr,fun hk => h ⟨r,hr,hk⟩⟩
      · exact Or.inl rfl
    · rintro (rfl | ⟨hr,-⟩)
      · exact Or.inr rfl
      · exact Or.inl hr

def put (t : Table key) (x : ρ) : Table key := ⟨putRows key t.rows x,nodup_putRows t.distinct x⟩

@[simp] theorem mem_put {t : Table key} {x r : ρ} :
    r ∈ t.put x ↔ r = x ∨ r ∈ t ∧ key r ≠ key x := mem_putRows

theorem put_rows_of_fresh {t : Table key} {x : ρ} (h : ∀ r ∈ t, key r ≠ key x) :
    (t.put x).rows = t.rows ++ [x] := by
  have hne : ¬∃ r ∈ t.rows, key r = key x := fun ⟨r,hr,hk⟩ => h r hr hk
  show putRows key t.rows x = _
  rw [putRows,if_neg hne]

theorem length_put_of_mem {t : Table key} {x r : ρ} (hr : r ∈ t) (h : key r = key x) :
    (t.put x).rows.length = t.rows.length := by
  have hex : ∃ r ∈ t.rows, key r = key x := ⟨r,hr,h⟩
  show (putRows key t.rows x).length = _
  rw [putRows,if_pos hex,List.length_map]

theorem find_put_self (t : Table key) (x : ρ) : (t.put x).find (key x) = some x := by simp

theorem find_put_of_ne (t : Table key) {x : ρ} {k : κ} (h : k ≠ key x) :
    (t.put x).find k = t.find k := by
  ext r
  simp only [find_eq_some,mem_put]
  constructor
  · rintro ⟨rfl | ⟨hr,-⟩,rfl⟩
    · exact absurd rfl h
    · exact ⟨hr,rfl⟩
  · rintro ⟨hr,rfl⟩
    exact ⟨Or.inr ⟨hr,h⟩,rfl⟩

end Lookup

section FirstFree

variable [DecidableEq κ]

/-- The first number from `n` on whose name is not among the given keys; the fuel bounds
the search. -/
def firstFree (name : ℕ → κ) (keys : List κ) : ℕ → ℕ → ℕ
  | 0, n => n
  | fuel+1, n => if name n ∈ keys then firstFree name keys fuel (n+1) else n

theorem le_firstFree (name : ℕ → κ) (keys : List κ) (fuel n : ℕ) :
    n ≤ firstFree name keys fuel n := by
  induction fuel generalizing n with
  | zero => exact Nat.le_refl n
  | succ fuel ih =>
    rw [firstFree]
    split
    · have hnext := ih (n+1)
      omega
    · exact Nat.le_refl n

/-- A search that ends on a taken name has found every name on its way taken. -/
theorem taken_of_firstFree {name : ℕ → κ} {keys : List κ} {fuel n : ℕ}
    (h : name (firstFree name keys fuel n) ∈ keys) : ∀ i ≤ fuel, name (n+i) ∈ keys := by
  induction fuel generalizing n with
  | zero =>
    intro i hi
    have hi0 : i = 0 := by omega
    subst hi0
    exact h
  | succ fuel ih =>
    rw [firstFree] at h
    split at h
    · rename_i hn
      intro i hi
      cases i with
      | zero => exact hn
      | succ i =>
        have hnext := ih h i (by omega)
        rwa [show n+1+i = n+(i+1) by omega] at hnext
    · rename_i hn
      exact absurd h hn

/-- One more probe than there are keys always finds a free name. -/
theorem firstFree_not_mem {name : ℕ → κ} (hname : Function.Injective name) (keys : List κ)
    (n : ℕ) : name (firstFree name keys keys.length n) ∉ keys := by
  intro h
  have htaken := taken_of_firstFree h
  have hsub : (List.range (keys.length+1)).map (fun i => name (n+i)) ⊆ keys := by
    intro k hk
    obtain ⟨i,hi,rfl⟩ := List.mem_map.mp hk
    have hlt := List.mem_range.mp hi
    exact htaken i (by omega)
  have hnodup : ((List.range (keys.length+1)).map fun i => name (n+i)).Nodup := by
    apply List.Nodup.map _ List.nodup_range
    intro i j hij
    have heq := hname hij
    omega
  have hlen := (List.subperm_of_subset hnodup hsub).length_le
  simp only [List.length_map,List.length_range] at hlen
  omega

end FirstFree
end Table
end Keyed
