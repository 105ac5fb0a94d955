import Mathlib.Data.List.Nodup
import Mathlib.Order.Monotone.Basic
import Mathlib.Tactic.Common
import Mathlib.Order.Lattice

/-! Picks from windows whose upper end only moves up: who always takes the least item of the window
takes as many items as anyone can. -/
namespace SlidingWindows

variable {α β : Type} [LinearOrder β]

/-- The items that the `n`-th window shows, and that it does. -/
structure Windows (α β : Type) [LinearOrder β] where
  key : α → β
  low : ℕ → β
  high : ℕ → β
  high_mono : Monotone high

namespace Windows

variable (w : Windows α β)

/-- The `n`-th window shows this item. -/
def Shows (n : ℕ) (x : α) : Prop := w.low n ≤ w.key x ∧ w.key x ≤ w.high n

/-- Different items of a collection, each shown by its window, from the `n`-th window on. -/
structure Picks (s : α → Prop) (n : ℕ) (l : List α) : Prop where
  mem : ∀ x ∈ l, s x
  distinct : l.Nodup
  shown : ∀ i x, l[i]? = some x → w.Shows (n+i) x

/-- So many items can be picked. -/
def Allows (s : α → Prop) (n k : ℕ) : Prop := ∃ l, l.length = k ∧ w.Picks s n l

/-- A least item of the collection in the window. -/
structure Least (s : α → Prop) (n : ℕ) (x : α) : Prop where
  mem : s x
  shown : w.Shows n x
  least : ∀ y, s y → w.Shows n y → w.key x ≤ w.key y

variable {w} {s : α → Prop} {n k : ℕ} {x y : α} {l : List α}

theorem allows_zero : w.Allows s n 0 := by
  refine ⟨[],rfl,?_,List.nodup_nil,?_⟩
  · intro x hx
    cases hx
  · intro i x hx
    simp at hx

theorem picks_cons : w.Picks s n (x::l) ↔
    s x ∧ w.Shows n x ∧ w.Picks (fun y => s y ∧ y ≠ x) (n+1) l := by
  constructor
  · intro h
    obtain ⟨hnew,hdistinct⟩ := List.nodup_cons.mp h.distinct
    refine ⟨h.mem x List.mem_cons_self,h.shown 0 x rfl,?_,hdistinct,?_⟩
    · intro y hy
      exact ⟨h.mem y (List.mem_cons_of_mem x hy),fun heq => hnew (heq ▸ hy)⟩
    · intro i y hy
      have hshown := h.shown (i+1) y hy
      rwa [show n+(i+1) = n+1+i by omega] at hshown
  · rintro ⟨hmem,hshown,hrest⟩
    refine ⟨?_,List.nodup_cons.mpr ⟨fun hx => (hrest.mem x hx).2 rfl,hrest.distinct⟩,?_⟩
    · intro y hy
      rcases List.mem_cons.mp hy with rfl | hy
      · exact hmem
      · exact (hrest.mem y hy).1
    · intro i y hy
      cases i with
      | zero =>
        cases hy
        exact hshown
      | succ i =>
        rw [show n+(i+1) = n+1+i by omega]
        exact hrest.shown i y hy

/-- An item that some window shows may be exchanged for one that an earlier window shows and that
is not smaller. -/
theorem shows_of_le (hle : n ≤ k) (hx : w.Shows k x) (hy : w.Shows n y)
    (hkey : w.key x ≤ w.key y) : w.Shows k y :=
  ⟨le_trans hx.1 hkey,le_trans hy.2 (w.high_mono hle)⟩

/-- Whoever can pick so many items can pick a least one first. -/
theorem allows_succ (hx : w.Least s n x) :
    w.Allows s n (k+1) ↔ w.Allows (fun y => s y ∧ y ≠ x) (n+1) k := by
  constructor
  · rintro ⟨l,hlength,hpicks⟩
    obtain ⟨y,l,rfl⟩ := List.exists_cons_of_length_eq_add_one hlength
    obtain ⟨hmem,hshown,hrest⟩ := picks_cons.mp hpicks
    -- the first pick takes the place of the least item, if that comes later
    classical
    refine ⟨l.map fun z => if z = x then y else z,by simpa using hlength,?_,?_,?_⟩
    · intro z hz
      obtain ⟨u,hu,rfl⟩ := List.mem_map.mp hz
      split_ifs with hux
      · exact ⟨hmem,fun hyx => (hrest.mem u hu).2 (hux.trans hyx.symm)⟩
      · exact ⟨(hrest.mem u hu).1,hux⟩
    · apply hrest.distinct.map_on
      intro u hu v hv huv
      split_ifs at huv with hux hvx hvx
      · exact hux.trans hvx.symm
      · exact absurd huv.symm (hrest.mem v hv).2
      · exact absurd huv (hrest.mem u hu).2
      · exact huv
    · intro i z hz
      rw [List.getElem?_map,Option.map_eq_some_iff] at hz
      obtain ⟨u,hu,rfl⟩ := hz
      have hlater := hrest.shown i u hu
      split_ifs with hux
      · rw [hux] at hlater
        exact shows_of_le (by omega) hlater hshown (hx.least y hmem hshown)
      · exact hlater
  · rintro ⟨l,hlength,hpicks⟩
    exact ⟨x::l,by rw [List.length_cons,hlength],picks_cons.mpr ⟨hx.mem,hx.shown,hpicks⟩⟩

theorem not_allows (hnone : ∀ x, s x → ¬w.Shows n x) : ¬w.Allows s n (k+1) := by
  rintro ⟨l,hlength,hpicks⟩
  obtain ⟨x,l,rfl⟩ := List.exists_cons_of_length_eq_add_one hlength
  obtain ⟨hmem,hshown,-⟩ := picks_cons.mp hpicks
  exact hnone x hmem hshown

end Windows
end SlidingWindows
