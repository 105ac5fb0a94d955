import Mathlib.Data.List.Basic
import Mathlib.Order.Lattice
import Mathlib.Tactic.Common

/-! Reads of a stream that may be short: each gives a part of what is still to come from its front,
of at most the size asked for, and nothing only at the end of the stream. -/
namespace ShortReads

/-- How many items the `n`-th read gives where so many could be given. -/
structure Cuts where
  given : ℕ → ℕ → ℕ
  given_pos : ∀ n len, 0 < len → 0 < given n len
  given_le : ∀ n len, given n len ≤ len

/-- What is still to come, and the reads so far. -/
structure Stream (α : Type) where
  rest : List α
  reads : ℕ

namespace Cuts

/-- Every read gives as much as it can. -/
def whole : Cuts := ⟨fun _ len => len,fun _ _ h => h,fun _ _ => le_rfl⟩

theorem one_given_pos {len : ℕ} (h : 0 < len) : 0 < min 1 len := by omega

theorem one_given_le (len : ℕ) : min 1 len ≤ len := by omega

/-- Every read gives one item. -/
def single : Cuts := ⟨fun _ len => min 1 len,fun _ _ h => one_given_pos h,fun _ len => one_given_le len⟩

variable {α : Type} (cuts : Cuts)

/-- A read of at most `count` items. -/
def recv (count : ℕ) (s : Stream α) : List α × Stream α :=
  let size := cuts.given s.reads (min count s.rest.length)
  (s.rest.take size,⟨s.rest.drop size,s.reads+1⟩)

variable {cuts} {count : ℕ} {s : Stream α}

@[simp] theorem recv_append : (cuts.recv count s).1 ++ (cuts.recv count s).2.rest = s.rest :=
  List.take_append_drop _ _

theorem length_recv_le : (cuts.recv count s).1.length ≤ count := by
  have hgiven := cuts.given_le s.reads (min count s.rest.length)
  rw [recv,List.length_take]
  omega

/-- Only the end of the stream gives nothing. -/
theorem recv_ne_nil (hcount : 0 < count) (hrest : s.rest ≠ []) : (cuts.recv count s).1 ≠ [] := by
  have hlength := List.length_pos_iff.mpr hrest
  have hgiven := cuts.given_pos s.reads (min count s.rest.length) (by omega)
  intro h
  have hnone := congrArg List.length h
  rw [recv,List.length_take,List.length_nil] at hnone
  omega

end Cuts
end ShortReads
