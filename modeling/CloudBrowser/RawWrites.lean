import Mathlib.Data.List.Basic
import Mathlib.Order.Lattice
import Mathlib.Tactic.Common

/-! Writes that may be short: each takes a part of what it is given from its front, and says how
much. -/
namespace RawWrites

/-- How much the `n`-th write takes of so many items: one at least, if there is any. -/
structure Writes where
  accepted : ℕ → ℕ → ℕ
  accepted_pos : ∀ n len, 0 < len → 0 < accepted n len
  accepted_le : ∀ n len, accepted n len ≤ len

namespace Writes

/-- Every write takes everything. -/
def whole : Writes := ⟨fun _ len => len,fun _ _ h => h,fun _ _ => le_rfl⟩

variable {α : Type} (w : Writes)

/-- What the `n`-th write takes. -/
def take (n : ℕ) (chunk : List α) : List α := chunk.take (w.accepted n chunk.length)

/-- What is written of these chunks, from the `n`-th write on, by a writer that goes on to the next
chunk after each write. -/
def kept : ℕ → List (List α) → List α
  | _, [] => []
  | n, chunk::chunks => w.take n chunk ++ kept (n+1) chunks

/-- No write is short. -/
def Whole (n : ℕ) (chunks : List (List α)) : Prop :=
  ∀ i chunk, chunks[i]? = some chunk → w.accepted (n+i) chunk.length = chunk.length

variable {w} {n : ℕ} {chunk : List α} {chunks : List (List α)}

@[simp] theorem take_whole : whole.take n chunk = chunk := List.take_length

@[simp] theorem length_take : (w.take n chunk).length = w.accepted n chunk.length := by
  rw [take,List.length_take,Nat.min_eq_left (w.accepted_le n chunk.length)]

theorem take_eq_iff : w.take n chunk = chunk ↔ w.accepted n chunk.length = chunk.length := by
  constructor
  · intro h
    rw [← length_take,h]
  · intro h
    rw [take,h,List.take_length]

theorem whole_nil : w.Whole n ([] : List (List α)) := by
  intro i chunk h
  simp at h

theorem whole_cons : w.Whole n (chunk::chunks) ↔
    w.accepted n chunk.length = chunk.length ∧ w.Whole (n+1) chunks := by
  constructor
  · intro h
    refine ⟨h 0 chunk rfl,fun i c hc => ?_⟩
    have hnext := h (i+1) c hc
    rwa [show n+(i+1) = n+1+i by omega] at hnext
  · rintro ⟨hfirst,hrest⟩ i c hc
    cases i with
    | zero =>
      cases hc
      exact hfirst
    | succ i =>
      rw [show n+(i+1) = n+1+i by omega]
      exact hrest i c hc

theorem length_kept_le (n : ℕ) (chunks : List (List α)) :
    (w.kept n chunks).length ≤ chunks.flatten.length := by
  induction chunks generalizing n with
  | nil => exact le_rfl
  | cons chunk chunks ih =>
    have hfirst := w.accepted_le n chunk.length
    have hrest := ih (n+1)
    simp only [kept,List.length_append,length_take,List.flatten_cons]
    omega

/-- All of it is written exactly if no write is short. -/
theorem kept_eq_iff : w.kept n chunks = chunks.flatten ↔ w.Whole n chunks := by
  induction chunks generalizing n with
  | nil => exact iff_of_true rfl whole_nil
  | cons chunk chunks ih =>
    rw [whole_cons,← ih,← take_eq_iff,kept,List.flatten_cons]
    constructor
    · intro h
      -- what the first write leaves out, the others cannot make up for
      have hfirst := w.accepted_le n chunk.length
      have hrest := @length_kept_le α w (n+1) chunks
      have hlength := congrArg List.length h
      simp only [List.length_append,length_take] at hlength
      exact List.append_inj h (by rw [length_take]; omega)
    · rintro ⟨hfirst,hrest⟩
      rw [hfirst,hrest]

@[simp] theorem kept_whole (n : ℕ) (chunks : List (List α)) :
    whole.kept n chunks = chunks.flatten :=
  kept_eq_iff.mpr fun _ _ _ => rfl

end Writes
end RawWrites
