import Mathlib.Data.List.Infix
import Mathlib.Tactic.Common

/-! Lists that are cut in two where a separator first stands. -/
namespace Partitions

variable {α : Type} [DecidableEq α] (sep : List α)

/-- What stands before the first separator and what after it. -/
def partition : List α → Option (List α × List α)
  | [] => if sep = [] then some ([],[]) else none
  | x::xs =>
    if sep <+: x::xs then some ([],(x::xs).drop sep.length)
    else (partition xs).map fun parts => (x::parts.1,parts.2)

variable {sep} {text more head rest : List α}

theorem partition_front (h : sep <+: text) :
    partition sep text = some ([],text.drop sep.length) := by
  cases text with
  | nil =>
    rw [List.prefix_nil.mp h]
    rfl
  | cons x xs => rw [partition,if_pos h]

theorem partition_eq (h : partition sep text = some (head,rest)) :
    text = head ++ (sep ++ rest) := by
  induction text generalizing head with
  | nil =>
    rw [partition] at h
    split_ifs at h with hsep
    cases h
    rw [hsep]
    rfl
  | cons x xs ih =>
    rw [partition] at h
    split_ifs at h with hstart
    · cases h
      exact (List.prefix_iff_eq_append.mp hstart).symm
    · obtain ⟨⟨head',rest'⟩,hparts,heq⟩ := Option.map_eq_some_iff.mp h
      cases heq
      rw [ih hparts,List.cons_append]

/-- What comes later moves no separator. -/
theorem partition_append (h : partition sep text = some (head,rest)) (more : List α) :
    partition sep (text ++ more) = some (head,rest ++ more) := by
  induction text generalizing head with
  | nil =>
    rw [partition] at h
    split_ifs at h with hsep
    cases h
    rw [List.nil_append,partition_front (hsep ▸ List.nil_prefix),hsep]
    rfl
  | cons x xs ih =>
    rw [partition] at h
    split_ifs at h with hstart
    · cases h
      rw [partition_front (hstart.trans (List.prefix_append _ _)),
        List.drop_append_of_le_length hstart.length_le]
    · obtain ⟨⟨head',rest'⟩,hparts,heq⟩ := Option.map_eq_some_iff.mp h
      cases heq
      have hlonger : sep.length ≤ (x::xs).length := by
        have hlength := congrArg List.length (partition_eq hparts)
        simp only [List.length_append] at hlength
        rw [List.length_cons]
        omega
      have hnot : ¬sep <+: x::(xs ++ more) := fun hsep =>
        hstart (List.prefix_of_prefix_length_le hsep (List.prefix_append _ more) hlonger)
      rw [List.cons_append,partition,if_neg hnot,ih hparts]
      rfl

/-- A text with a separator is cut. -/
theorem partition_ne_none (head rest : List α) : partition sep (head ++ (sep ++ rest)) ≠ none := by
  induction head with
  | nil =>
    rw [List.nil_append,partition_front (List.prefix_append _ _)]
    exact Option.some_ne_none _
  | cons x head ih =>
    rw [List.cons_append,partition]
    split_ifs
    · exact Option.some_ne_none _
    · exact fun h => ih (Option.map_eq_none_iff.mp h)

/-- A part of a text that is not cut yet ends before the separator does. -/
theorem length_of_partition_none (hnone : partition sep text = none)
    (hwhole : partition sep (text ++ more) = some (head,rest)) :
    text.length < head.length+sep.length := by
  by_contra hlong
  have hsplit : text ++ more = (head ++ sep) ++ rest := by
    rw [partition_eq hwhole,List.append_assoc]
  have hstart : head ++ sep <+: text := by
    refine List.prefix_of_prefix_length_le ?_ (List.prefix_append text more) ?_
    · rw [hsplit]
      exact List.prefix_append _ _
    · rw [List.length_append]
      omega
  obtain ⟨between,rfl⟩ := hstart
  rw [List.append_assoc] at hnone
  exact partition_ne_none head between hnone

end Partitions
