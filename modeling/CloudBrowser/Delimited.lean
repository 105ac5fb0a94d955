import Mathlib.Data.List.TakeWhile
import Mathlib.Tactic.Common
import Mathlib.Algebra.GroupWithZero.Nat

/-! Streams of records with a head and a body, both ended by a delimiter, where only the heads are
free of it: the ways to read a stream as a given number of records. -/
namespace Delimited

variable {α : Type} (d : α)

abbrev Record (α : Type) := List α × List α

def encodeRecord (e : Record α) : List α := e.1 ++ d :: (e.2 ++ [d])

def encode (r : List (Record α)) : List α := (r.map (encodeRecord d)).flatten

section Readings

variable [DecidableEq α]

/-- The readings of a stream as `k` records: a body may end at every delimiter after its head. -/
def readings : ℕ → List α → List (List (Record α))
  | 0, s => if s = [] then [[]] else []
  | k+1, s =>
    if d ∈ s then
      let rest := (s.dropWhile (· ≠ d)).tail
      ((List.range rest.length).filter fun i => rest[i]? = some d).flatMap fun i =>
        (readings k (rest.drop (i+1))).map fun r => (s.takeWhile (· ≠ d),rest.take i) :: r
    else []

end Readings

variable {d} {e : Record α} {r r' : List (Record α)} {k : ℕ} {s : List α}

@[simp] theorem encode_nil : encode d [] = [] := rfl

@[simp] theorem encode_cons : encode d (e :: r) = e.1 ++ d :: (e.2 ++ d :: encode d r) := by
  simp [encode,encodeRecord]

variable [DecidableEq α]

/-- A stream with a delimiter is a head, the first delimiter, and the rest. -/
theorem eq_head_append (h : d ∈ s) :
    s = s.takeWhile (· ≠ d) ++ d :: (s.dropWhile (· ≠ d)).tail := by
  have hrest : s.dropWhile (· ≠ d) ≠ [] := by
    intro hnil
    have hall := List.dropWhile_eq_nil_iff.mp hnil d h
    simp at hall
  have hfirst : (s.dropWhile (· ≠ d)).head hrest = d := by
    have hhead := List.head_dropWhile_not (fun c => decide (c ≠ d)) hrest
    simpa using hhead
  have hsplit : s.dropWhile (· ≠ d) = d :: (s.dropWhile (· ≠ d)).tail := by
    conv_lhs => rw [← List.cons_head_tail hrest,hfirst]
  calc
    s = s.takeWhile (· ≠ d) ++ s.dropWhile (· ≠ d) := (List.takeWhile_append_dropWhile).symm
    _ = _ := by rw [← hsplit]

theorem takeWhile_head {head : List α} (h : d ∉ head) (rest : List α) :
    (head ++ d :: rest).takeWhile (· ≠ d) = head ∧
      ((head ++ d :: rest).dropWhile (· ≠ d)).tail = rest := by
  have hhead : ∀ c ∈ head, decide (c ≠ d) = true := by
    intro c hc
    simpa using fun heq : c = d => h (heq ▸ hc)
  constructor
  · rw [List.takeWhile_append_of_pos hhead]
    simp
  · rw [List.dropWhile_append_of_pos hhead]
    simp

theorem not_mem_takeWhile (s : List α) : d ∉ s.takeWhile (· ≠ d) := by
  intro h
  simpa using List.mem_takeWhile_imp h

theorem mem_readings : r ∈ readings d k s ↔
    r.length = k ∧ (∀ e ∈ r, d ∉ e.1) ∧ encode d r = s := by
  induction k generalizing r s with
  | zero =>
    unfold readings
    constructor
    · intro h
      split_ifs at h with hs
      · rw [List.mem_singleton.mp h,hs]
        simp
      · cases h
    · rintro ⟨hlength,-,rfl⟩
      rw [List.length_eq_zero_iff.mp hlength]
      simp
  | succ k ih =>
    unfold readings
    constructor
    · intro h
      split_ifs at h with hd
      · simp only [List.mem_flatMap,List.mem_filter,List.mem_map,decide_eq_true_eq] at h
        obtain ⟨i,⟨-,hi⟩,r',hr',rfl⟩ := h
        obtain ⟨hlength,hheads,hencode⟩ := ih.mp hr'
        refine ⟨by simp [hlength],?_,?_⟩
        · intro e he
          rcases List.mem_cons.mp he with rfl | he
          · exact not_mem_takeWhile s
          · exact hheads e he
        · obtain ⟨hlt,hget⟩ := List.getElem?_eq_some_iff.mp hi
          have hbody := List.take_append_drop i (s.dropWhile (· ≠ d)).tail
          rw [List.drop_eq_getElem_cons hlt,hget] at hbody
          rw [encode_cons,hencode,hbody]
          exact (eq_head_append hd).symm
      · cases h
    · rintro ⟨hlength,hheads,rfl⟩
      obtain ⟨e,r,rfl⟩ := List.exists_cons_of_length_eq_add_one hlength
      have hhead := hheads e (by simp)
      obtain ⟨htake,htail⟩ := takeWhile_head hhead (e.2 ++ d :: encode d r)
      rw [encode_cons,if_pos (by simp)]
      simp only [htake,htail,List.mem_flatMap,List.mem_filter,List.mem_map,decide_eq_true_eq]
      refine ⟨e.2.length,⟨by simp,by simp⟩,r,ih.mpr ⟨by simpa using hlength,?_,?_⟩,?_⟩
      · exact fun e' he' => hheads e' (by simp [he'])
      · simp
      · simp

/-- The delimiters of a stream: two for each record, and those in the bodies. -/
theorem count_encode (h : ∀ e ∈ r, d ∉ e.1) :
    (encode d r).count d = 2*r.length+(r.map fun e => e.2.count d).sum := by
  induction r with
  | nil => simp
  | cons e r ih =>
    have hhead : e.1.count d = 0 := List.count_eq_zero.mpr (h e (by simp))
    have hrest := ih fun e' he' => h e' (by simp [he'])
    rw [encode_cons,List.count_append,List.count_cons_self,List.count_append,List.count_cons_self,
      hrest,hhead]
    simp only [List.length_cons,List.map_cons,List.sum_cons]
    omega

/-- Bodies without delimiters leave a single reading. -/
theorem reading_unique (hr : ∀ e ∈ r, d ∉ e.1 ∧ d ∉ e.2) (hr' : ∀ e ∈ r', d ∉ e.1)
    (hlength : r'.length = r.length) (h : encode d r' = encode d r) : r' = r := by
  have hplain : ∀ e ∈ r', d ∉ e.2 := by
    have hcount := congrArg (List.count d) h
    rw [count_encode hr',count_encode fun e he => (hr e he).1,hlength] at hcount
    have hzero : (r.map fun e => e.2.count d).sum = 0 := by
      rw [List.sum_eq_zero_iff_forall_eq_nat]
      intro n hn
      obtain ⟨e,he,rfl⟩ := List.mem_map.mp hn
      exact List.count_eq_zero.mpr (hr e he).2
    have hzero' : (r'.map fun e => e.2.count d).sum = 0 := by omega
    intro e he
    exact List.count_eq_zero.mp
      (List.sum_eq_zero_iff_forall_eq_nat.mp hzero' _ (List.mem_map.mpr ⟨e,he,rfl⟩))
  induction r generalizing r' with
  | nil => exact List.length_eq_zero_iff.mp hlength
  | cons e r ih =>
    obtain ⟨e',r',rfl⟩ := List.exists_cons_of_length_eq_add_one hlength
    rw [encode_cons,encode_cons] at h
    have hhead := takeWhile_head (hr e (by simp)).1 (e.2 ++ d :: encode d r)
    have hhead' := takeWhile_head (hr' e' (by simp)) (e'.2 ++ d :: encode d r')
    rw [h] at hhead'
    have hbody := takeWhile_head (hr e (by simp)).2 (encode d r)
    have hbody' := takeWhile_head (hplain e' (by simp)) (encode d r')
    rw [hhead'.2.symm.trans hhead.2] at hbody'
    have hrest : r' = r := ih (fun e he => hr e (by simp [he])) (fun e he => hr' e (by simp [he]))
      (by simpa using hlength) (hbody'.2.symm.trans hbody.2)
      fun e he => hplain e (by simp [he])
    rw [hrest,Prod.ext (hhead'.1.symm.trans hhead.1) (hbody'.1.symm.trans hbody.1)]

end Delimited
