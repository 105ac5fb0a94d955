import Mathlib.Data.List.Basic

/-! Runs of a deterministic system under a list of events: properties of the states that a
run goes through, and of the steps it takes. -/
namespace Runs

variable {S E : Type}

section Definitions

variable (next : S → E → S)

/-- Every state of the run is in `P`. -/
def Always (P : S → Prop) : S → List E → Prop
  | s, [] => P s
  | s, e::es => P s ∧ Always P (next s e) es

/-- Every step of the run meets `Q`, taken in the state the step starts from. -/
def Each (Q : S → E → Prop) : S → List E → Prop
  | _, [] => True
  | s, e::es => Q s e ∧ Each Q (next s e) es

instance decidableEach (next : S → E → S) (Q : S → E → Prop) [∀ s e, Decidable (Q s e)] :
    ∀ s es, Decidable (Each next Q s es)
  | _, [] => inferInstanceAs (Decidable True)
  | s, e::es =>
    have := decidableEach next Q (next s e) es
    inferInstanceAs (Decidable (Q s e ∧ Each next Q (next s e) es))

end Definitions

variable {next : S → E → S} {P P' : S → Prop} {Q Q' : S → E → Prop} {s : S} {es : List E}

theorem Always.head (h : Always next P s es) : P s := by
  cases es with
  | nil => exact h
  | cons e es => exact h.1

theorem Always.last (h : Always next P s es) : P (es.foldl next s) := by
  induction es generalizing s with
  | nil => exact h
  | cons e es ih => exact ih h.2

theorem Always.mono (h : Always next P s es) (hP : ∀ s, P s → P' s) : Always next P' s es := by
  induction es generalizing s with
  | nil => exact hP s h
  | cons e es ih => exact ⟨hP s h.1,ih h.2⟩

theorem Each.imp (h : Each next Q s es) (hQ : ∀ s e, Q s e → Q' s e) : Each next Q' s es := by
  induction es generalizing s with
  | nil => trivial
  | cons e es ih => exact ⟨hQ s e h.1,ih h.2⟩

theorem each_last (es : List E) (e : E) (h : Each next Q s (es ++ [e])) :
    Q (es.foldl next s) e := by
  induction es generalizing s with
  | nil => exact h.1
  | cons e' es ih => exact ih h.2

/-- Each step of a run whose steps keep `P` ends in `P`. -/
theorem each_of_each (hs : P s) (h : ∀ s e, P s → Q s e → P (next s e)) (hQ : Each next Q s es) :
    Each next (fun s e => P (next s e)) s es := by
  induction es generalizing s with
  | nil => trivial
  | cons e es ih =>
    have hnext := h s e hs hQ.1
    exact ⟨hnext,ih hnext hQ.2⟩

/-- Each step of such a run starts in `P`. -/
theorem each_from_invariant (hs : P s) (h : ∀ s e, P s → Q s e → P (next s e))
    (hQ : Each next Q s es) : Each next (fun s e => P s ∧ Q s e) s es := by
  induction es generalizing s with
  | nil => trivial
  | cons e es ih =>
    have hnext := h s e hs hQ.1
    exact ⟨⟨hs,hQ.1⟩,ih hnext hQ.2⟩

/-- A step lemma makes a run lemma. -/
theorem always_of_each (hs : P s) (h : ∀ s e, P s → Q s e → P (next s e))
    (hQ : Each next Q s es) : Always next P s es := by
  induction es generalizing s with
  | nil => exact hs
  | cons e es ih => exact ⟨hs,ih (h s e hs hQ.1) hQ.2⟩

theorem always_invariant (hs : P s) (h : ∀ s e, P s → P (next s e)) : Always next P s es := by
  induction es generalizing s with
  | nil => exact hs
  | cons e es ih => exact ⟨hs,ih (h s e hs)⟩

theorem Always.each (h : Always next P s es) (hQ : ∀ s e, P s → Q s e) : Each next Q s es := by
  induction es generalizing s with
  | nil => trivial
  | cons e es ih => exact ⟨hQ s e h.1,ih h.2⟩

/-- Where the steps that meet `Q` keep an invariant, and those that do not leave `P`, a run
stays in `P` exactly if all of its steps meet `Q`. -/
theorem always_iff_each {I : S → Prop} (hs : I s) (hP : ∀ s, I s → P s)
    (hkeep : ∀ s e, I s → Q s e → I (next s e)) (hbreak : ∀ s e, I s → P (next s e) → Q s e) :
    Always next P s es ↔ Each next Q s es := by
  induction es generalizing s with
  | nil => exact ⟨fun _ => trivial,fun _ => hP s hs⟩
  | cons e es ih =>
    constructor
    · intro h
      have hstep := hbreak s e hs h.2.head
      exact ⟨hstep,(ih (hkeep s e hs hstep)).mp h.2⟩
    · intro h
      exact ⟨hP s hs,(ih (hkeep s e hs h.1)).mpr h.2⟩

end Runs
