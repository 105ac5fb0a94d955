import Mathlib.Data.List.Basic
import Mathlib.Logic.Function.Basic

/-! Calls as trees of atomic actions, and the runs of many calls over one shared state.
A call performs an action `a : A`, is answered by a value of `R a` or an exception of
`E`, and goes on from there. A machine says what each atomic action does to the shared
state; everything it leaves open is chosen by the event that runs the action. -/
namespace Interleave

inductive Program (A : Type) (R : A → Type) (E α : Type)
  | ret (x : α)
  | raise (e : E)
  | act (a : A) (k : Except E (R a) → Program A R E α)

namespace Program

variable {A : Type} {R : A → Type} {E α β : Type}

def bind : Program A R E α → (α → Program A R E β) → Program A R E β
  | .ret x, f => f x
  | .raise e, _ => .raise e
  | .act a k, f => .act a fun r => (k r).bind f

def tryCatch : Program A R E α → (E → Program A R E α) → Program A R E α
  | .ret x, _ => .ret x
  | .raise e, h => h e
  | .act a k, h => .act a fun r => (k r).tryCatch h

instance : Monad (Program A R E) where
  pure := .ret
  bind := .bind

instance : MonadExceptOf E (Program A R E) where
  throw := .raise
  tryCatch := .tryCatch

def ofExcept : Except E α → Program A R E α
  | .ok x => .ret x
  | .error e => .raise e

/-- Run one atomic action and return its answer, or raise its exception. -/
def perform (a : A) : Program A R E (R a) := .act a ofExcept

/-- The `try … finally` of the source: `cleanup` runs on both ways out. -/
def andFinally (p : Program A R E α) (cleanup : Program A R E Unit) : Program A R E α :=
  .tryCatch (.bind p fun x => .bind cleanup fun _ => .ret x)
    fun e => .bind cleanup fun _ => .raise e

/-- The action that a call is about to perform. -/
def upcoming : Program A R E α → Option A
  | .act a _ => some a
  | _ => none

theorem upcoming_eq_some {p : Program A R E α} {a : A} (h : p.upcoming = some a) :
    ∃ k, p = .act a k := by
  cases p with
  | act b k =>
    cases h
    exact ⟨k,rfl⟩
  | _ => cases h

/-- A finished call has returned or raised; it performs no further action. -/
def finished : Program A R E α → Bool
  | .act _ _ => false
  | _ => true

end Program

/-- `exec t a x s` is the action `a` of call `t` under the choice `x`: its answer and the
state it leaves, or `none` when the action cannot happen that way in `s`. -/
structure Machine (A : Type) (R : A → Type) (E S X V : Type) where
  exec : ℕ → (a : A) → X → S → Option (Except E (R a) × S)
  environment : V → S → Option S

structure Config (A : Type) (R : A → Type) (E α S : Type) where
  shared : S
  calls : ℕ → Program A R E α

/-- Either one call performs its next action, or the environment moves. -/
inductive Event (X V : Type)
  | call (t : ℕ) (x : X)
  | environment (v : V)
  deriving DecidableEq, Repr

namespace Machine

variable {A : Type} {R : A → Type} {E α S X V : Type}

def next (M : Machine A R E S X V) (c : Config A R E α S) : Event X V → Option (Config A R E α S)
  | .call t x =>
    match c.calls t with
    | .act a k => (M.exec t a x c.shared).map fun r =>
        { shared := r.2, calls := Function.update c.calls t (k r.1) }
    | _ => none
  | .environment v => (M.environment v c.shared).map fun s => { c with shared := s }

def run (M : Machine A R E S X V) (c : Config A R E α S) : List (Event X V) → Option (Config A R E α S)
  | [] => some c
  | e::es => (M.next c e).bind fun d => M.run d es

/-- `P` holds in every configuration that the run passes through, its first included. -/
def Throughout (M : Machine A R E S X V) (P : Config A R E α S → Prop) :
    Config A R E α S → List (Event X V) → Prop
  | c, [] => P c
  | c, e::es => P c ∧ ∀ d, M.next c e = some d → M.Throughout P d es

/-- `Q` holds of every step that the run takes, in the configuration it is taken from. -/
def EachStep (M : Machine A R E S X V) (Q : Config A R E α S → Event X V → Prop) :
    Config A R E α S → List (Event X V) → Prop
  | _, [] => True
  | c, e::es => Q c e ∧ ∀ d, M.next c e = some d → M.EachStep Q d es

variable {M : Machine A R E S X V} {P : Config A R E α S → Prop}
  {Q : Config A R E α S → Event X V → Prop} {c d : Config A R E α S} {es : List (Event X V)}

theorem next_call {t : ℕ} {x : X} (h : M.next c (.call t x) = some d) :
    ∃ a k r s, c.calls t = .act a k ∧ M.exec t a x c.shared = some (r,s) ∧
      d = { shared := s, calls := Function.update c.calls t (k r) } := by
  simp only [next] at h
  split at h
  · rename_i a k hk
    obtain ⟨⟨r,s⟩,hr,rfl⟩ := Option.map_eq_some_iff.mp h
    exact ⟨a,k,r,s,hk,hr,rfl⟩
  · cases h

theorem next_environment {v : V} (h : M.next c (.environment v) = some d) :
    ∃ s, M.environment v c.shared = some s ∧ d = { c with shared := s } := by
  obtain ⟨s,hs,rfl⟩ := Option.map_eq_some_iff.mp h
  exact ⟨s,hs,rfl⟩

/-- An invariant kept by every step that meets `Q` holds throughout every run whose steps
all meet `Q`. -/
theorem throughout_of_step (hstep : ∀ c d e, P c → Q c e → M.next c e = some d → P d)
    (hc : P c) (hQ : M.EachStep Q c es) : M.Throughout P c es := by
  induction es generalizing c with
  | nil => exact hc
  | cons e es ih => exact ⟨hc,fun d hd => ih (hstep c d e hc hQ.1 hd) (hQ.2 d hd)⟩

theorem throughout_last (h : M.Throughout P c es) (hr : M.run c es = some d) : P d := by
  induction es generalizing c with
  | nil => cases hr; exact h
  | cons e es ih =>
    obtain ⟨c',hc',hd⟩ := Option.bind_eq_some_iff.mp hr
    exact ih (h.2 c' hc') hd

theorem Throughout.and {P' : Config A R E α S → Prop} (h : M.Throughout P c es)
    (h' : M.Throughout P' c es) : M.Throughout (fun c => P c ∧ P' c) c es := by
  induction es generalizing c with
  | nil => exact ⟨h,h'⟩
  | cons e es ih => exact ⟨⟨h.1,h'.1⟩,fun d hd => ih (h.2 d hd) (h'.2 d hd)⟩

theorem Throughout.mono {P' : Config A R E α S → Prop} (h : M.Throughout P c es)
    (hP : ∀ c, P c → P' c) : M.Throughout P' c es := by
  induction es generalizing c with
  | nil => exact hP c h
  | cons e es ih => exact ⟨hP c h.1,fun d hd => ih (h.2 d hd)⟩

/-- A property of the steps that every state of the run grants. -/
theorem Throughout.eachStep (h : M.Throughout P c es) (hPQ : ∀ c e, P c → Q c e) :
    M.EachStep Q c es := by
  induction es generalizing c with
  | nil => trivial
  | cons e es ih =>
    refine ⟨hPQ c e h.1,fun d hd => ih (h.2 d hd)⟩

/-- What a property of the states grants to a step, it grants to every step of the run. -/
theorem EachStep.imp {Q' : Config A R E α S → Event X V → Prop} (h : M.EachStep Q c es)
    (hP : M.Throughout P c es) (hQ : ∀ c e, P c → Q c e → Q' c e) : M.EachStep Q' c es := by
  induction es generalizing c with
  | nil => trivial
  | cons e es ih => exact ⟨hQ c e hP.1 h.1,fun d hd => ih (h.2 d hd) (hP.2 d hd)⟩

theorem eachStep_last {e : Event X V} (h : M.EachStep Q c (es ++ [e])) (hr : M.run c es = some d) :
    Q d e := by
  induction es generalizing c with
  | nil =>
    cases hr
    exact h.1
  | cons e' es ih =>
    obtain ⟨c',hc',hd⟩ := Option.bind_eq_some_iff.mp hr
    exact ih (h.2 c' hc') hd

/-- A check of every step of a run, as a computation. -/
def checkSteps (M : Machine A R E S X V) (q : Config A R E α S → Event X V → Bool) :
    Config A R E α S → List (Event X V) → Bool
  | _, [] => true
  | c, e::es => q c e && (M.next c e).all fun d => M.checkSteps q d es

theorem eachStep_of_check {q : Config A R E α S → Event X V → Bool}
    (h : M.checkSteps q c es = true) : M.EachStep (fun c e => q c e = true) c es := by
  induction es generalizing c with
  | nil => trivial
  | cons e es ih =>
    simp only [checkSteps,Bool.and_eq_true] at h
    refine ⟨h.1,fun d hd => ih ?_⟩
    simpa [hd] using h.2

theorem eachStep_decide [∀ c e, Decidable (Q c e)]
    (h : M.checkSteps (fun c e => decide (Q c e)) c es = true) : M.EachStep Q c es := by
  simpa using eachStep_of_check h

theorem eachStep_true : M.EachStep (fun _ _ => True) c es := by
  induction es generalizing c with
  | nil => trivial
  | cons e es ih => exact ⟨trivial,fun _ _ => ih⟩

theorem Throughout.head (h : M.Throughout P c es) : P c := by
  cases es with
  | nil => exact h
  | cons e es => exact h.1

/-- If a step that breaks `Q` always leaves a state without `P`, and `P` holds throughout a
run, then every step of the run meets `Q`. -/
theorem Throughout.eachStep_of_broken (h : M.Throughout P c es)
    (hstep : ∀ c e, P c → (∀ d, M.next c e = some d → P d) → Q c e) : M.EachStep Q c es := by
  induction es generalizing c with
  | nil => trivial
  | cons e es ih => exact ⟨hstep c e h.1 fun d hd => (h.2 d hd).head,fun d hd => ih (h.2 d hd)⟩

end Machine
end Interleave
