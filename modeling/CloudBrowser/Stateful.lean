import Mathlib.Tactic.Common

/-! Pre- and postconditions for operations that change a state and may raise, keeping what
they have done to the state when they do. -/
namespace Stateful

/-- An operation over a state; an exception does not undo what was done before it. -/
abbrev Op (ε σ α : Type) := ExceptT ε (StateM σ) α

variable {ε σ α β : Type}

/-- Run an operation: its answer or its exception, and the state it leaves. -/
def exec (m : Op ε σ α) (s : σ) : Except ε α × σ := m.run.run s

theorem exec_ext {m m' : Op ε σ α} (h : ∀ s, exec m s = exec m' s) : m = m' := by
  funext s
  exact h s

@[simp] theorem exec_pure (x : α) (s : σ) : exec (pure x : Op ε σ α) s = (.ok x,s) := rfl

@[simp] theorem exec_throw (e : ε) (s : σ) : exec (throw e : Op ε σ α) s = (.error e,s) := rfl

@[simp] theorem exec_get (s : σ) : exec (get : Op ε σ σ) s = (.ok s,s) := rfl

@[simp] theorem exec_set (s s' : σ) : exec (set s' : Op ε σ PUnit) s = (.ok ⟨⟩,s') := rfl

@[simp] theorem exec_modify (f : σ → σ) (s : σ) :
    exec (modify f : Op ε σ PUnit) s = (.ok ⟨⟩,f s) := rfl

theorem exec_bind (m : Op ε σ α) (f : α → Op ε σ β) (s : σ) :
    exec (m >>= f) s = match exec m s with
      | (.ok x,s') => exec (f x) s'
      | (.error e,s') => (.error e,s') := by
  show (m >>= f).run.run s = _
  simp only [exec,ExceptT.run_bind,StateT.run_bind]
  rcases StateT.run (ExceptT.run m) s with ⟨_ | _,s'⟩ <;> rfl

theorem exec_bind_ok {m : Op ε σ α} {f : α → Op ε σ β} {s s' : σ} {x : α}
    (h : exec m s = (.ok x,s')) : exec (m >>= f) s = exec (f x) s' := by
  rw [exec_bind,h]

/-- A sequence that returns has returned twice. -/
theorem exec_bind_eq_ok {m : Op ε σ α} {f : α → Op ε σ β} {s s' : σ} {y : β} :
    exec (m >>= f) s = (.ok y,s') ↔ ∃ x s₁, exec m s = (.ok x,s₁) ∧ exec (f x) s₁ = (.ok y,s') := by
  rw [exec_bind]
  rcases exec m s with ⟨x | x,s₁⟩
  · simp
  · constructor
    · intro h
      exact ⟨x,s₁,rfl,h⟩
    · rintro ⟨_,_,h,h'⟩
      cases h
      exact h'

theorem exec_bind_error {m : Op ε σ α} {f : α → Op ε σ β} {s s' : σ} {e : ε}
    (h : exec m s = (.error e,s')) : exec (m >>= f) s = (.error e,s') := by
  rw [exec_bind,h]

/-- Discarding the answer of an operation does not change what it does. -/
theorem exec_discard (m : Op ε σ α) (s : σ) : (exec (discard m) s).2 = (exec m s).2 := by
  show (exec (m >>= fun _ => pure PUnit.unit) s).2 = _
  rw [exec_bind]
  rcases exec m s with ⟨_ | _,s'⟩ <;> rfl

/-- A computation in steps has a value where each of its steps has one. -/
theorem bind_ok {r : Except ε α} {f : α → Except ε β} {y : β} (h : r >>= f = .ok y) :
    ∃ x, r = .ok x ∧ f x = .ok y := by
  cases r with
  | error e => cases h
  | ok x => exact ⟨x,rfl,h⟩

theorem mapM_ok_iff {f : α → Except ε β} {l : List α} :
    (∃ l', l.mapM f = .ok l') ↔ ∀ x ∈ l, ∃ y, f x = .ok y := by
  induction l with
  | nil => simp [pure,Except.pure]
  | cons x l ih =>
    rw [List.forall_mem_cons,← ih,List.mapM_cons]
    cases hx : f x with
    | error e => simp [bind,Except.bind]
    | ok y => cases hl : l.mapM f <;> simp [bind,Except.bind,pure,Except.pure]

theorem mapM_ok {f : α → Except ε β} {l : List α} {l' : List β}
    (h : l.mapM f = .ok l') : ∀ x ∈ l, ∃ y, f x = .ok y :=
  mapM_ok_iff.mp ⟨l',h⟩

theorem mapM_eq_ok {f : α → Except ε β} {g : α → β} {l : List α} (h : ∀ x ∈ l, f x = .ok (g x)) :
    l.mapM f = .ok (l.map g) := by
  induction l with
  | nil => rfl
  | cons x l ih =>
    rw [List.mapM_cons,h x (by simp),ih fun y hy => h y (by simp [hy])]
    rfl

/-- Raise the error of a check, or go on with its value. -/
def check (r : Except ε α) : Op ε σ α :=
  match r with
  | .ok x => pure x
  | .error e => throw e

/-- Read the state, and raise where there is nothing to read. -/
def inspect (f : σ → Except ε α) : Op ε σ α := do
  check (f (← get))

/-- Replace the state by a new one, or raise and leave it. -/
def update (f : σ → Except ε σ) : Op ε σ Unit := do
  set (← inspect f)

/-- `try … finally`: what is raised by `last` hides what `m` raised. -/
def ensuring (m : Op ε σ α) (last : Op ε σ Unit) : Op ε σ α := do
  let x ← tryCatch m fun e => do
    last
    throw e
  last
  return x

/-- The outcome of an operation, as a value: what it raises goes no further. -/
def outcome (m : Op ε σ α) : Op ε σ (Except ε α) :=
  tryCatch (do return .ok (← m)) fun e => return .error e

/-- The operation with its exceptions under other names. -/
def rethrow {ε' : Type} (f : ε → ε') (m : Op ε σ α) : Op ε' σ α := fun s =>
  match exec m s with
  | (.ok x,s') => (.ok x,s')
  | (.error e,s') => (.error (f e),s')

theorem exec_rethrow {ε' : Type} (f : ε → ε') (m : Op ε σ α) (s : σ) :
    exec (rethrow f m) s = match exec m s with
      | (.ok x,s') => (.ok x,s')
      | (.error e,s') => (.error (f e),s') := rfl

/-- An operation on a part of the state. -/
def focus {τ : Type} (part : τ → σ) (replace : τ → σ → τ) (m : Op ε σ α) : Op ε τ α := do
  let t ← get
  set (replace t (exec m (part t)).2)
  check (exec m (part t)).1

@[simp] theorem exec_check (r : Except ε α) (s : σ) : exec (check r : Op ε σ α) s = (r,s) := by
  cases r <;> rfl

@[simp] theorem exec_inspect (f : σ → Except ε α) (s : σ) : exec (inspect f) s = (f s,s) := by
  simp [inspect,exec_bind]

theorem exec_update (f : σ → Except ε σ) (s : σ) :
    exec (update f) s = match f s with
      | .ok s' => (.ok (),s')
      | .error e => (.error e,s) := by
  simp only [update,exec_bind,exec_inspect]
  cases f s <;> rfl

theorem exec_tryCatch (m : Op ε σ α) (handler : ε → Op ε σ α) (s : σ) :
    exec (tryCatch m handler) s = match exec m s with
      | (.ok x,s') => (.ok x,s')
      | (.error e,s') => exec (handler e) s' := by
  have hstep : ∀ p : Except ε α × σ,
      StateT.run (match p.1 with
        | .ok x => pure (.ok x)
        | .error e => ExceptT.run (handler e) : StateM σ (Except ε α)) p.2 =
      match p with
      | (.ok x,s') => (.ok x,s')
      | (.error e,s') => exec (handler e) s' := by
    rintro ⟨_ | _,s'⟩ <;> rfl
  exact hstep (exec m s)

theorem exec_ensuring (m : Op ε σ α) (last : Op ε σ Unit) (s : σ) :
    exec (ensuring m last) s = match exec m s with
      | (r,s') => match exec last s' with
        | (.ok _,s'') => (r,s'')
        | (.error e,s'') => (.error e,s'') := by
  simp only [ensuring,exec_bind,exec_tryCatch]
  rcases exec m s with ⟨e | x,s'⟩
  · rcases h : exec last s' with ⟨_ | _,s''⟩ <;> simp [h]
  · rcases h : exec last s' with ⟨_ | _,s''⟩ <;> simp [h]

@[simp] theorem exec_outcome (m : Op ε σ α) (s : σ) :
    exec (outcome m) s = (.ok (exec m s).1,(exec m s).2) := by
  rw [outcome,exec_tryCatch,exec_bind]
  rcases exec m s with ⟨_ | _,s'⟩ <;> rfl

@[simp] theorem exec_focus {τ : Type} (part : τ → σ) (replace : τ → σ → τ) (m : Op ε σ α) (t : τ) :
    exec (focus part replace m) t = ((exec m (part t)).1,replace t (exec m (part t)).2) := by
  simp [focus,exec_bind]

/-- From a state in `P` the operation ends, by returning or raising, as `Q` says. -/
def Triple (P : σ → Prop) (m : Op ε σ α) (Q : Except ε α → σ → Prop) : Prop :=
  ∀ s, P s → Q (exec m s).1 (exec m s).2

/-- `I` in any case, and `B` of what is returned. -/
def Ensures (I : σ → Prop) (B : α → σ → Prop) : Except ε α → σ → Prop
  | .ok x, s => I s ∧ B x s
  | .error _, s => I s

theorem Ensures.always {I : σ → Prop} {B : α → σ → Prop} {r : Except ε α} {s : σ}
    (h : Ensures I B r s) : I s := by
  cases r with
  | error e => exact h
  | ok x => exact h.1

/-- The operation keeps `I`, whether it returns or raises. -/
abbrev Keeps (I : σ → Prop) (m : Op ε σ α) : Prop := Triple I m fun _ => I

section Rules

variable {P P' : σ → Prop} {m : Op ε σ α} {f : α → Op ε σ β} {Q Q' : Except ε α → σ → Prop}

theorem Triple.pure {x : α} (h : ∀ s, P s → Q (.ok x) s) : Triple P (Pure.pure x) Q := h

theorem Triple.throw {e : ε} (h : ∀ s, P s → Q (.error e) s) :
    Triple P (MonadExcept.throw e : Op ε σ α) Q := h

theorem Triple.bind {R : Except ε β → σ → Prop} (hm : Triple P m Q)
    (hf : ∀ x, Triple (Q (.ok x)) (f x) R) (he : ∀ e s, Q (.error e) s → R (.error e) s) :
    Triple P (m >>= f) R := by
  intro s hs
  have hq := hm s hs
  rw [exec_bind]
  rcases hr : exec m s with ⟨e | x,s'⟩
  · rw [hr] at hq
    exact he e s' hq
  · rw [hr] at hq
    exact hf x s' hq

/-- A check in front of an operation leaves the state alone. -/
theorem Triple.check_bind {r : Except ε β} {f : β → Op ε σ α} (h : ∀ x, r = .ok x → Triple P (f x) Q)
    (he : ∀ e s, P s → Q (.error e) s) : Triple P (check r >>= f) Q := by
  cases r with
  | ok x => exact h x rfl
  | error e => exact he e

theorem Triple.get_bind {f : σ → Op ε σ α} (h : ∀ s₀, Triple (fun s => P s ∧ s = s₀) (f s₀) Q) :
    Triple P (get >>= f) Q :=
  fun s hs => h s s ⟨hs,rfl⟩

theorem Triple.tryCatch {handler : ε → Op ε σ α} (hm : Triple P m Q)
    (hok : ∀ x s, Q (.ok x) s → Q' (.ok x) s) (he : ∀ e, Triple (Q (.error e)) (handler e) Q') :
    Triple P (MonadExcept.tryCatch m handler) Q' := by
  intro s hs
  have hq := hm s hs
  rw [exec_tryCatch]
  rcases hr : exec m s with ⟨e | x,s'⟩
  · rw [hr] at hq
    exact he e s' hq
  · rw [hr] at hq
    exact hok x s' hq

/-- What is done last may neither raise nor spoil what the operation ended with. -/
theorem Triple.ensuring {last : Op ε σ Unit} (hm : Triple P m Q)
    (hl : ∀ r s, Q r s → (exec last s).1 = .ok () ∧ Q' r (exec last s).2) :
    Triple P (Stateful.ensuring m last) Q' := by
  intro s hs
  have hq := hm s hs
  rw [exec_ensuring]
  obtain ⟨hlast,hq'⟩ := hl _ _ hq
  rcases hr : exec last (exec m s).2 with ⟨e | x,s'⟩
  · rw [hr] at hlast
    cases hlast
  · rw [hr] at hq'
    simpa [hr] using hq'

theorem Triple.conseq (h : Triple P m Q) (hP : ∀ s, P' s → P s) (hQ : ∀ r s, Q r s → Q' r s) :
    Triple P' m Q' :=
  fun s hs => hQ _ _ (h s (hP s hs))

theorem Triple.keeps {I : σ → Prop} {B : α → σ → Prop} (h : Triple I m (Ensures I B)) :
    Keeps I m :=
  h.conseq (fun _ hs => hs) fun _ _ hs => hs.always

theorem Keeps.bind {I : σ → Prop} (hm : Keeps I m) (hf : ∀ x, Keeps I (f x)) :
    Keeps I (m >>= f) :=
  Triple.bind hm hf fun _ _ h => h

theorem Keeps.check {I : σ → Prop} (r : Except ε α) : Keeps I (Stateful.check r) := by
  intro s hs
  rw [exec_check]
  exact hs

theorem Keeps.ite {I : σ → Prop} {m' : Op ε σ α} (c : Prop) [Decidable c] (hm : Keeps I m)
    (hm' : Keeps I m') : Keeps I (if c then m else m') := by
  by_cases h : c
  · simpa only [if_pos h] using hm
  · simpa only [if_neg h] using hm'

theorem Keeps.tryCatch {I : σ → Prop} {handler : ε → Op ε σ α} (hm : Keeps I m)
    (hh : ∀ e, Keeps I (handler e)) : Keeps I (MonadExcept.tryCatch m handler) :=
  Triple.tryCatch hm (fun _ _ hs => hs) hh

end Rules
end Stateful
