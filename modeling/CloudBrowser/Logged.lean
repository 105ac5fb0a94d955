import CloudBrowser.Stateful
import Mathlib.Data.List.Chain
import Mathlib.Data.List.Induction

/-! Operations that are observed: a log beside the state, the entries that are justified by what
is logged before them, and the operation that is left when the log is forgotten. -/
namespace Stateful

variable {ε σ σ' ω α β : Type}

/-- A state, and what has been logged of the calls on it. -/
structure Logged (σ ω : Type) where
  state : σ
  log : List ω

/-- Run an operation on the state; the log is left as it is. -/
def silently (m : Op ε σ α) : Op ε (Logged σ ω) α :=
  focus Logged.state (fun l s => { l with state := s }) m

def note (entry : ω) : Op ε (Logged σ ω) PUnit :=
  modify fun l => { l with log := l.log ++ [entry] }

/-- Run an operation on the state, and log an entry about its outcome. -/
def logging (entry : Except ε α → ω) (m : Op ε σ α) : Op ε (Logged σ ω) α := do
  let r ← outcome (silently m)
  note (entry r)
  check r

theorem exec_silently (m : Op ε σ α) (l : Logged σ ω) :
    exec (silently m) l = ((exec m l.state).1,⟨(exec m l.state).2,l.log⟩) := by
  simp [silently]

theorem exec_note (entry : ω) (l : Logged σ ω) :
    exec (note (ε:=ε) entry) l = (.ok ⟨⟩,⟨l.state,l.log ++ [entry]⟩) := rfl

theorem exec_logging (entry : Except ε α → ω) (m : Op ε σ α) (l : Logged σ ω) :
    exec (logging entry m) l =
      ((exec m l.state).1,⟨(exec m l.state).2,l.log ++ [entry (exec m l.state).1]⟩) := by
  simp [logging,exec_bind,exec_silently,exec_note]

/-- Run an operation on the state, and log what is read of the state that it leaves. -/
def watching (read : σ → ω) (m : Op ε σ α) : Op ε (Logged σ ω) α := do
  let r ← outcome (silently m)
  note (read (← silently get))
  check r

theorem exec_watching (read : σ → ω) (m : Op ε σ α) (l : Logged σ ω) : exec (watching read m) l =
    ((exec m l.state).1,⟨(exec m l.state).2,l.log ++ [read (exec m l.state).2]⟩) := by
  simp [watching,exec_bind,exec_silently,exec_note]

section Followed

variable {read : σ → ω} {R : ω → ω → Prop} {start : ω} {m : Op ε σ α}

/-- The log shows the way from `start` that what is read of the state has taken, by steps in
`R`. -/
structure Followed (read : σ → ω) (R : ω → ω → Prop) (start : ω) (l : Logged σ ω) : Prop where
  first : l.log.head? = some start
  last : l.log.getLast? = some (read l.state)
  chain : l.log.IsChain R

theorem followed_start (read : σ → ω) (R : ω → ω → Prop) (s : σ) :
    Followed read R (read s) ⟨s,[read s]⟩ := ⟨rfl,rfl,List.isChain_singleton _⟩

theorem Followed.silently (h : ∀ s, read (exec m s).2 = read s) :
    Keeps (Followed read R start) (silently m) := by
  intro l hl
  rw [exec_silently]
  exact ⟨hl.first,by rw [h]; exact hl.last,hl.chain⟩

theorem Followed.watching (h : ∀ s, R (read s) (read (exec m s).2)) :
    Keeps (Followed read R start) (watching read m) := by
  intro l hl
  rw [exec_watching]
  refine ⟨?_,List.getLast?_concat,
    List.isChain_append.mpr ⟨hl.chain,List.isChain_singleton _,?_⟩⟩
  · rw [List.head?_append,hl.first]
    rfl
  · intro x hx y hy
    rw [hl.last] at hx
    cases hx
    cases hy
    exact h l.state

end Followed

section Justified

variable {J : List ω → ω → Prop} {l : List ω}

/-- Every entry of the log is justified by the entries before it. -/
def Justified (J : List ω → ω → Prop) (l : List ω) : Prop :=
  ∀ pre entry post, l = pre ++ entry :: post → J pre entry

theorem justified_nil : Justified J [] := by
  intro pre entry post h
  simp at h

theorem justified_snoc {entry : ω} : Justified J (l ++ [entry]) ↔ Justified J l ∧ J l entry := by
  constructor
  · intro h
    constructor
    · intro pre e post hl
      exact h pre e (post ++ [entry]) (by simp [hl])
    · exact h l entry [] rfl
  · rintro ⟨hl,hentry⟩ pre e post h
    rcases List.eq_nil_or_concat post with rfl | ⟨post',last,rfl⟩
    · obtain ⟨hpre,he⟩ := List.append_inj' h rfl
      rw [← hpre,← List.singleton_inj.mp he]
      exact hentry
    · have h' : l ++ [entry] = (pre ++ e :: post') ++ [last] := by simpa using h
      exact hl pre e post' (List.append_inj' h' rfl).1

theorem Justified.mem {entry : ω} (h : Justified J l) (hentry : entry ∈ l) :
    ∃ pre post, l = pre ++ entry :: post ∧ J pre entry := by
  obtain ⟨pre,post,hl⟩ := List.append_of_mem hentry
  exact ⟨pre,post,hl,h pre entry post hl⟩

/-- What no entry of its kind justifies a second time is logged at most once. -/
theorem Justified.at_most_once {p : ω → Bool} (h : Justified J l)
    (hp : ∀ pre entry, J pre entry → p entry = true → ∀ e ∈ pre, p e = false) : l.countP p ≤ 1 := by
  induction l using List.reverseRecOn with
  | nil => simp
  | append_singleton l entry ih =>
    obtain ⟨hl,hentry⟩ := justified_snoc.mp h
    rw [List.countP_append,List.countP_singleton]
    by_cases he : p entry = true
    · have hnone : l.countP p = 0 := by
        rw [List.countP_eq_zero]
        simpa using hp l entry hentry he
      simp [he,hnone]
    · simpa [he] using ih hl

end Justified

section Traces

variable {J : List ω → ω → Prop} {a : List ω} {m : Op ε (Logged σ ω) α}
  {f : α → Op ε (Logged σ ω) β} {B B' : α → List ω → Prop} {C : β → List ω → Prop}

/-- From the log `a` on, the operation logs only what is justified; where it returns, the answer
and the log are in `B`. -/
def Traces (J : List ω → ω → Prop) (a : List ω) (m : Op ε (Logged σ ω) α)
    (B : α → List ω → Prop) : Prop :=
  Triple (fun l => Justified J l.log ∧ l.log = a) m
    (Ensures (fun l => Justified J l.log) fun x l => B x l.log)

theorem Traces.pure {x : α} (h : B x a) : Traces (σ:=σ) (ε:=ε) J a (Pure.pure x) B := by
  rintro l ⟨hl,rfl⟩
  exact ⟨hl,h⟩

theorem Traces.throw {e : ε} : Traces (σ:=σ) J a (MonadExcept.throw e : Op ε (Logged σ ω) α) B :=
  fun _ hl => hl.1

theorem Traces.throw_bind {e : ε} : Traces (σ:=σ) J a (MonadExcept.throw e >>= f) C :=
  fun _ hl => hl.1

theorem Traces.check (r : Except ε α) :
    Traces (σ:=σ) J a (Stateful.check r) fun x b => b = a ∧ r = .ok x := by
  cases r with
  | ok x => exact Traces.pure ⟨rfl,rfl⟩
  | error e => exact Traces.throw

theorem Traces.check_bind {r : Except ε β} {f : β → Op ε (Logged σ ω) α}
    (h : ∀ x, r = .ok x → Traces J a (f x) B) : Traces J a (Stateful.check r >>= f) B := by
  cases r with
  | ok x => exact h x rfl
  | error e => exact Traces.throw_bind

theorem Traces.bind (hm : Traces J a m B) (hf : ∀ x b, B x b → Traces J b (f x) C) :
    Traces J a (m >>= f) C := by
  refine Triple.bind hm ?_ fun e s h => h
  intro x l hl
  exact hf x l.log hl.2 l ⟨hl.1,rfl⟩

theorem Traces.conseq (hm : Traces J a m B) (h : ∀ x b, B x b → B' x b) : Traces J a m B' := by
  refine Triple.conseq hm (fun _ hl => hl) ?_
  rintro (e | x) l hl
  · exact hl
  · exact ⟨hl.1,h x l.log hl.2⟩

theorem Traces.silently {m : Op ε σ α} :
    Traces J a (Stateful.silently m) fun x b => b = a ∧ ∃ s, (exec m s).1 = .ok x := by
  rintro l ⟨hl,rfl⟩
  rw [exec_silently]
  rcases h : (exec m l.state).1 with e | x
  · exact hl
  · exact ⟨hl,rfl,l.state,h⟩

theorem Traces.note {entry : ω} (h : J a entry) :
    Traces (σ:=σ) (ε:=ε) J a (Stateful.note entry) fun _ b => b = a ++ [entry] := by
  rintro l ⟨hl,rfl⟩
  exact ⟨justified_snoc.mpr ⟨hl,h⟩,rfl⟩

theorem Traces.logging {entry : Except ε α → ω} {m : Op ε σ α} (h : ∀ r, J a (entry r)) :
    Traces J a (Stateful.logging entry m) fun x b =>
      b = a ++ [entry (.ok x)] ∧ ∃ s, (exec m s).1 = .ok x := by
  rintro l ⟨hl,rfl⟩
  rw [exec_logging]
  have hnext : Justified J (l.log ++ [entry (exec m l.state).1]) := justified_snoc.mpr ⟨hl,h _⟩
  rcases hr : (exec m l.state).1 with e | x
  · rw [hr] at hnext
    exact hnext
  · rw [hr] at hnext
    exact ⟨hnext,rfl,l.state,hr⟩

theorem Traces.tryCatch {handler : ε → Op ε (Logged σ ω) α} (hm : Traces J a m B)
    (hh : ∀ e b, Traces J b (handler e) B) : Traces J a (MonadExcept.tryCatch m handler) B := by
  intro l hl
  have h := hm l hl
  show Ensures _ _ (exec (MonadExcept.tryCatch m handler) l).1 _
  erw [exec_tryCatch]
  rcases hr : exec m l with ⟨e | x,l'⟩
  · rw [hr] at h
    exact hh e l'.log l' ⟨h,rfl⟩
  · rw [hr] at h
    exact h

/-- What has been raised has left a log of which no more is known. -/
theorem Traces.outcome (hm : Traces J a m B) :
    Traces J a (Stateful.outcome m) fun r b => ∀ x, r = .ok x → B x b := by
  intro l hl
  have h := hm l hl
  rw [exec_outcome]
  rcases hr : exec m l with ⟨e | x,l'⟩
  · rw [hr] at h
    refine ⟨h,?_⟩
    intro x hx
    cases hx
  · rw [hr] at h
    refine ⟨h.1,?_⟩
    intro y hy
    cases hy
    exact h.2

/-- A call is logged whether it returns or raises. -/
theorem Traces.outcome_logging {entry : Except ε α → ω} {m : Op ε σ α} (h : ∀ r, J a (entry r)) :
    Traces J a (Stateful.outcome (Stateful.logging entry m)) fun r b => b = a ++ [entry r] := by
  rintro l ⟨hl,rfl⟩
  rw [exec_outcome,exec_logging]
  exact ⟨justified_snoc.mpr ⟨hl,h _⟩,rfl⟩

end Traces

section Surfaces

variable {C : List ω → Prop} {B B' : ε → List ω → Prop} {m : Op ε (Logged σ ω) α}
  {f : α → Op ε (Logged σ ω) β}

/-- From a log in `C` the operation leaves a log in `C`, unless it raises as `B` allows for the log
that it leaves. -/
def Surfaces (C : List ω → Prop) (B : ε → List ω → Prop) (m : Op ε (Logged σ ω) α) : Prop :=
  Triple (fun l => C l.log) m fun
    | .ok _, l => C l.log
    | .error e, l => C l.log ∨ B e l.log

/-- The operation has raised, as `B` allows for the log that it leaves. -/
def Raises (B : ε → List ω → Prop) : Except ε α → Logged σ ω → Prop
  | .ok _, _ => False
  | .error e, l => B e l.log

theorem Surfaces.pure (x : α) : Surfaces (σ:=σ) C B (Pure.pure x) := fun _ h => h

theorem Surfaces.throw (e : ε) : Surfaces (σ:=σ) (α:=α) C B (MonadExcept.throw e) := fun _ h => .inl h

theorem Surfaces.throw_bind (e : ε) : Surfaces C B (MonadExcept.throw e >>= f) := fun _ h => .inl h

theorem Surfaces.check (r : Except ε α) : Surfaces (σ:=σ) C B (Stateful.check r) := by
  cases r with
  | ok x => exact Surfaces.pure x
  | error e => exact Surfaces.throw e

theorem Surfaces.bind (hm : Surfaces C B m) (hf : ∀ x, Surfaces C B (f x)) :
    Surfaces C B (m >>= f) :=
  Triple.bind hm hf fun _ _ h => h

theorem Surfaces.ite (c : Prop) [Decidable c] {n : Op ε (Logged σ ω) α} (hm : Surfaces C B m)
    (hn : Surfaces C B n) : Surfaces C B (if c then m else n) := by
  by_cases h : c
  · simpa only [if_pos h] using hm
  · simpa only [if_neg h] using hn

theorem Surfaces.silently (m : Op ε σ α) : Surfaces C B (Stateful.silently m) := by
  intro l hl
  rw [exec_silently]
  cases (exec m l.state).1 with
  | ok x => exact hl
  | error e => exact .inl hl

theorem Surfaces.conseq (hm : Surfaces C B m) (h : ∀ e l, B e l → B' e l) : Surfaces C B' m := by
  refine Triple.conseq hm (fun _ hl => hl) ?_
  rintro (e | x) l hl
  · exact hl.imp_right (h e l.log)
  · exact hl

/-- A handler goes on from what was raised: either the log is still in `C`, or it raises in turn. -/
theorem Surfaces.tryCatch {handler : ε → Op ε (Logged σ ω) α} (hm : Surfaces C B m)
    (hh : ∀ e, Surfaces C B' (handler e))
    (hB : ∀ e, Triple (fun l => B e l.log) (handler e) (Raises B')) :
    Surfaces C B' (MonadExcept.tryCatch m handler) := by
  intro l hl
  have h := hm l hl
  have htry := exec_tryCatch m handler l
  erw [htry]
  rcases hr : exec m l with ⟨e | x,l'⟩
  · rw [hr] at h
    rcases h with h | h
    · exact hh e l' h
    · have hnext := hB e l' h
      dsimp only at hnext ⊢
      rcases hr' : exec (handler e) l' with ⟨e' | x,l''⟩
      · rw [hr'] at hnext
        exact .inr hnext
      · rw [hr'] at hnext
        exact hnext.elim
  · rw [hr] at h
    exact h

theorem Surfaces.rethrow {ε' : Type} {g : ε → ε'} {B' : ε' → List ω → Prop}
    (hm : Surfaces C (fun e => B' (g e)) m) : Surfaces C B' (Stateful.rethrow g m) := by
  intro l hl
  have h := hm l hl
  rw [exec_rethrow]
  rcases hr : exec m l with ⟨e | x,l'⟩
  · rw [hr] at h
    exact h
  · rw [hr] at h
    exact h

end Surfaces

section Projects

variable {p : σ' → σ} {m' : Op ε σ' α} {m : Op ε σ α} {f' : α → Op ε σ' β} {f : α → Op ε σ β}

/-- Seen through `p`, the first operation runs as the second one. -/
def Projects (p : σ' → σ) (m' : Op ε σ' α) (m : Op ε σ α) : Prop :=
  ∀ s, exec m (p s) = ((exec m' s).1,p (exec m' s).2)

theorem Projects.pure (x : α) : Projects p (Pure.pure x : Op ε σ' α) (Pure.pure x) := fun _ => rfl

theorem Projects.throw (e : ε) :
    Projects p (MonadExcept.throw e : Op ε σ' α) (MonadExcept.throw e) := fun _ => rfl

theorem Projects.throw_bind (e : ε) :
    Projects p (MonadExcept.throw e >>= f') (MonadExcept.throw e >>= f) := fun _ => rfl

theorem Projects.ite (c : Prop) [Decidable c] {n' : Op ε σ' α} {n : Op ε σ α} (hm : Projects p m' m)
    (hn : Projects p n' n) : Projects p (if c then m' else n') (if c then m else n) := by
  by_cases h : c
  · simpa only [if_pos h] using hm
  · simpa only [if_neg h] using hn

theorem Projects.check (r : Except ε α) : Projects p (Stateful.check r) (Stateful.check r) := by
  intro s
  simp

theorem Projects.bind (hm : Projects p m' m) (hf : ∀ x, Projects p (f' x) (f x)) :
    Projects p (m' >>= f') (m >>= f) := by
  intro s
  rw [exec_bind,exec_bind,hm s]
  rcases exec m' s with ⟨e | x,s'⟩
  · rfl
  · exact hf x s'

theorem Projects.tryCatch {handler' : ε → Op ε σ' α} {handler : ε → Op ε σ α}
    (hm : Projects p m' m) (hh : ∀ e, Projects p (handler' e) (handler e)) :
    Projects p (MonadExcept.tryCatch m' handler') (MonadExcept.tryCatch m handler) := by
  intro s
  have h := exec_tryCatch m handler (p s)
  have h' := exec_tryCatch m' handler' s
  rw [hm s] at h
  erw [h,h']
  rcases exec m' s with ⟨e | x,s'⟩
  · exact hh e s'
  · rfl

theorem Projects.outcome (hm : Projects p m' m) :
    Projects p (Stateful.outcome m') (Stateful.outcome m) := by
  intro s
  rw [exec_outcome,exec_outcome,hm s]

theorem Projects.rethrow {ε' : Type} (g : ε → ε') (hm : Projects p m' m) :
    Projects p (Stateful.rethrow g m') (Stateful.rethrow g m) := by
  intro s
  rw [exec_rethrow,exec_rethrow,hm s]
  rcases exec m' s with ⟨e | x,s'⟩ <;> rfl

theorem Projects.silently (m : Op ε σ α) : Projects (Logged.state (ω:=ω)) (Stateful.silently m) m := by
  intro l
  rw [exec_silently]

theorem Projects.watching (read : σ → ω) (m : Op ε σ α) :
    Projects Logged.state (watching read m) m := by
  intro l
  rw [exec_watching]

theorem Projects.logging (entry : Except ε α → ω) (m : Op ε σ α) :
    Projects Logged.state (Stateful.logging entry m) m := by
  intro l
  rw [exec_logging]

/-- A note in front of an operation is forgotten. -/
theorem Projects.note_bind {entry : ω} {m' : PUnit → Op ε (Logged σ ω) α}
    (h : Projects Logged.state (m' ⟨⟩) m) :
    Projects Logged.state (note entry >>= m') m := by
  intro l
  rw [exec_bind,exec_note]
  exact h ⟨l.state,l.log ++ [entry]⟩

end Projects

section Renders

variable {γ γ' : Type} {p : σ' → σ} {g : α → β} {h : γ → γ'} {m' : Op ε σ' β} {m : Op ε σ α}

/-- Seen through `p`, the first operation runs as the second one, and answers with the image under
`g` of what the second one answers. -/
def Renders (p : σ' → σ) (g : α → β) (m' : Op ε σ' β) (m : Op ε σ α) : Prop :=
  ∀ s, (exec m' s).1 = (exec m (p s)).1.map g ∧ p (exec m' s).2 = (exec m (p s)).2

theorem Renders.throw (e : ε) :
    Renders p g (MonadExcept.throw e : Op ε σ' β) (MonadExcept.throw e) := fun _ => ⟨rfl,rfl⟩

theorem Renders.check {r' : Except ε β} {r : Except ε α} (hr : r' = r.map g) :
    Renders p g (Stateful.check r') (Stateful.check r) := by
  intro s
  simp [hr]

theorem Renders.ite (c : Prop) [Decidable c] {n' : Op ε σ' β} {n : Op ε σ α} (hm : Renders p g m' m)
    (hn : Renders p g n' n) : Renders p g (if c then m' else n') (if c then m else n) := by
  by_cases h : c
  · simpa only [if_pos h] using hm
  · simpa only [if_neg h] using hn

theorem Renders.bind {f' : β → Op ε σ' γ'} {f : α → Op ε σ γ} (hm : Renders p g m' m)
    (hf : ∀ x, Renders p h (f' (g x)) (f x)) : Renders p h (m' >>= f') (m >>= f) := by
  intro s
  have hs := hm s
  rw [exec_bind,exec_bind]
  rcases hleft : exec m' s with ⟨r',s'⟩
  rcases hright : exec m (p s) with ⟨e | x,t⟩
  · rw [hleft,hright] at hs
    obtain ⟨hanswer,hstate⟩ := hs
    cases (hanswer : r' = _)
    cases (hstate : _ = t)
    exact ⟨rfl,rfl⟩
  · rw [hleft,hright] at hs
    obtain ⟨hanswer,hstate⟩ := hs
    cases (hanswer : r' = _)
    cases (hstate : _ = t)
    exact hf x s'

/-- An operation that is only watched, and one whose answers are images. -/
theorem Renders.after {n' : Op ε σ' α} {f' : α → Op ε σ' γ'} {f : α → Op ε σ γ}
    (hm : Projects p n' m) (hf : ∀ x, Renders p h (f' x) (f x)) :
    Renders p h (n' >>= f') (m >>= f) := by
  intro s
  rw [exec_bind,exec_bind,hm s]
  rcases exec n' s with ⟨e | x,s'⟩
  · exact ⟨rfl,rfl⟩
  · exact hf x s'

theorem Renders.then {f' : β → Op ε σ' γ} {f : α → Op ε σ γ} (hm : Renders p g m' m)
    (hf : ∀ x, Projects p (f' (g x)) (f x)) : Projects p (m' >>= f') (m >>= f) := by
  intro s
  have hs := hm s
  rw [exec_bind,exec_bind]
  rcases hleft : exec m' s with ⟨r',s'⟩
  rcases hright : exec m (p s) with ⟨e | x,t⟩
  · rw [hleft,hright] at hs
    obtain ⟨hanswer,hstate⟩ := hs
    cases (hanswer : r' = _)
    cases (hstate : _ = t)
    rfl
  · rw [hleft,hright] at hs
    obtain ⟨hanswer,hstate⟩ := hs
    cases (hanswer : r' = _)
    cases (hstate : _ = t)
    exact hf x s'

end Renders
end Stateful
