import CloudBrowser.Program

/-! Pre- and postconditions for calls that run beside each other. A contract says what a
call's own actions do to the shared state, what must hold where it performs one, what it
may rely on the others to keep, and what it guarantees to them; the rules below compose
triples along the source's sequencing and exception handling, and `allSafe_next` carries
them over every interleaving. -/
namespace Interleave

structure Contract (A : Type) (R : A → Type) (E S : Type) where
  step : (a : A) → Except E (R a) → S → S → Prop
  pre : A → S → Prop := fun _ _ => True
  rely : S → S → Prop
  guar : S → S → Prop
  rely_refl : ∀ s, rely s s
  rely_trans : ∀ s s' s'', rely s s' → rely s' s'' → rely s s''

namespace Contract

variable {A : Type} {R : A → Type} {E S α β : Type} (C : Contract A R E S)

/-- From here on every action of the call is performed where it may be and keeps the
guarantee, and the call ends in `post`, whatever the others do between its actions. -/
def Safe (post : Except E α → S → Prop) : Program A R E α → S → Prop
  | .ret x, s => ∀ s', C.rely s s' → post (.ok x) s'
  | .raise e, s => ∀ s', C.rely s s' → post (.error e) s'
  | .act a k, s => ∀ s₁, C.rely s s₁ → C.pre a s₁ ∧ ∀ r s₂, C.step a r s₁ s₂ →
      C.guar s₁ s₂ ∧ Safe post (k r) s₂

def Stable (P : S → Prop) : Prop := ∀ s s', P s → C.rely s s' → P s'

def Triple (P : S → Prop) (p : Program A R E α) (Q : Except E α → S → Prop) : Prop :=
  ∀ s, P s → C.Safe Q p s

/-- A postcondition on the calls that return; a call that raises is not restricted. -/
def Returns (post : α → S → Prop) : Except E α → S → Prop
  | .ok x, s => post x s
  | .error _, _ => True

/-- A postcondition for the calls that return, and another for those that raise. -/
def Ends (post : α → S → Prop) (failed : E → S → Prop) : Except E α → S → Prop
  | .ok x, s => post x s
  | .error e, s => failed e s

variable {C} {P P' : S → Prop} {p : Program A R E α} {Q Q' : Except E α → S → Prop}

theorem stable_ends {post : α → S → Prop} {failed : E → S → Prop} (h : ∀ x, C.Stable (post x))
    (he : ∀ e, C.Stable (failed e)) (r : Except E α) : C.Stable (Ends post failed r) := by
  cases r with
  | ok x => exact h x
  | error e => exact he e

theorem stable_and (h : C.Stable P) (h' : C.Stable P') : C.Stable fun s => P s ∧ P' s :=
  fun s s' hs hr => ⟨h s s' hs.1 hr,h' s s' hs.2 hr⟩

theorem stable_returns {post : α → S → Prop} (h : ∀ x, C.Stable (post x)) (r : Except E α) :
    C.Stable (Returns post r) := by
  cases r with
  | ok x => exact h x
  | error e => exact fun _ _ _ _ => trivial

theorem Safe.of_rely {s s' : S} (h : C.Safe Q p s) (hr : C.rely s s') : C.Safe Q p s' := by
  cases p with
  | ret x => exact fun s₁ h₁ => h s₁ (C.rely_trans _ _ _ hr h₁)
  | raise e => exact fun s₁ h₁ => h s₁ (C.rely_trans _ _ _ hr h₁)
  | act a k => exact fun s₁ h₁ => h s₁ (C.rely_trans _ _ _ hr h₁)

theorem Safe.mono {s : S} (h : C.Safe Q p s) (hQ : ∀ r s, Q r s → Q' r s) : C.Safe Q' p s := by
  induction p generalizing s with
  | ret x => exact fun s' hr => hQ _ _ (h s' hr)
  | raise e => exact fun s' hr => hQ _ _ (h s' hr)
  | act a k ih =>
    intro s₁ hr
    obtain ⟨hpre,hstep⟩ := h s₁ hr
    refine ⟨hpre,fun r s₂ hs => ?_⟩
    have hh := hstep r s₂ hs
    exact ⟨hh.1,ih r hh.2⟩

/-- A call all of whose actions are allowed and keep the guarantee is safe, whatever it does. -/
theorem Safe.of_step (hpre : ∀ a s, C.pre a s) (hstep : ∀ a r s s', C.step a r s s' → C.guar s s')
    (s : S) : C.Safe (fun _ _ => True) p s := by
  induction p generalizing s with
  | ret x => exact fun _ _ => trivial
  | raise e => exact fun _ _ => trivial
  | act a k ih => exact fun s₁ _ => ⟨hpre a s₁,fun r s₂ hs => ⟨hstep a r s₁ s₂ hs,ih r s₂⟩⟩

theorem Safe.bind {f : α → Program A R E β} {Q : Except E β → S → Prop} {s : S}
    (h : C.Safe (fun r s => match r with
      | .ok x => C.Safe Q (f x) s
      | .error e => Q (.error e) s) p s) : C.Safe Q (p >>= f) s := by
  change C.Safe Q (p.bind f) s
  induction p generalizing s with
  | ret x => exact h s (C.rely_refl s)
  | raise e => exact h
  | act a k ih =>
    intro s₁ hr
    obtain ⟨hpre,hstep⟩ := h s₁ hr
    refine ⟨hpre,fun r s₂ hs => ?_⟩
    have hh := hstep r s₂ hs
    exact ⟨hh.1,ih r hh.2⟩

theorem Safe.tryCatch {f : E → Program A R E α} {s : S}
    (h : C.Safe (fun r s => match r with
      | .ok x => Q (.ok x) s
      | .error e => C.Safe Q (f e) s) p s) : C.Safe Q (p.tryCatch f) s := by
  induction p generalizing s with
  | ret x => exact h
  | raise e => exact h s (C.rely_refl s)
  | act a k ih =>
    intro s₁ hr
    obtain ⟨hpre,hstep⟩ := h s₁ hr
    refine ⟨hpre,fun r s₂ hs => ?_⟩
    have hh := hstep r s₂ hs
    exact ⟨hh.1,ih r hh.2⟩

theorem Triple.ret {x : α} (h : ∀ s, P s → Q (.ok x) s) (hQ : C.Stable (Q (.ok x))) :
    C.Triple P (pure x : Program A R E α) Q :=
  fun s hs s' hr => hQ s s' (h s hs) hr

theorem Triple.raise {e : E} (h : ∀ s, P s → Q (.error e) s) (hQ : C.Stable (Q (.error e))) :
    C.Triple P (throw e : Program A R E α) Q :=
  fun s hs s' hr => hQ s s' (h s hs) hr

theorem Triple.ofExcept {r : Except E α} (h : ∀ s, P s → Q r s) (hQ : C.Stable (Q r)) :
    C.Triple P (Program.ofExcept r) Q := by
  cases r with
  | ok x => exact Triple.ret h hQ
  | error e => exact Triple.raise h hQ

theorem Triple.perform {a : A} {Q : Except E (R a) → S → Prop} (hP : C.Stable P)
    (hpre : ∀ s, P s → C.pre a s)
    (h : ∀ s r s', P s → C.step a r s s' → C.guar s s' ∧ Q r s') (hQ : ∀ r, C.Stable (Q r)) :
    C.Triple P (Program.perform a) Q := by
  intro s hs s₁ hr
  have hs₁ := hP s s₁ hs hr
  refine ⟨hpre s₁ hs₁,fun r s₂ hstep => ?_⟩
  have hh := h s₁ r s₂ hs₁ hstep
  refine ⟨hh.1,?_⟩
  cases r with
  | ok x => exact fun s' hr' => hQ _ _ _ hh.2 hr'
  | error e => exact fun s' hr' => hQ _ _ _ hh.2 hr'

theorem Triple.bind {f : α → Program A R E β} {Q' : Except E β → S → Prop}
    (hp : C.Triple P p Q) (hf : ∀ x, C.Triple (Q (.ok x)) (f x) Q')
    (he : ∀ e s, Q (.error e) s → Q' (.error e) s) : C.Triple P (p >>= f) Q' := by
  intro s hs
  apply Safe.bind
  refine (hp s hs).mono fun r s' hq => ?_
  cases r with
  | ok x => exact hf x s' hq
  | error e => exact he e s' hq

/-- A pure check in front of a call: it only has to be safe to stop there. -/
theorem Triple.ofExcept_bind {r : Except E α} {f : α → Program A R E β}
    {Q' : Except E β → S → Prop} (hP : C.Stable P) (hf : ∀ x, r = .ok x → C.Triple P (f x) Q')
    (he : ∀ e s, r = .error e → P s → Q' (.error e) s) :
    C.Triple P (Program.ofExcept r >>= f) Q' := by
  refine Triple.bind (Triple.ofExcept (Q:=fun r' s => r' = r ∧ P s) (fun _ hs => ⟨rfl,hs⟩)
    fun s s' h hr => ⟨h.1,hP s s' h.2 hr⟩) ?_ fun e s h => he e s h.1.symm h.2
  rintro x s ⟨hx,hs⟩
  exact hf x hx.symm s hs

theorem Triple.tryCatch {f : E → Program A R E α} (hp : C.Triple P p Q)
    (hok : ∀ x s, Q (.ok x) s → Q' (.ok x) s) (hf : ∀ e, C.Triple (Q (.error e)) (f e) Q') :
    C.Triple P (p.tryCatch f) Q' := by
  intro s hs
  apply Safe.tryCatch
  refine (hp s hs).mono fun r s' hq => ?_
  cases r with
  | ok x => exact hok x s' hq
  | error e => exact hf e s' hq

theorem Triple.conseq (h : C.Triple P p Q) (hP : ∀ s, P' s → P s) (hQ : ∀ r s, Q r s → Q' r s) :
    C.Triple P' p Q' :=
  fun s hs => (h s (hP s hs)).mono hQ

end Contract

section Interleaving

variable {A : Type} {R : A → Type} {E α S X V : Type}

/-- The calls of a machine keep their contracts beside each other: each action is one its
contract allows, and what one call guarantees is what the others rely on. -/
structure Compatible (M : Machine A R E S X V) (C : ℕ → Contract A R E S)
    (Q : Config A R E α S → Event X V → Prop) : Prop where
  own : ∀ (c : Config A R E α S) t x a k r s, c.calls t = .act a k →
    M.exec t a x c.shared = some (r,s) → Q c (.call t x) → (C t).step a r c.shared s
  others : ∀ t u s s', t ≠ u → (C t).guar s s' → (C u).rely s s'
  environment : ∀ (c : Config A R E α S) v s, M.environment v c.shared = some s →
    Q c (.environment v) → ∀ u, (C u).rely c.shared s

def AllSafe (C : ℕ → Contract A R E S) (post : ℕ → Except E α → S → Prop)
    (c : Config A R E α S) : Prop :=
  ∀ t, (C t).Safe (post t) (c.calls t) c.shared

variable {M : Machine A R E S X V} {C : ℕ → Contract A R E S}
  {Q : Config A R E α S → Event X V → Prop} {post : ℕ → Except E α → S → Prop}
  {c d : Config A R E α S}

/-- The step of one call keeps its guarantee, and every call stays safe after it. -/
theorem allSafe_call (hC : Compatible M C Q) (h : AllSafe C post c) {t : ℕ} {x : X}
    (hQ : Q c (.call t x)) (hn : M.next c (.call t x) = some d) :
    (C t).guar c.shared d.shared ∧ AllSafe C post d := by
  obtain ⟨a,k,r,s,hk,he,rfl⟩ := Machine.next_call hn
  have ht := h t
  rw [hk] at ht
  obtain ⟨hg,hs⟩ := (ht c.shared ((C t).rely_refl _)).2 r s (hC.own c t x a k r s hk he hQ)
  refine ⟨hg,fun u => ?_⟩
  by_cases hu : u = t
  · subst hu
    simpa using hs
  · simpa [hu] using (h u).of_rely (hC.others t u _ _ (Ne.symm hu) hg)

theorem allSafe_next (hC : Compatible M C Q) (c d : Config A R E α S) (e : Event X V)
    (h : AllSafe C post c) (hQ : Q c e) (hn : M.next c e = some d) : AllSafe C post d := by
  cases e with
  | call t x => exact (allSafe_call hC h hQ hn).2
  | environment v =>
    obtain ⟨s,hs,rfl⟩ := Machine.next_environment hn
    exact fun u => (h u).of_rely (hC.environment c v s hs hQ u)

/-- What must hold where a call performs an action holds where it is about to. -/
theorem AllSafe.performs (h : AllSafe C post c) {t : ℕ} {a : A} {k : Except E (R a) → Program A R E α}
    (ht : c.calls t = .act a k) : (C t).pre a c.shared := by
  have hs := h t
  rw [ht] at hs
  exact (hs c.shared ((C t).rely_refl _)).1

theorem AllSafe.returned (h : AllSafe C post c) {t : ℕ} {x : α} (ht : c.calls t = .ret x) :
    post t (.ok x) c.shared := by
  have hs := h t
  rw [ht] at hs
  exact hs c.shared ((C t).rely_refl _)

theorem AllSafe.raised (h : AllSafe C post c) {t : ℕ} {e : E} (ht : c.calls t = .raise e) :
    post t (.error e) c.shared := by
  have hs := h t
  rw [ht] at hs
  exact hs c.shared ((C t).rely_refl _)

end Interleaving
end Interleave
