import CloudBrowser.Program
import CloudBrowser.Logged

/-! A call that runs alone: its actions are operations on a state, and it is the operation that is
made of them. -/
namespace Interleave

open Stateful

namespace Program

variable {A : Type} {R : A → Type} {ε σ σ' α β : Type}

/-- Run a call to its end, each action by `act`. -/
def alone (act : (a : A) → Op ε σ (R a)) : Program A R ε α → Op ε σ α
  | .ret x => pure x
  | .raise e => throw e
  | .act a k => do
    let r ← outcome (act a)
    (k r).alone act

variable {act : (a : A) → Op ε σ (R a)}

@[simp] theorem alone_pure (x : α) : (pure x : Program A R ε α).alone act = pure x := rfl

@[simp] theorem alone_throw (e : ε) : (throw e : Program A R ε α).alone act = throw e := rfl

@[simp] theorem alone_bind (q : Program A R ε α) (f : α → Program A R ε β) :
    (q >>= f).alone act = q.alone act >>= fun x => (f x).alone act := by
  show (q.bind f).alone act = _
  induction q with
  | ret x => rfl
  | raise e => rfl
  | act a k ih =>
    simp only [bind,alone,bind_assoc]
    congr 1
    funext r
    exact ih r

@[simp] theorem alone_tryCatch (q : Program A R ε α) (handler : ε → Program A R ε α) :
    (q.tryCatch handler).alone act = MonadExcept.tryCatch (q.alone act) fun e => (handler e).alone act := by
  induction q with
  | ret x => rfl
  | raise e => rfl
  | act a k ih =>
    apply exec_ext
    intro s
    rw [exec_tryCatch]
    simp only [tryCatch,alone,exec_bind,exec_outcome,ih,exec_tryCatch]

@[simp] theorem alone_ofExcept (r : Except ε α) : (ofExcept r : Program A R ε α).alone act = check r := by
  cases r <;> rfl

@[simp] theorem alone_perform (a : A) : (perform a : Program A R ε (R a)).alone act = act a := by
  apply exec_ext
  intro s
  simp only [perform,alone,exec_bind,exec_outcome,alone_ofExcept,exec_check]

/-- Where the actions run alike, the calls do. -/
theorem alone_projects {p : σ' → σ} {act' : (a : A) → Op ε σ' (R a)} (h : ∀ a, Projects p (act' a) (act a))
    (q : Program A R ε α) : Projects p (q.alone act') (q.alone act) := by
  induction q with
  | ret x => exact Projects.pure x
  | raise e => exact Projects.throw e
  | act a k ih => exact (h a).outcome.bind ih

end Program
end Interleave
