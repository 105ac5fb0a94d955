import CloudBrowser.ControlApi

/-! When a command is answered: what leaves the control API unanswered is an error of a takeover
that is no `ValueError`. -/
namespace CloudBrowser
namespace ControlApi

open Stateful SlotSupervisor BindingPush
open AgentControl (SplitResult)

def Response.requestId : Response → String
  | .failed requestId _ _ => requestId
  | .done requestId _ _ _ => requestId

section Replies

variable (urlsplit : String → Except Unit SplitResult) (boot : BrowserBinding)
  (request : ControlRequest) (a : Answers) (s : Slot)

/-- The request is a wake for another binding than the current one, and is not refused before. -/
structure TakesOver : Prop where
  valid : validate boot request = .ok ()
  wake : request.operation = "wake"
  other : wakeBinding boot request ≠ s.lifecycle.binding

/-- The request is answered under its own id. -/
def Answered : Prop :=
  ∃ reply, (exec (handle urlsplit boot request a) s).1 = .ok reply ∧
    reply.requestId = request.requestId

/-- A takeover that fails leaves the supervisor its binding. -/
def KeepsBinding : Prop :=
  TakesOver boot request s →
    (∀ result, (exec (adoptBinding a (wakeBinding boot request)) s).1 ≠ .ok result) →
    (exec (handle urlsplit boot request a) s).2.lifecycle.binding = s.lifecycle.binding

/-- The call fails with an error that is no `ValueError`. -/
def Reply.Breaks (reply : Reply) : Prop :=
  ∃ e effective, reply = .failed e effective ∧ e.isValueError = false

/-- The stop or the push that the takeover of a slot of that name comes to breaks. -/
structure Breaks : Prop where
  takesOver : TakesOver boot request s
  slot : (wakeBinding boot request).browserId = s.lifecycle.binding.browserId
  breaks : s.lifecycle.state ≠ .stopped ∧ Reply.Breaks a.stop ∨
    (s.lifecycle.state = .stopped ∨ a.stop = .acknowledged) ∧ Reply.Breaks a.push

variable {urlsplit boot request a s}

theorem reply_breaks_iff {reply : Reply} :
    Reply.Breaks reply ↔ ∃ e, reply.outcome = .error e ∧ e.isValueError = false := by
  cases reply with
  | acknowledged => simp [Reply.Breaks,Reply.outcome]
  | failed e effective => simp [Reply.Breaks,Reply.outcome]

theorem rebind_error {t : Slot} {binding : BrowserBinding} {e : SlotError} :
    (rebind a t binding).1 = .error e ↔ a.push.outcome = .error e := by
  simp only [rebind]
  cases a.push.outcome <;> simp [Except.map]

/-- What an adoption fails with: the wrong slot, the stop or the push. -/
theorem adoptBinding_error {binding : BrowserBinding} {e : SlotError} :
    (exec (adoptBinding a binding) s).1 = .error e ↔
      binding.browserId ≠ s.lifecycle.binding.browserId ∧
        e = .valueError "binding names a different browser slot" ∨
      binding.browserId = s.lifecycle.binding.browserId ∧
        (s.lifecycle.state ≠ .stopped ∧ a.stop.outcome = .error e ∨
          (s.lifecycle.state = .stopped ∨ a.stop = .acknowledged) ∧
            a.push.outcome = .error e) := by
  rw [exec_adoptBinding]
  split_ifs with hslot hstate
  · simp [hslot,eq_comm]
  · rw [rebind_error]
    simp [not_not.mp hslot,hstate]
  · cases hstop : a.stop with
    | failed error effective => simp [not_not.mp hslot,hstate,Reply.outcome]
    | acknowledged =>
      simp only [Reply.outcome_acknowledged,rebind_error]
      simp [not_not.mp hslot]

theorem adoptBinding_failed {binding : BrowserBinding} {e : SlotError}
    (h : (exec (adoptBinding a binding) s).1 = .error e) :
    (exec (adoptBinding a binding) s).2.lifecycle.binding = s.lifecycle.binding := by
  have hrebind : ∀ t : Slot, (rebind a t binding).1 = .error e →
      (rebind a t binding).2.lifecycle.binding = t.lifecycle.binding := by
    intro t ht
    simp only [rebind,rebind_error.mp ht]
  rw [exec_adoptBinding] at h ⊢
  split_ifs at h ⊢ with hslot hstate
  · rfl
  · exact hrebind s h
  · cases hstop : a.stop.outcome with
    | error error => rfl
    | ok _ =>
      rw [hstop] at h
      exact hrebind _ h

theorem exec_takeOver (h : TakesOver boot request s) :
    exec (takeOver request a (wakeBinding boot request)) s =
      match exec (adoptBinding a (wakeBinding boot request)) s with
      | (.ok _,t) => (.ok true,t)
      | (.error e,t) => if e.isValueError then (.ok false,t) else (.error e,t) := by
  rw [takeOver,exec_bind,exec_get]
  show exec (ite (request.operation = "wake" ∧
    wakeBinding boot request ≠ s.lifecycle.binding) _ _) s = _
  rw [if_pos ⟨h.wake,h.other⟩,exec_tryCatch,exec_bind]
  rcases exec (adoptBinding a (wakeBinding boot request)) s with ⟨e | result,t⟩
  · cases hv : e.isValueError <;> simp [hv]
  · rfl

theorem exec_takeOver_none (hvalid : validate boot request = .ok ())
    (h : ¬TakesOver boot request s) :
    exec (takeOver request a (wakeBinding boot request)) s = (.ok true,s) := by
  apply exec_takeOver_own
  intro hwake
  by_contra hother
  exact h ⟨hvalid,hwake,hother⟩

/-- Once the takeover has returned, every branch ends in an answer. -/
theorem answered_of_takeOver {proceed : Bool} {t : Slot} (hvalid : validate boot request = .ok ())
    (h : exec (takeOver request a (wakeBinding boot request)) s = (.ok proceed,t)) :
    Answered urlsplit boot request a s := by
  rw [Answered,handle,hvalid]
  show ∃ reply, (exec (takeOver request a (wakeBinding boot request) >>= _) s).1 = _ ∧ _
  rw [exec_bind,h]
  cases proceed with
  | false => exact ⟨_,rfl,rfl⟩
  | true =>
    simp only [if_true]
    cases operate urlsplit boot request a (wakeBinding boot request) with
    | none => exact ⟨_,rfl,rfl⟩
    | some operation =>
      simp only [exec_tryCatch,exec_bind]
      rcases exec operation t with ⟨e | result,t'⟩
      · exact ⟨_,rfl,rfl⟩
      · exact ⟨_,rfl,rfl⟩

/-- What the takeover raises, the API raises, and does nothing more. -/
theorem exec_handle_raised {e : SlotError} {t : Slot} (hvalid : validate boot request = .ok ())
    (h : exec (takeOver request a (wakeBinding boot request)) s = (.error e,t)) :
    exec (handle urlsplit boot request a) s = (.error e,t) := by
  rw [handle,hvalid]
  show exec (takeOver request a (wakeBinding boot request) >>= _) s = _
  rw [exec_bind,h]

theorem exec_handle_turnedDown {t : Slot} (hvalid : validate boot request = .ok ())
    (h : exec (takeOver request a (wakeBinding boot request)) s = (.ok false,t)) :
    exec (handle urlsplit boot request a) s = (.ok (refuse request "operation_failed"),t) := by
  rw [handle,hvalid]
  show exec (takeOver request a (wakeBinding boot request) >>= _) s = _
  rw [exec_bind,h]
  rfl

theorem keepsBinding : KeepsBinding urlsplit boot request a s := by
  intro htakes hfailed
  have hrun := exec_takeOver (a:=a) htakes
  rcases hadopt : exec (adoptBinding a (wakeBinding boot request)) s with ⟨e | result,t⟩
  · have hkept := adoptBinding_failed (congrArg Prod.fst hadopt)
    rw [hadopt] at hrun hkept
    cases hv : e.isValueError with
    | false =>
      simp only [hv,Bool.false_eq_true,if_false] at hrun
      rw [exec_handle_raised htakes.valid hrun]
      exact hkept
    | true =>
      simp only [hv,if_true] at hrun
      rw [exec_handle_turnedDown htakes.valid hrun]
      exact hkept
  · exact absurd (congrArg Prod.fst hadopt) (hfailed result)

/-- The API answers unless it takes over and the adoption fails with another error than the one
that is caught. -/
theorem answered_iff : Answered urlsplit boot request a s ↔
    ¬(TakesOver boot request s ∧ ∃ e,
      (exec (adoptBinding a (wakeBinding boot request)) s).1 = .error e ∧
        e.isValueError = false) := by
  constructor
  · rintro ⟨reply,hreply,-⟩ ⟨htakes,e,hadopt,hv⟩
    have hrun := exec_takeOver (a:=a) htakes
    rcases hx : exec (adoptBinding a (wakeBinding boot request)) s with ⟨r,t⟩
    rw [hx] at hrun hadopt
    cases hadopt
    simp only [hv,Bool.false_eq_true,if_false] at hrun
    rw [exec_handle_raised htakes.valid hrun] at hreply
    cases hreply
  · intro h
    cases hvalid : validate boot request with
    | error code =>
      rw [Answered,handle,hvalid]
      exact ⟨_,rfl,rfl⟩
    | ok _ =>
      by_cases htakes : TakesOver boot request s
      · have hrun := exec_takeOver (a:=a) htakes
        rcases hx : exec (adoptBinding a (wakeBinding boot request)) s with ⟨e | result,t⟩
        · rw [hx] at hrun
          cases hv : e.isValueError with
          | false => exact absurd ⟨htakes,e,congrArg Prod.fst hx,hv⟩ h
          | true =>
            simp only [hv,if_true] at hrun
            exact answered_of_takeOver hvalid hrun
        · rw [hx] at hrun
          exact answered_of_takeOver hvalid hrun
      · exact answered_of_takeOver hvalid (exec_takeOver_none hvalid htakes)

/-- Every request is answered under its id, and a takeover that fails leaves the binding, exactly
where no call that a takeover comes to breaks. -/
theorem answered_and_kept_iff (urlsplit : String → Except Unit SplitResult) (boot : BrowserBinding)
    (request : ControlRequest) (a : Answers) (s : Slot) :
    Answered urlsplit boot request a s ∧ KeepsBinding urlsplit boot request a s ↔
      ¬Breaks boot request a s := by
  rw [and_iff_left keepsBinding,answered_iff]
  refine not_congr ?_
  simp only [adoptBinding_error]
  constructor
  · rintro ⟨htakes,e,⟨-,rfl⟩ | ⟨hslot,hcall⟩,hv⟩
    · cases hv
    · refine ⟨htakes,hslot,?_⟩
      rcases hcall with ⟨hstate,hstop⟩ | ⟨hstopped,hpush⟩
      · exact .inl ⟨hstate,reply_breaks_iff.mpr ⟨e,hstop,hv⟩⟩
      · exact .inr ⟨hstopped,reply_breaks_iff.mpr ⟨e,hpush,hv⟩⟩
  · rintro ⟨htakes,hslot,⟨hstate,hstop⟩ | ⟨hstopped,hpush⟩⟩
    · obtain ⟨e,hstop,hv⟩ := reply_breaks_iff.mp hstop
      exact ⟨htakes,e,.inr ⟨hslot,.inl ⟨hstate,hstop⟩⟩,hv⟩
    · obtain ⟨e,hpush,hv⟩ := reply_breaks_iff.mp hpush
      exact ⟨htakes,e,.inr ⟨hslot,.inr ⟨hstopped,hpush⟩⟩,hv⟩

end Replies

/-- A transport whose push is not answered. -/
def mute : Answers :=
  { obliging with push := .failed (.browserUnavailable "browser API is unavailable") false }

/-- The push of bob's binding fails, and the wake for him is not answered. -/
theorem takeover_unanswered : ¬∀ (urlsplit : String → Except Unit SplitResult)
    (boot : BrowserBinding) (snapshotFile lastGoodFile : Option LifecycleSnapshot)
    (history : List Served) (served : Served),
    let s := history.foldl (serve urlsplit boot) (booted boot snapshotFile lastGoodFile
      ⟨boot.principalId,boot.generation,false,[]⟩)
    Answered urlsplit boot served.1 served.2 s ∧ KeepsBinding urlsplit boot served.1 served.2 s := by
  intro h
  obtain ⟨⟨reply,hreply,-⟩,-⟩ := h oneSite aliceBinding none none []
    (⟨"wake","request-1",some bobBinding⟩,mute)
  have hraised : (exec (handle oneSite aliceBinding ⟨"wake","request-1",some bobBinding⟩ mute)
      aliceSlot).1 = .error (.browserUnavailable "browser API is unavailable") := by
    decide +kernel
  have hanswer := hraised.symm.trans hreply
  cases hanswer

end ControlApi
end CloudBrowser
