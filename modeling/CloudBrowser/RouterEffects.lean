import CloudBrowser.RouterTransitions

/-! The steps that the operations of the session store are made of, one equation for each:
the answer, the store it leaves and what is left of the clock readings and write attempts. -/
namespace CloudBrowser
namespace RouterSessions

open Stateful Keyed

/-- The next clock reading is used up. -/
def Outside.tick (o : Outside) : Outside := { o with readings := fun n => o.readings (n+1) }

/-- The next attempt to write is used up. -/
def Outside.attempt (o : Outside) : Outside := { o with writes := fun n => o.writes (n+1) }

@[simp] theorem Outside.tick_readings (o : Outside) (n : ℕ) :
    o.tick.readings n = o.readings (n+1) := rfl

@[simp] theorem Outside.tick_writes (o : Outside) : o.tick.writes = o.writes := rfl

@[simp] theorem Outside.attempt_readings (o : Outside) : o.attempt.readings = o.readings := rfl

@[simp] theorem Outside.attempt_writes (o : Outside) (n : ℕ) :
    o.attempt.writes n = o.writes (n+1) := rfl

/-- The store after its state file was replaced. -/
def Store.saved (s : Store) : Store := { s with file := some (document s) }

@[simp] theorem Store.saved_sessions (s : Store) : s.saved.sessions = s.sessions := rfl

@[simp] theorem Store.saved_nextSequence (s : Store) : s.saved.nextSequence = s.nextSequence := rfl

@[simp] theorem Store.withSessions_file (s : Store) (t : SessionTable) :
    (s.withSessions t).file = s.file := rfl

/-- The table after `_assign_waiters_locked` with the clock at `now`. -/
def assignAll (settings : Settings) (t : SessionTable) (now : Time) : SessionTable :=
  offerAll t (now+settings.offerTtl) ((queue t).zip (free settings t))

/-- How many sessions `_assign_waiters_locked` promotes. -/
def assignable (settings : Settings) (t : SessionTable) : ℕ :=
  ((queue t).zip (free settings t)).length

def anyLapsed (t : SessionTable) (now : Time) : Bool := t.rows.any (RouterSession.lapsed now)

variable {settings : Settings} {w : World}

@[simp] theorem exec_clock (w : World) :
    exec clock w = (.ok (w.outside.readings 0),⟨w.store,w.outside.tick⟩) := rfl

@[simp] theorem exec_sessions (w : World) : exec sessions w = (.ok w.store.sessions,w) := rfl

@[simp] theorem exec_setSessions (t : SessionTable) (w : World) :
    exec (setSessions t) w = (.ok ⟨⟩,⟨w.store.withSessions t,w.outside⟩) := rfl

@[simp] theorem exec_expireLocked (w : World) :
    exec expireLocked w = (.ok (anyLapsed w.store.sessions (w.outside.readings 0)),
      ⟨w.store.withSessions (expireAll w.store.sessions (w.outside.readings 0)),w.outside.tick⟩) :=
  rfl

@[simp] theorem exec_assignWaitersLocked (w : World) :
    exec (assignWaitersLocked settings) w = (.ok (assignable settings w.store.sessions),
      ⟨w.store.withSessions (assignAll settings w.store.sessions (w.outside.readings 0)),
        w.outside.tick⟩) := rfl

theorem exec_persistLocked (w : World) :
    exec persistLocked w = if w.outside.writes 0 then (.ok ⟨⟩,⟨w.store.saved,w.outside.attempt⟩)
      else (.error .osError,⟨w.store,w.outside.attempt⟩) := by
  cases hw : w.outside.writes 0 with
  | true => simp [persistLocked,exec_bind,hw,Store.saved,Outside.attempt]
  | false => simp [persistLocked,exec_bind,hw,Outside.attempt]

/-- Writing the state file, with or without success, leaves the memory as it is. -/
@[simp] theorem exec_persistLocked_sessions (w : World) :
    (exec persistLocked w).2.store.sessions = w.store.sessions := by
  rw [exec_persistLocked]
  split <;> rfl

theorem exec_check_ok {α : Type} {r : Except RouterError α} {x : α} (h : r = .ok x) (w : World) :
    exec (check r) w = (.ok x,w) := by
  subst h
  rfl

theorem validateText_eq (name value : String) :
    validateText name value =
      if readable value then .ok () else .error (.valueError (name ++ " is invalid")) := rfl

/-- `_require_locked`: an id that passes validation, and that the store knows. -/
theorem exec_requireLocked (sessionId : String) (w : World) :
    exec (requireLocked sessionId) w =
      if readable sessionId then
        match w.store.sessions.find sessionId with
        | some record => (.ok record,w)
        | none => (.error (.keyError "session not found"),w)
      else (.error (.valueError "session_id is invalid"),w) := by
  by_cases h : readable sessionId = true
  · simp only [requireLocked,exec_bind,validateText_eq,h,if_true,check,exec_pure,exec_sessions]
    cases w.store.sessions.find sessionId <;> rfl
  · simp only [requireLocked,exec_bind,validateText_eq,h,check]
    rfl

section Tables

variable {t : SessionTable} {now : Time} {r : RouterSession}

theorem mem_expireAll : r ∈ expireAll t now ↔ ∃ r' ∈ t, r'.expire now = r := Table.mem_mapRows

theorem expire_of_not_lapsed (h : r.lapsed now = false) : r.expire now = r := by
  simp [RouterSession.expire,h]

/-- Nothing has lapsed: expiry changes nothing. -/
theorem expireAll_of_none (h : anyLapsed t now = false) : expireAll t now = t := by
  apply Table.ext
  have hrows : ∀ r ∈ t.rows, r.expire now = id r := by
    intro r hr
    simp only [anyLapsed,List.any_eq_false] at h
    exact expire_of_not_lapsed (by simpa using h r hr)
  show t.rows.map _ = t.rows
  rw [List.map_congr_left hrows,List.map_id]

/-- Nobody waits, or no slot is free: assignment changes nothing. -/
theorem assignAll_of_none (h : assignable settings t = 0) : assignAll settings t now = t := by
  have hpairs : (queue t).zip (free settings t) = [] := List.length_eq_zero_iff.mp h
  rw [assignAll,hpairs]
  rfl

end Tables

end RouterSessions
end CloudBrowser
