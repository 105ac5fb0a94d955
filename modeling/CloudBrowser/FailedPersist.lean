import CloudBrowser.RouterEffects
import CloudBrowser.RouterRuns

/-! Writes of the state file that fail. Every operation is a script of the stores it saves one
after the other; none takes back in memory what it could not write. -/
namespace CloudBrowser
namespace RouterSessions

open Stateful Keyed

/-- What a call does as long as the disk takes its writes. -/
inductive Script (α : Type)
  | ends (answer : Except RouterError α) (store : Store) (readings : ℕ → Time)
  | saves (store : Store) (readings : ℕ → Time) (rest : Script α)

namespace Script

variable {α β : Type}

/-- The script up to the first write that fails. -/
def play : Script α → (ℕ → Bool) → Except RouterError α × World
  | ends answer s readings, writes => (answer,⟨s,⟨readings,writes⟩⟩)
  | saves s readings rest, writes =>
    if writes 0 then rest.play fun n => writes (n+1)
    else (.error .osError,⟨s,⟨readings,fun n => writes (n+1)⟩⟩)

/-- The stores that are saved. -/
def stores : Script α → List Store
  | ends _ _ _ => []
  | saves s _ rest => s::rest.stores

/-- The file is only ever written by the writes of the script, and nothing else raises. -/
def Wrote (file : Option Json) : Script α → Prop
  | ends answer s _ => s.file = file ∧ answer ≠ .error .osError
  | saves s _ rest => s.file = file ∧ rest.Wrote (some (document s))

end Script

/-- The stores that are saved one after the other, each while the file is as the save before
has left it. -/
def Saves (file : Option Json) : List Store → Prop
  | [] => True
  | s::rest => s.file = file ∧ Saves (some (document s)) rest

/-- The file after all of them. -/
def fileAfter (file : Option Json) (saved : List Store) : Option Json :=
  saved.foldl (fun _ s => some (document s)) file

section Play

variable {α : Type} {script : Script α} {file : Option Json} {writes : ℕ → Bool} {k : ℕ}

theorem Script.Wrote.saves (h : script.Wrote file) : Saves file script.stores := by
  induction script generalizing file with
  | ends answer s readings => trivial
  | saves s readings rest ih => exact ⟨h.1,ih h.2⟩

theorem play_fails (hk : k < script.stores.length) (hbefore : ∀ j < k, writes j = true)
    (hfails : writes k = false) :
    (script.play writes).1 = .error .osError ∧ (script.play writes).2.store = script.stores[k] := by
  induction script generalizing k writes with
  | ends answer s readings => simp [Script.stores] at hk
  | saves s readings rest ih =>
    cases k with
    | zero => simp [Script.play,Script.stores,hfails]
    | succ k =>
      have hfirst := hbefore 0 (by omega)
      have hrest := @ih (fun n => writes (n+1)) k (by simpa [Script.stores] using hk)
        (fun j hj => hbefore (j+1) (by omega)) hfails
      simpa [Script.play,Script.stores,hfirst] using hrest

theorem play_ends (h : script.Wrote file) (hwrites : ∀ j < script.stores.length, writes j = true) :
    (script.play writes).1 ≠ .error .osError ∧
      (script.play writes).2.store.file = fileAfter file script.stores := by
  induction script generalizing file writes with
  | ends answer s readings => exact ⟨h.2,h.1⟩
  | saves s readings rest ih =>
    have hfirst := hwrites 0 (by simp [Script.stores])
    have hrest := @ih _ (fun n => writes (n+1)) h.2
      fun j hj => hwrites (j+1) (by simpa [Script.stores] using hj)
    simpa [Script.play,Script.stores,hfirst,fileAfter] using hrest

end Play

/-- The operation follows a script, which the disk has no part in. -/
def Scripted {α : Type} (m : Operation α) : Prop :=
  ∀ s readings, ∃ script : Script α, script.Wrote s.file ∧
    ∀ writes, exec m ⟨s,⟨readings,writes⟩⟩ = script.play writes

section Rules

variable {α β : Type} {settings : Settings}

/-- An operation that leaves the disk alone. -/
theorem Scripted.calm {m : Operation α} (h : ∀ s readings, ∃ answer s' readings',
    s'.file = s.file ∧ answer ≠ .error .osError ∧
    ∀ writes, exec m ⟨s,⟨readings,writes⟩⟩ = (answer,⟨s',⟨readings',writes⟩⟩)) : Scripted m := by
  intro s readings
  obtain ⟨answer,s',readings',hfile,hanswer,hexec⟩ := h s readings
  exact ⟨.ends answer s' readings',⟨hfile,hanswer⟩,hexec⟩

theorem Scripted.pure (x : α) : Scripted (Pure.pure x : Operation α) :=
  .calm fun s readings => ⟨_,s,readings,rfl,by simp,fun _ => rfl⟩

theorem Scripted.throw {e : RouterError} (h : e ≠ .osError) :
    Scripted (MonadExcept.throw e : Operation α) :=
  .calm fun s readings => ⟨_,s,readings,rfl,by simpa using h,fun _ => rfl⟩

theorem Scripted.check {r : Except RouterError α} (h : r ≠ .error .osError) :
    Scripted (Stateful.check r : Operation α) := by
  cases r with
  | ok x => exact .pure x
  | error e => exact .throw fun he => h (by rw [he])

/-- What `bind` does with the answer of its first operation. -/
def andThen (f : α → Operation β) : Except RouterError α × World → Except RouterError β × World
  | (.ok x,w) => exec (f x) w
  | (.error e,w) => (.error e,w)

theorem exec_bind_andThen (m : Operation α) (f : α → Operation β) (w : World) :
    exec (m >>= f) w = andThen f (exec m w) := by
  rw [exec_bind]
  rcases exec m w with ⟨_ | _,w'⟩ <;> rfl

theorem Scripted.bind {m : Operation α} {f : α → Operation β} (hm : Scripted m)
    (hf : ∀ x, Scripted (f x)) : Scripted (m >>= f) := by
  intro s readings
  obtain ⟨script,hwrote,hplay⟩ := hm s readings
  -- the script of `f` is appended where the script of `m` ends with a value
  have happend : ∃ script' : Script β, script'.Wrote s.file ∧ ∀ writes,
      andThen f (script.play writes) = script'.play writes := by
    clear hplay
    generalize s.file = file at hwrote
    induction script generalizing file with
    | ends answer s readings =>
      obtain ⟨rfl,hanswer⟩ := hwrote
      cases answer with
      | ok x => exact hf x s readings
      | error e => exact ⟨.ends (.error e) s readings,⟨rfl,by simpa using hanswer⟩,fun _ => rfl⟩
    | saves s readings rest ih =>
      obtain ⟨script',hwrote',hplay'⟩ := ih _ hwrote.2
      refine ⟨.saves s readings script',⟨hwrote.1,hwrote'⟩,fun writes => ?_⟩
      cases hfirst : writes 0 with
      | true => simpa [Script.play,hfirst] using hplay' fun n => writes (n+1)
      | false => simp [Script.play,hfirst,andThen]
  obtain ⟨script',hwrote',hplay'⟩ := happend
  refine ⟨script',hwrote',fun writes => ?_⟩
  rw [exec_bind_andThen,hplay]
  exact hplay' writes

theorem scripted_persistLocked : Scripted persistLocked := by
  intro s readings
  refine ⟨.saves s readings (.ends (.ok ⟨⟩) s.saved readings),⟨rfl,rfl,by simp⟩,fun writes => ?_⟩
  rw [exec_persistLocked]
  rfl

theorem scripted_clock : Scripted clock :=
  .calm fun s readings => ⟨.ok (readings 0),s,fun n => readings (n+1),rfl,by simp,fun _ => rfl⟩

theorem scripted_sessions : Scripted sessions :=
  .calm fun s readings => ⟨.ok s.sessions,s,readings,rfl,by simp,fun _ => rfl⟩

theorem scripted_setSessions (t : SessionTable) : Scripted (setSessions t) :=
  .calm fun s readings => ⟨_,s.withSessions t,readings,rfl,by simp,fun _ => rfl⟩

theorem scripted_newIdLocked : Scripted newIdLocked := by
  apply Scripted.calm
  intro s readings
  let n := Table.firstFree sessionName (s.sessions.rows.map RouterSession.sessionId)
    (s.sessions.rows.map RouterSession.sessionId).length s.nextSequence
  exact ⟨.ok (sessionName n),{ s with nextSequence := n+1 },readings,rfl,by simp,fun _ => rfl⟩

theorem scripted_persistIf (changed : Bool) : Scripted (persistIf changed) := by
  cases changed with
  | true => exact scripted_persistLocked
  | false => exact .pure _

theorem scripted_validateText (name value : String) :
    Scripted (Stateful.check (validateText name value) : Operation Unit) := by
  apply Scripted.check
  rw [validateText_eq]
  split <;> simp

theorem scripted_requireLocked (sessionId : String) : Scripted (requireLocked sessionId) := by
  apply Scripted.bind (scripted_validateText _ _)
  intro _
  apply Scripted.bind scripted_sessions
  intro t
  split
  · exact .pure _
  · exact .throw (by simp)

theorem scripted_expireLocked : Scripted expireLocked := by
  apply Scripted.bind scripted_clock
  intro now
  apply Scripted.bind scripted_sessions
  intro t
  apply Scripted.bind (scripted_setSessions _)
  exact fun _ => .pure _

theorem scripted_assignWaitersLocked : Scripted (assignWaitersLocked settings) := by
  apply Scripted.bind scripted_sessions
  intro t
  apply Scripted.bind scripted_clock
  intro now
  apply Scripted.bind (scripted_setSessions _)
  exact fun _ => .pure _

end Rules

section Operations

variable {settings : Settings} {α : Type}

theorem scripted_forPrincipal (p : String) : Scripted (forPrincipal settings p) := by
  apply Scripted.bind (scripted_validateText _ _)
  intro _
  apply Scripted.bind scripted_expireLocked
  intro expired
  apply Scripted.bind scripted_assignWaitersLocked
  intro promoted
  apply Scripted.bind scripted_sessions
  intro t
  apply Scripted.bind (scripted_persistIf _)
  exact fun _ => .pure _

/-- The end of most operations. -/
theorem scripted_replace (record : RouterSession) (x : α) :
    Scripted (do
      let t ← sessions
      setSessions (t.put record)
      persistLocked
      return x) := by
  apply Scripted.bind scripted_sessions
  intro t
  apply Scripted.bind (scripted_setSessions _)
  intro _
  apply Scripted.bind scripted_persistLocked
  exact fun _ => .pure _

theorem scripted_enqueue (p r : String) (e : Option String) :
    Scripted (enqueue settings p r e) := by
  apply Scripted.bind (scripted_validateText _ _)
  intro _
  apply Scripted.bind (scripted_validateText _ _)
  intro _
  apply Scripted.bind
  · cases e with
    | none => exact .pure _
    | some email => exact scripted_validateText _ _
  intro _
  apply Scripted.bind scripted_expireLocked
  intro _
  apply Scripted.bind (scripted_forPrincipal p)
  intro found
  split
  · exact .pure _
  apply Scripted.bind scripted_newIdLocked
  intro sessionId
  apply Scripted.bind scripted_clock
  intro now
  apply Scripted.bind scripted_sessions
  intro t
  apply Scripted.bind (scripted_setSessions _)
  intro _
  apply Scripted.bind scripted_assignWaitersLocked
  intro _
  apply Scripted.bind scripted_persistLocked
  intro _
  apply Scripted.bind scripted_sessions
  intro t'
  split
  · exact .pure _
  · exact .throw (by simp)

theorem scripted_activate (sessionId : String) : Scripted (activate settings sessionId) := by
  apply Scripted.bind (scripted_requireLocked sessionId)
  intro record
  split
  · exact .pure _
  split
  · exact .throw (by simp)
  apply Scripted.bind scripted_clock
  exact fun now => scripted_replace _ _

theorem scripted_leave (sessionId : String) : Scripted (leave sessionId) := by
  apply Scripted.bind (scripted_requireLocked sessionId)
  exact fun record => scripted_replace _ _

theorem scripted_backoff (sessionId : String) : Scripted (backoff settings sessionId) := by
  apply Scripted.bind (scripted_requireLocked sessionId)
  intro record
  apply Scripted.bind scripted_clock
  intro now
  apply Scripted.bind scripted_sessions
  intro t
  apply Scripted.bind (scripted_setSessions _)
  intro _
  apply Scripted.bind scripted_assignWaitersLocked
  intro _
  apply Scripted.bind scripted_persistLocked
  exact fun _ => .pure _

theorem scripted_renew (p : String) : Scripted (renew settings p) := by
  apply Scripted.bind (scripted_validateText _ _)
  intro _
  apply Scripted.bind (scripted_forPrincipal p)
  intro found
  split
  · exact .pure _
  split
  · exact .pure _
  apply Scripted.bind scripted_clock
  exact fun now => scripted_replace _ _

theorem scripted_promoteNext : Scripted (promoteNext settings) := by
  apply Scripted.bind scripted_expireLocked
  intro _
  apply Scripted.bind scripted_sessions
  intro t
  split
  · apply Scripted.bind scripted_clock
    intro now
    apply Scripted.bind (scripted_setSessions _)
    intro _
    apply Scripted.bind scripted_persistLocked
    exact fun _ => .pure _
  · exact .pure _

theorem scripted_getSession (sessionId : String) : Scripted (getSession sessionId) := by
  apply Scripted.bind scripted_expireLocked
  intro changed
  apply Scripted.bind scripted_sessions
  intro t
  apply Scripted.bind (scripted_persistIf _)
  exact fun _ => .pure _

theorem scripted_roster : Scripted (roster settings) := by
  apply Scripted.bind scripted_expireLocked
  intro changed
  apply Scripted.bind scripted_assignWaitersLocked
  intro promoted
  apply Scripted.bind scripted_sessions
  intro t
  apply Scripted.bind (scripted_persistIf _)
  exact fun _ => .pure _

theorem Scripted.discard {m : Operation α} (h : Scripted m) : Scripted (Functor.discard m) :=
  h.bind fun _ => .pure _

theorem scripted_perform (request : Request) : Scripted (request.perform settings) := by
  cases request with
  | enqueue p r e => exact (scripted_enqueue p r e).discard
  | activate id => exact (scripted_activate id).discard
  | leave id => exact (scripted_leave id).discard
  | backoff id => exact (scripted_backoff id).discard
  | renew p => exact (scripted_renew p).discard
  | promoteNext => exact scripted_promoteNext.discard
  | get id => exact (scripted_getSession id).discard
  | forPrincipal p => exact (scripted_forPrincipal p).discard
  | roster => exact scripted_roster.discard

/-- The stores that a call saves depend on the clock alone. A write that fails is answered
with the error, and leaves the memory as it was to be saved and the file as the write before
has left it; a call whose writes succeed does not raise the error, and leaves them in the
file. -/
theorem failed_persist (s : Store) (request : Request) (readings : ℕ → Time) :
    ∃ saved : List Store, Saves s.file saved ∧ ∀ writes : ℕ → Bool,
      (∀ k, ∀ hk : k < saved.length, (∀ j < k, writes j = true) → writes k = false →
        (exec (request.perform settings) ⟨s,⟨readings,writes⟩⟩).1 = .error .osError ∧
          s.step settings (request,⟨readings,writes⟩) = saved[k]) ∧
      ((∀ k < saved.length, writes k = true) →
        (exec (request.perform settings) ⟨s,⟨readings,writes⟩⟩).1 ≠ .error .osError ∧
          (s.step settings (request,⟨readings,writes⟩)).file = fileAfter s.file saved) := by
  obtain ⟨script,hwrote,hplay⟩ := @scripted_perform settings request s readings
  refine ⟨script.stores,hwrote.saves,fun writes => ⟨?_,?_⟩⟩
  · intro k hk hbefore hfails
    rw [Store.step,hplay]
    exact play_fails hk hbefore hfails
  · intro hwrites
    rw [Store.step,hplay]
    exact play_ends hwrote hwrites

/-- The disk takes no write. -/
def Outside.full (now : Time) : Outside := ⟨fun _ => now,fun _ => false⟩

theorem unsaved_activation_stays : ¬∀ (es : List Event) (settings : Settings) (s : Store),
    Router.initial.run es = .up settings s → ∀ (request : Request) (outside : Outside),
      (exec (request.perform settings) ⟨s,outside⟩).1 = .error .osError →
        (s.step settings (request,outside)).sessions = s.sessions ∧
          (s.step settings (request,outside)).nextSequence = s.nextSequence := by
  intro h
  obtain ⟨s,hs,hraises,hbefore,hafter⟩ : ∃ s, Router.initial.run offered = .up oneSlot s ∧
      (exec ((Request.activate "q-1").perform oneSlot) ⟨s,.full 1⟩).1 = .error .osError ∧
      s.sessions.rows.map RouterSession.status = [.offered] ∧
      (s.step oneSlot (.activate "q-1",.full 1)).sessions.rows.map RouterSession.status =
        [.active] :=
    ⟨_,rfl,rfl,by decide +kernel,by decide +kernel⟩
  have hsame := (h offered oneSlot s hs (.activate "q-1") (.full 1) hraises).1
  rw [hsame,hbefore] at hafter
  cases hafter

end Operations
end RouterSessions
end CloudBrowser
