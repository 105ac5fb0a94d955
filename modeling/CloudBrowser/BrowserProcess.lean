import CloudBrowser.Program
import Mathlib.Tactic.Common

/-! The owner of the Chromium process of one profile. `start`, `stop`, `recover_if_crashed`,
`rebind` and `watch` are calls; each of their lock-protected sections is one atomic action
on the shared object, so every order in which the sections interleave is a run. -/
namespace CloudBrowser
namespace BrowserProcess

open Interleave

inductive ProcessError
  | browserProcessError (message : String)
  | valueError (message : String)
  | osError
  | unexpected
  deriving DecidableEq, Repr

/-- The identity part of the configuration; its other fields never change after construction. -/
structure Config where
  owner : String
  generation : String
  profileId : String
  browserId : String
  owner_ne : owner ≠ ""
  generation_ne : generation ≠ ""
  profileId_bounded : profileId ≠ "" ∧ profileId.length ≤ 256
  browserId_bounded : browserId ≠ "" ∧ browserId.length ≤ 256
  deriving DecidableEq

/-- Construction with the checks of `__post_init__`, in their order. -/
def Config.build (owner generation profileId browserId : String) : Except ProcessError Config :=
  if ho : owner ≠ "" then
    if hg : generation ≠ "" then
      if hp : profileId ≠ "" ∧ profileId.length ≤ 256 then
        if hb : browserId ≠ "" ∧ browserId.length ≤ 256 then
          .ok ⟨owner,generation,profileId,browserId,ho,hg,hp,hb⟩
        else .error (.valueError "browser_id is invalid")
      else .error (.valueError "profile_id is invalid")
    else .error (.valueError "generation is required")
  else .error (.valueError "owner is required")

inductive Status
  | stopped | starting | ready | failed
  deriving DecidableEq, Repr

/-- The shared object, with the children it launched: `alive` lists those that have
neither exited nor been terminated, and `launches` numbers the next one. -/
structure Owner where
  config : Config
  process : Option ℕ
  state : Status
  recovering : Bool
  startEpoch : ℕ
  launches : ℕ
  alive : List ℕ
  deriving DecidableEq

def Owner.boot (config : Config) : Owner where
  config := config
  process := none
  state := .stopped
  recovering := false
  startEpoch := 0
  launches := 0
  alive := []

namespace Owner

/-- `_poll(process) is not None`. -/
def exited (s : Owner) (child : ℕ) : Bool := !s.alive.contains child

def crashed (s : Owner) : Bool := s.process.any s.exited

def terminate (s : Owner) (child : ℕ) : Owner := { s with alive := s.alive.filter (· ≠ child) }

/-- The `state` property: reading it turns a ready state whose child exited into a failure. -/
def observe (s : Owner) : Owner :=
  if s.crashed ∧ s.state = .ready then { s with state := .failed } else s

/-- How the launch itself goes: the profile directory cannot be prepared, a stale lock
cannot be removed, `popen` raises one of the caught exceptions or another one, or it starts
a child. -/
inductive Launch
  | directoryFails | lockCleanupFails | popenFails | popenRaises | launched
  deriving DecidableEq, Repr

inductive Started
  | alreadyReady
  | launched (child epoch : ℕ)
  deriving DecidableEq, Repr

/-- The checks at the head of `start`; `none` lets it go on to the launch. -/
def refusal (s : Owner) (owner generation : Option String) (expectedEpoch : Option ℕ) :
    Option (Except ProcessError Started) :=
  if expectedEpoch.any (· ≠ s.startEpoch) then
    some (.error (.browserProcessError "browser start was cancelled"))
  else if owner.any (· ≠ s.config.owner) then
    some (.error (.browserProcessError "browser owner binding mismatch"))
  else if generation.any (· ≠ s.config.generation) then
    some (.error (.browserProcessError "browser generation binding mismatch"))
  else match s.observe.state with
    | .ready => some (.ok .alreadyReady)
    | .starting => some (.error (.browserProcessError "browser is already starting"))
    | _ => none

/-- `start` reads the state only after its epoch and binding checks passed. -/
def bindingChecked (s : Owner) (owner generation : Option String) (expectedEpoch : Option ℕ) :
    Bool :=
  !expectedEpoch.any (· ≠ s.startEpoch) && !owner.any (· ≠ s.config.owner) &&
    !generation.any (· ≠ s.config.generation)

/-- The first section of `start`. -/
def launch (s : Owner) (owner generation : Option String) (expectedEpoch : Option ℕ)
    (l : Launch) : Except ProcessError Started × Owner :=
  let seen := if s.bindingChecked owner generation expectedEpoch then s.observe else s
  match s.refusal owner generation expectedEpoch with
  | some r => (r,seen)
  | none =>
    match l with
    | .directoryFails => (.error .osError,seen)
    | .lockCleanupFails =>
      (.error (.browserProcessError "browser profile lock cleanup failed"),seen)
    | .popenFails =>
      (.error (.browserProcessError "browser process failed to start"),
        { seen with process := none, state := .failed, startEpoch := s.startEpoch+1 })
    | .popenRaises =>
      (.error .unexpected, { seen with state := .starting, startEpoch := s.startEpoch+1 })
    | .launched =>
      (.ok (.launched s.launches (s.startEpoch+1)),
        { seen with
          process := some s.launches
          state := .starting
          startEpoch := s.startEpoch+1
          launches := s.launches+1
          alive := s.launches :: s.alive })

def superseded (s : Owner) (child epoch : ℕ) : Bool :=
  decide (epoch ≠ s.startEpoch) || decide (s.process ≠ some child)

/-- The section at the head of each turn of the readiness loop. -/
def pollStarting (s : Owner) (child epoch : ℕ) : Except ProcessError Unit × Owner :=
  if s.superseded child epoch then
    (.error (.browserProcessError "browser start was cancelled"),s)
  else if s.exited child then
    (.error (.browserProcessError "browser process exited during startup"),
      { s with state := .failed })
  else (.ok (),s)

/-- The section after the probe. -/
def markReady (s : Owner) (child epoch : ℕ) (ready : Bool) : Except ProcessError Bool × Owner :=
  if s.superseded child epoch then
    (.error (.browserProcessError "browser start was cancelled"),s)
  else if ready then (.ok true,{ s with state := .ready })
  else (.ok false,s)

/-- The section after the startup deadline. -/
def giveUp (s : Owner) (child epoch : ℕ) : Except ProcessError Unit × Owner :=
  if s.superseded child epoch then
    (.error (.browserProcessError "browser start was cancelled"),s)
  else (.ok (),{ s.terminate child with state := .failed, process := none })

def stop (s : Owner) : Owner :=
  let idle := { s with startEpoch := s.startEpoch+1, process := none, state := .stopped }
  match s.process with
  | none => idle
  | some child => idle.terminate child

/-- What `recover_if_crashed` takes out of its first section, if it goes on at all. -/
structure Recovery where
  owner : String
  generation : String
  epoch : ℕ
  deriving DecidableEq, Repr

def beginRecovery (s : Owner) : Option Recovery × Owner :=
  if !s.crashed then (none,s)
  else if s.recovering then (none,{ s with state := .failed })
  else
    (some ⟨s.config.owner,s.config.generation,s.startEpoch+1⟩,
      { s with recovering := true, startEpoch := s.startEpoch+1, process := none, state := .failed })

def endRecovery (s : Owner) : Owner := { s with recovering := false }

/-- The exception handler of `watch`. -/
def watchFailed (s : Owner) : Owner :=
  if s.state ≠ .stopped then { s with state := .failed } else s

def rebind (s : Owner) (owner generation : String) (profileId browserId : Option String) :
    Except ProcessError Unit × Owner :=
  let seen := s.observe
  if seen.state ≠ .stopped then
    (.error (.browserProcessError "browser must be stopped to rebind"),seen)
  else if owner = "" ∨ owner.length > 256 ∨ generation = "" ∨ generation.length > 256 then
    (.error (.valueError "owner and generation must be bounded strings"),seen)
  else match Config.build owner generation (profileId.getD s.config.profileId)
      (browserId.getD s.config.browserId) with
    | .ok config => (.ok (),{ seen with config := config })
    | .error e => (.error e,seen)

def exit (s : Owner) (child : ℕ) : Owner := s.terminate child

end Owner

open Owner

/-- One lock-protected section, or one unlocked observation of the outside. -/
inductive Section
  | launch (owner generation : Option String) (expectedEpoch : Option ℕ)
  | pollStarting (child epoch : ℕ)
  | probe
  | markReady (child epoch : ℕ) (ready : Bool)
  | giveUp (child epoch : ℕ)
  | stop
  | beginRecovery
  | endRecovery
  | watchPoll
  | watchFailed
  | rebind (owner generation : String) (profileId browserId : Option String)
  deriving DecidableEq, Repr

@[reducible] def Answer : Section → Type
  | .launch _ _ _ => Started
  | .probe => Bool
  | .markReady _ _ _ => Bool
  | .beginRecovery => Option Recovery
  | .watchPoll => Bool
  | _ => Unit

abbrev Call (α : Type) := Program Section Answer ProcessError α

abbrev perform (a : Section) : Call (Answer a) := Program.perform a

/-- The readiness loop; `turns` is how often the deadline lets it run. -/
def awaitReady (child epoch : ℕ) : ℕ → Call Bool
  | 0 => do
    perform (.giveUp child epoch)
    throw (.browserProcessError "browser readiness timed out")
  | turns+1 => do
    perform (.pollStarting child epoch)
    let ready ← perform .probe
    if ← perform (.markReady child epoch ready) then return true
    else awaitReady child epoch turns

def start (turns : ℕ) (owner generation : Option String) (expectedEpoch : Option ℕ) :
    Call Bool := do
  match ← perform (.launch owner generation expectedEpoch) with
  | .alreadyReady => return true
  | .launched child epoch => awaitReady child epoch turns

def recoverIfCrashed (turns : ℕ) : Call Bool := do
  match ← perform .beginRecovery with
  | none => return false
  | some r =>
    Program.andFinally (start turns (some r.owner) (some r.generation) (some r.epoch))
      (perform .endRecovery)

/-- One iteration of `watch` for each entry; the entry bounds the readiness loop of the
recovery it may attempt. -/
def watch : List ℕ → Call Unit
  | [] => return ()
  | turns::rest => do
    if ← perform .watchPoll then
      Program.tryCatch (do let _ ← recoverIfCrashed turns) fun
        | .browserProcessError _ => perform .watchFailed
        | e => throw e
      watch rest
    else watch rest

/-- The public operations. -/
inductive Operation
  | start (turns : ℕ) (owner generation : Option String)
  | stop
  | recoverIfCrashed (turns : ℕ)
  | rebind (owner generation : String) (profileId browserId : Option String)
  | watch (turns : List ℕ)
  deriving DecidableEq, Repr

def Operation.call : Operation → Call Unit
  | .start turns owner generation => do let _ ← BrowserProcess.start turns owner generation none
  | .stop => perform .stop
  | .recoverIfCrashed turns => do let _ ← BrowserProcess.recoverIfCrashed turns
  | .rebind owner generation profileId browserId =>
    perform (.rebind owner generation profileId browserId)
  | .watch turns => BrowserProcess.watch turns

/-- What an action leaves open: how a launch goes, and what the probe finds. -/
structure Choice where
  launch : Launch := .launched
  probe : Bool := true
  deriving DecidableEq, Repr

/-- Each section runs under the lock, hence as a whole. -/
def exec : (a : Section) → Choice → Owner → Except ProcessError (Answer a) × Owner
  | .launch owner generation epoch, x, s => s.launch owner generation epoch x.launch
  | .pollStarting child epoch, _, s => s.pollStarting child epoch
  | .probe, x, s => (.ok x.probe,s)
  | .markReady child epoch ready, _, s => s.markReady child epoch ready
  | .giveUp child epoch, _, s => s.giveUp child epoch
  | .stop, _, s => (.ok (),s.stop)
  | .beginRecovery, _, s => (.ok s.beginRecovery.1,s.beginRecovery.2)
  | .endRecovery, _, s => (.ok (),s.endRecovery)
  | .watchPoll, _, s => (.ok s.crashed,s)
  | .watchFailed, _, s => (.ok (),s.watchFailed)
  | .rebind owner generation profileId browserId, _, s =>
    s.rebind owner generation profileId browserId

/-- The environment lets a child exit. -/
def machine : Machine Section Answer ProcessError Owner Choice ℕ where
  exec _ a x s := some (exec a x s)
  environment child s := some (s.exit child)

abbrev World := Interleave.Config Section Answer ProcessError Unit Owner

def World.boot (config : Config) (operations : ℕ → Operation) : World where
  shared := .boot config
  calls t := (operations t).call

/-- What the owner promises of its children in one state. -/
structure OneChild (s : Owner) : Prop where
  unique : ∀ i ∈ s.alive, ∀ j ∈ s.alive, i = j
  held : ∀ i ∈ s.alive, s.process = some i
  idle : s.state = .stopped ∨ s.state = .failed → s.process = none → s.alive = []

theorem oneChild_iff (s : Owner) : OneChild s ↔ ∀ i ∈ s.alive, s.process = some i := by
  refine ⟨OneChild.held,fun h => ⟨fun i hi j hj => ?_,h,fun _ hp => ?_⟩⟩
  · exact Option.some.inj ((h i hi).symm.trans (h j hj))
  · refine List.eq_nil_iff_forall_not_mem.mpr fun i hi => ?_
    simp [hp] at h
    exact h i hi

/-- A step changes the owner or the generation only while no child is alive. -/
def RebindsIdle (c : World) (e : Event Choice ℕ) : Prop :=
  ∀ d, machine.next c e = some d →
    d.shared.config.owner ≠ c.shared.config.owner ∨
      d.shared.config.generation ≠ c.shared.config.generation →
    c.shared.alive = [] ∧ d.shared.alive = []

/-- A `start` that gets past its checks while the recorded child is still alive, and goes
on to replace or drop the record. -/
def Overlapping (s : Owner) (owner generation : Option String) (expectedEpoch : Option ℕ)
    (l : Launch) : Prop :=
  s.refusal owner generation expectedEpoch = none ∧ (l = .popenFails ∨ l = .launched) ∧
    ∃ i ∈ s.alive, s.process = some i

def NoOverlap (c : World) : Event Choice ℕ → Prop
  | .call t x => ∀ owner generation epoch k, c.calls t = .act (.launch owner generation epoch) k →
      ¬ Overlapping c.shared owner generation epoch x.launch
  | .environment _ => True

/-- The children a state accounts for: a live one is recorded, and a stopped owner records
none. -/
structure Recorded (s : Owner) : Prop where
  held : ∀ i ∈ s.alive, s.process = some i
  stopped : s.state = .stopped → s.process = none

namespace Owner

@[simp] theorem observe_alive (s : Owner) : s.observe.alive = s.alive := by
  unfold observe; split <;> rfl
@[simp] theorem observe_process (s : Owner) : s.observe.process = s.process := by
  unfold observe; split <;> rfl
@[simp] theorem observe_config (s : Owner) : s.observe.config = s.config := by
  unfold observe; split <;> rfl
@[simp] theorem observe_launches (s : Owner) : s.observe.launches = s.launches := by
  unfold observe; split <;> rfl

theorem observe_stopped {s : Owner} (h : s.observe.state = .stopped) : s.state = .stopped := by
  unfold observe at h
  split at h
  · cases h
  · exact h

@[simp] theorem beginRecovery_alive (s : Owner) : s.beginRecovery.2.alive = s.alive := by
  unfold beginRecovery; repeat' split
  all_goals rfl

theorem mem_terminate {s : Owner} {child i : ℕ} (h : i ∈ (s.terminate child).alive) :
    i ∈ s.alive ∧ i ≠ child := by
  simpa [terminate] using h

theorem recorded_observe {s : Owner} (h : Recorded s) : Recorded s.observe :=
  ⟨by simpa using h.held,fun hs => by simpa using h.stopped (observe_stopped hs)⟩

theorem recorded_failed {s : Owner} (h : Recorded s) : Recorded { s with state := .failed } :=
  ⟨h.held,nofun⟩

theorem recorded_terminate {s : Owner} (h : Recorded s) (child : ℕ) :
    Recorded (s.terminate child) :=
  ⟨fun i hi => h.held i (mem_terminate hi).1,h.stopped⟩

theorem recorded_launch {s : Owner} {owner generation : Option String}
    {expectedEpoch : Option ℕ} {l : Launch} (h : Recorded s)
    (ho : ¬ Overlapping s owner generation expectedEpoch l) :
    Recorded (s.launch owner generation expectedEpoch l).2 := by
  have hseen : ∀ b : Bool, Recorded (if b then s.observe else s) := by
    intro b
    cases b
    · exact h
    · exact recorded_observe h
  simp only [launch]
  generalize s.bindingChecked owner generation expectedEpoch = b
  have halive : (if b then s.observe else s).alive = s.alive := by cases b <;> simp
  cases hr : s.refusal owner generation expectedEpoch with
  | some r => exact hseen b
  | none =>
    cases l with
    | directoryFails => exact hseen b
    | lockCleanupFails => exact hseen b
    | popenRaises => exact ⟨(hseen b).held,nofun⟩
    | popenFails =>
      have hnone : s.alive = [] := List.eq_nil_iff_forall_not_mem.mpr fun i hi =>
        ho ⟨hr,.inl rfl,i,hi,h.held i hi⟩
      exact ⟨by simp [halive,hnone],nofun⟩
    | launched =>
      have hnone : s.alive = [] := List.eq_nil_iff_forall_not_mem.mpr fun i hi =>
        ho ⟨hr,.inr rfl,i,hi,h.held i hi⟩
      exact ⟨by simp [hnone],nofun⟩

theorem recorded_stop {s : Owner} (h : Recorded s) : Recorded s.stop := by
  unfold stop
  cases hp : s.process with
  | none =>
    refine ⟨fun i hi => ?_,fun _ => rfl⟩
    have := h.held i hi
    simp [hp] at this
  | some child =>
    refine ⟨fun i hi => ?_,fun _ => rfl⟩
    obtain ⟨hi,hne⟩ := mem_terminate hi
    have := h.held i hi
    rw [hp] at this
    exact absurd (Option.some.inj this).symm hne

theorem recorded_giveUp {s : Owner} (h : Recorded s) (child epoch : ℕ) :
    Recorded (s.giveUp child epoch).2 := by
  unfold giveUp
  split
  · exact h
  · rename_i hs
    refine ⟨fun i hi => ?_,nofun⟩
    obtain ⟨hi,hne⟩ := mem_terminate hi
    have hp : s.process = some child := by simp_all [superseded]
    have := h.held i hi
    rw [hp] at this
    exact absurd (Option.some.inj this).symm hne

theorem recorded_beginRecovery {s : Owner} (h : Recorded s) : Recorded s.beginRecovery.2 := by
  unfold beginRecovery
  split
  · exact h
  · rename_i hc
    split
    · exact recorded_failed h
    · -- the recorded child has exited, so dropping the record loses nothing
      refine ⟨fun i hi => ?_,nofun⟩
      have hp := h.held i hi
      simp [crashed,exited,hp] at hc
      exact absurd hi hc

theorem rebind_config {s : Owner} {owner generation : String} {profileId browserId : Option String}
    (h : Recorded s)
    (hne : (s.rebind owner generation profileId browserId).2.config ≠ s.config) :
    s.alive = [] := by
  unfold rebind at hne
  simp only at hne
  split at hne
  · simp at hne
  · rename_i hs
    have hp : s.process = none := h.stopped (observe_stopped (by simpa using hs))
    refine List.eq_nil_iff_forall_not_mem.mpr fun i hi => ?_
    have := h.held i hi
    simp [hp] at this

theorem recorded_rebind {s : Owner} {owner generation : String}
    {profileId browserId : Option String} (h : Recorded s) :
    Recorded (s.rebind owner generation profileId browserId).2 := by
  have hseen := recorded_observe h
  unfold rebind
  simp only
  split
  · exact hseen
  split
  · exact hseen
  split
  · exact ⟨hseen.held,hseen.stopped⟩
  · exact hseen

end Owner

/-- Every section keeps the record, a launch that does not overlap a live child included. -/
theorem recorded_exec {a : Section} {x : Choice} {s : Owner} (h : Recorded s)
    (ho : ∀ owner generation epoch, a = .launch owner generation epoch →
      ¬ Overlapping s owner generation epoch x.launch) : Recorded (exec a x s).2 := by
  cases a with
  | launch owner generation epoch => exact recorded_launch h (ho _ _ _ rfl)
  | pollStarting child epoch =>
    simp only [exec,pollStarting]
    split
    · exact h
    split
    · exact recorded_failed h
    · exact h
  | probe => exact h
  | markReady child epoch ready =>
    simp only [exec,markReady]
    split
    · exact h
    split
    · exact ⟨h.held,nofun⟩
    · exact h
  | giveUp child epoch => exact recorded_giveUp h child epoch
  | stop => exact recorded_stop h
  | beginRecovery => exact recorded_beginRecovery h
  | endRecovery => exact ⟨h.held,h.stopped⟩
  | watchPoll => exact h
  | watchFailed =>
    simp only [exec,watchFailed]
    split
    · exact recorded_failed h
    · exact h
  | rebind owner generation profileId browserId => exact recorded_rebind h

/-- The sections that look at the child or set the state, and neither start a child, nor end one,
nor rebind. -/
def Section.quiet : Section → Bool
  | .launch _ _ _ => false
  | .giveUp _ _ => false
  | .stop => false
  | .rebind _ _ _ _ => false
  | _ => true

theorem exec_quiet {a : Section} (ha : a.quiet = true) (x : Choice) (s : Owner) :
    (exec a x s).2.alive = s.alive ∧ (exec a x s).2.launches = s.launches ∧
      (exec a x s).2.config = s.config := by
  cases a with
  | pollStarting child epoch =>
    simp only [exec,Owner.pollStarting]
    split
    · exact ⟨rfl,rfl,rfl⟩
    split <;> exact ⟨rfl,rfl,rfl⟩
  | markReady child epoch ready =>
    simp only [exec,Owner.markReady]
    split
    · exact ⟨rfl,rfl,rfl⟩
    split <;> exact ⟨rfl,rfl,rfl⟩
  | beginRecovery =>
    simp only [exec,Owner.beginRecovery]
    split
    · exact ⟨rfl,rfl,rfl⟩
    split <;> exact ⟨rfl,rfl,rfl⟩
  | watchFailed =>
    simp only [exec,Owner.watchFailed]
    split <;> exact ⟨rfl,rfl,rfl⟩
  | probe => exact ⟨rfl,rfl,rfl⟩
  | endRecovery => exact ⟨rfl,rfl,rfl⟩
  | watchPoll => exact ⟨rfl,rfl,rfl⟩
  | launch owner generation epoch => cases ha
  | giveUp child epoch => cases ha
  | stop => cases ha
  | rebind owner generation profileId browserId => cases ha

theorem exec_config {a : Section} {x : Choice} {s : Owner} (h : Recorded s)
    (hne : (exec a x s).2.config ≠ s.config) : s.alive = [] ∧ (exec a x s).2.alive = [] := by
  cases a with
  | rebind owner generation profileId browserId =>
    have hs := rebind_config h hne
    refine ⟨hs,?_⟩
    simp only [exec,Owner.rebind]
    repeat' split
    all_goals simpa using hs
  | launch owner generation epoch =>
    refine absurd ?_ hne
    simp only [exec,Owner.launch]
    repeat' split
    all_goals simp
  | stop =>
    refine absurd ?_ hne
    simp only [exec,Owner.stop]
    split <;> rfl
  | giveUp child epoch =>
    refine absurd ?_ hne
    simp only [exec,Owner.giveUp]
    split <;> rfl
  | _ => exact absurd (exec_quiet rfl x s).2.2 hne

/-- What a step does to the shared object: one section of one call, or a child's exit. -/
theorem next_shared {c d : World} {e : Event Choice ℕ} (h : machine.next c e = some d) :
    (∃ t x a k, e = .call t x ∧ c.calls t = .act a k ∧ d.shared = (exec a x c.shared).2) ∨
      ∃ child, e = .environment child ∧ d.shared = c.shared.exit child := by
  cases e with
  | call t x =>
    obtain ⟨a,k,r,s,hk,he,rfl⟩ := Machine.next_call h
    refine .inl ⟨t,x,a,k,rfl,hk,?_⟩
    exact (congrArg Prod.snd (Option.some.inj he)).symm
  | environment child =>
    obtain ⟨s,hs,rfl⟩ := Machine.next_environment h
    exact .inr ⟨child,rfl,(Option.some.inj hs).symm⟩

theorem recorded_next (c d : World) (e : Event Choice ℕ) (h : Recorded c.shared)
    (hQ : NoOverlap c e) (hn : machine.next c e = some d) : Recorded d.shared := by
  obtain ⟨t,x,a,k,rfl,hk,hd⟩ | ⟨child,rfl,hd⟩ := next_shared hn
  · rw [hd]
    refine recorded_exec h fun owner generation epoch ha => ?_
    subst ha
    exact hQ owner generation epoch k hk
  · rw [hd]
    exact recorded_terminate h child

theorem rebindsIdle_of_recorded (c : World) (e : Event Choice ℕ) (h : Recorded c.shared) :
    RebindsIdle c e := by
  intro d hn hne
  obtain ⟨t,x,a,k,rfl,hk,hd⟩ | ⟨child,rfl,hd⟩ := next_shared hn
  · rw [hd] at hne ⊢
    refine exec_config h fun he => ?_
    rw [he] at hne
    exact hne.elim (· rfl) (· rfl)
  · rw [hd] at hne
    exact (hne.elim (· rfl) (· rfl)).elim

theorem recorded_boot (config : Config) : Recorded (.boot config) := ⟨nofun,fun _ => rfl⟩

/-- Children are numbered below the launch counter, so a new child is never an old one. -/
def Numbered (s : Owner) : Prop := ∀ i ∈ s.alive, i < s.launches

theorem numbered_terminate {s : Owner} (h : Numbered s) (child : ℕ) :
    Numbered (s.terminate child) :=
  fun i hi => h i (Owner.mem_terminate hi).1

theorem numbered_quiet {a : Section} {x : Choice} {s : Owner} (ha : a.quiet = true)
    (h : Numbered s) : Numbered (exec a x s).2 := by
  obtain ⟨halive,hlaunches,-⟩ := exec_quiet ha x s
  intro i hi
  rw [halive] at hi
  rw [hlaunches]
  exact h i hi

theorem numbered_exec {a : Section} {x : Choice} {s : Owner} (h : Numbered s) :
    Numbered (exec a x s).2 := by
  have hobserve : Numbered s.observe := by
    unfold Owner.observe
    split <;> exact h
  cases a with
  | launch owner generation epoch =>
    have hseen : ∀ b : Bool, Numbered (if b then s.observe else s) := by
      intro b
      cases b
      · exact h
      · exact hobserve
    have hlaunches : ∀ b : Bool, (if b then s.observe else s).launches = s.launches := by
      intro b
      cases b <;> simp
    simp only [exec,Owner.launch]
    generalize s.bindingChecked owner generation epoch = b
    split
    · exact hseen b
    · cases x.launch with
      | launched =>
        intro i hi
        obtain rfl | hi := List.mem_cons.mp hi
        · simp
        · have := h i hi
          simp only
          omega
      | directoryFails => exact hseen b
      | lockCleanupFails => exact hseen b
      | popenFails => exact hseen b
      | popenRaises => exact hseen b
  | giveUp child epoch =>
    simp only [exec,Owner.giveUp]
    split
    · exact h
    · exact numbered_terminate h child
  | stop =>
    simp only [exec,Owner.stop]
    split
    · exact h
    · exact numbered_terminate h _
  | rebind owner generation profileId browserId =>
    simp only [exec,Owner.rebind]
    repeat' split
    all_goals exact hobserve
  | _ => exact numbered_quiet rfl h

theorem numbered_next (c d : World) (e : Event Choice ℕ) (h : Numbered c.shared)
    (hn : machine.next c e = some d) : Numbered d.shared := by
  obtain ⟨t,x,a,k,rfl,hk,hd⟩ | ⟨child,rfl,hd⟩ := next_shared hn
  · rw [hd]
    exact numbered_exec h
  · rw [hd]
    exact numbered_terminate h child

/-- An overlapping launch loses sight of the child that was alive. -/
theorem overlapping_breaks {s : Owner} {owner generation : Option String} {epoch : Option ℕ}
    {x : Choice} (hnum : Numbered s) (ho : Overlapping s owner generation epoch x.launch) :
    ¬ OneChild (exec (.launch owner generation epoch) x s).2 := by
  obtain ⟨hr,hl,i,hi,hp⟩ := ho
  have hlt := hnum i hi
  have hseen : ∀ b : Bool, (if b then s.observe else s).alive = s.alive := by
    intro b
    cases b <;> simp
  intro h
  obtain hl | hl := hl
  · have hh := h.held i (by simpa [exec,Owner.launch,hr,hl,hseen] using hi)
    simp [exec,Owner.launch,hr,hl] at hh
  · have hh := h.held i (by simp [exec,Owner.launch,hr,hl,hi])
    simp [exec,Owner.launch,hr,hl] at hh
    omega

/-- In a run of any operations in any interleaving, the owner accounts for its children in
every state, and identities change only over a dead browser, exactly when no `start` gets
past its checks while the recorded child is alive. -/
theorem oneChild_throughout_iff (config : Config) (operations : ℕ → Operation)
    (es : List (Event Choice ℕ)) :
    (machine.Throughout (fun c => OneChild c.shared) (World.boot config operations) es ∧
        machine.EachStep RebindsIdle (World.boot config operations) es) ↔
      machine.EachStep NoOverlap (World.boot config operations) es := by
  constructor
  · rintro ⟨h,-⟩
    have hnum : machine.Throughout (fun c => Numbered c.shared) (World.boot config operations) es :=
      Machine.throughout_of_step (fun c d e h _ hn => numbered_next c d e h hn) nofun
        Machine.eachStep_true
    refine (h.and hnum).eachStep_of_broken fun c e hc hnext => ?_
    cases e with
    | environment child => trivial
    | call t x =>
      intro owner generation epoch k hk ho
      have hn : machine.next c (.call t x) = some
          { shared := (exec (.launch owner generation epoch) x c.shared).2
            calls := Function.update c.calls t
              (k (exec (.launch owner generation epoch) x c.shared).1) } := by
        simp only [Machine.next,hk]
        rfl
      exact overlapping_breaks hc.2 ho (hnext _ hn).1
  · intro hQ
    have h : machine.Throughout (fun c => Recorded c.shared) (World.boot config operations) es :=
      Machine.throughout_of_step recorded_next (recorded_boot config) hQ
    exact ⟨h.mono fun c hc => (oneChild_iff c.shared).mpr hc.held,
      h.eachStep rebindsIdle_of_recorded⟩

/-- The handler of `watch` runs only while no recorded child is alive. -/
def HandlerIdle (c : World) : Event Choice ℕ → Prop
  | .call t _ => ∀ k, c.calls t = .act .watchFailed k → c.shared.alive = []
  | .environment _ => True

/-- A failed owner has no child alive; the handler of `watch` is what can break this. -/
structure Settled (s : Owner) : Prop extends Recorded s where
  failed : s.state = .failed → s.alive = []

theorem Settled.noOverlap {s : Owner} (h : Settled s) {owner generation : Option String}
    {epoch : Option ℕ} {l : Launch} : ¬ Overlapping s owner generation epoch l := by
  rintro ⟨hr,-,i,hi,hp⟩
  have hcrash : s.crashed = false := by simp [Owner.crashed,Owner.exited,hp,hi]
  have hobserve : s.observe = s := by simp [Owner.observe,hcrash]
  have hne : s.alive ≠ [] := List.ne_nil_of_mem hi
  unfold Owner.refusal at hr
  rw [hobserve] at hr
  cases hs : s.state with
  | ready => simp [hs] at hr; grind
  | starting => simp [hs] at hr; grind
  | failed => exact hne (h.failed hs)
  | stopped =>
    have := h.stopped hs
    simp [hp] at this

theorem Settled.observe {s : Owner} (h : Settled s) : Settled s.observe := by
  refine ⟨Owner.recorded_observe h.toRecorded,fun hs => ?_⟩
  by_cases hc : s.crashed
  · refine List.eq_nil_iff_forall_not_mem.mpr fun i hi => ?_
    have hi' : i ∈ s.alive := by simpa using hi
    simp [Owner.crashed,Owner.exited,h.held i hi',hi'] at hc
  · have hobserve : s.observe = s := by simp [Owner.observe,hc]
    rw [hobserve] at hs ⊢
    exact h.failed hs

theorem Settled.terminate {s : Owner} (h : Settled s) (child : ℕ) : Settled (s.terminate child) :=
  ⟨Owner.recorded_terminate h.toRecorded child,fun hs => by simp [Owner.terminate,h.failed hs]⟩

/-- Every section but the handler keeps an owner settled by itself. -/
theorem settled_exec {a : Section} {x : Choice} {s : Owner} (h : Settled s)
    (hw : a = .watchFailed → s.alive = []) : Settled (exec a x s).2 := by
  have hrec : Recorded (exec a x s).2 :=
    recorded_exec h.toRecorded fun _ _ _ _ => h.noOverlap
  refine ⟨hrec,fun hf => ?_⟩
  cases a with
  | launch owner generation epoch =>
    have hno : ¬ Overlapping s owner generation epoch x.launch := h.noOverlap
    have hseen : ∀ b : Bool, (if b then s.observe else s).state = .failed →
        (if b then s.observe else s).alive = [] := by
      intro b
      cases b
      · exact h.failed
      · exact h.observe.failed
    simp only [exec,Owner.launch] at hf ⊢
    generalize s.bindingChecked owner generation epoch = b at hf ⊢
    cases hr : s.refusal owner generation epoch with
    | some r => simp only [hr] at hf ⊢; exact hseen b hf
    | none =>
      cases hl : x.launch with
      | directoryFails => simp only [hr,hl] at hf ⊢; exact hseen b hf
      | lockCleanupFails => simp only [hr,hl] at hf ⊢; exact hseen b hf
      | popenFails =>
        have hnone : s.alive = [] := List.eq_nil_iff_forall_not_mem.mpr fun i hi =>
          hno ⟨hr,.inl hl,i,hi,h.held i hi⟩
        cases b <;> simp [hnone]
      | popenRaises => simp [hr,hl] at hf
      | launched => simp [hr,hl] at hf
  | probe => exact h.failed hf
  | endRecovery => exact h.failed hf
  | watchPoll => exact h.failed hf
  | stop =>
    simp only [exec,Owner.stop] at hf
    split at hf <;> simp [Owner.terminate] at hf
  | pollStarting child epoch =>
    simp only [exec,Owner.pollStarting] at hf ⊢
    by_cases hsup : s.superseded child epoch
    · simp only [hsup,if_true] at hf ⊢
      exact h.failed hf
    · simp only [hsup] at hf ⊢
      by_cases hex : s.exited child
      · -- the recorded child is the one that exited
        have hp : s.process = some child := by simp_all [Owner.superseded]
        refine List.eq_nil_iff_forall_not_mem.mpr fun i hi => ?_
        have hi' : i ∈ s.alive := by simpa [hex] using hi
        have hchild := (h.held i hi').symm.trans hp
        have := Option.some.inj hchild
        subst this
        simp [Owner.exited,hi'] at hex
      · simp only [hex] at hf ⊢
        exact h.failed hf
  | markReady child epoch ready =>
    simp only [exec,Owner.markReady] at hf ⊢
    repeat' split at hf
    all_goals simp_all [h.failed]
  | giveUp child epoch =>
    refine List.eq_nil_iff_forall_not_mem.mpr fun i hi => ?_
    have hp := hrec.held i hi
    simp only [exec,Owner.giveUp] at hf hi hp
    split at hf
    · rename_i hsup
      simp only [hsup,if_true] at hi
      simp [h.failed hf] at hi
    · rename_i hsup
      simp [hsup] at hp
  | beginRecovery =>
    by_cases hc : s.crashed
    · refine List.eq_nil_iff_forall_not_mem.mpr fun i hi => ?_
      have hi' : i ∈ s.alive := by simpa [exec] using hi
      simp [Owner.crashed,Owner.exited,h.held i hi',hi'] at hc
    · simp [exec,Owner.beginRecovery,hc] at hf ⊢
      exact h.failed hf
  | watchFailed =>
    have hnone := hw rfl
    simp only [exec,Owner.watchFailed]
    split <;> exact hnone
  | rebind owner generation profileId browserId =>
    have hobserve := h.observe.failed
    simp only [exec,Owner.rebind] at hf ⊢
    repeat' split at hf
    all_goals simp_all

theorem settled_next (c d : World) (e : Event Choice ℕ) (h : Settled c.shared)
    (hQ : HandlerIdle c e) (hn : machine.next c e = some d) : Settled d.shared := by
  obtain ⟨t,x,a,k,rfl,hk,hd⟩ | ⟨child,rfl,hd⟩ := next_shared hn
  · rw [hd]
    refine settled_exec h fun ha => ?_
    subst ha
    exact hQ k hk
  · rw [hd]
    exact h.terminate child

/-- The handler of `watch` is the only section that can prepare an overlap: where it never
runs over a live child, the owner accounts for its children in every state. -/
theorem oneChild_of_handlerIdle (config : Config) (operations : ℕ → Operation)
    (es : List (Event Choice ℕ))
    (hQ : machine.EachStep HandlerIdle (World.boot config operations) es) :
    machine.Throughout (fun c => OneChild c.shared) (World.boot config operations) es := by
  have hboot : Settled (World.boot config operations).shared :=
    ⟨recorded_boot config,fun _ => rfl⟩
  have h : machine.Throughout (fun c => Settled c.shared) (World.boot config operations) es :=
    Machine.throughout_of_step settled_next hboot hQ
  exact h.mono fun c hc => (oneChild_iff c.shared).mpr hc.held

/-- A configuration on which the runs below start. -/
def bootConfig : Config where
  owner := "owner-unassigned"
  generation := "generation-unassigned"
  profileId := "profile-unassigned"
  browserId := "browser-unassigned"
  owner_ne := by decide
  generation_ne := by decide
  profileId_bounded := by decide
  browserId_bounded := by decide

/-- A crash, a watch whose recovery is overtaken by a second `start`, and a third `start`. -/
def overtakenOperations : ℕ → Operation
  | 0 => .start 1 none none
  | 1 => .watch [1]
  | 2 => .start 1 none none
  | _ => .start 1 none none

def overtakenRun : List (Event Choice ℕ) :=
  [.call 0 {}, .environment 0,        -- the first child is launched and exits
   .call 1 {}, .call 1 {},            -- watch sees the crash and begins its recovery
   .call 2 {},                        -- another start launches the second child
   .call 1 {}, .call 1 {}, .call 1 {}, -- the recovery is cancelled; its handler writes "failed"
   .call 3 {}]                        -- a third start launches beside the second child

/-- The overtaken watch leaves two children alive, one of them held by nobody. -/
theorem overtaken_leaks : ¬ ∀ (config : Config) (operations : ℕ → Operation)
    (es : List (Event Choice ℕ)),
    machine.Throughout (fun c => OneChild c.shared) (World.boot config operations) es ∧
      machine.EachStep RebindsIdle (World.boot config operations) es := by
  intro h
  have hrun := (h bootConfig overtakenOperations overtakenRun).1
  obtain ⟨d,hd,halive⟩ : ∃ d, machine.run (World.boot bootConfig overtakenOperations)
      overtakenRun = some d ∧ d.shared.alive = [2,1] := ⟨_,rfl,rfl⟩
  have hone := (Machine.throughout_last hrun hd).unique 2 (by simp [halive]) 1 (by simp [halive])
  exact absurd hone (by decide)

end BrowserProcess
end CloudBrowser
