import CloudBrowser.BrowserService
import CloudBrowser.Runs

/-! Whom the watchers of the browser service attribute downloads to, over its binding pushes. -/
namespace CloudBrowser
namespace Downloads

open CloudFiles
open Directories

section Tracking

variable {α : Type} (env : Environment) (f : BrowserBinding → α)

/-- What a watcher has read and not sent yet is, under `f`, the binding of the service. -/
def Settled (s : Service) : Prop := ∀ holder w binding, s.watcher holder = some w →
  w.phase.binding = some binding → f (attribution binding) = f s.binding

def Configured (s : Service) : Prop := ∀ holder w, s.watcher holder = some w →
  f (attribution w.config.binding) = f s.binding

/-- A working transport has no watcher but that of the registry, which the binding can be given
to. -/
def Retargets (s : Service) (binding : BrowserBinding) : Prop :=
  env.Works → s.boot = none ∧ (principalOf binding).isSome

/-- A push that changes the binding under `f` reaches the watchers, and none of them is between
the reading of its binding and its submission when the push returns. -/
def Reaches (s : Service) : Event → Prop
  | .push secret payload => ∀ s' ∈ (s.handleBindingPush env secret payload).toOption,
      s.pushing = none → f s'.binding ≠ f s.binding → Retargets env s s'.binding
  | .listen => s.pushing ≠ none → Settled f s
  | _ => True

instance [DecidableEq α] (s : Service) : Decidable (Settled f s) :=
  decidable_of_iff (∀ holder ∈ [Holder.boot,.registry], ∀ w ∈ s.watcher holder,
      ∀ binding ∈ w.phase.binding, f (attribution binding) = f s.binding) <| by
    constructor
    · intro h holder w binding hw hbinding
      exact h holder (by cases holder <;> simp) w hw binding hbinding
    · intro h holder _ w hw binding hbinding
      exact h holder w binding hw hbinding

instance (s : Service) (binding : BrowserBinding) : Decidable (Retargets env s binding) :=
  inferInstanceAs (Decidable (env.Works → s.boot = none ∧ _))

instance [DecidableEq α] (s : Service) (e : Event) : Decidable (Reaches env f s e) := by
  cases e <;> unfold Reaches <;> infer_instance

/-- The watchers have the binding of the service, or will get it from the push under way. -/
structure Tracks (s : Service) : Prop where
  works : ∀ holder w, s.watcher holder = some w → env.Works
  follows : s.pushing = none → Configured f s ∧ Settled f s
  pushed : ∀ binding, s.pushing = some binding → s.binding = binding ∧
    (Configured f s ∨ s.boot = none ∧ (principalOf binding).isSome)

variable {env f} {s : Service}

theorem handleBindingPush_ok {s' : Service} {secret : Option String} {payload : Option Json}
    (h : s.handleBindingPush env secret payload = .ok s') :
    s.running = false ∧ ∃ binding, s' = s.rebind binding := by
  unfold Service.handleBindingPush at h
  split at h
  · cases h
  · split_ifs at h with hrunning
    exact ⟨by simpa using hrunning,_,(Except.ok.inj h).symm⟩

/-- A push is answered with the service unchanged, or it rebinds a stopped browser. -/
theorem push_cases (env : Environment) (s : Service) (secret : Option String) (payload : Option Json) :
    s.next env (.push secret payload) = s ∨ s.pushing = none ∧ s.running = false ∧
      ∃ binding, s.rebind binding ∈ (s.handleBindingPush env secret payload).toOption ∧
        s.next env (.push secret payload) = s.rebind binding := by
  by_cases hpushing : s.pushing = none
  · cases hpush : s.handleBindingPush env secret payload with
    | error refusal => simp [Service.next,hpushing,hpush]
    | ok s' =>
      obtain ⟨hrunning,binding,rfl⟩ := handleBindingPush_ok hpush
      right
      refine ⟨hpushing,hrunning,binding,rfl,?_⟩
      simp [Service.next,hpushing,hpush]
  · simp [Service.next,hpushing]

/-- The registry's watcher after the listener has run has the binding of the push, unless that is
none that the watcher accepts. -/
theorem registry_listen {binding : BrowserBinding} {w : BrowserDownloadWatcher}
    (h : (s.listen env binding).registry = some w) :
    (attribution w.config.binding = binding ∧
      ((∃ w', s.registry = some w' ∧ w.phase = w'.phase) ∨
        s.registry = none ∧ w.phase = .idle ∧ env.Works)) ∨
    s.registry = some w ∧ principalOf binding = none := by
  have hregistry : (onBinding env s.registry binding).toOption.getD s.registry = some w := h
  cases hlisten : onBinding env s.registry binding with
  | ok registry =>
    have hw : registry = some w := by simpa [hlisten,Except.toOption] using hregistry
    rw [hw] at hlisten
    exact Or.inl (onBinding_ok hlisten)
  | error e =>
    have hold : s.registry = some w := by simpa [hlisten,Except.toOption] using hregistry
    right
    constructor
    · exact hold
    · cases hprincipal : principalOf binding with
      | none => rfl
      | some principal => simp [onBinding,hprincipal,hold] at hlisten

/-- The listener changes no phase. -/
theorem phase_listen {binding : BrowserBinding} {holder : Holder} {w : BrowserDownloadWatcher}
    (h : (s.listen env binding).watcher holder = some w) :
    w.phase = .idle ∨ ∃ w', s.watcher holder = some w' ∧ w.phase = w'.phase := by
  cases holder with
  | boot => exact Or.inr ⟨w,h,rfl⟩
  | registry =>
    rcases registry_listen h with ⟨-,⟨w',hold,hphase⟩ | ⟨-,hidle,-⟩⟩ | ⟨hold,-⟩
    · exact Or.inr ⟨w',hold,hphase⟩
    · exact Or.inl hidle
    · exact Or.inr ⟨w,hold,rfl⟩

/-- What a step of a watcher leads to, and leaves alone. -/
theorem watcher_cases (env : Environment) (s : Service) (holder : Holder) (m : Move) :
    s.next env (.watcher holder m) = s ∨ ∃ w, s.watcher holder = some w ∧
      s.next env (.watcher holder m) = ({ s.setWatcher (step s.dir w m).1 holder with
        dir := (step s.dir w m).2.1 }).record (step s.dir w m).2.2 := by
  cases hw : s.watcher holder with
  | none => simp [Service.next,hw]
  | some w => exact Or.inr ⟨w,rfl,by simp [Service.next,hw]⟩

theorem watched_next (env : Environment) (s : Service) (holder : Holder) (m : Move) :
    Service.Watched s (s.next env (.watcher holder m)) := by
  rcases watcher_cases env s holder m with hsame | ⟨w,hw,hnext⟩
  · rw [hsame]
    exact ⟨rfl,rfl,rfl,rfl,rfl⟩
  · rw [hnext]
    exact Service.watched_step _

/-- Every watcher after a step of one of them is as before, or after its step. -/
theorem watcher_next {holder holder' : Holder} {m : Move} {w' : BrowserDownloadWatcher}
    (h : (s.next env (.watcher holder m)).watcher holder' = some w') :
    ∃ w, s.watcher holder' = some w ∧ (w' = w ∨ w' = (step s.dir w m).1) := by
  rcases watcher_cases env s holder m with hsame | ⟨w,hw,hnext⟩
  · rw [hsame] at h
    exact ⟨w',h,Or.inl rfl⟩
  · rw [hnext,Service.watcher_record] at h
    have hset : (s.setWatcher (step s.dir w m).1 holder).watcher holder' = some w' := by
      cases holder' <;> exact h
    by_cases hholder : holder' = holder
    · rw [hholder,Service.watcher_setWatcher_self] at hset
      rw [hholder]
      exact ⟨w,hw,Or.inr (Option.some.inj hset).symm⟩
    · rw [Service.watcher_setWatcher_of_ne hholder] at hset
      exact ⟨w',hset,Or.inl rfl⟩

theorem watcher_next_none {holder holder' : Holder} {m : Move} (h : s.watcher holder' = none) :
    (s.next env (.watcher holder m)).watcher holder' = none := by
  cases hnext : (s.next env (.watcher holder m)).watcher holder' with
  | none => rfl
  | some w' =>
    obtain ⟨w,hw,-⟩ := watcher_next hnext
    rw [h] at hw
    cases hw

theorem configured_watcher (h : Configured f s) (holder : Holder) (m : Move) :
    Configured f (s.next env (.watcher holder m)) := by
  intro holder' w' hw'
  obtain ⟨w,hw,hstep⟩ := watcher_next hw'
  have hconfig : w'.config = w.config := by
    rcases hstep with rfl | rfl
    · rfl
    · exact config_step
  rw [(watched_next env s holder m).binding,hconfig]
  exact h holder' w hw

theorem settled_watcher (hconfigured : Configured f s) (h : Settled f s) (holder : Holder)
    (m : Move) : Settled f (s.next env (.watcher holder m)) := by
  intro holder' w' binding hw' hheld
  obtain ⟨w,hw,hstep⟩ := watcher_next hw'
  rw [(watched_next env s holder m).binding]
  rcases hstep with rfl | rfl
  · exact h holder' w' binding hw hheld
  · rcases binding_of_step hheld with hold | hread
    · exact h holder' w binding hw hold
    · rw [hread]
      exact hconfigured holder' w hw

theorem tracks_watcher (h : Tracks env f s) (holder : Holder) (m : Move) :
    Tracks env f (s.next env (.watcher holder m)) where
  works := by
    intro holder' w' hw'
    obtain ⟨w,hw,-⟩ := watcher_next hw'
    exact h.works holder' w hw
  follows := by
    intro hpushing
    rw [(watched_next env s holder m).pushing] at hpushing
    obtain ⟨hconfigured,hsettled⟩ := h.follows hpushing
    exact ⟨configured_watcher hconfigured holder m,settled_watcher hconfigured hsettled holder m⟩
  pushed := by
    intro binding hpushing
    rw [(watched_next env s holder m).pushing] at hpushing
    rw [(watched_next env s holder m).binding]
    obtain ⟨hbinding,hreach⟩ := h.pushed binding hpushing
    refine ⟨hbinding,hreach.imp ?_ ?_⟩
    · intro hconfigured
      exact configured_watcher hconfigured holder m
    · intro hboot
      have hnone : s.watcher .boot = none := hboot.1
      exact ⟨watcher_next_none hnone,hboot.2⟩

theorem tracks_push (h : Tracks env f s) {secret : Option String} {payload : Option Json}
    (hreaches : Reaches env f s (.push secret payload)) :
    Tracks env f (s.next env (.push secret payload)) := by
  rcases push_cases env s secret payload with hsame | ⟨hpushing,-,binding,hpush,hnext⟩
  · rwa [hsame]
  · rw [hnext]
    have hretargets := hreaches _ hpush hpushing
    obtain ⟨hconfigured,-⟩ := h.follows hpushing
    refine ⟨h.works,(fun hnone => nomatch hnone),?_⟩
    intro binding' hbinding'
    cases hbinding'
    refine ⟨rfl,?_⟩
    by_cases hsame : f binding = f s.binding
    · left
      intro holder w hw
      rw [hconfigured holder w hw]
      exact hsame.symm
    · by_cases hworks : env.Works
      · exact Or.inr (hretargets hsame hworks)
      · left
        intro holder w hw
        exact absurd (h.works holder w hw) hworks

theorem tracks_listen (h : Tracks env f s) (hreaches : Reaches env f s .listen) :
    Tracks env f (s.next env .listen) := by
  cases hpushing : s.pushing with
  | none => simpa [Service.next,hpushing] using h
  | some binding =>
    have hnext : s.next env .listen = s.listen env binding := by simp [Service.next,hpushing]
    have hsettled : Settled f s := hreaches (by simp [hpushing])
    obtain ⟨hbinding,hreach⟩ := h.pushed binding hpushing
    rw [hnext]
    have hwatcher : ∀ holder w, (s.listen env binding).watcher holder = some w →
        env.Works ∧ f (attribution w.config.binding) = f binding := by
      intro holder w hw
      cases holder with
      | boot =>
        have hold : s.watcher .boot = some w := hw
        refine ⟨h.works .boot w hold,?_⟩
        rcases hreach with hconfigured | ⟨hboot,-⟩
        · rw [hconfigured .boot w hold,hbinding]
        · exact absurd hold (by simp [Service.watcher,hboot])
      | registry =>
        rcases registry_listen hw with ⟨hconfig,hphase⟩ | ⟨hold,hprincipal⟩
        · rw [hconfig]
          rcases hphase with ⟨w',hold,-⟩ | ⟨-,-,hworks⟩
          · exact ⟨h.works .registry w' hold,rfl⟩
          · exact ⟨hworks,rfl⟩
        · refine ⟨h.works .registry w hold,?_⟩
          rcases hreach with hconfigured | ⟨-,hsome⟩
          · rw [hconfigured .registry w hold,hbinding]
          · simp [hprincipal] at hsome
    refine ⟨fun holder w hw => (hwatcher holder w hw).1,fun _ => ⟨?_,?_⟩,fun b hb => nomatch hb⟩
    · intro holder w hw
      have hconfig := (hwatcher holder w hw).2
      rwa [← hbinding] at hconfig
    · intro holder w held hw hheld
      rcases phase_listen hw with hidle | ⟨w',hold,hphase⟩
      · rw [hidle] at hheld
        cases hheld
      · rw [hphase] at hheld
        exact hsettled holder w' held hold hheld

theorem tracks_next (h : Tracks env f s) {e : Event} (hreaches : Reaches env f s e) :
    Tracks env f (s.next env e) := by
  cases e with
  | watcher holder m => exact tracks_watcher h holder m
  | push secret payload => exact tracks_push h hreaches
  | listen => exact tracks_listen h hreaches
  | start => exact ⟨h.works,h.follows,h.pushed⟩
  | stop => exact ⟨h.works,h.follows,h.pushed⟩
  | browser m =>
    by_cases hrunning : s.running = true
    · simp only [Service.next,hrunning,if_true]
      exact ⟨h.works,h.follows,h.pushed⟩
    · simpa [Service.next,hrunning] using h

/-- A service that begins has a watcher for the binding of its environment, or none. -/
theorem runBrowserService_some {dir : Directory Node} (h : runBrowserService env dir = some s) :
    ∃ boot, (∀ w, boot = some w → env.Works ∧ attribution w.config.binding = env.binding ∧
        w.phase = .idle) ∧ s =
      { dir := dir, running := env.autostartEnabled, binding := env.binding, boot := boot } := by
  unfold runBrowserService at h
  split_ifs at h with hauto
  · cases hbuild : buildDownloadWatcher env none with
    | error e => simp [hbuild] at h
    | ok boot =>
      refine ⟨boot,?_,by simpa [hbuild,hauto] using h.symm⟩
      intro w hw
      rw [hw] at hbuild
      obtain ⟨hworks,hphase,hbinding⟩ := buildDownloadWatcher_ok hbuild
      exact ⟨hworks,watcherBinding_none hbinding,hphase⟩
  · exact ⟨none,by simp,by simpa [hauto] using h.symm⟩

theorem tracks_start {dir : Directory Node} (h : runBrowserService env dir = some s) :
    Tracks env f s := by
  obtain ⟨boot,hboot,hs⟩ := runBrowserService_some h
  have hbinding : s.binding = env.binding := by rw [hs]
  have hwatcher : ∀ holder w, s.watcher holder = some w → boot = some w := by
    rw [hs]
    intro holder w hw
    cases holder with
    | boot => exact hw
    | registry => cases hw
  refine ⟨?_,fun _ => ⟨?_,?_⟩,?_⟩
  · intro holder w hw
    exact (hboot w (hwatcher holder w hw)).1
  · intro holder w hw
    rw [(hboot w (hwatcher holder w hw)).2.1,hbinding]
  · intro holder w held hw hheld
    rw [(hboot w (hwatcher holder w hw)).2.2] at hheld
    cases hheld
  · rw [hs]
    intro b hb
    cases hb

end Tracking

/-- Principal, browser and generation. -/
def identity (binding : BrowserBinding) : String × String × String :=
  (binding.principalId,binding.browserId,binding.generation)

/-- One watcher at most, and every submission that was begun after a push returned carries the
binding that was adopted last. -/
def Attributed (s : Service) : Prop :=
  (s.boot = none ∨ s.registry = none) ∧ ∀ x ∈ s.submissions, ∀ binding, x.adopted = some binding →
    identity (attribution x.event.binding) = identity binding

/-- No push makes the registry build a watcher beside the one the service began with; and one that
changes the identity reaches the watchers. -/
def Follows (env : Environment) (s : Service) (e : Event) : Prop :=
  Reaches env identity s e ∧
    match e with
    | .push secret payload => ∀ s' ∈ (s.handleBindingPush env secret payload).toOption,
        s.pushing = none → s.boot = none ∨ principalOf s'.binding = none
    | _ => True

instance (env : Environment) (s : Service) (e : Event) : Decidable (Follows env s e) := by
  cases e <;> unfold Follows <;> infer_instance

instance (s : Service) : Decidable (Attributed s) := by
  unfold Attributed
  infer_instance

structure Followed (env : Environment) (s : Service) : Prop where
  tracks : Tracks env identity s
  attributed : Attributed s
  alone : ∀ binding, s.pushing = some binding → s.boot = none ∨ principalOf binding = none
  adopted : s.pushing = none → ∀ binding, s.adopted = some binding → s.binding = binding

theorem followed_watcher {env : Environment} {s : Service} (h : Followed env s) (holder : Holder)
    (m : Move) : Followed env (s.next env (.watcher holder m)) := by
  have hwatched := watched_next env s holder m
  have htracks := tracks_watcher h.tracks holder m
  have hboot : s.boot = none → (s.next env (.watcher holder m)).boot = none :=
    @watcher_next_none env s holder .boot m
  refine ⟨htracks,⟨?_,?_⟩,?_,?_⟩
  · exact h.attributed.1.imp hboot (@watcher_next_none env s holder .registry m)
  · intro x hx binding hbinding
    rcases watcher_cases env s holder m with hsame | ⟨w,hw,hnext⟩
    · rw [hsame] at hx
      exact h.attributed.2 x hx binding hbinding
    · rw [hnext] at hx
      rcases Service.mem_submissions_record.mp hx with hold | ⟨headers,hposted,-,hadopted⟩
      · exact h.attributed.2 x (by cases holder <;> exact hold) binding hbinding
      · obtain ⟨name,rest,hphase⟩ := posted_of_step hposted
        have hidle : s.pushing = none ∧ s.adopted = some binding := by
          have hlast : (if s.pushing = none then s.adopted else none) = some binding := by
            rw [← hbinding,hadopted]
            cases holder <;> rfl
          split_ifs at hlast with hpushing
          exact ⟨hpushing,hlast⟩
        have hsettled := (h.tracks.follows hidle.1).2 holder w x.event.binding hw
          (by simp [hphase,Phase.binding])
        rw [hsettled,h.adopted hidle.1 binding hidle.2]
  · intro binding hpushing
    rw [hwatched.pushing] at hpushing
    exact (h.alone binding hpushing).imp_left hboot
  · intro hpushing binding hadopted
    rw [hwatched.pushing] at hpushing
    rw [hwatched.adopted] at hadopted
    rw [hwatched.binding]
    exact h.adopted hpushing binding hadopted

theorem followed_push {env : Environment} {s : Service} (h : Followed env s) {secret : Option String}
    {payload : Option Json} (hfollows : Follows env s (.push secret payload)) :
    Followed env (s.next env (.push secret payload)) := by
  have htracks := tracks_push h.tracks hfollows.1
  rcases push_cases env s secret payload with hsame | ⟨hpushing,-,binding,hpush,hnext⟩
  · rwa [hsame]
  · rw [hnext] at htracks ⊢
    refine ⟨htracks,h.attributed,?_,fun hnone => nomatch hnone⟩
    intro binding' hbinding'
    cases hbinding'
    exact hfollows.2 _ hpush hpushing

theorem followed_listen {env : Environment} {s : Service} (h : Followed env s)
    (hfollows : Follows env s .listen) : Followed env (s.next env .listen) := by
  have htracks := tracks_listen h.tracks hfollows.1
  cases hpushing : s.pushing with
  | none => simpa [Service.next,hpushing] using h
  | some binding =>
    have hnext : s.next env .listen = s.listen env binding := by simp [Service.next,hpushing]
    rw [hnext] at htracks ⊢
    have hnone : (s.listen env binding).pushing = none := rfl
    refine ⟨htracks,⟨?_,h.attributed.2⟩,by simp [hnone],?_⟩
    · rcases h.alone binding hpushing with hboot | hprincipal
      · exact Or.inl hboot
      · apply h.attributed.1.imp_right
        intro hregistry
        simp [Service.listen,onBinding,hprincipal,Except.toOption,hregistry]
    · intro _ b hb
      cases hb
      exact (h.tracks.pushed binding hpushing).1

theorem followed_next {env : Environment} (s : Service) (e : Event) (h : Followed env s)
    (hfollows : Follows env s e) : Followed env (s.next env e) := by
  have htracks := tracks_next h.tracks hfollows.1
  cases e with
  | watcher holder m => exact followed_watcher h holder m
  | push secret payload => exact followed_push h hfollows
  | listen => exact followed_listen h hfollows
  | start => exact ⟨htracks,h.attributed,h.alone,h.adopted⟩
  | stop => exact ⟨htracks,h.attributed,h.alone,h.adopted⟩
  | browser m =>
    by_cases hrunning : s.running = true
    · simp only [Service.next,hrunning,if_true] at htracks ⊢
      exact ⟨htracks,h.attributed,h.alone,h.adopted⟩
    · simpa [Service.next,hrunning] using h

/-- In a run whose pushes reach the one watcher there is, every state is attributed. -/
theorem attribution_follows (env : Environment) (dir : Directory Node) (s : Service)
    (h : runBrowserService env dir = some s) (es : List Event)
    (hfollows : Runs.Each (Service.next env) (Follows env) s es) :
    Runs.Always (Service.next env) Attributed s es := by
  have hstart : Followed env s := by
    have htracks : Tracks env identity s := tracks_start h
    obtain ⟨boot,-,rfl⟩ := runBrowserService_some h
    exact ⟨htracks,⟨Or.inr rfl,by simp⟩,by simp,by simp⟩
  exact (Runs.always_of_each hstart followed_next hfollows).mono fun s hs => hs.attributed

/-- A service of a slot: its browser is started once a binding was pushed. -/
def deferred : Environment where
  autostart := some "0"
  routerSharedSecret := some "router-secret"
  downloadDir := some "/data/downloads"
  ingestUrl := some "http://ingest:8080"
  ingestSecret := some "0123456789abcdef"

/-- The same with alice's binding in its environment, and its browser started at once. -/
def eager : Environment :=
  { deferred with
    autostart := some "1"
    principalId := some "alice"
    profileId := some "profile-a"
    browserId := some "browser-1"
    generation := some "generation-a" }

def pushOf (binding : BrowserBinding) : List Event :=
  [.push (some "router-secret") (some (.obj [("principal_id",.str binding.principalId),
      ("profile_id",.str binding.profileId),("browser_id",.str binding.browserId),
      ("generation",.str binding.generation)])),.listen]

def alice : BrowserBinding := ⟨"profile-a","alice","browser-1","generation-a"⟩

def bob : BrowserBinding := ⟨"profile-b","bob","browser-1","generation-b"⟩

def nothing : Directory Node := ⟨.empty,fun _ => .directory,0⟩

/-- The watcher of a holder takes the only file there is up to its submission. -/
def emits (holder : Holder) : List Event :=
  [.watcher holder .scan,.watcher holder .look,.watcher holder .look,.watcher holder (.bind "1"),
    .watcher holder .openFile,.watcher holder .fstat]

def deferredStart : Service := { dir := nothing, running := false, binding := deferred.binding, boot := none }

theorem attribution_follows_alice : Runs.Always (Service.next deferred) Attributed deferredStart
    (pushOf alice ++ [.start,.browser (.create "report" (.file [1]))] ++ emits .registry) :=
  attribution_follows deferred nothing deferredStart rfl _ (by decide +kernel)

theorem eager_starts : (runBrowserService eager nothing).isSome = true := by decide +kernel

/-- After the first push there are two watchers, and the first of them keeps the binding of the
environment. -/
theorem eager_watcher_stays : ¬∀ (env : Environment) (dir : Directory Node) (s : Service),
    runBrowserService env dir = some s → ∀ es, Runs.Always (Service.next env) Attributed s es := by
  intro h
  have hlast := (h eager nothing ((runBrowserService eager nothing).get eager_starts) (by simp)
    ([.stop] ++ pushOf bob ++ [.start,.browser (.create "report" (.file [1]))] ++ emits .boot)).last
  exact absurd hlast (by decide +kernel)

end Downloads
end CloudBrowser
