import CloudBrowser.WatcherAttribution

/-! Whom the files go to that are in the download directory when the browser gets another owner. -/
namespace CloudBrowser
namespace Downloads

open CloudFiles
open Directories

def owner (binding : BrowserBinding) : String := binding.principalId

/-- A file that was completed under an owner is submitted for that owner only. -/
def OwnerKept (s : Service) : Prop :=
  ∀ x ∈ s.submissions, ∀ a, x.owner = some a → owner (attribution x.event.binding) = a

/-- A push that changes the owner reaches the watchers and finds no file in the directory that was
completed under another one; and the browser is not started before the push returns. -/
def LeavesNone (env : Environment) (s : Service) (e : Event) : Prop :=
  Reaches env owner s e ∧
    match e with
    | .push secret payload => ∀ s' ∈ (s.handleBindingPush env secret payload).toOption,
        s.pushing = none → owner s'.binding ≠ owner s.binding → ∀ x ∈ s.dir.entries.rows,
          ∀ a ∈ s.owners x.inode, a = owner s'.binding
    | .start => s.pushing = none
    | _ => True

instance (env : Environment) (s : Service) : (e : Event) → Decidable (LeavesNone env s e)
  | .push secret payload => inferInstanceAs (Decidable (Reaches env owner s (.push secret payload) ∧
      ∀ s' ∈ (s.handleBindingPush env secret payload).toOption,
        s.pushing = none → owner s'.binding ≠ owner s.binding → ∀ x ∈ s.dir.entries.rows,
          ∀ a ∈ s.owners x.inode, a = owner s'.binding))
  | .start => inferInstanceAs (Decidable (Reaches env owner s .start ∧ s.pushing = none))
  | .browser m => inferInstanceAs (Decidable (Reaches env owner s (.browser m) ∧ True))
  | .watcher holder m => inferInstanceAs (Decidable (Reaches env owner s (.watcher holder m) ∧ True))
  | .stop => inferInstanceAs (Decidable (Reaches env owner s .stop ∧ True))
  | .listen => inferInstanceAs (Decidable (Reaches env owner s .listen ∧ True))

instance (s : Service) : Decidable (OwnerKept s) :=
  decidable_of_iff (∀ x ∈ s.submissions, ∀ a ∈ x.owner, owner (attribution x.event.binding) = a)
    Iff.rfl

/-- The owner that a file gets from a move of the browser is the one it is bound to. -/
theorem completing_some {a b : String} {d : Directory Node} {owners : ℕ → Option String}
    {m : BrowserMove} {inode : ℕ} (h : completing a d owners m inode = some b) :
    b = a ∨ owners inode = some b := by
  cases m with
  | create name n =>
    by_cases hfresh : inode = d.fresh
    · left
      simp only [completing,hfresh,Function.update_self] at h
      split_ifs at h
      exact (Option.some.inj h).symm
    · right
      simpa [completing,Function.update_of_ne hfresh] using h
  | rename source target =>
    cases hsource : d.lookup source with
    | none =>
      right
      simpa [completing,hsource] using h
    | some inode' =>
      simp only [completing,hsource] at h
      split_ifs at h
      · exact Or.inr h
      · by_cases hsame : inode = inode'
        · left
          rw [hsame,Function.update_self] at h
          exact (Option.some.inj h).symm
        · right
          rwa [Function.update_of_ne hsame] at h
  | write inode' content => exact Or.inr h
  | remove name => exact Or.inr h

/-- What the browser leaves in the directory under an owner was there, or is its own. -/
theorem completing_lookup {a b : String} {d : Directory Node} {owners : ℕ → Option String}
    {m : BrowserMove} {name : String} {inode : ℕ} (hlookup : (m.apply d).lookup name = some inode)
    (h : completing a d owners m inode = some b) :
    b = a ∨ owners inode = some b ∧ ∃ name', d.lookup name' = some inode := by
  rcases completing_some h with hnew | hold
  · exact Or.inl hnew
  · cases m with
    | create name' n =>
      by_cases hname : name = name'
      · have hfresh : d.fresh = inode := by
          rw [hname,BrowserMove.apply,Directory.lookup_create_self] at hlookup
          exact Option.some.inj hlookup
        left
        simp only [completing,← hfresh,Function.update_self] at h
        split_ifs at h
        exact (Option.some.inj h).symm
      · rw [BrowserMove.apply,Directory.lookup_create_of_ne hname] at hlookup
        exact Or.inr ⟨hold,name,hlookup⟩
    | rename source target =>
      have hrename := d.lookup_rename name source target
      simp only [BrowserMove.apply] at hlookup
      rw [hlookup] at hrename
      rcases hrename with hsame | hnone | ⟨-,hsource⟩
      · exact Or.inr ⟨hold,name,hsame.symm⟩
      · cases hnone
      · exact Or.inr ⟨hold,source,hsource.symm⟩
    | write inode' content =>
      simp only [BrowserMove.apply] at hlookup
      split at hlookup <;> exact Or.inr ⟨hold,name,hlookup⟩
    | remove name' =>
      rcases d.lookup_unlink name' name with hnone | hsame
      · simp [BrowserMove.apply,hnone] at hlookup
      · rw [BrowserMove.apply,hsame] at hlookup
        exact Or.inr ⟨hold,name,hlookup⟩

/-- Where a file in the directory has an owner, it is that of the service, and the watchers go by
it; and the files that are open have the owner of the binding that was read for them. -/
structure Owned (env : Environment) (s : Service) : Prop where
  tracks : Tracks env owner s
  stopped : s.pushing ≠ none → s.running = false
  entries : ∀ name inode a, s.dir.lookup name = some inode → s.owners inode = some a →
    a = owner s.binding ∧ ∀ holder w, s.watcher holder = some w →
      owner (attribution w.config.binding) = a ∧
        ∀ binding, w.phase.binding = some binding → owner (attribution binding) = a
  opened : ∀ holder w name binding inode rest a, s.watcher holder = some w →
    w.phase = .opened name binding inode rest → s.owners inode = some a →
      owner (attribution binding) = a
  kept : OwnerKept s

variable {env : Environment} {s : Service}

theorem owned_watcher (h : Owned env s) (holder : Holder) (m : Move) :
    Owned env (s.next env (.watcher holder m)) := by
  have hwatched := watched_next env s holder m
  have htracks := tracks_watcher h.tracks holder m
  have hlookup : ∀ name inode, (s.next env (.watcher holder m)).dir.lookup name = some inode →
      s.dir.lookup name = some inode := by
    intro name inode hnext
    rcases watcher_cases env s holder m with hsame | ⟨w,hw,hstep⟩
    · rwa [hsame] at hnext
    · rw [hstep,Service.dir_record] at hnext
      exact lookup_of_step hnext
  refine ⟨htracks,?_,?_,?_,?_⟩
  · rw [hwatched.pushing,hwatched.running]
    exact h.stopped
  · intro name inode a hinode howner
    rw [hwatched.owners] at howner
    obtain ⟨howns,hfollow⟩ := h.entries name inode a (hlookup name inode hinode) howner
    rw [hwatched.binding]
    refine ⟨howns,?_⟩
    intro holder' w' hw'
    obtain ⟨w,hw,hstep⟩ := watcher_next hw'
    obtain ⟨hconfig,hheld⟩ := hfollow holder' w hw
    rcases hstep with rfl | rfl
    · exact ⟨hconfig,hheld⟩
    · rw [config_step]
      refine ⟨hconfig,?_⟩
      intro binding hbinding
      rcases binding_of_step hbinding with hold | hread
      · exact hheld binding hold
      · rw [hread]
        exact hconfig
  · intro holder' w' name binding inode rest a hw' hphase howner
    rw [hwatched.owners] at howner
    obtain ⟨w,hw,hstep⟩ := watcher_next hw'
    rcases hstep with rfl | rfl
    · exact h.opened holder' w' name binding inode rest a hw hphase howner
    · rcases opened_of_step hphase with hold | ⟨hbound,hinode⟩
      · exact h.opened holder' w name binding inode rest a hw hold howner
      · exact ((h.entries name inode a hinode howner).2 holder' w hw).2 binding
          (by simp [hbound,Phase.binding])
  · intro x hx a ha
    rcases watcher_cases env s holder m with hsame | ⟨w,hw,hnext⟩
    · rw [hsame] at hx
      exact h.kept x hx a ha
    · rw [hnext] at hx
      rcases Service.mem_submissions_record.mp hx with hold | ⟨headers,hposted,howner,-⟩
      · exact h.kept x (by cases holder <;> exact hold) a ha
      · obtain ⟨name,rest,hphase⟩ := posted_of_step hposted
        have htagged : s.owners x.event.source = some a := by
          rw [← ha,howner]
          cases holder <;> rfl
        exact h.opened holder w name x.event.binding x.event.source rest a hw hphase htagged

theorem owned_browser (h : Owned env s) (m : BrowserMove) :
    Owned env (s.next env (.browser m)) := by
  by_cases hrunning : s.running = true
  · have hpushing : s.pushing = none := by
      by_contra hpushing
      simp [h.stopped hpushing] at hrunning
    obtain ⟨hconfigured,hsettled⟩ := h.tracks.follows hpushing
    have htracks := tracks_next (e:=.browser m) h.tracks trivial
    simp only [Service.next,hrunning,if_true] at htracks ⊢
    refine ⟨htracks,fun hnone => absurd hpushing hnone,?_,?_,h.kept⟩
    · intro name inode a hinode howner
      rcases completing_lookup hinode howner with hnew | ⟨hold,name',hthere⟩
      · refine ⟨hnew,?_⟩
        rw [hnew]
        exact fun holder w hw => ⟨hconfigured holder w hw,fun b hb => hsettled holder w b hw hb⟩
      · exact h.entries name' inode a hthere hold
    · intro holder w name binding inode rest a hw hphase howner
      rcases completing_some howner with hnew | hold
      · rw [hnew]
        exact hsettled holder w binding hw (by simp [hphase,Phase.binding])
      · exact h.opened holder w name binding inode rest a hw hphase hold
  · simpa [Service.next,hrunning] using h

theorem owned_push (h : Owned env s) {secret : Option String} {payload : Option Json}
    (hleaves : LeavesNone env s (.push secret payload)) :
    Owned env (s.next env (.push secret payload)) := by
  have htracks := tracks_push h.tracks hleaves.1
  rcases push_cases env s secret payload with
    hsame | ⟨hpushing,hrunning,binding,hpush,hnext⟩
  · rwa [hsame]
  · rw [hnext] at htracks ⊢
    refine ⟨htracks,fun _ => hrunning,?_,h.opened,h.kept⟩
    intro name inode a hinode howner
    obtain ⟨howns,hfollow⟩ := h.entries name inode a hinode howner
    refine ⟨?_,hfollow⟩
    by_cases hsame : owner binding = owner s.binding
    · rw [howns]
      exact hsame.symm
    · exact hleaves.2 _ hpush hpushing hsame _ (Directory.mem_of_lookup hinode) a howner

theorem owned_listen (h : Owned env s) (hleaves : LeavesNone env s .listen) :
    Owned env (s.next env .listen) := by
  have htracks := tracks_listen h.tracks hleaves.1
  cases hpushing : s.pushing with
  | none => simpa [Service.next,hpushing] using h
  | some binding =>
    have hnext : s.next env .listen = s.listen env binding := by simp [Service.next,hpushing]
    rw [hnext] at htracks ⊢
    obtain ⟨hconfigured,hsettled⟩ := htracks.follows rfl
    refine ⟨htracks,fun hnone => absurd rfl hnone,?_,?_,h.kept⟩
    · intro name inode a hinode howner
      have howns := (h.entries name inode a hinode howner).1
      refine ⟨howns,?_⟩
      rw [howns]
      exact fun holder w hw => ⟨hconfigured holder w hw,fun b hb => hsettled holder w b hw hb⟩
    · intro holder w name held inode rest a hw hphase howner
      rcases phase_listen hw with hidle | ⟨w',hold,hsame⟩
      · rw [hidle] at hphase
        cases hphase
      · rw [hsame] at hphase
        exact h.opened holder w' name held inode rest a hold hphase howner

theorem owned_next (s : Service) (e : Event) (h : Owned env s) (hleaves : LeavesNone env s e) :
    Owned env (s.next env e) := by
  cases e with
  | watcher holder m => exact owned_watcher h holder m
  | browser m => exact owned_browser h m
  | push secret payload => exact owned_push h hleaves
  | listen => exact owned_listen h hleaves
  | start =>
    have hpushing : s.pushing = none := hleaves.2
    have htracks := tracks_next h.tracks hleaves.1
    exact ⟨htracks,fun hnone => absurd hpushing hnone,h.entries,h.opened,h.kept⟩
  | stop =>
    have htracks := tracks_next h.tracks hleaves.1
    exact ⟨htracks,fun _ => rfl,h.entries,h.opened,h.kept⟩

/-- In a run that takes a new owner only where the directory has no file of another one, every
file is submitted for its owner. -/
theorem leftovers_keep_owner (env : Environment) (dir : Directory Node) (s : Service)
    (h : runBrowserService env dir = some s) (es : List Event)
    (hleaves : Runs.Each (Service.next env) (LeavesNone env) s es) :
    Runs.Always (Service.next env) OwnerKept s es := by
  have hstart : Owned env s := by
    have htracks : Tracks env owner s := tracks_start h
    obtain ⟨boot,-,rfl⟩ := runBrowserService_some h
    exact ⟨htracks,by simp,by simp,by simp,by simp [OwnerKept]⟩
  exact (Runs.always_of_each hstart owned_next hleaves).mono fun s hs => hs.kept

theorem leftovers_keep_owner_alice : Runs.Always (Service.next deferred) OwnerKept deferredStart
    (pushOf alice ++ [.start,.browser (.create "report" (.file [1]))] ++ emits .registry ++
      [.watcher .registry (.read 0),.watcher .registry (.read 0),.watcher .registry .respond,
        .watcher .registry .unlink,.stop] ++ pushOf bob) :=
  leftovers_keep_owner deferred nothing deferredStart rfl _ (by decide +kernel)

/-- A file that is completed under alice and not yet scanned when bob's binding is pushed goes to
bob. -/
theorem leftover_goes_to_bob : ¬∀ (env : Environment) (dir : Directory Node) (s : Service),
    runBrowserService env dir = some s → ∀ es, Runs.Always (Service.next env) OwnerKept s es := by
  intro h
  have hlast := (h deferred nothing deferredStart rfl
    (pushOf alice ++ [.start,.browser (.create "report" (.file [1])),.stop] ++ pushOf bob ++
      emits .registry)).last
  exact absurd hlast (by decide +kernel)

end Downloads
end CloudBrowser
