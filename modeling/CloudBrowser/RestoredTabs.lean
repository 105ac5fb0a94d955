import Mathlib.Data.List.Nodup
import CloudBrowser.BindingPush
import CloudBrowser.Logged

/-! The tabs that a wake restores. The supervisor is observed: each snapshot that a suspend gets
onto the disk is logged with the pages it was taken of, and each page that a wake opens. -/
namespace CloudBrowser
namespace RestoredTabs

open Stateful SlotSupervisor BindingPush
open AgentControl (SplitResult)

/-! ### Normalized URLs -/

section Normalized

variable {urlsplit : String → Except Unit SplitResult} {limit : ℕ} {result urls tabs : List String}

theorem normalizeFrom_subset (h : normalizeFrom urlsplit limit result urls = .ok tabs) :
    ∀ url ∈ tabs, url ∈ result ∨ url ∈ urls := by
  induction urls generalizing result with
  | nil =>
    cases h
    intro url hurl
    exact .inl hurl
  | cons url urls ih =>
    have hlonger : ∀ u, u ∈ result ++ [url] → u ∈ result ∨ u ∈ url::urls := by
      intro u hu
      simp only [List.mem_append,List.mem_cons] at hu ⊢
      tauto
    rw [normalizeFrom] at h
    obtain ⟨page,-,h⟩ := bind_ok h
    intro u hu
    split_ifs at h with hskip hfull
    · have hrest := ih h u hu
      simp only [List.mem_cons]
      tauto
    · cases h
      exact hlonger u hu
    · rcases ih h u hu with hrest | hrest
      · exact hlonger u hrest
      · exact .inr (List.mem_cons_of_mem _ hrest)

theorem nodup_snoc {url : String} (h : result.Nodup) (hfresh : url ∉ result) : (result ++ [url]).Nodup := by
  rw [← List.concat_eq_append,List.nodup_concat]
  exact ⟨hfresh,h⟩

/-- What `normalize_urls` returns has no URL twice, and not too many. -/
theorem normalizeFrom_distinct (hresult : result.Nodup) (hlimit : result.length < limit)
    (h : normalizeFrom urlsplit limit result urls = .ok tabs) : tabs.Nodup ∧ tabs.length ≤ limit := by
  induction urls generalizing result with
  | nil =>
    cases h
    exact ⟨hresult,hlimit.le⟩
  | cons url urls ih =>
    rw [normalizeFrom] at h
    obtain ⟨page,-,h⟩ := bind_ok h
    split_ifs at h with hskip hfull
    · exact ih hresult hlimit h
    · cases h
      simp only [Bool.or_eq_true,Bool.not_eq_true',List.contains_eq_mem,decide_eq_true_eq,not_or] at hskip
      exact ⟨nodup_snoc hresult hskip.2,hfull.le⟩
    · simp only [Bool.or_eq_true,Bool.not_eq_true',List.contains_eq_mem,decide_eq_true_eq,not_or] at hskip
      have hlength : (result ++ [url]).length < limit := by
        simp only [List.length_append,List.length_singleton] at hfull ⊢
        omega
      exact ih (nodup_snoc hresult hskip.2) hlength h

/-- Distinct page URLs within the limit are all kept. -/
theorem normalizeFrom_keeps (hpages : ∀ url ∈ urls, isPageUrl urlsplit url = .ok true)
    (hdistinct : (result ++ urls).Nodup) (hlength : (result ++ urls).length ≤ limit) :
    normalizeFrom urlsplit limit result urls = .ok (result ++ urls) := by
  induction urls generalizing result with
  | nil => simp [normalizeFrom]
  | cons url urls ih =>
    have hfresh : url ∉ result := by
      intro hmem
      rw [List.nodup_append] at hdistinct
      exact hdistinct.2.2 url hmem url List.mem_cons_self rfl
    have hsame : result ++ url::urls = (result ++ [url]) ++ urls := by simp
    rw [hsame] at hdistinct hlength ⊢
    rw [normalizeFrom,hpages url List.mem_cons_self]
    simp only [bind,Except.bind,Bool.not_true,Bool.false_or,List.contains_eq_mem,hfresh,decide_false,
      Bool.false_eq_true,if_false]
    split_ifs with hfull
    · have hnone : urls = [] := by
        rw [List.length_append,hfull] at hlength
        exact List.length_eq_zero_iff.mp (by omega)
      rw [hnone,List.append_nil]
      rfl
    · exact ih (fun u hu => hpages u (List.mem_cons_of_mem _ hu)) hdistinct hlength

/-- `normalize_urls` changes nothing of what it has returned. -/
theorem normalizeUrls_again (h : normalizeUrls urlsplit urls = .ok tabs) :
    normalizeUrls urlsplit tabs = .ok tabs := by
  obtain ⟨hdistinct,hlength⟩ := normalizeFrom_distinct List.nodup_nil (by simp) h
  have hpages := normalizeFrom_pages (by simp) h
  exact @normalizeFrom_keeps urlsplit 10 [] tabs hpages hdistinct hlength

theorem normalizeUrls_subset (h : normalizeUrls urlsplit urls = .ok tabs) : ∀ url ∈ tabs, url ∈ urls := by
  intro url hurl
  simpa using normalizeFrom_subset h url hurl

end Normalized

/-! ### The observed supervisor -/

/-- An entry of the log: a snapshot of the listed pages is in a file, or `open_page` is called. -/
inductive Entry
  | recorded (binding : BrowserBinding) (listed : List String) (captured : LifecycleSnapshot)
  | opened (binding : BrowserBinding) (url : String)
  deriving DecidableEq

abbrev Observed := Op SlotError (Logged Slot Entry)

section Operations

variable (urlsplit : String → Except Unit SplitResult) (a : Answers) (binding : BrowserBinding)

/-- A write of a snapshot is logged where it takes effect. -/
def recording (entry : Entry) (reply : Reply) (put : OwnerBoundLifecycle → OwnerBoundLifecycle) :
    Observed Unit := do
  if reply.effective then note entry
  silently (writeSnapshot reply put)

def recordTabs (urls : List String) : Observed LifecycleSnapshot := do
  let captured ← silently (inspect fun s => s.lifecycle.captureTabs urlsplit binding urls)
  recording (.recorded binding urls captured) a.snapshotWrite ({ · with snapshotFile := some captured })
  recording (.recorded binding urls captured) a.lastGoodWrite ({ · with lastGoodFile := some captured })
  return captured

def suspend : Observed OrchestrationResult := do
  silently (requireTransportOwner a binding)
  let urls ← check a.listing
  let captured ← recordTabs urlsplit a binding urls
  silently (command a.stop Browser.stopped)
  silently (onLifecycle (·.suspend binding))
  return ⟨"suspended",(← silently get).lifecycle.state,captured.urls⟩

def openPages (n : ℕ) : List String → Observed Unit
  | [] => return ()
  | url::urls => do
    note (.opened binding url)
    silently (openPage urlsplit (a.opens n) url)
    openPages (n+1) urls

def bringUp : Observed OrchestrationResult := do
  silently (command a.start (·.started a.fresh))
  silently (inspect fun s => waitReady s.transport s.browser binding a.probe a.probes)
  silently (onLifecycle (·.markReady binding))
  let urls ← silently (inspect fun s => s.lifecycle.loadTabs urlsplit binding)
  openPages urlsplit a binding 0 urls
  silently (command a.closeEmpty Browser.emptyClosed)
  return ⟨"ready",(← silently get).lifecycle.state,urls⟩

def wake (timeoutS : ℚ := 30) (pollS : ℚ := 1/10) : Observed OrchestrationResult := do
  check (requirePositiveTimeout timeoutS pollS)
  let s ← silently get
  if s.lifecycle.state = .ready ∧ s.lifecycle.binding = binding then
    silently (inspect fun s => waitReady s.transport s.browser binding a.probe a.probes)
    let urls ← silently (inspect fun s => s.lifecycle.loadTabs urlsplit binding)
    return ⟨"ready",(← silently get).lifecycle.state,urls⟩
  else
    silently (onLifecycle (·.start binding))
    tryCatch (bringUp urlsplit a binding) fun e => do
      silently (safeStop a binding)
      throw e

def recreate (timeoutS : ℚ := 30) (pollS : ℚ := 1/10) : Observed OrchestrationResult := do
  let _ ← silently (stop a binding)
  wake urlsplit a binding timeoutS pollS

end Operations

section Unobserved

variable {urlsplit : String → Except Unit SplitResult} {a : Answers} {binding : BrowserBinding}

theorem recording_projects (entry : Entry) (reply : Reply)
    (put : OwnerBoundLifecycle → OwnerBoundLifecycle) :
    Projects Logged.state (recording entry reply put) (writeSnapshot reply put) := by
  by_cases h : reply.effective = true
  · simp only [recording,h,if_true]
    exact Projects.note_bind (Projects.silently _)
  · simp only [recording,h]
    exact Projects.silently _

theorem recordTabs_projects (urls : List String) : Projects Logged.state
    (recordTabs urlsplit a binding urls) (SlotSupervisor.recordTabs urlsplit a binding urls) :=
  (Projects.silently _).bind fun _ => (recording_projects _ _ _).bind fun _ =>
    (recording_projects _ _ _).bind fun _ => Projects.pure _

theorem suspend_projects : Projects Logged.state (suspend urlsplit a binding)
    (SlotSupervisor.suspend urlsplit a binding) :=
  (Projects.silently _).bind fun _ => (Projects.check _).bind fun urls =>
    (recordTabs_projects urls).bind fun _ => (Projects.silently _).bind fun _ =>
      (Projects.silently _).bind fun _ => (Projects.silently _).bind fun _ => Projects.pure _

theorem openPages_projects (n : ℕ) (urls : List String) : Projects Logged.state
    (openPages urlsplit a binding n urls) (SlotSupervisor.openPages urlsplit a n urls) := by
  induction urls generalizing n with
  | nil => exact Projects.pure _
  | cons url urls ih =>
    exact Projects.note_bind ((Projects.silently _).bind fun _ => ih (n+1))

theorem bringUp_projects : Projects Logged.state (bringUp urlsplit a binding)
    (SlotSupervisor.bringUp urlsplit a binding) :=
  (Projects.silently _).bind fun _ => (Projects.silently _).bind fun _ =>
    (Projects.silently _).bind fun _ => (Projects.silently _).bind fun urls =>
      (openPages_projects 0 urls).bind fun _ => (Projects.silently _).bind fun _ =>
        (Projects.silently _).bind fun _ => Projects.pure _

theorem wake_projects (timeoutS pollS : ℚ) : Projects Logged.state
    (wake urlsplit a binding timeoutS pollS) (SlotSupervisor.wake urlsplit a binding timeoutS pollS) := by
  apply (Projects.check _).bind
  intro _
  apply (Projects.silently _).bind
  intro s
  apply Projects.ite
  · exact (Projects.silently _).bind fun _ => (Projects.silently _).bind fun _ =>
      (Projects.silently _).bind fun _ => Projects.pure _
  · apply (Projects.silently _).bind
    intro _
    apply bringUp_projects.tryCatch
    exact fun e => (Projects.silently _).bind fun _ => Projects.throw e

theorem recreate_projects (timeoutS pollS : ℚ) : Projects Logged.state
    (recreate urlsplit a binding timeoutS pollS)
    (SlotSupervisor.recreate urlsplit a binding timeoutS pollS) :=
  (Projects.silently _).bind fun _ => wake_projects timeoutS pollS

end Unobserved

/-! ### What the log says of the files -/

/-- The snapshots that got onto the disk, in their order. -/
def captures (log : List Entry) : List LifecycleSnapshot :=
  log.filterMap fun
    | .recorded _ _ captured => some captured
    | .opened _ _ => none

@[simp] theorem captures_append (log log' : List Entry) :
    captures (log ++ log') = captures log ++ captures log' :=
  List.filterMap_append

@[simp] theorem captures_recorded (binding : BrowserBinding) (listed : List String)
    (captured : LifecycleSnapshot) : captures [.recorded binding listed captured] = [captured] := rfl

@[simp] theorem captures_opened (binding : BrowserBinding) (urls : List String) :
    captures (urls.map (.opened binding)) = [] := by
  induction urls with
  | nil => rfl
  | cons url urls ih => simp [captures]

/-- A snapshot is recorded under the binding of its suspend, with the normalized URLs of the pages
listed; a page is opened under a binding that has recorded it. -/
def Owned (urlsplit : String → Except Unit SplitResult) (log : List Entry) : Entry → Prop
  | .recorded binding listed captured =>
    captured.toBrowserBinding = binding ∧ normalizeUrls urlsplit listed = .ok captured.urls
  | .opened binding url =>
    ∃ listed captured, .recorded binding listed captured ∈ log ∧ url ∈ captured.urls

/-- The entries of the log are owned, the snapshot file holds the last snapshot that was recorded,
and the other file one of them. -/
structure Kept (urlsplit : String → Except Unit SplitResult) (l : Logged Slot Entry) : Prop where
  owned : Justified (Owned urlsplit) l.log
  latest : l.state.lifecycle.snapshotFile = (captures l.log).getLast?
  former : ∀ captured, l.state.lifecycle.lastGoodFile = some captured → captured ∈ captures l.log

section Kept

variable {urlsplit : String → Except Unit SplitResult} {a : Answers} {binding : BrowserBinding}
  {l : Logged Slot Entry}

/-- The two files of a slot. -/
def files (s : Slot) : Option LifecycleSnapshot × Option LifecycleSnapshot :=
  (s.lifecycle.snapshotFile,s.lifecycle.lastGoodFile)

theorem Kept.files {s : Slot} (h : Kept urlsplit l) (hfiles : files s = files l.state) :
    Kept urlsplit ⟨s,l.log⟩ := by
  simp only [RestoredTabs.files,Prod.mk.injEq] at hfiles
  refine ⟨h.owned,hfiles.1.trans h.latest,?_⟩
  intro captured hcaptured
  exact h.former captured (hfiles.2.symm.trans hcaptured)

theorem keeps_silently {α : Type} {m : Operation α} (hm : ∀ s, files (exec m s).2 = files s) :
    Keeps (Kept urlsplit) (silently m) := by
  intro l hl
  rw [exec_silently]
  exact hl.files (hm l.state)

theorem exec_recording (entry : Entry) (reply : Reply)
    (put : OwnerBoundLifecycle → OwnerBoundLifecycle) (l : Logged Slot Entry) :
    exec (recording entry reply put) l = (reply.outcome,
      ⟨{ l.state with lifecycle := reply.on put l.state.lifecycle },
        if reply.effective then l.log ++ [entry] else l.log⟩) := by
  by_cases h : reply.effective = true
  · simp [recording,h,exec_bind,exec_note,exec_silently]
  · simp [recording,h,exec_silently]

theorem mem_captures {captured : LifecycleSnapshot} {log : List Entry} (h : captured ∈ captures log) :
    ∃ binding listed, .recorded binding listed captured ∈ log := by
  obtain ⟨entry,hentry,heq⟩ := List.mem_filterMap.mp h
  cases entry with
  | recorded binding listed captured' =>
    cases heq
    exact ⟨binding,listed,hentry⟩
  | opened binding url => cases heq

section Writes

variable {urls : List String} {captured : LifecycleSnapshot} (hbinding : captured.toBrowserBinding = binding)
  (htabs : normalizeUrls urlsplit urls = .ok captured.urls)

include hbinding htabs

theorem Kept.snapshotFile (h : Kept urlsplit l) :
    Kept urlsplit ⟨{ l.state with lifecycle := { l.state.lifecycle with snapshotFile := some captured } },
      l.log ++ [.recorded binding urls captured]⟩ := by
  refine ⟨justified_snoc.mpr ⟨h.owned,hbinding,htabs⟩,by simp,?_⟩
  intro captured' hcaptured'
  have hmem := h.former captured' hcaptured'
  simp [hmem]

theorem Kept.lastGoodFile (h : Kept urlsplit l) (hsame : l.state.lifecycle.snapshotFile = some captured) :
    Kept urlsplit ⟨{ l.state with lifecycle := { l.state.lifecycle with lastGoodFile := some captured } },
      l.log ++ [.recorded binding urls captured]⟩ := by
  refine ⟨justified_snoc.mpr ⟨h.owned,hbinding,htabs⟩,?_,?_⟩
  · simpa using hsame
  · rintro captured' ⟨⟩
    simp

/-- The first write; where it is acknowledged, the snapshot is in its file. -/
theorem recording_first : Triple (Kept urlsplit)
    (recording (.recorded binding urls captured) a.snapshotWrite ({ · with snapshotFile := some captured }))
    (Ensures (Kept urlsplit) fun _ l => l.state.lifecycle.snapshotFile = some captured) := by
  intro l hl
  rw [exec_recording]
  have hkept := hl.snapshotFile hbinding htabs
  cases a.snapshotWrite with
  | acknowledged => exact ⟨hkept,rfl⟩
  | failed e effective =>
    cases effective with
    | true => exact hkept
    | false => exact hl

theorem recording_second : Triple
    (fun l => Kept urlsplit l ∧ l.state.lifecycle.snapshotFile = some captured)
    (recording (.recorded binding urls captured) a.lastGoodWrite ({ · with lastGoodFile := some captured }))
    (fun _ => Kept urlsplit) := by
  rintro l ⟨hl,hsame⟩
  rw [exec_recording]
  have hkept := hl.lastGoodFile hbinding htabs hsame
  cases a.lastGoodWrite with
  | acknowledged => exact hkept
  | failed e effective =>
    cases effective with
    | true => exact hkept
    | false => exact hl

end Writes

/-- What `record_tabs` writes is the snapshot of its binding and of the pages listed. -/
theorem captureTabs_owned {lifecycle : OwnerBoundLifecycle} {urls : List String}
    {captured : LifecycleSnapshot} (h : lifecycle.captureTabs urlsplit binding urls = .ok captured) :
    captured.toBrowserBinding = binding ∧ normalizeUrls urlsplit urls = .ok captured.urls := by
  obtain ⟨hbinding,hready⟩ := lifecycle.captureTabs_ok binding h
  rw [OwnerBoundLifecycle.captureTabs,OwnerBoundLifecycle.requireBinding_bind,if_pos hbinding,
    if_pos hready] at h
  obtain ⟨tabs,htabs,h⟩ := bind_ok h
  cases h
  exact ⟨hbinding.symm,htabs⟩

/-- Both writes of a suspend leave the files as the log says. -/
theorem keeps_recordTabs (urls : List String) : Keeps (Kept urlsplit) (recordTabs urlsplit a binding urls) := by
  intro l hl
  rw [recordTabs,exec_bind,exec_silently,exec_inspect]
  cases hcaptured : l.state.lifecycle.captureTabs urlsplit binding urls with
  | error e => exact hl
  | ok captured =>
    obtain ⟨hbinding,htabs⟩ := captureTabs_owned hcaptured
    have hsecond := (recording_second (a:=a) hbinding htabs).bind
      (fun _ => Triple.pure (x:=captured) fun _ h => h) (R:=fun _ => Kept urlsplit) fun _ _ h => h
    exact (recording_first hbinding htabs).bind (fun _ => hsecond) (fun _ _ h => h) l hl

end Kept

/-! ### What a wake opens -/

section Wake

variable {urlsplit : String → Except Unit SplitResult} {a : Answers} {binding : BrowserBinding}
  {l : Logged Slot Entry} {timeoutS pollS : ℚ}

theorem readSnapshot_eq_some {file : Option LifecycleSnapshot} {urls : List String}
    (h : readSnapshot urlsplit binding file = some urls) :
    ∃ captured, file = some captured ∧ captured.toBrowserBinding = binding ∧
      normalizeUrls urlsplit captured.urls = .ok urls := by
  obtain ⟨captured,hfile,h⟩ := Option.bind_eq_some_iff.mp h
  split_ifs at h with hbinding
  cases hurls : normalizeUrls urlsplit captured.urls with
  | error e =>
    rw [hurls] at h
    cases h
  | ok tabs =>
    rw [hurls] at h
    cases h
    exact ⟨captured,hfile,hbinding,hurls⟩

theorem Kept.recorded {captured : LifecycleSnapshot} (h : Kept urlsplit l) (hmem : captured ∈ captures l.log) :
    ∃ listed, .recorded captured.toBrowserBinding listed captured ∈ l.log ∧
      normalizeUrls urlsplit listed = .ok captured.urls := by
  obtain ⟨binding,listed,hentry⟩ := mem_captures hmem
  obtain ⟨pre,post,-,hbinding,htabs⟩ := h.owned.mem hentry
  rw [hbinding]
  exact ⟨listed,hentry,htabs⟩

/-- What would be restored was recorded under the binding that it is restored to. -/
theorem Kept.savedTabs (h : Kept urlsplit l) {url : String}
    (hurl : url ∈ l.state.lifecycle.savedTabs urlsplit) :
    ∃ listed captured, .recorded l.state.lifecycle.binding listed captured ∈ l.log ∧ url ∈ captured.urls := by
  have hread : ∀ file urls, readSnapshot urlsplit l.state.lifecycle.binding file = some urls →
      (∀ captured, file = some captured → captured ∈ captures l.log) → url ∈ urls →
      ∃ listed captured, .recorded l.state.lifecycle.binding listed captured ∈ l.log ∧
        url ∈ captured.urls := by
    intro file urls hread hfile hmem
    obtain ⟨captured,hsome,hbinding,htabs⟩ := readSnapshot_eq_some hread
    obtain ⟨listed,hentry,-⟩ := h.recorded (hfile captured hsome)
    rw [hbinding] at hentry
    exact ⟨listed,captured,hentry,normalizeUrls_subset htabs url hmem⟩
  rw [OwnerBoundLifecycle.savedTabs] at hurl
  cases hfirst : readSnapshot urlsplit l.state.lifecycle.binding l.state.lifecycle.snapshotFile with
  | some urls =>
    rw [hfirst,Option.getD_some] at hurl
    refine hread _ urls hfirst ?_ hurl
    intro captured hcaptured
    rw [h.latest] at hcaptured
    exact List.mem_of_getLast? hcaptured
  | none =>
    rw [hfirst,Option.getD_none] at hurl
    cases hsecond : readSnapshot urlsplit l.state.lifecycle.binding l.state.lifecycle.lastGoodFile with
    | some urls =>
      rw [hsecond,Option.getD_some] at hurl
      exact hread _ urls hsecond h.former hurl
    | none => simp [hsecond] at hurl

/-- Under the binding of the last snapshot, what would be restored is that snapshot. -/
theorem Kept.savedTabs_last (h : Kept urlsplit l) {captured : LifecycleSnapshot}
    (hlast : (captures l.log).getLast? = some captured)
    (hbinding : captured.toBrowserBinding = l.state.lifecycle.binding) :
    l.state.lifecycle.savedTabs urlsplit = captured.urls := by
  obtain ⟨listed,-,htabs⟩ := h.recorded (List.mem_of_getLast? hlast)
  rw [OwnerBoundLifecycle.savedTabs,h.latest,hlast]
  simp [readSnapshot,hbinding,normalizeUrls_again htabs,Except.toOption]

/-- The pages opened are the first ones of the list, and all of them where none fails. -/
theorem openPages_log (n : ℕ) (urls : List String) (l : Logged Slot Entry) : ∃ done, done <+: urls ∧
    (exec (openPages urlsplit a binding n urls) l).2.log = l.log ++ done.map (.opened binding) ∧
    ((exec (openPages urlsplit a binding n urls) l).1 = .ok () → done = urls) := by
  induction urls generalizing n l with
  | nil => exact ⟨[], List.prefix_rfl,by simp [openPages],fun _ => rfl⟩
  | cons url urls ih =>
    simp only [openPages]
    rw [exec_bind,exec_note]
    dsimp only
    rw [exec_bind,exec_silently]
    rcases hopen : exec (openPage urlsplit (a.opens n) url) l.state with ⟨e | _,s⟩
    · exact ⟨[url],by simp,by simp,nofun⟩
    · obtain ⟨done,hinit,hlog,hall⟩ := ih (n+1) ⟨s,l.log ++ [.opened binding url]⟩
      refine ⟨url::done,List.cons_prefix_cons.mpr ⟨rfl,hinit⟩,?_,?_⟩
      · dsimp only
        rw [hlog]
        simp
      · intro hok
        rw [hall hok]

/-- What a wake does to the log: it opens the first of the saved tabs of its own binding, all of
them where it returns, but none where the slot is ready for it. -/
structure Restores (urlsplit : String → Except Unit SplitResult) (binding : BrowserBinding)
    (l : Logged Slot Entry) (r : Except SlotError OrchestrationResult × Logged Slot Entry)
    (done : List String) : Prop where
  log : r.2.log = l.log ++ done.map (.opened binding)
  saved : ∀ url ∈ done, binding = l.state.lifecycle.binding ∧ url ∈ l.state.lifecycle.savedTabs urlsplit
  returned : ∀ result, r.1 = .ok result → binding = l.state.lifecycle.binding ∧
    result.restoredUrls = l.state.lifecycle.savedTabs urlsplit ∧
    done = if l.state.lifecycle.state = .ready then [] else l.state.lifecycle.savedTabs urlsplit

theorem bringUp_log (s : Slot) (log : List Entry) : ∃ done, done <+: s.lifecycle.savedTabs urlsplit ∧
    (exec (bringUp urlsplit a s.lifecycle.binding) ⟨s.inState .starting,log⟩).2.log =
      log ++ done.map (.opened s.lifecycle.binding) ∧
    ∀ result, (exec (bringUp urlsplit a s.lifecycle.binding) ⟨s.inState .starting,log⟩).1 = .ok result →
      done = s.lifecycle.savedTabs urlsplit ∧ result.restoredUrls = s.lifecycle.savedTabs urlsplit := by
  rw [bringUp,exec_bind,exec_silently,exec_command]
  cases a.start.outcome with
  | error e => exact ⟨[], List.nil_prefix,by simp,nofun⟩
  | ok _ =>
    dsimp only
    rw [exec_bind,exec_silently,exec_inspect]
    rw [inState_browser]
    cases waitReady (s.inState .starting).transport (a.start.on (·.started a.fresh) s.browser)
      s.lifecycle.binding a.probe a.probes with
    | error e => exact ⟨[], List.nil_prefix,by simp,nofun⟩
    | ok _ =>
      dsimp only
      rw [exec_bind,exec_silently,exec_markReady]
      dsimp only
      rw [exec_bind,exec_silently,exec_inspect]
      dsimp only
      rw [inState_loadTabs]
      dsimp only
      rw [exec_bind]
      obtain ⟨done,hinit,hlog,hall⟩ := @openPages_log urlsplit a s.lifecycle.binding 0 (s.lifecycle.savedTabs urlsplit)
        ⟨{ s.inState .ready with browser := a.start.on (·.started a.fresh) s.browser },log⟩
      refine ⟨done,hinit,?_⟩
      rcases hopen : exec (openPages urlsplit a s.lifecycle.binding 0 (s.lifecycle.savedTabs urlsplit))
        ⟨{ s.inState .ready with browser := a.start.on (·.started a.fresh) s.browser },log⟩ with ⟨e | _,l⟩
      · rw [hopen] at hlog
        exact ⟨hlog,nofun⟩
      · rw [hopen] at hlog hall
        dsimp only at hlog ⊢
        rw [exec_bind,exec_silently,exec_command]
        cases a.closeEmpty.outcome with
        | error e => exact ⟨hlog,nofun⟩
        | ok _ =>
          refine ⟨hlog,?_⟩
          rintro result ⟨⟩
          exact ⟨hall rfl,rfl⟩

/-- A wake that does not go as far as the start opens nothing. -/
theorem Restores.quiet {l : Logged Slot Entry} (r : Except SlotError OrchestrationResult)
    (h : ∀ result, r = .ok result → binding = l.state.lifecycle.binding ∧
      result.restoredUrls = l.state.lifecycle.savedTabs urlsplit ∧ l.state.lifecycle.state = .ready) :
    Restores urlsplit binding l (r,l) [] := by
  refine ⟨by simp,by simp,?_⟩
  intro result hresult
  obtain ⟨hbinding,hrestored,hready⟩ := h result hresult
  exact ⟨hbinding,hrestored,by rw [if_pos hready]⟩

theorem start_ok {lifecycle lifecycle' : OwnerBoundLifecycle} (h : lifecycle.start binding = .ok lifecycle') :
    binding = lifecycle.binding ∧ lifecycle.state ∈ [.stopped,.suspended,.failed] := by
  by_contra hnot
  obtain ⟨e,he⟩ := lifecycle.start_refused binding fun hb hstate => hnot ⟨hb,hstate⟩
  rw [he] at h
  cases h

/-- Cleaning up after an operation adds nothing to the log. -/
theorem exec_cleanedUp {α : Type} (m : Observed α) (cleanup : Operation Unit) (l : Logged Slot Entry) :
    (exec (tryCatch m fun e => do
      silently cleanup
      throw e) l).2.log = (exec m l).2.log ∧
    ∀ x, (exec (tryCatch m fun e => do
      silently cleanup
      throw e) l).1 = .ok x → (exec m l).1 = .ok x := by
  rw [exec_tryCatch]
  rcases exec m l with ⟨e | x,l'⟩
  · dsimp only
    rw [exec_bind,exec_silently]
    rcases exec cleanup l'.state with ⟨e' | _,s⟩
    · exact ⟨rfl,nofun⟩
    · exact ⟨rfl,nofun⟩
  · exact ⟨rfl,fun _ h => h⟩

theorem wake_restores (timeoutS pollS : ℚ) (l : Logged Slot Entry) :
    ∃ done, Restores urlsplit binding l (exec (wake urlsplit a binding timeoutS pollS) l) done := by
  obtain ⟨s,log⟩ := l
  rw [wake]
  cases requirePositiveTimeout timeoutS pollS with
  | error e => exact ⟨[],Restores.quiet (.error e) nofun⟩
  | ok _ =>
    rw [exec_bind,exec_check]
    dsimp only
    rw [exec_bind,exec_silently,exec_get]
    dsimp only
    by_cases hup : s.lifecycle.state = .ready ∧ s.lifecycle.binding = binding
    · obtain ⟨hready,rfl⟩ := hup
      rw [if_pos ⟨hready,rfl⟩,exec_bind,exec_silently,exec_inspect]
      cases waitReady s.transport s.browser s.lifecycle.binding a.probe a.probes with
      | error e => exact ⟨[],Restores.quiet (.error e) nofun⟩
      | ok _ =>
        dsimp only
        rw [exec_bind,exec_silently,exec_inspect]
        dsimp only
        rw [OwnerBoundLifecycle.loadTabs_own]
        refine ⟨[],Restores.quiet (l:=⟨s,log⟩) (.ok ⟨"ready",s.lifecycle.state,s.lifecycle.savedTabs urlsplit⟩) ?_⟩
        rintro result ⟨⟩
        exact ⟨rfl,rfl,hready⟩
    · rw [if_neg hup,exec_bind,exec_silently,exec_onLifecycle]
      cases hstart : s.lifecycle.start binding with
      | error e => exact ⟨[],Restores.quiet (.error e) nofun⟩
      | ok lifecycle =>
        obtain ⟨rfl,hstate⟩ := start_ok hstart
        rw [OwnerBoundLifecycle.start_own _ hstate] at hstart
        cases hstart
        obtain ⟨done,hinit,hlog,hreturned⟩ := @bringUp_log urlsplit a s log
        have hdown : s.lifecycle.state ≠ .ready := by
          intro hready
          simp [hready] at hstate
        obtain ⟨hcaught,hok⟩ := exec_cleanedUp (bringUp urlsplit a s.lifecycle.binding)
          (safeStop a s.lifecycle.binding) ⟨s.inState .starting,log⟩
        refine ⟨done,hcaught.trans hlog,?_,?_⟩
        · intro url hurl
          exact ⟨rfl,hinit.subset hurl⟩
        · intro result hresult
          obtain ⟨hdone,hrestored⟩ := hreturned result (hok result hresult)
          exact ⟨rfl,hrestored,by rw [if_neg hdown,hdone]⟩

end Wake

/-! ### Runs of the observed supervisor -/

section Frames

variable {urlsplit : String → Except Unit SplitResult} {a : Answers} {binding : BrowserBinding} (s : Slot)

/-- Only a suspend writes to the files. -/
theorem files_stop : files (exec (stop a binding) s).2 = files s := by
  rw [exec_stop]
  cases probeOwner s.transport s.browser binding a.owner with
  | error e => rfl
  | ok _ =>
    cases a.stop.outcome with
    | error e => rfl
    | ok _ =>
      dsimp only
      split
      · rfl
      · rfl

theorem files_rebind : files (rebind a s binding).2 = files s := by
  simp only [rebind]
  cases a.push.outcome <;> rfl

theorem files_adopt : files (exec (adoptBinding a binding) s).2 = files s := by
  rw [exec_adoptBinding]
  split
  · rfl
  · split
    · exact files_rebind s
    · cases a.stop.outcome with
      | error e => rfl
      | ok _ => exact files_rebind _

theorem files_wake (timeoutS pollS : ℚ) :
    files (exec (SlotSupervisor.wake urlsplit a binding timeoutS pollS) s).2 = files s := by
  cases htime : requirePositiveTimeout timeoutS pollS with
  | error e => rw [exec_wake_untimed urlsplit a s htime]
  | ok _ =>
    by_cases hb : binding = s.lifecycle.binding → s.lifecycle.state = .starting
    · obtain ⟨e,he⟩ := exec_wake_refused urlsplit a s htime hb
      rw [he]
    · push Not at hb
      obtain ⟨rfl,hidle⟩ := hb
      by_cases hready : s.lifecycle.state = .ready
      · rw [exec_wake_ready urlsplit a s htime hready]
      · have hstate : s.lifecycle.state ∈ [.stopped,.suspended,.failed] := by
          cases h : s.lifecycle.state <;> simp_all
        rw [exec_wake_start urlsplit a s htime hstate]
        rcases launch urlsplit a s with ⟨e | _,browser⟩ <;> rfl

theorem files_onLifecycle_suspend : files (exec (onLifecycle (·.suspend binding)) s).2 = files s := by
  rw [exec_onLifecycle,OwnerBoundLifecycle.suspend,OwnerBoundLifecycle.requireBinding_bind]
  split
  · rename_i l hl
    split_ifs at hl
    cases hl
    rfl
  · rfl

end Frames

section Runs

variable (urlsplit : String → Except Unit SplitResult) (boot : BrowserBinding)

/-- One event, observed. -/
def observe (l : Logged Slot Entry) : SlotEvent → Logged Slot Entry
  | .wake binding timeoutS pollS a => (exec (wake urlsplit a binding timeoutS pollS) l).2
  | .suspend binding a => (exec (suspend urlsplit a binding) l).2
  | .stop binding a => (exec (silently (stop a binding)) l).2
  | .recreate binding timeoutS pollS a => (exec (recreate urlsplit a binding timeoutS pollS) l).2
  | .adopt binding a => (exec (silently (adoptBinding a binding)) l).2
  | .restart => ⟨next urlsplit boot l.state .restart,l.log⟩

/-- Observing the supervisor does not change what it does. -/
theorem observe_state (l : Logged Slot Entry) (e : SlotEvent) :
    (observe urlsplit boot l e).state = next urlsplit boot l.state e := by
  cases e with
  | wake binding timeoutS pollS a => exact (congrArg Prod.snd (wake_projects timeoutS pollS l)).symm
  | suspend binding a => exact (congrArg Prod.snd (suspend_projects l)).symm
  | stop binding a => rw [observe,exec_silently,next]
  | recreate binding timeoutS pollS a => exact (congrArg Prod.snd (recreate_projects timeoutS pollS l)).symm
  | adopt binding a => rw [observe,exec_silently,next]
  | restart => rfl

theorem observe_run (es : List SlotEvent) (l : Logged Slot Entry) :
    (es.foldl (observe urlsplit boot) l).state = es.foldl (next urlsplit boot) l.state := by
  induction es generalizing l with
  | nil => rfl
  | cons e es ih => simp only [List.foldl_cons,ih,observe_state]

variable {urlsplit boot} {a : Answers} {binding : BrowserBinding} {l : Logged Slot Entry}

/-- Pages that are recorded under their binding may be opened. -/
theorem Kept.opened (hl : Kept urlsplit l) {s : Slot} (hfiles : RestoredTabs.files s = RestoredTabs.files l.state) {done : List String}
    (hdone : ∀ url ∈ done, ∃ listed captured, .recorded binding listed captured ∈ l.log ∧
      url ∈ captured.urls) : Kept urlsplit ⟨s,l.log ++ done.map (.opened binding)⟩ := by
  induction done generalizing l with
  | nil =>
    rw [List.map_nil,List.append_nil]
    exact hl.files hfiles
  | cons url done ih =>
    have hnext : Kept urlsplit ⟨l.state,l.log ++ [.opened binding url]⟩ := by
      refine ⟨justified_snoc.mpr ⟨hl.owned,hdone url List.mem_cons_self⟩,?_,?_⟩
      · rw [captures_append,show captures [Entry.opened binding url] = [] from rfl,List.append_nil]
        exact hl.latest
      · intro captured hcaptured
        rw [captures_append]
        exact List.mem_append_left _ (hl.former captured hcaptured)
    have hrest := ih hnext hfiles (by
      intro u hu
      obtain ⟨listed,captured,hentry,hurl⟩ := hdone u (List.mem_cons_of_mem _ hu)
      exact ⟨listed,captured,List.mem_append_left _ hentry,hurl⟩)
    simpa using hrest

theorem keeps_wake (timeoutS pollS : ℚ) :
    Keeps (Kept urlsplit) (wake urlsplit a binding timeoutS pollS) := by
  intro l hl
  obtain ⟨done,hrestores⟩ := @wake_restores urlsplit a binding timeoutS pollS l
  have hstate := congrArg Prod.snd (@wake_projects urlsplit a binding timeoutS pollS l)
  have hfiles := @files_wake urlsplit a binding l.state timeoutS pollS
  rw [hstate] at hfiles
  have hkept : Kept urlsplit ⟨_,l.log ++ done.map (.opened binding)⟩ := hl.opened hfiles (by
    intro url hurl
    obtain ⟨rfl,hsaved⟩ := hrestores.saved url hurl
    exact hl.savedTabs hsaved)
  rw [← hrestores.log] at hkept
  exact hkept

theorem keeps_suspend : Keeps (Kept urlsplit) (suspend urlsplit a binding) := by
  have hsame : ∀ {α : Type} (m : Operation α), (∀ s, files (exec m s).2 = files s) →
      Keeps (Kept urlsplit) (silently m) := fun m hm => keeps_silently hm
  refine Keeps.bind (hsame _ fun s => by rw [exec_requireTransportOwner]) fun _ => ?_
  refine Triple.check_bind (fun urls _ => ?_) fun _ _ h => h
  refine (keeps_recordTabs urls).bind fun captured => ?_
  refine Keeps.bind (hsame _ fun s => by rw [exec_command]; rfl) fun _ => ?_
  refine Keeps.bind (hsame _ fun s => files_onLifecycle_suspend s) fun _ => ?_
  exact Keeps.bind (hsame _ fun _ => rfl) fun _ => Triple.pure fun _ h => h

theorem keeps_recreate (timeoutS pollS : ℚ) :
    Keeps (Kept urlsplit) (recreate urlsplit a binding timeoutS pollS) :=
  (keeps_silently fun s => files_stop s).bind fun _ => keeps_wake timeoutS pollS

/-- Every event leaves the files as the log says. -/
theorem kept_observe (l : Logged Slot Entry) (e : SlotEvent) (hl : Kept urlsplit l) :
    Kept urlsplit (observe urlsplit boot l e) := by
  cases e with
  | wake binding timeoutS pollS a => exact keeps_wake timeoutS pollS l hl
  | suspend binding a => exact keeps_suspend l hl
  | stop binding a => exact keeps_silently (fun s => files_stop s) l hl
  | recreate binding timeoutS pollS a => exact keeps_recreate timeoutS pollS l hl
  | adopt binding a => exact keeps_silently (fun s => files_adopt s) l hl
  | restart => exact hl.files rfl

/-- A slot that has no snapshots yet. -/
def fresh (boot : BrowserBinding) (browser : Browser) : Logged Slot Entry :=
  ⟨booted boot none none browser,[]⟩

theorem kept_fresh (browser : Browser) : Kept urlsplit (fresh boot browser) :=
  ⟨justified_nil,rfl,nofun⟩

theorem kept_run (browser : Browser) (es : List SlotEvent) :
    Kept urlsplit (es.foldl (observe urlsplit boot) (fresh boot browser)) :=
  (@Runs.always_invariant _ _ _ _ _ es (kept_fresh browser) kept_observe).last

/-- A wake after the last snapshot, of the same binding. -/
theorem wake_last {listed : List String} {captured : LifecycleSnapshot} {timeoutS pollS : ℚ}
    {result : OrchestrationResult} {l' : Logged Slot Entry} (hl : Kept urlsplit l)
    (hmem : .recorded binding listed captured ∈ l.log)
    (hlast : (captures l.log).getLast? = some captured)
    (h : exec (wake urlsplit a binding timeoutS pollS) l = (.ok result,l')) :
    normalizeUrls urlsplit listed = .ok result.restoredUrls ∧ l'.log = l.log ++
      (if l.state.lifecycle.state = .ready then [] else result.restoredUrls).map (.opened binding) := by
  obtain ⟨done,hrestores⟩ := @wake_restores urlsplit a binding timeoutS pollS l
  rw [h] at hrestores
  obtain ⟨hbinding,hrestored,hdone⟩ := hrestores.returned result rfl
  obtain ⟨pre,post,-,hcaptured,htabs⟩ := hl.owned.mem hmem
  have hsaved := hl.savedTabs_last hlast (hcaptured.trans hbinding)
  rw [hrestored,hsaved]
  refine ⟨htabs,?_⟩
  have hlog := hrestores.log
  rw [hdone,hsaved] at hlog
  exact hlog

/-- A stop that returns has stopped the lifecycle. -/
theorem stop_ok {s s' : Slot} {result : OrchestrationResult}
    (h : exec (stop a binding) s = (.ok result,s')) : s'.lifecycle.state = .stopped := by
  rw [exec_stop] at h
  split at h
  · cases h
  · cases h
  · split_ifs at h
    · cases h
      rfl
    · cases h

theorem recreate_last {listed : List String} {captured : LifecycleSnapshot} {timeoutS pollS : ℚ}
    {result : OrchestrationResult} {l' : Logged Slot Entry} (hl : Kept urlsplit l)
    (hmem : .recorded binding listed captured ∈ l.log)
    (hlast : (captures l.log).getLast? = some captured)
    (h : exec (recreate urlsplit a binding timeoutS pollS) l = (.ok result,l')) :
    normalizeUrls urlsplit listed = .ok result.restoredUrls ∧
      l'.log = l.log ++ result.restoredUrls.map (.opened binding) := by
  rw [recreate,exec_bind,exec_silently] at h
  have hfiles := @files_stop a binding l.state
  rcases hstop : exec (stop a binding) l.state with ⟨e | stopped,s⟩
  · rw [hstop] at h
    cases h
  · rw [hstop] at h hfiles
    have hnext := wake_last (hl.files hfiles) hmem hlast h
    rw [stop_ok hstop,if_neg (by decide)] at hnext
    exact hnext

end Runs

/-- Tabs are restored to their owner: in every run, whatever fails, each page that is opened under a
binding was recorded by an earlier suspend under that binding; and a wake (or recreate) that
succeeds after a last snapshot of its binding restores the normalized URLs of the pages listed
then, in their order, save that a wake finding the slot ready opens nothing. -/
theorem tabs_to_their_owner (urlsplit : String → Except Unit SplitResult) (boot : BrowserBinding)
    (browser : Browser) (es : List SlotEvent) :
    let l := es.foldl (observe urlsplit boot) (fresh boot browser)
    (∀ pre binding url post, l.log = pre ++ .opened binding url :: post → ∃ listed captured,
      .recorded binding listed captured ∈ pre ∧ captured.toBrowserBinding = binding ∧
        url ∈ captured.urls) ∧
    ∀ pre binding listed captured post, l.log = pre ++ .recorded binding listed captured :: post →
      captures post = [] → ∀ timeoutS pollS a result l',
        (exec (wake urlsplit a binding timeoutS pollS) l = (.ok result,l') →
          normalizeUrls urlsplit listed = .ok result.restoredUrls ∧ l'.log = l.log ++
            (if l.state.lifecycle.state = .ready then [] else result.restoredUrls).map (.opened binding)) ∧
        (exec (recreate urlsplit a binding timeoutS pollS) l = (.ok result,l') →
          normalizeUrls urlsplit listed = .ok result.restoredUrls ∧
            l'.log = l.log ++ result.restoredUrls.map (.opened binding)) := by
  intro l
  have hl : Kept urlsplit l := kept_run browser es
  constructor
  · intro pre binding url post hlog
    obtain ⟨listed,captured,hentry,hurl⟩ := hl.owned pre _ post hlog
    obtain ⟨before,after,hpre⟩ := List.append_of_mem hentry
    have howned := hl.owned before (.recorded binding listed captured)
      (after ++ .opened binding url :: post) (by rw [hlog,hpre]; simp)
    exact ⟨listed,captured,hentry,howned.1,hurl⟩
  · intro pre binding listed captured post hlog hpost timeoutS pollS a result l'
    have hmem : .recorded binding listed captured ∈ l.log := by simp [hlog]
    have hlast : (captures l.log).getLast? = some captured := by
      have hsplit : l.log = pre ++ [.recorded binding listed captured] ++ post := by simp [hlog]
      rw [hsplit,captures_append,captures_append,captures_recorded,hpost]
      simp
    exact ⟨wake_last hl hmem hlast,recreate_last hl hmem hlast⟩

/-- Alice wakes her slot and suspends it. -/
def aliceSuspended : List SlotEvent :=
  [.wake aliceBinding 30 (1/10) obliging,.suspend aliceBinding obliging]

def aliceBrowser : Browser := ⟨"alice","generation-a",false,[]⟩

def aliceSnapshot : LifecycleSnapshot := ⟨aliceBinding,.ready,["https://site/"]⟩

/-- Her next wake opens the page that was listed. -/
theorem tabs_to_alice :
    (exec (wake oneSite obliging aliceBinding)
      (aliceSuspended.foldl (observe oneSite aliceBinding) (fresh aliceBinding aliceBrowser))).2.log =
      (aliceSuspended.foldl (observe oneSite aliceBinding) (fresh aliceBinding aliceBrowser)).log ++
        [.opened aliceBinding "https://site/"] := by
  have hlast := (tabs_to_their_owner oneSite aliceBinding aliceBrowser aliceSuspended).2
    [.recorded aliceBinding ["https://site/"] aliceSnapshot] aliceBinding ["https://site/"] aliceSnapshot []
    (by decide +kernel) rfl 30 (1/10) obliging ⟨"ready",.ready,["https://site/"]⟩
    (exec (wake oneSite obliging aliceBinding)
      (aliceSuspended.foldl (observe oneSite aliceBinding) (fresh aliceBinding aliceBrowser))).2
  have hwake := hlast.1 (Prod.ext (by decide +kernel) rfl)
  rw [hwake.2,if_neg (by decide +kernel)]
  rfl

/-- A second wake opens nothing, although it succeeds after a snapshot of its binding. -/
theorem rewake_opens_nothing : ¬∀ (urlsplit : String → Except Unit SplitResult) (boot : BrowserBinding)
    (browser : Browser) (es : List SlotEvent) (pre post : List Entry) (binding : BrowserBinding)
    (listed : List String) (captured : LifecycleSnapshot) (a : Answers) (result : OrchestrationResult)
    (l' : Logged Slot Entry) (urls : List String),
    (es.foldl (observe urlsplit boot) (fresh boot browser)).log =
      pre ++ .recorded binding listed captured :: post → captures post = [] →
    exec (wake urlsplit a binding) (es.foldl (observe urlsplit boot) (fresh boot browser)) =
      (.ok result,l') → normalizeUrls urlsplit listed = .ok urls →
    l'.log = (es.foldl (observe urlsplit boot) (fresh boot browser)).log ++
      urls.map (.opened binding) := by
  intro h
  have hlog := h oneSite aliceBinding aliceBrowser (aliceSuspended ++ [.wake aliceBinding 30 (1/10) obliging])
    [.recorded aliceBinding ["https://site/"] aliceSnapshot]
    [.opened aliceBinding "https://site/"] aliceBinding ["https://site/"] aliceSnapshot obliging
    ⟨"ready",.ready,["https://site/"]⟩ _ ["https://site/"] (by decide +kernel) rfl
    (Prod.ext (by decide +kernel) rfl) (by decide +kernel)
  exact absurd hlog (by decide +kernel)

end RestoredTabs
end CloudBrowser
