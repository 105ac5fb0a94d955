import CloudBrowser.SlidingWindows
import Mathlib.Algebra.Order.Group.Unbundled.Int
import Mathlib.Algebra.Order.Ring.Cast
import Mathlib.Data.List.Nodup
import Mathlib.Data.List.Pairwise
import Mathlib.Data.Rat.Cast.Order
import Mathlib.Logic.Relation
import Mathlib.Data.Int.ConditionallyCompleteOrder

/-! The tab bar's limit on the tabs of a browser: the tab that is closed when a new one comes, and
the trim at the start of the service worker. -/
namespace CloudBrowser
namespace TabBar

open SlidingWindows

/-- A tab, as `chrome.tabs.query` describes it; times are in milliseconds. -/
structure Tab where
  id : Option ℤ
  windowId : ℤ
  url : Option String
  title : Option String
  active : Bool
  lastAccessed : Option ℚ
  deriving DecidableEq

/-- The tabs of all windows; no id is given twice. -/
structure Tabs where
  list : List Tab
  distinct : (list.filterMap Tab.id).Nodup

structure Config where
  tabLimit : ℕ
  tabLimit_pos : 0 < tabLimit

/-- What Chrome answers: the time at each reading of the clock, which does not go back, whether the
tab is removed that is to be after it, and the tab that is created for an address, if any is. -/
structure Chrome where
  now : ℕ → ℤ
  now_mono : Monotone now
  removes : ℕ → Bool
  created : String → Tabs → Option Tab
  created_fresh : ∀ url tabs tab, created url tabs = some tab →
    ∃ id, tab.id = some id ∧ ∀ t ∈ tabs.list, t.id ≠ some id

/-- The tabs, and how often the clock was read. -/
structure Browser where
  tabs : Tabs
  readings : ℕ

/-- `EVICT_AGE_FLOOR_MS`. -/
def evictAgeFloorMs : ℚ := 10*60*1000

/-- `t.lastAccessed || 0`. -/
def Tab.lastUsed (t : Tab) : ℚ := t.lastAccessed.getD 0

/-- The address of a page outside the browser itself. -/
def Tab.pageUrl (t : Tab) : Bool :=
  match t.url with
  | none => false
  | some url => url ≠ "" && !"chrome://".toList.isPrefixOf url.toList &&
      !"chrome-extension://".toList.isPrefixOf url.toList

/-- A tab that counts, unless it is the one to skip. -/
def Tab.real (skipId : Option ℤ) (t : Tab) : Bool := t.id.isSome && t.id ≠ skipId && t.pageUrl

def realTabs (skipId : Option ℤ) (tabs : Tabs) : List Tab := tabs.list.filter (Tab.real skipId)

/-- A turn of the loop over the tabs. -/
def better (now : ℤ) (victim : Option Tab) (t : Tab) : Option Tab :=
  if t.active then victim
  else if now-5000 < t.lastUsed then victim
  else if t.lastUsed < now-evictAgeFloorMs then victim
  else match victim with
    | none => some t
    | some v => if t.lastUsed < v.lastUsed then some t else some v

structure Evicted where
  title : String
  url : String
  deriving DecidableEq, Repr

/-- `victim.title || victim.url`. -/
def Tab.info (t : Tab) : Evicted :=
  let url := t.url.getD ""
  ⟨if t.title.getD "" = "" then url else t.title.getD "",url⟩

theorem nodup_remove (tabs : Tabs) (id : Option ℤ) :
    ((tabs.list.filter (·.id ≠ id)).filterMap Tab.id).Nodup :=
  tabs.distinct.sublist (List.filter_sublist.filterMap _)

/-- `chrome.tabs.remove(id)`. -/
def Tabs.remove (tabs : Tabs) (id : Option ℤ) : Tabs :=
  ⟨tabs.list.filter (·.id ≠ id),nodup_remove tabs id⟩

section Eviction

variable (config : Config) (chrome : Chrome)

def evictLRU (skipId : Option ℤ) (b : Browser) : Option Evicted × Browser :=
  let real := realTabs skipId b.tabs
  if real.length < config.tabLimit then (none,b)
  else
    match real.foldl (better (chrome.now b.readings)) none with
    | none => (none,⟨b.tabs,b.readings+1⟩)
    | some victim =>
      if chrome.removes b.readings then (some victim.info,⟨b.tabs.remove victim.id,b.readings+1⟩)
      else (none,⟨b.tabs,b.readings+1⟩)

/-- The titles that are broadcast, and the browser afterwards. -/
abbrev Broadcast := List String × Browser

def enforceLimit (newTabId : ℤ) (b : Browser) : Broadcast :=
  let r := evictLRU config chrome (some newTabId) b
  (r.1.toList.map Evicted.title,r.2)

/-- The turns of the trim's loop that the guard still allows, and the last call after them. -/
def trimFrom : ℕ → Browser → Broadcast
  | 0, b => ([],(evictLRU config chrome none b).2)
  | n+1, b =>
    match evictLRU config chrome none b with
    | (none,b') => ([],b')
    | (some evicted,b') => (evicted.title :: (trimFrom n b').1,(trimFrom n b').2)

def trimExcess (b : Browser) : Broadcast := trimFrom config chrome 20 b

/-- The part of an address before its fragment, without a slash at its end. -/
def bareUrl (url : String) : List Char :=
  let page := url.toList.takeWhile (· ≠ '#')
  if page.getLast? = some '/' then page.dropLast else page

def Tab.shows (url : String) (t : Tab) : Bool :=
  match t.url with
  | none => false
  | some shown => shown ≠ "" && bareUrl shown = bareUrl url

/-- One tab of a window is active. -/
def activate (windowId : ℤ) (id : Option ℤ) (t : Tab) : Tab :=
  if t.windowId = windowId then {t with active := t.id = id} else t

@[simp] theorem activate_id (windowId : ℤ) (id : Option ℤ) (t : Tab) :
    (activate windowId id t).id = t.id := by
  unfold activate
  split_ifs <;> rfl

theorem ids_activate (windowId : ℤ) (id : Option ℤ) (list : List Tab) :
    (list.map (activate windowId id)).filterMap Tab.id = list.filterMap Tab.id := by
  rw [List.filterMap_map]
  exact List.filterMap_congr fun t _ => activate_id windowId id t

/-- `chrome.tabs.update(id, { active: true })`. -/
def Tabs.focus (tabs : Tabs) (tab : Tab) : Tabs where
  list := tabs.list.map (activate tab.windowId tab.id)
  distinct := by
    rw [ids_activate]
    exact tabs.distinct

/-- `chrome.tabs.create({ url, active: true })`. -/
def Tabs.create (tabs : Tabs) (tab : Tab)
    (hfresh : ∃ id, tab.id = some id ∧ ∀ t ∈ tabs.list, t.id ≠ some id) : Tabs where
  list := tabs.list.map (activate tab.windowId tab.id) ++ [tab]
  distinct := by
    obtain ⟨id,hid,hnew⟩ := hfresh
    rw [List.filterMap_append,ids_activate]
    apply List.Nodup.append tabs.distinct
    · simp [hid]
    · intro x hx hx'
      obtain ⟨t,ht,htx⟩ := List.mem_filterMap.mp hx
      have hxid : x = id := by simpa [hid] using hx'
      exact hnew t ht (htx.trans (congrArg some hxid))

structure Reply where
  ok : Bool
  url : String
  focused : Bool
  evicted : Bool
  evictedTitle : Option String
  deriving DecidableEq, Repr

/-- The rest of `openTab`, where no tab shows the address; nothing is answered if no tab is
created. -/
def openNew (url : String) (b : Browser) : Option (Reply × List String) × Browser :=
  let r := evictLRU config chrome none b
  match h : chrome.created url r.2.tabs with
  | none => (none,r.2)
  | some tab =>
    (some (⟨true,url,false,r.1.isSome,r.1.map Evicted.title⟩,r.1.toList.map Evicted.title),
      ⟨r.2.tabs.create tab (chrome.created_fresh url r.2.tabs tab h),r.2.readings⟩)

def openTab (url : String) (b : Browser) : Option (Reply × List String) × Browser :=
  match b.tabs.list.find? (Tab.shows url) with
  | none => openNew config chrome url b
  | some tab =>
    if tab.id.isSome then
      (some (⟨true,url,true,false,none⟩,[]),⟨b.tabs.focus tab,b.readings⟩)
    else openNew config chrome url b

end Eviction

/-! ### The victim -/

section Victims

/-- The tabs that may be closed at the reading of the clock to come. -/
structure Eligible (chrome : Chrome) (skipId : Option ℤ) (b : Browser) (t : Tab) : Prop where
  mem : t ∈ b.tabs.list
  real : t.real skipId = true
  inactive : t.active = false
  settled : t.lastUsed ≤ chrome.now b.readings-5000
  recent : chrome.now b.readings-evictAgeFloorMs ≤ t.lastUsed

/-- Of these the one that was not used for the longest time. -/
structure Victim (chrome : Chrome) (skipId : Option ℤ) (b : Browser) (t : Tab) : Prop where
  eligible : Eligible chrome skipId b t
  least : ∀ u, Eligible chrome skipId b u → t.lastUsed ≤ u.lastUsed

variable {config : Config} {chrome : Chrome} {skipId : Option ℤ} {b : Browser} {now : ℤ}

/-- What the loop asks of a tab. -/
def Passes (now : ℤ) (t : Tab) : Prop :=
  t.active = false ∧ t.lastUsed ≤ now-5000 ∧ now-evictAgeFloorMs ≤ t.lastUsed

theorem better_of_not_passes {victim : Option Tab} {t : Tab} (h : ¬Passes now t) :
    better now victim t = victim := by
  unfold better
  split_ifs with hactive hfresh hold
  · rfl
  · rfl
  · rfl
  · exact absurd ⟨Bool.eq_false_iff.mpr hactive,not_lt.mp hfresh,not_lt.mp hold⟩ h

/-- A tab that passes takes the place of one that was used later. -/
theorem better_of_passes {t : Tab} (h : Passes now t) (before : Option Tab) :
    ∃ v, better now before t = some v ∧ (v = t ∨ before = some v) ∧ v.lastUsed ≤ t.lastUsed ∧
      ∀ u, before = some u → v.lastUsed ≤ u.lastUsed := by
  obtain ⟨hactive,hfresh,hold⟩ := h
  unfold better
  rw [hactive,if_neg Bool.false_ne_true,if_neg (not_lt.mpr hfresh),if_neg (not_lt.mpr hold)]
  cases before with
  | none => exact ⟨t,rfl,Or.inl rfl,le_rfl,fun u hu => nomatch hu⟩
  | some v =>
    dsimp only
    split_ifs with hlt
    · refine ⟨t,rfl,Or.inl rfl,le_rfl,?_⟩
      rintro u ⟨⟩
      exact hlt.le
    · refine ⟨v,rfl,Or.inr rfl,not_lt.mp hlt,?_⟩
      rintro u ⟨⟩
      exact le_rfl

/-- What the loop over the tabs ends with. -/
structure Chosen (now : ℤ) (before : Option Tab) (list : List Tab) (v : Tab) : Prop where
  source : before = some v ∨ v ∈ list ∧ Passes now v
  least : ∀ t ∈ list, Passes now t → v.lastUsed ≤ t.lastUsed
  least_before : ∀ t, before = some t → v.lastUsed ≤ t.lastUsed

def Picked (now : ℤ) (before : Option Tab) (list : List Tab) : Option Tab → Prop
  | none => before = none ∧ ∀ t ∈ list, ¬Passes now t
  | some v => Chosen now before list v

theorem foldl_better (now : ℤ) (list : List Tab) (before : Option Tab) :
    Picked now before list (list.foldl (better now) before) := by
  induction list generalizing before with
  | nil =>
    cases before with
    | none => exact ⟨rfl,List.forall_mem_nil _⟩
    | some v =>
      refine ⟨Or.inl rfl,List.forall_mem_nil _,?_⟩
      rintro t ⟨⟩
      exact le_rfl
  | cons t list ih =>
    rw [List.foldl_cons]
    by_cases ht : Passes now t
    · obtain ⟨w,hw,hsource,hleast,hbefore⟩ := better_of_passes ht before
      rw [hw]
      have hrest := ih (some w)
      cases hv : list.foldl (better now) (some w) with
      | none =>
        rw [hv] at hrest
        cases hrest.1
      | some v =>
        rw [hv] at hrest
        have hle : v.lastUsed ≤ w.lastUsed := hrest.least_before w rfl
        refine ⟨?_,List.forall_mem_cons.mpr ⟨fun _ => hle.trans hleast,hrest.least⟩,
          fun u hu => hle.trans (hbefore u hu)⟩
        rcases hrest.source with heq | ⟨hmem,hpasses⟩
        · cases heq
          rcases hsource with rfl | hbefore
          · exact Or.inr ⟨List.mem_cons_self,ht⟩
          · exact Or.inl hbefore
        · exact Or.inr ⟨List.mem_cons_of_mem t hmem,hpasses⟩
    · rw [better_of_not_passes ht]
      have hrest := ih before
      cases hv : list.foldl (better now) before with
      | none =>
        rw [hv] at hrest
        exact ⟨hrest.1,List.forall_mem_cons.mpr ⟨ht,hrest.2⟩⟩
      | some v =>
        rw [hv] at hrest
        refine ⟨?_,List.forall_mem_cons.mpr ⟨fun h => absurd h ht,hrest.least⟩,hrest.least_before⟩
        exact hrest.source.imp_right fun h => ⟨List.mem_cons_of_mem t h.1,h.2⟩

theorem eligible_iff {t : Tab} : Eligible chrome skipId b t ↔
    t ∈ realTabs skipId b.tabs ∧ Passes (chrome.now b.readings) t := by
  rw [realTabs,List.mem_filter]
  constructor
  · intro h
    exact ⟨⟨h.mem,h.real⟩,h.inactive,h.settled,h.recent⟩
  · rintro ⟨⟨hmem,hreal⟩,hinactive,hsettled,hrecent⟩
    exact ⟨hmem,hreal,hinactive,hsettled,hrecent⟩

/-- The browser after its clock was read. -/
def Browser.read (b : Browser) : Browser := ⟨b.tabs,b.readings+1⟩

/-- The browser after its clock was read and a tab closed. -/
def Browser.close (b : Browser) (t : Tab) : Browser := ⟨b.tabs.remove t.id,b.readings+1⟩

/-- What a call of the evictor can do. -/
theorem evictLRU_cases (config : Config) (chrome : Chrome) (skipId : Option ℤ) (b : Browser) :
    ((realTabs skipId b.tabs).length < config.tabLimit ∧
      evictLRU config chrome skipId b = (none,b)) ∨
    config.tabLimit ≤ (realTabs skipId b.tabs).length ∧
      (((∀ t, ¬Eligible chrome skipId b t) ∨ chrome.removes b.readings = false) ∧
        evictLRU config chrome skipId b = (none,b.read) ∨
      ∃ victim, Victim chrome skipId b victim ∧ chrome.removes b.readings = true ∧
        evictLRU config chrome skipId b = (some victim.info,b.close victim)) := by
  unfold evictLRU
  by_cases hfew : (realTabs skipId b.tabs).length < config.tabLimit
  · exact Or.inl ⟨hfew,if_pos hfew⟩
  · rw [if_neg hfew]
    refine Or.inr ⟨not_lt.mp hfew,?_⟩
    have hpicked := foldl_better (chrome.now b.readings) (realTabs skipId b.tabs) none
    cases hv : (realTabs skipId b.tabs).foldl (better (chrome.now b.readings)) none with
    | none =>
      rw [hv] at hpicked
      refine Or.inl ⟨Or.inl fun t ht => ?_,rfl⟩
      obtain ⟨hmem,hpasses⟩ := eligible_iff.mp ht
      exact hpicked.2 t hmem hpasses
    | some victim =>
      rw [hv] at hpicked
      have hvictim : Victim chrome skipId b victim := by
        obtain hnone | hsource := hpicked.source
        · cases hnone
        · refine ⟨eligible_iff.mpr hsource,fun u hu => ?_⟩
          obtain ⟨hmem,hpasses⟩ := eligible_iff.mp hu
          exact hpicked.least u hmem hpasses
      cases hremoves : chrome.removes b.readings with
      | false => exact Or.inl ⟨Or.inr rfl,rfl⟩
      | true => exact Or.inr ⟨victim,hvictim,rfl,rfl⟩

/-- Tabs with the same id are the same. -/
theorem eq_of_id {tabs : Tabs} {t u : Tab} {id : ℤ} (ht : t ∈ tabs.list) (hu : u ∈ tabs.list)
    (htid : t.id = some id) (huid : u.id = some id) : t = u := by
  have hdistinct := List.pairwise_filterMap.mp tabs.distinct
  have hsymm : Std.Symm fun a a' : Tab => ∀ x, a.id = some x → ∀ y, a'.id = some y → x ≠ y :=
    ⟨fun _ _ h x hx y hy hxy => h y hy x hx hxy.symm⟩
  by_contra hne
  exact hdistinct.forall ht hu hne id htid id huid rfl

theorem exists_id {t : Tab} (h : t.real skipId = true) : ∃ id, t.id = some id := by
  unfold Tab.real at h
  simp only [Bool.and_eq_true] at h
  exact Option.isSome_iff_exists.mp h.1.1

theorem nodup_realTabs (skipId : Option ℤ) (tabs : Tabs) : (realTabs skipId tabs).Nodup := by
  have hdistinct := (List.pairwise_filterMap.mp tabs.distinct).sublist
    (List.filter_sublist (p := Tab.real skipId))
  refine hdistinct.imp_of_mem ?_
  rintro t u ht hu hne rfl
  obtain ⟨id,hid⟩ := exists_id (List.mem_filter.mp ht).2
  exact hne id hid id hid rfl

theorem realTabs_remove {tabs : Tabs} {victim : Tab} (hmem : victim ∈ tabs.list)
    (hreal : victim.real skipId = true) :
    realTabs skipId (tabs.remove victim.id) = (realTabs skipId tabs).erase victim := by
  rw [(nodup_realTabs skipId tabs).erase_eq_filter,realTabs,realTabs,Tabs.remove,
    List.filter_filter,List.filter_filter]
  obtain ⟨id,hid⟩ := exists_id hreal
  apply List.filter_congr
  intro t ht
  have hsame : t.id = victim.id ↔ t = victim :=
    ⟨fun h => eq_of_id ht hmem (h.trans hid) hid,fun h => h ▸ rfl⟩
  by_cases h : t = victim
  · simp [h]
  · simp [h,mt hsame.mp h]

theorem length_close {victim : Tab} (h : Eligible chrome skipId b victim) :
    (realTabs skipId b.tabs).length = (realTabs skipId (b.close victim).tabs).length+1 := by
  have hmem : victim ∈ realTabs skipId b.tabs := (eligible_iff.mp h).1
  have hpos := List.length_pos_of_mem hmem
  rw [Browser.close,realTabs_remove h.mem h.real,List.length_erase_of_mem hmem]
  omega

/-! ### The trim -/

/-- The times of use that the evictor looks for at each reading of the clock. -/
def windows (chrome : Chrome) : Windows Tab ℚ where
  key := Tab.lastUsed
  low n := chrome.now n-evictAgeFloorMs
  high n := chrome.now n-5000
  high_mono _ _ h := sub_le_sub_right (Int.cast_le.mpr (chrome.now_mono h)) 5000

/-- The tabs that can become eligible. -/
def Candidate (b : Browser) (t : Tab) : Prop :=
  t ∈ b.tabs.list ∧ t.real none = true ∧ t.active = false

theorem eligible_iff_shown {t : Tab} : Eligible chrome none b t ↔
    Candidate b t ∧ (windows chrome).Shows b.readings t := by
  constructor
  · intro h
    exact ⟨⟨h.mem,h.real,h.inactive⟩,h.recent,h.settled⟩
  · rintro ⟨⟨hmem,hreal,hinactive⟩,hrecent,hsettled⟩
    exact ⟨hmem,hreal,hinactive,hsettled,hrecent⟩

theorem candidate_close {victim t : Tab} (hmem : victim ∈ b.tabs.list)
    (hreal : victim.real none = true) :
    Candidate (b.close victim) t ↔ Candidate b t ∧ t ≠ victim := by
  obtain ⟨id,hid⟩ := exists_id hreal
  have hsame (ht : t ∈ b.tabs.list) : t.id ≠ victim.id ↔ t ≠ victim :=
    not_congr ⟨fun h => eq_of_id ht hmem (h.trans hid) hid,fun h => h ▸ rfl⟩
  simp only [Candidate,Browser.close,Tabs.remove,List.mem_filter,decide_eq_true_eq]
  constructor
  · rintro ⟨⟨ht,hne⟩,hrest⟩
    exact ⟨⟨ht,hrest⟩,(hsame ht).mp hne⟩
  · rintro ⟨⟨ht,hrest⟩,hne⟩
    exact ⟨⟨ht,(hsame ht).mpr hne⟩,hrest⟩

theorem Victim.least_shown {victim : Tab} (h : Victim chrome none b victim) :
    (windows chrome).Least (Candidate b) b.readings victim := by
  obtain ⟨hcandidate,hshown⟩ := eligible_iff_shown.mp h.eligible
  exact ⟨hcandidate,hshown,fun t ht hshown => h.least t (eligible_iff_shown.mpr ⟨ht,hshown⟩)⟩

/-- So many tabs more than the limit can be closed, and one besides, in so many calls and one
besides. -/
def Drains (config : Config) (chrome : Chrome) (n : ℕ) (b : Browser) : Prop :=
  ∃ excess, (realTabs none b.tabs).length = config.tabLimit+excess ∧ excess ≤ n ∧
    (∀ i ≤ excess, chrome.removes (b.readings+i) = true) ∧
    (windows chrome).Allows (Candidate b) b.readings (excess+1)

theorem allows_close {victim : Tab} (h : Victim chrome none b victim) (k : ℕ) :
    (windows chrome).Allows (Candidate b) b.readings (k+1) ↔
      (windows chrome).Allows (Candidate (b.close victim)) (b.close victim).readings k := by
  have hset : Candidate (b.close victim) = fun t => Candidate b t ∧ t ≠ victim := by
    funext t
    exact propext (candidate_close h.eligible.mem h.eligible.real)
  rw [Windows.allows_succ h.least_shown,hset]
  rfl

theorem drains_close {victim : Tab} (h : Victim chrome none b victim)
    (hremoves : chrome.removes b.readings = true) (n : ℕ) :
    Drains config chrome (n+1) b ↔
      (realTabs none b.tabs).length = config.tabLimit ∨
        Drains config chrome n (b.close victim) := by
  have hlength := length_close h.eligible
  constructor
  · rintro ⟨excess,hexcess,hle,hall,hallows⟩
    cases excess with
    | zero => exact Or.inl hexcess
    | succ excess =>
      refine Or.inr ⟨excess,by omega,Nat.le_of_succ_le_succ hle,fun i hi => ?_,
        (allows_close h _).mp hallows⟩
      have hnext := hall (i+1) (Nat.succ_le_succ hi)
      rwa [← Nat.add_assoc,Nat.add_right_comm] at hnext
  · rintro (hlimit | ⟨excess,hexcess,hle,hall,hallows⟩)
    · refine ⟨0,hlimit,Nat.zero_le _,fun i hi => ?_,(allows_close h 0).mpr Windows.allows_zero⟩
      rw [Nat.le_zero.mp hi]
      exact hremoves
    · refine ⟨excess+1,by omega,Nat.succ_le_succ hle,fun i hi => ?_,(allows_close h _).mpr hallows⟩
      cases i with
      | zero => exact hremoves
      | succ i =>
        have hnext := hall i (Nat.le_of_succ_le_succ hi)
        rwa [← Nat.add_assoc,Nat.add_right_comm]

theorem not_drains (h : (∀ t, ¬Eligible chrome none b t) ∨ chrome.removes b.readings = false)
    (n : ℕ) : ¬Drains config chrome n b := by
  rintro ⟨excess,-,-,hall,hallows⟩
  rcases h with hnone | hfails
  · refine Windows.not_allows (fun t ht hshown => ?_) hallows
    exact hnone t (eligible_iff_shown.mpr ⟨ht,hshown⟩)
  · have hfirst := hall 0 (Nat.zero_le _)
    rw [Nat.add_zero,hfails] at hfirst
    cases hfirst

/-- When the loop ends with fewer tabs than the limit. -/
theorem trimFrom_below (n : ℕ) (b : Browser) :
    (realTabs none (trimFrom config chrome n b).2.tabs).length < config.tabLimit ↔
      (realTabs none b.tabs).length < config.tabLimit ∨ Drains config chrome n b := by
  induction n generalizing b with
  | zero =>
    rcases evictLRU_cases config chrome none b with ⟨hfew,hr⟩ |
      ⟨hmany,⟨hstays,hr⟩ | ⟨victim,hvictim,hremoves,hr⟩⟩
    · rw [trimFrom,hr]
      exact iff_of_true hfew (Or.inl hfew)
    · rw [trimFrom,hr]
      exact iff_of_false (not_lt.mpr hmany) (not_or.mpr ⟨not_lt.mpr hmany,not_drains hstays 0⟩)
    · rw [trimFrom,hr]
      dsimp only
      have hlength := length_close hvictim.eligible
      constructor
      · intro hbelow
        refine Or.inr ⟨0,by omega,le_rfl,fun i hi => ?_,
          (allows_close hvictim 0).mpr Windows.allows_zero⟩
        rw [Nat.le_zero.mp hi]
        exact hremoves
      · rintro (hfew | ⟨excess,hexcess,hle,-⟩) <;> omega
  | succ n ih =>
    rcases evictLRU_cases config chrome none b with ⟨hfew,hr⟩ |
      ⟨hmany,⟨hstays,hr⟩ | ⟨victim,hvictim,hremoves,hr⟩⟩
    · rw [trimFrom,hr]
      exact iff_of_true hfew (Or.inl hfew)
    · rw [trimFrom,hr]
      exact iff_of_false (not_lt.mpr hmany) (not_or.mpr ⟨not_lt.mpr hmany,not_drains hstays _⟩)
    · have hlength := length_close hvictim.eligible
      rw [trimFrom,hr]
      dsimp only
      rw [ih,drains_close hvictim hremoves]
      constructor
      · rintro (hfew | hdrains)
        · exact Or.inr (Or.inl (by omega))
        · exact Or.inr (Or.inr hdrains)
      · rintro (hfew | hlimit | hdrains)
        · omega
        · exact Or.inl (by omega)
        · exact Or.inr hdrains

/-! ### Calls -/

/-- What the tab bar may do to the tabs: read the clock, or close a victim. -/
inductive Step (chrome : Chrome) (skipId : Option ℤ) : Browser → Browser → Prop
  | reading (b : Browser) : Step chrome skipId b b.read
  | eviction {b : Browser} {victim : Tab} (h : Victim chrome skipId b victim) :
      Step chrome skipId b (b.close victim)

abbrev Runs (chrome : Chrome) (skipId : Option ℤ) : Browser → Browser → Prop :=
  Relation.ReflTransGen (Step chrome skipId)

/-- No tab is closed between these. -/
def KeepsAll (tabs tabs' : Tabs) : Prop := ∀ t ∈ tabs.list, ∃ u ∈ tabs'.list, u.id = t.id

theorem evictLRU_runs (config : Config) (chrome : Chrome) (skipId : Option ℤ) (b : Browser) :
    Runs chrome skipId b (evictLRU config chrome skipId b).2 := by
  rcases evictLRU_cases config chrome skipId b with ⟨-,hr⟩ |
    ⟨-,⟨-,hr⟩ | ⟨victim,hvictim,-,hr⟩⟩
  · rw [hr]
  · rw [hr]
    exact .single (.reading b)
  · rw [hr]
    exact .single (.eviction hvictim)

theorem trimFrom_runs (n : ℕ) (b : Browser) :
    Runs chrome none b (trimFrom config chrome n b).2 := by
  induction n generalizing b with
  | zero => exact evictLRU_runs config chrome none b
  | succ n ih =>
    have hfirst := evictLRU_runs config chrome none b
    rw [trimFrom]
    rcases hr : evictLRU config chrome none b with ⟨_ | evicted,b'⟩
    · rwa [hr] at hfirst
    · rw [hr] at hfirst
      exact hfirst.trans (ih b')

theorem keepsAll_activate {tabs tabs' : Tabs} {windowId : ℤ} {id : Option ℤ}
    (h : ∀ t ∈ tabs.list, activate windowId id t ∈ tabs'.list) : KeepsAll tabs tabs' :=
  fun t ht => ⟨_,h t ht,activate_id windowId id t⟩

theorem openNew_runs (url : String) (b : Browser) :
    ∃ b', Runs chrome none b b' ∧ KeepsAll b'.tabs (openNew config chrome url b).2.tabs := by
  refine ⟨_,evictLRU_runs config chrome none b,?_⟩
  unfold openNew
  dsimp only
  split
  · exact fun t ht => ⟨t,ht,rfl⟩
  · exact keepsAll_activate fun t ht => List.mem_append_left _ (List.mem_map_of_mem ht)

theorem openTab_runs (url : String) (b : Browser) :
    ∃ b', Runs chrome none b b' ∧ KeepsAll b'.tabs (openTab config chrome url b).2.tabs := by
  unfold openTab
  cases hfind : b.tabs.list.find? (Tab.shows url) with
  | none => exact openNew_runs url b
  | some tab =>
    dsimp only
    split_ifs with hid
    · exact ⟨b,.refl,keepsAll_activate fun t ht => List.mem_map_of_mem ht⟩
    · exact openNew_runs url b

/-- The trim leaves as many tabs as the limit allows if there were as many, and no call closes a tab
that is not its victim at that time. -/
structure KeepsTabs (config : Config) (chrome : Chrome) (b : Browser) : Prop where
  limit : config.tabLimit ≤ (realTabs none b.tabs).length →
    config.tabLimit ≤ (realTabs none (trimExcess config chrome b).2.tabs).length
  trim : Runs chrome none b (trimExcess config chrome b).2
  enforce : ∀ newTabId,
    Runs chrome (some newTabId) b (enforceLimit config chrome newTabId b).2
  opening : ∀ url, ∃ b', Runs chrome none b b' ∧
    KeepsAll b'.tabs (openTab config chrome url b).2.tabs

/-- The tabs are kept exactly if the trim does not find enough tabs to close for going below the
limit. -/
theorem keepsTabs_iff (config : Config) (chrome : Chrome) (b : Browser) :
    KeepsTabs config chrome b ↔ ¬Drains config chrome 20 b := by
  have hbelow := @trimFrom_below config chrome 20 b
  constructor
  · intro h hdrains
    have hmany : config.tabLimit ≤ (realTabs none b.tabs).length := by
      obtain ⟨excess,hexcess,-⟩ := hdrains
      exact Nat.le.intro hexcess.symm
    exact Nat.not_lt.mpr (h.limit hmany) (hbelow.mpr (Or.inr hdrains))
  · intro h
    refine ⟨fun hmany => Nat.le_of_not_lt fun hfew => ?_,trimFrom_runs 20 b,
      fun newTabId => evictLRU_runs config chrome (some newTabId) b,fun url => openTab_runs url b⟩
    rcases hbelow.mp hfew with hfew | hdrains
    · exact Nat.not_lt.mpr hmany hfew
    · exact h hdrains

/-- As many tabs as are allowed; the active one was used last. -/
def fullBrowser : Browser where
  tabs :=
    { list := [⟨some 1,1,some "https://a.example",none,false,some 100000⟩,
        ⟨some 2,1,some "https://b.example",none,false,some 200000⟩,
        ⟨some 3,1,some "https://c.example",none,true,some 300000⟩]
      distinct := by decide }
  readings := 0

def quietChrome : Chrome :=
  ⟨fun _ => 300000,monotone_const,fun _ => true,fun _ _ => none,fun _ _ _ h => nomatch h⟩

theorem trim_below_limit : ¬∀ config chrome b, KeepsTabs config chrome b := by
  intro h
  have hkeeps := (h ⟨3,by decide⟩ quietChrome fullBrowser).limit (by decide +kernel)
  revert hkeeps
  decide +kernel

end Victims
end TabBar
end CloudBrowser
