import CloudBrowser.ReopenedTabs

/-! What `normalize_urls` makes of the URLs of the open pages, and when it makes anything. -/
namespace CloudBrowser
namespace CanonicalTabs

open Stateful SlotSupervisor BindingPush
open AgentControl (SplitResult)

section Definitions

variable (urlsplit : String → Except Unit SplitResult) (limit : ℕ) (urls : List String)

/-- The text is the URL of a page; one that `urlsplit` does not take is not. -/
def isPage (url : String) : Bool :=
  match isPageUrl urlsplit url with
  | .ok page => page
  | .error _ => false

/-- The page URLs of a list, each once and where it first occurs. -/
def pages : List String := (urls.filter (isPage urlsplit)).eraseDups

/-- What is asked of `normalize_urls`. -/
structure Normal (tabs : List String) : Prop where
  value : normalizeFrom urlsplit limit [] urls = .ok tabs
  length : tabs.length ≤ limit
  distinct : tabs.Nodup
  pages : ∀ url ∈ tabs, isPageUrl urlsplit url = .ok true
  order : tabs.Sublist urls.eraseDups
  first : tabs = (CanonicalTabs.pages urlsplit urls).take limit
  again : normalizeFrom urlsplit limit [] tabs = .ok tabs

/-- With these pages open, the suspend of a ready slot succeeds if its transport and its disk do
their part. -/
def NeverBlocks : Prop :=
  ∀ (a : Answers) (s : Slot), s.lifecycle.state = .ready →
    (∃ ready, probeOwner s.transport s.browser s.lifecycle.binding a.owner = .ok ready) →
    a.listing = .ok urls → a.snapshotWrite = .acknowledged → a.lastGoodWrite = .acknowledged →
    a.stop = .acknowledged →
    ∃ result, (exec (suspend urlsplit a s.lifecycle.binding) s).1 = .ok result

/-- A URL that `urlsplit` does not take comes after as many distinct page URLs as are kept. -/
def CutOff : Prop :=
  ∀ before url after, urls = before ++ url::after → urlsplit url = .error () →
    limit ≤ (pages urlsplit before).length

end Definitions

section Values

variable {urlsplit : String → Except Unit SplitResult} {limit : ℕ}
  {result urls tabs before after : List String} {url : String}

theorem isPageUrl_error (h : urlsplit url = .error ()) :
    isPageUrl urlsplit url = .error (.valueError "urlsplit") := by
  rw [isPageUrl,h]

theorem isPageUrl_ok {parsed : SplitResult} (h : urlsplit url = .ok parsed) :
    isPageUrl urlsplit url = .ok (isPage urlsplit url) := by
  simp only [isPage,isPageUrl,h]

theorem normalizeFrom_error (h : urlsplit url = .error ()) :
    normalizeFrom urlsplit limit result (url::urls) = .error (.valueError "urlsplit") := by
  rw [normalizeFrom,isPageUrl_error h]
  rfl

theorem normalizeFrom_cons {parsed : SplitResult} (h : urlsplit url = .ok parsed) :
    normalizeFrom urlsplit limit result (url::urls) =
      if isPage urlsplit url = true ∧ url ∉ result then
        if (result ++ [url]).length = limit then .ok (result ++ [url])
        else normalizeFrom urlsplit limit (result ++ [url]) urls
      else normalizeFrom urlsplit limit result urls := by
  rw [normalizeFrom,isPageUrl_ok h]
  show (if (!isPage urlsplit url || result.contains url) = true then _ else _) = _
  by_cases hkept : isPage urlsplit url = true ∧ url ∉ result
  · rw [if_neg (by simp [hkept]),if_pos hkept]
    rfl
  · have hskip : (!isPage urlsplit url || result.contains url) = true := by
      simp only [Bool.or_eq_true,Bool.not_eq_true',List.contains_eq_mem,decide_eq_true_eq]
      by_cases hpage : isPage urlsplit url = true
      · exact .inr (not_not.mp fun hnew => hkept ⟨hpage,hnew⟩)
      · exact .inl (Bool.not_eq_true _ ▸ hpage)
    rw [if_pos hskip,if_neg hkept]

/-- What has been kept and the pages that follow, each once. -/
def pagesAfter (urlsplit : String → Except Unit SplitResult) (result urls : List String) :
    List String :=
  (result ++ urls.filter (isPage urlsplit)).eraseDups

theorem pagesAfter_nil (hresult : result.Nodup) : pagesAfter urlsplit result [] = result := by
  rw [pagesAfter,List.filter_nil,List.append_nil,BrowserSidecar.eraseDups_eq_self hresult]

/-- A URL that is no page, or is there already, adds nothing. -/
theorem pagesAfter_skip (h : ¬(isPage urlsplit url = true ∧ url ∉ result)) :
    pagesAfter urlsplit result (url::urls) = pagesAfter urlsplit result urls := by
  rw [pagesAfter,pagesAfter]
  by_cases hpage : isPage urlsplit url = true
  · have hold : url ∈ result := not_not.mp fun hnew => h ⟨hpage,hnew⟩
    rw [List.filter_cons_of_pos hpage,BrowserSidecar.eraseDups_skip hold]
  · rw [List.filter_cons_of_neg hpage]

theorem pagesAfter_keep (hpage : isPage urlsplit url = true) :
    pagesAfter urlsplit result (url::urls) = pagesAfter urlsplit (result ++ [url]) urls := by
  rw [pagesAfter,pagesAfter,List.filter_cons_of_pos hpage,List.append_assoc]
  rfl

theorem prefix_pagesAfter (hresult : result.Nodup) :
    result <+: pagesAfter urlsplit result urls := by
  rw [pagesAfter,List.eraseDups_append,BrowserSidecar.eraseDups_eq_self hresult]
  exact List.prefix_append _ _

/-- What is returned are the first of the pages. -/
theorem normalizeFrom_first (hresult : result.Nodup) (hlength : result.length < limit)
    (h : normalizeFrom urlsplit limit result urls = .ok tabs) :
    tabs = (pagesAfter urlsplit result urls).take limit := by
  induction urls generalizing result with
  | nil =>
    cases h
    rw [pagesAfter_nil hresult,List.take_of_length_le hlength.le]
  | cons url urls ih =>
    cases hsplit : urlsplit url with
    | error e =>
      rw [normalizeFrom_error hsplit] at h
      cases h
    | ok parsed =>
      rw [normalizeFrom_cons hsplit] at h
      split_ifs at h with hkept hfull
      · cases h
        have hstart := @prefix_pagesAfter urlsplit _ urls
          (RestoredTabs.nodup_snoc hresult hkept.2)
        rw [pagesAfter_keep hkept.1,← hfull]
        exact List.prefix_iff_eq_take.mp hstart
      · rw [pagesAfter_keep hkept.1]
        refine ih (RestoredTabs.nodup_snoc hresult hkept.2) ?_ h
        rw [List.length_append,List.length_singleton] at hfull ⊢
        omega
      · rw [pagesAfter_skip hkept]
        exact ih hresult hlength h

/-- The loop returns exactly if it has filled up before it comes to a URL that is not taken. -/
theorem normalizeFrom_ok_iff (hresult : result.Nodup) (hlength : result.length < limit) :
    (∃ tabs, normalizeFrom urlsplit limit result urls = .ok tabs) ↔
      ∀ before url after, urls = before ++ url::after → urlsplit url = .error () →
        limit ≤ (pagesAfter urlsplit result before).length := by
  induction urls generalizing result with
  | nil => simp [normalizeFrom]
  | cons url urls ih =>
    have htail : ∀ {P : List String → Prop} {parsed}, urlsplit url = .ok parsed →
        ((∀ before u after, url::urls = before ++ u::after → urlsplit u = .error () → P before) ↔
          ∀ before u after, urls = before ++ u::after → urlsplit u = .error () →
            P (url::before)) := by
      intro P parsed hsplit
      constructor
      · rintro h before u after rfl hu
        exact h (url::before) u after rfl hu
      · intro h before u after hurls hu
        cases before with
        | nil =>
          cases hurls
          rw [hsplit] at hu
          cases hu
        | cons first before =>
          cases hurls
          exact h before u after rfl hu
    cases hsplit : urlsplit url with
    | error e =>
      rw [normalizeFrom_error hsplit]
      constructor
      · rintro ⟨tabs,htabs⟩
        cases htabs
      · intro h
        have hnone := h [] url urls rfl hsplit
        rw [pagesAfter_nil hresult] at hnone
        omega
    | ok parsed =>
      rw [normalizeFrom_cons hsplit,htail hsplit]
      split_ifs with hkept hfull
      · refine iff_of_true ⟨_,rfl⟩ fun before u after _ _ => ?_
        rw [pagesAfter_keep hkept.1,← hfull]
        exact (prefix_pagesAfter (RestoredTabs.nodup_snoc hresult hkept.2)).length_le
      · rw [ih (RestoredTabs.nodup_snoc hresult hkept.2)]
        · simp only [pagesAfter_keep hkept.1]
        · rw [List.length_append,List.length_singleton] at hfull ⊢
          omega
      · rw [ih hresult hlength]
        simp only [pagesAfter_skip hkept]

theorem pagesAfter_none (urls : List String) :
    pagesAfter urlsplit [] urls = pages urlsplit urls := rfl

theorem normal_of_value (hlimit : 0 < limit) (h : normalizeFrom urlsplit limit [] urls = .ok tabs) :
    Normal urlsplit limit urls tabs := by
  have hfirst := normalizeFrom_first List.nodup_nil hlimit h
  obtain ⟨hdistinct,hlength⟩ := RestoredTabs.normalizeFrom_distinct List.nodup_nil hlimit h
  have hpages := normalizeFrom_pages (by simp) h
  refine ⟨h,hlength,hdistinct,hpages,?_,hfirst,?_⟩
  · rw [hfirst,pagesAfter_none,pages,BrowserSidecar.eraseDups_filter]
    exact (List.take_sublist _ _).trans List.filter_sublist
  · exact @RestoredTabs.normalizeFrom_keeps urlsplit limit [] tabs hpages hdistinct hlength

theorem normal_iff (hlimit : 0 < limit) :
    (∃ tabs, Normal urlsplit limit urls tabs) ↔ CutOff urlsplit limit urls := by
  rw [CutOff]
  simp only [← pagesAfter_none]
  rw [← normalizeFrom_ok_iff List.nodup_nil hlimit]
  exact ⟨fun ⟨tabs,h⟩ => ⟨tabs,h.value⟩,fun ⟨tabs,h⟩ => ⟨tabs,normal_of_value hlimit h⟩⟩

/-- What a ready slot captures of the open pages. -/
theorem capture_ready {a : Answers} {s : Slot} {ready : BrowserReadiness}
    (hready : s.lifecycle.state = .ready)
    (howner : probeOwner s.transport s.browser s.lifecycle.binding a.owner = .ok ready)
    (hlisting : a.listing = .ok urls) :
    capture urlsplit a s s.lifecycle.binding = (normalizeUrls urlsplit urls).map fun tabs =>
      ⟨s.lifecycle.binding,s.lifecycle.state,tabs⟩ := by
  rw [capture,howner,hlisting]
  show s.lifecycle.captureTabs urlsplit s.lifecycle.binding urls = _
  rw [OwnerBoundLifecycle.captureTabs,OwnerBoundLifecycle.requireBinding,if_pos rfl,hready]
  cases normalizeUrls urlsplit urls <;> rfl

/-- The answers of a transport that reports these pages. -/
def listing (urls : List String) : Answers := { obliging with listing := .ok urls }

theorem neverBlocks_iff : NeverBlocks urlsplit urls ↔ CutOff urlsplit 10 urls := by
  rw [← normal_iff (by decide)]
  constructor
  · intro h
    have hready : probeOwner (aliceSlot.inState .ready).transport (aliceSlot.inState .ready).browser
        (aliceSlot.inState .ready).lifecycle.binding (listing urls).owner =
          .ok ⟨"alice","generation-a",true⟩ := rfl
    obtain ⟨result,hresult⟩ := h (listing urls) (aliceSlot.inState .ready) rfl ⟨_,hready⟩ rfl rfl rfl
      rfl
    cases hurls : normalizeUrls urlsplit urls with
    | error e =>
      rw [exec_suspend,capture_ready rfl hready rfl,hurls] at hresult
      cases hresult
    | ok tabs => exact ⟨tabs,normal_of_value (by decide) hurls⟩
  · rintro ⟨tabs,h⟩ a s hready ⟨ready,howner⟩ hlisting hsnapshot hlastGood hstop
    have hurls : normalizeUrls urlsplit urls = .ok tabs := h.value
    have hcaptured := @capture_ready urlsplit _ _ _ _ hready howner hlisting
    rw [hurls] at hcaptured
    have hwritten := (writeTabs_ok a ⟨s.lifecycle.binding,s.lifecycle.state,tabs⟩ s.lifecycle).mpr
      ⟨hsnapshot,hlastGood⟩
    rw [exec_suspend,hcaptured]
    simp only [Except.map]
    rcases hw : writeTabs a ⟨s.lifecycle.binding,s.lifecycle.state,tabs⟩ s.lifecycle with ⟨r,l⟩
    rw [hw] at hwritten
    cases hwritten
    rw [hstop]
    exact ⟨_,rfl⟩

end Values

/-- `normalize_urls` returns and is canonical, and no suspend is blocked by the open pages, exactly
where every URL that `urlsplit` does not take comes after as many pages as are kept. -/
theorem canonical_iff (urlsplit : String → Except Unit SplitResult) (limit : ℕ)
    (hlimit : 0 < limit) (urls : List String) :
    (∃ tabs, Normal urlsplit limit urls tabs) ∧ NeverBlocks urlsplit urls ↔
      CutOff urlsplit limit urls ∧ CutOff urlsplit 10 urls := by
  rw [normal_iff hlimit,neverBlocks_iff]

/-- The standard library's parser as far as these two texts go. -/
def twoTexts (url : String) : Except Unit SplitResult :=
  if url = "http://[" then .error () else .ok ⟨"https","site","/","","",none,none⟩

theorem canonical_site : (∃ tabs, Normal twoTexts 10 ["https://site/"] tabs) ∧
    NeverBlocks twoTexts ["https://site/"] := by
  have hcut : ∀ limit, CutOff twoTexts limit ["https://site/"] := by
    intro limit before url after hurls hsplit
    have hmem : url ∈ ["https://site/"] := hurls ▸ List.mem_append_right _ List.mem_cons_self
    rw [List.mem_singleton.mp hmem] at hsplit
    cases hsplit
  exact (canonical_iff twoTexts 10 (by decide) ["https://site/"]).mpr ⟨hcut 10,hcut 10⟩

/-- One page with a malformed host blocks the suspend. -/
theorem malformed_host_blocks : ¬∀ (urlsplit : String → Except Unit SplitResult) (limit : ℕ)
    (urls : List String), 0 < limit →
    (∃ tabs, Normal urlsplit limit urls tabs) ∧ NeverBlocks urlsplit urls := by
  intro h
  obtain ⟨⟨tabs,hnormal⟩,-⟩ := h twoTexts 10 ["https://site/","http://["] (by decide)
  have hvalue := hnormal.value
  have hraised : normalizeFrom twoTexts 10 [] ["https://site/","http://["] =
      .error (.valueError "urlsplit") := by decide +kernel
  rw [hraised] at hvalue
  cases hvalue

end CanonicalTabs
end CloudBrowser
