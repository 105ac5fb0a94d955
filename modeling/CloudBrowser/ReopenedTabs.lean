import CloudBrowser.PageListing
import CloudBrowser.RestoredTabs

/-! The tabs of a slot from a suspend to the next wake, with the browser sidecar between the
supervisor and Chrome: which pages are captured, and which of them the sidecar opens again. -/
namespace CloudBrowser
namespace BrowserSidecar

open Stateful SlotSupervisor
open AgentControl (SplitResult AgentError sendJson)

section Adapter

variable (urlsplit : String → Except Unit SplitResult)

/-- `ChromeBrowserAdapter._is_page_url`. -/
def adapterIsPageUrl (url : String) : Except SidecarError Bool :=
  match urlsplit url with
  | .error _ => .error .valueError
  | .ok parsed => .ok (absoluteHttp parsed && noUserinfo parsed && parsed.fragment = "")

/-- What one target adds to the list of `list_page_urls`. -/
def pageUrl : Json → Except SidecarError (Option String)
  | .obj fields =>
    match Json.get fields "type", Json.get fields "url" with
    | .str "page", .str url => (adapterIsPageUrl urlsplit url).map fun page =>
      if page then some url else none
    | _, _ => .ok none
  | _ => .ok none

def listPageUrls : Json → Except SidecarError (List String)
  | .arr targets => (targets.mapM (pageUrl urlsplit)).map (List.filterMap id)
  | _ => .error (.unavailable "invalid Chrome target response")

-- `float.__repr__`
variable (repr : ℚ → List Char)

/-- `GET /browser/pages`, for what Chrome sends for its list of targets. -/
def getBrowserPages (sent : Bytes) : ℕ × Bytes :=
  match (chromeJson sent).bind (listPageUrls urlsplit) with
  | .ok urls => respond repr 200 (.obj [("urls",.arr (urls.map Json.str))])
  | .error (.unavailable _) => respond repr 503 (failing "browser_unavailable")
  | .error .valueError => respond repr 400 (failing "invalid_request")

/-- `_read_text` of a request with this body. -/
def readText (body : Bytes) : Except SidecarError String :=
  if body.length = 0 ∨ 8192 < body.length then .error .valueError
  else match Text.decodeUtf8 body with
  | none => .error .valueError
  | some text => .ok text

/-- What `POST /browser/pages/open` checks before Chrome is asked for the page. -/
def requestedPage (body : Bytes) : Except SidecarError String := do
  let url ← readText body
  if ← adapterIsPageUrl urlsplit url then return url
  else throw .valueError

/-- `ChromeHttpClient.json_request`, where Chrome may not answer or answer with an error. -/
def askChrome (answer : Option Bytes) : Except SidecarError Json :=
  answer.elim (.error (.unavailable "Chrome is unavailable")) chromeJson

/-- `ChromeHttpClient.text_request`. -/
def askChromeText (answer : Option Bytes) : Except SidecarError String :=
  match answer.bind fun sent => Text.decodeUtf8 (sent.take (128*1024)) with
  | none => .error (.unavailable "Chrome returned invalid text")
  | some text => .ok text

def operated (r : Except SidecarError Unit) : ℕ × Bytes :=
  match r with
  | .ok _ => respond repr 200 (.obj [("ok",.bool true)])
  | .error _ => respond repr 503 (failing "browser_operation_failed")

/-- `POST /browser/pages/open`, for what Chrome answers to `/json/new`. -/
def postOpen (body : Bytes) (created : Option Bytes) : ℕ × Bytes :=
  operated repr do
    let _ ← requestedPage urlsplit body
    let _ ← askChrome created

/-- The blank tabs of a target list that can be closed. -/
def blankTabs (targets : List Json) : List String :=
  targets.filterMap fun
    | .obj fields =>
      match Json.get fields "type", Json.get fields "url", Json.get fields "id" with
      | .str "page", .str url, .str targetId =>
        if url ∈ ["about:blank","chrome://newtab/"] then some targetId else none
      | _, _, _ => none
    | _ => none

/-- `close_empty_pages`, for what Chrome answers to `/json/list` and then to `/json/close`. -/
def closeEmptyPages (listed : Option Bytes) (closed : String → Option Bytes) :
    Except SidecarError Unit := do
  match ← askChrome listed with
  | .arr targets => do
    let _ ← (blankTabs targets).mapM fun targetId => askChromeText (closed targetId)
  | _ => throw (.unavailable "invalid Chrome target response")

/-- `POST /browser/pages/close-empty`. -/
def postCloseEmpty (listed : Option Bytes) (closed : String → Option Bytes) : ℕ × Bytes :=
  operated repr (closeEmptyPages listed closed)

end Adapter

section Transport

/-- `HttpJsonClient` raises `BrowserUnavailable`, which the supervisor sees as it is. -/
def transportError : AgentError → SlotError
  | .browserUnavailable message => .browserUnavailable message
  | .valueError message => .valueError message
  | _ => .other

def transportJson (answer : ℕ × Bytes) : Except SlotError Json :=
  (clientJson answer).mapError transportError

/-- `HttpBrowserTransport.list_page_urls`, for what the browser API answers. -/
def transportUrls : Json → Except SlotError (List String)
  | .obj fields =>
    match Json.get fields "urls" with
    | .arr urls =>
      if urls.all fun url => url.asString.isSome then .ok (urls.filterMap Json.asString)
      else .error (.browserUnavailable "invalid browser page URL")
    | _ => .error (.browserUnavailable "invalid browser pages response")
  | _ => .error (.browserUnavailable "invalid browser pages response")

/-- `HttpBrowserTransport._expect_ok`. -/
def expectOk : Json → Except SlotError Unit
  | .obj fields =>
    match Json.get fields "ok" with
    | .bool true => .ok ()
    | _ => .error (.browserUnavailable "browser operation was not acknowledged")
  | _ => .error (.browserUnavailable "browser operation was not acknowledged")

/-- The reply to a command, of which it is known whether it takes effect where it fails. -/
def commandReply (answer : ℕ × Bytes) (effective : Bool) : Reply :=
  match (transportJson answer).bind expectOk with
  | .ok _ => .acknowledged
  | .error e => .failed e effective

/-- What Chrome answers during a wake: to the `n`-th `/json/new`, to the `/json/list` at the end, and
to each `/json/close`. Without an answer, Chrome is not reached or answers with an error. -/
structure Chrome where
  created : ℕ → Option Bytes
  listed : Option Bytes
  closed : String → Option Bytes

variable (urlsplit : String → Except Unit SplitResult) (repr : ℚ → List Char)

/-- The answers where the pages are listed by the sidecar, and Chrome sends it this target list. -/
def listedBy (a : Answers) (sent : Bytes) : Answers :=
  { a with listing := (transportJson (getBrowserPages urlsplit repr sent)).bind transportUrls }

/-- The answers where the sidecar opens the `urls` one after the other, and closes what is empty. A
page that it refuses is not opened. -/
def openedBy (a : Answers) (chrome : Chrome) (urls : List String) : Answers :=
  { a with
    opens := fun n =>
      let body := Text.encodeUtf8 (urls.getD n "")
      commandReply (postOpen urlsplit repr body (chrome.created n))
        ((requestedPage urlsplit body).toOption.isSome && (a.opens n).effective)
    closeEmpty := commandReply (postCloseEmpty repr chrome.listed chrome.closed)
      a.closeEmpty.effective }

end Transport

/-! ### The first ten distinct URLs -/

section Distinct

variable {α : Type} {l : List α} {p : α → Bool} {n : ℕ}

/-- A filter leaves the start of a list as it is where it takes nothing out there. -/
theorem take_filter : (l.filter p).take n = l.take n ↔ ∀ x ∈ l.take n, p x = true := by
  constructor
  · intro h x hx
    rw [← h] at hx
    exact List.of_mem_filter (List.mem_of_mem_take hx)
  · intro h
    induction l generalizing n with
    | nil => rfl
    | cons x l ih =>
      cases n with
      | zero => rfl
      | succ n =>
        simp only [List.take_succ_cons,List.mem_cons,forall_eq_or_imp] at h
        rw [List.filter_cons_of_pos h.1,List.take_succ_cons,List.take_succ_cons,ih h.2]

variable [BEq α] [LawfulBEq α]

theorem eraseDups_eq_self (h : l.Nodup) : l.eraseDups = l := by
  induction l with
  | nil => rfl
  | cons x l ih =>
    obtain ⟨hfresh,hl⟩ := List.nodup_cons.mp h
    have hkept : (l.filter fun y => !y == x) = l := by
      apply List.filter_eq_self.mpr
      intro y hy
      simp [ne_of_mem_of_not_mem hy hfresh]
    rw [List.eraseDups_cons,hkept,ih hl]

theorem eraseDups_filter (l : List α) : (l.filter p).eraseDups = l.eraseDups.filter p := by
  induction hlength : l.length using Nat.strong_induction_on generalizing l with
  | _ n ih =>
    cases l with
    | nil => rfl
    | cons x l =>
      have hshort : (l.filter fun y => !y == x).length < n := by
        have hle := List.length_filter_le (fun y => !y == x) l
        simp only [List.length_cons] at hlength
        omega
      have hrest := ih _ hshort _ rfl
      rw [List.filter_filter] at hrest
      rw [List.eraseDups_cons]
      by_cases hx : p x = true
      · rw [List.filter_cons_of_pos hx,List.filter_cons_of_pos hx,List.eraseDups_cons,← hrest,
          List.filter_filter]
        simp only [Bool.and_comm]
      · rw [List.filter_cons_of_neg hx,List.filter_cons_of_neg hx,← hrest]
        congr 1
        apply List.filter_congr
        intro y _
        by_cases hy : y = x
        · simp [hy,hx]
        · simp [hy]

theorem eraseDups_skip {x : α} {l' : List α} (h : x ∈ l) :
    (l ++ x::l').eraseDups = (l ++ l').eraseDups := by
  rw [List.eraseDups_append,List.eraseDups_append,List.cons_removeAll]
  simp [h]

end Distinct

section Normalized

variable {urlsplit : String → Except Unit SplitResult} {limit : ℕ} {result urls : List String}

/-- Of page URLs, `normalize_urls` keeps the first distinct ones. -/
theorem normalizeFrom_pageUrls (hpages : ∀ url ∈ urls, isPageUrl urlsplit url = .ok true)
    (hdistinct : result.Nodup) (hlength : result.length < limit) :
    normalizeFrom urlsplit limit result urls = .ok ((result ++ urls).eraseDups.take limit) := by
  induction urls generalizing result with
  | nil => rw [List.append_nil,eraseDups_eq_self hdistinct,List.take_of_length_le hlength.le]; rfl
  | cons url urls ih =>
    have hrest : ∀ u ∈ urls, isPageUrl urlsplit u = .ok true := fun u hu =>
      hpages u (List.mem_cons_of_mem _ hu)
    rw [normalizeFrom,hpages url List.mem_cons_self]
    simp only [bind,Except.bind,Bool.not_true,Bool.false_or,List.contains_eq_mem,decide_eq_true_eq]
    by_cases hold : url ∈ result
    · rw [if_pos hold,ih hrest hdistinct hlength,eraseDups_skip hold]
    · have hsame : result ++ url::urls = (result ++ [url]) ++ urls := by simp
      have hlonger := RestoredTabs.nodup_snoc hdistinct hold
      rw [if_neg hold,hsame]
      split_ifs with hfull
      · rw [List.eraseDups_append,eraseDups_eq_self hlonger,List.take_append_of_le_length hfull.ge,
          List.take_of_length_le hfull.le]
        rfl
      · rw [ih hrest hlonger]
        simp only [List.length_append,List.length_singleton] at hfull ⊢
        omega

theorem normalizeUrls_pageUrls (hpages : ∀ url ∈ urls, isPageUrl urlsplit url = .ok true) :
    normalizeUrls urlsplit urls = .ok (urls.eraseDups.take 10) := by
  have h := @normalizeFrom_pageUrls urlsplit 10 [] urls hpages List.nodup_nil (by simp)
  exact h

end Normalized

/-! ### What is captured -/

section Captured

variable {urlsplit : String → Except Unit SplitResult} {repr : ℚ → List Char} {a : Answers}
  {target : Json} {targets : List Json} {sent : Bytes} {urls : List String}

/-- The absolute HTTP(S) URLs without userinfo of a target list. -/
def webUrls (urlsplit : String → Except Unit SplitResult) (targets : List Json) : List String :=
  (webPages urlsplit targets).map WebPage.url

/-- The first ten of them, each once. -/
def firstTabs (urlsplit : String → Except Unit SplitResult) (targets : List Json) : List String :=
  (webUrls urlsplit targets).eraseDups.take 10

def noFragment (urlsplit : String → Except Unit SplitResult) (url : String) : Bool :=
  (urlsplit url).toOption.any fun parsed => parsed.fragment = ""

theorem pageUrl_eq {o : Option String} (h : pageUrl urlsplit target = .ok o) :
    o = ((webPage urlsplit target).map WebPage.url).filter (noFragment urlsplit) := by
  cases target with
  | obj fields =>
    simp only [pageUrl] at h
    split at h
    · rename_i url htype hurl
      rw [adapterIsPageUrl] at h
      cases hsplit : urlsplit url with
      | error e =>
        rw [hsplit] at h
        cases h
      | ok parsed =>
        have hsame : WebPage.url ⟨fields,parsed⟩ = url := by
          rw [WebPage.url,hurl]
          rfl
        rw [hsplit] at h
        cases h
        by_cases hweb : absoluteHttp parsed && noUserinfo parsed
        · simp [webPage,htype,hurl,hsplit,hweb,noFragment,Except.toOption,Option.filter,hsame]
        · simp [webPage,htype,hurl,hsplit,hweb]
    · rename_i hnone
      cases h
      have hweb : webPage urlsplit (.obj fields) = none := by
        cases hw : webPage urlsplit (.obj fields) with
        | none => rfl
        | some w =>
          obtain ⟨hsame,htype,hurl,-⟩ := webPage_eq_some.mp hw
          cases hsame
          exact absurd hurl (hnone _ htype)
      rw [hweb]
      rfl
  | _ =>
    cases h
    rfl

/-- The adapter leaves out the URLs that have a fragment. -/
theorem listPageUrls_eq (h : listPageUrls urlsplit (.arr targets) = .ok urls) :
    urls = (webUrls urlsplit targets).filter (noFragment urlsplit) := by
  simp only [listPageUrls] at h
  induction targets generalizing urls with
  | nil =>
    cases h
    rfl
  | cons target targets ih =>
    cases htarget : pageUrl urlsplit target with
    | error e =>
      rw [List.mapM_cons,htarget] at h
      cases h
    | ok o =>
      cases hrest : targets.mapM (pageUrl urlsplit) with
      | error e =>
        rw [List.mapM_cons,htarget,hrest] at h
        cases h
      | ok os =>
        rw [List.mapM_cons,htarget,hrest] at h
        cases h
        have hurls := ih (by rw [hrest]; rfl)
        have ho := pageUrl_eq htarget
        cases hweb : webPage urlsplit target with
        | none =>
          rw [hweb] at ho
          rw [webUrls,webPages,List.filterMap_cons_none hweb,List.filterMap_cons_none ho]
          exact hurls
        | some w =>
          rw [hweb,Option.map_some,Option.filter_some] at ho
          rw [webUrls,webPages,List.filterMap_cons_some hweb,List.map_cons,List.filter_cons]
          by_cases hfragment : noFragment urlsplit w.url = true
          · rw [if_pos hfragment] at ho ⊢
            rw [List.filterMap_cons_some ho,hurls]
            rfl
          · rw [if_neg hfragment] at ho ⊢
            rw [List.filterMap_cons_none ho,hurls]
            rfl

theorem plain_urls (urls : List String) :
    Json.Plain (.obj [("urls",.arr (urls.map Json.str))]) := by
  refine .obj _ ?_ (by simp)
  simp only [List.mem_cons,List.not_mem_nil,or_false,forall_eq]
  refine .arr _ ?_
  simp only [List.mem_map]
  rintro _ ⟨url,-,rfl⟩
  exact .str url

theorem transportUrls_urls :
    transportUrls (.obj [("urls",.arr (urls.map Json.str))]) = .ok urls := by
  have hall : (urls.map Json.str).all (fun url => url.asString.isSome) = true := by
    simp [Json.asString]
  have hread : (urls.map Json.str).filterMap Json.asString = urls := by
    rw [List.filterMap_map]
    exact List.filterMap_some
  exact (if_pos hall).trans (congrArg Except.ok hread)

theorem transportJson_ok {answer : ℕ × Bytes} {v : Json} :
    transportJson answer = .ok v ↔ clientJson answer = .ok v := by
  cases h : clientJson answer <;> simp [transportJson,h,Except.mapError]

/-- What the supervisor is told, where it is told something. -/
theorem listing_eq (hsent : (Text.decodeUtf8 sent).bind Json.loads = some (.arr targets))
    (h : (listedBy urlsplit repr a sent).listing = .ok urls) :
    urls = (webUrls urlsplit targets).filter (noFragment urlsplit) := by
  obtain ⟨v,hv,hurls⟩ := bind_ok h
  rw [transportJson_ok,getBrowserPages] at hv
  split at hv
  · rename_i listed hlisted
    rw [clientJson_plain (plain_urls listed) (clientJson_ok hv).2] at hv
    cases hv
    rw [transportUrls_urls] at hurls
    cases hurls
    obtain ⟨v,hread,hpages⟩ := bind_ok hlisted
    cases v with
    | arr items =>
      cases Json.readJson_list (chromeJson_eq.mp hread) hsent
      exact listPageUrls_eq hpages
    | _ => cases hpages
  · exact absurd (clientJson_ok hv).1 (by decide)
  · exact absurd (clientJson_ok hv).1 (by decide)

end Captured

section Suspended

variable {urlsplit : String → Except Unit SplitResult} {repr : ℚ → List Char} {a : Answers}
  {s s' : Slot} {binding : BrowserBinding} {targets : List Json} {sent : Bytes} {url : String}
  {result : OrchestrationResult}

theorem mem_webUrls : url ∈ webUrls urlsplit targets ↔
    ∃ w ∈ webPages urlsplit targets, w.url = url := by
  simp [webUrls]

theorem webPages_split {w : WebPage} (h : w ∈ webPages urlsplit targets) :
    urlsplit w.url = .ok w.parsed ∧ absoluteHttp w.parsed = true ∧ noUserinfo w.parsed = true := by
  obtain ⟨target,-,hw⟩ := List.mem_filterMap.mp h
  exact (webPage_eq_some.mp hw).2.2.2

theorem isPageUrl_web (h : url ∈ webUrls urlsplit targets) : isPageUrl urlsplit url = .ok true := by
  obtain ⟨w,hw,rfl⟩ := mem_webUrls.mp h
  obtain ⟨hsplit,habsolute,-⟩ := webPages_split hw
  rw [isPageUrl,hsplit]
  simpa [absoluteHttp] using habsolute

/-- A web page without a fragment is a page to the adapter. -/
theorem adapterIsPageUrl_web (h : url ∈ webUrls urlsplit targets)
    (hfragment : noFragment urlsplit url = true) : adapterIsPageUrl urlsplit url = .ok true := by
  obtain ⟨w,hw,rfl⟩ := mem_webUrls.mp h
  obtain ⟨hsplit,habsolute,huserinfo⟩ := webPages_split hw
  simp only [noFragment,hsplit,Except.toOption,Option.any_some] at hfragment
  simp [adapterIsPageUrl,hsplit,habsolute,huserinfo,hfragment]

/-- The tabs that a suspend captures. -/
def capturedTabs (urlsplit : String → Except Unit SplitResult) (targets : List Json) : List String :=
  ((webUrls urlsplit targets).filter (noFragment urlsplit)).eraseDups.take 10

/-- A suspend that succeeds has both of its snapshots written, and the browser stopped. -/
theorem suspend_writes (h : exec (suspend urlsplit a binding) s = (.ok result,s')) :
    ∃ urls captured, a.listing = .ok urls ∧
      s.lifecycle.captureTabs urlsplit binding urls = .ok captured ∧
      result = ⟨"suspended",.suspended,captured.urls⟩ ∧
      s'.lifecycle = { s.lifecycle with
        state := .suspended, snapshotFile := some captured, lastGoodFile := some captured } := by
  rw [exec_suspend] at h
  cases hcapture : capture urlsplit a s binding with
  | error e =>
    rw [hcapture] at h
    cases h
  | ok captured =>
    obtain ⟨ready,-,hlisting⟩ := bind_ok hcapture
    obtain ⟨urls,hurls,hcaptured⟩ := bind_ok hlisting
    have hwritten := writeTabs_ok a captured s.lifecycle
    rw [hcapture] at h
    dsimp only at h
    rcases hwrites : writeTabs a captured s.lifecycle with ⟨e | _,l⟩
    · rw [hwrites] at h
      cases h
    · rw [hwrites] at h hwritten
      obtain ⟨hfirst,hsecond⟩ := hwritten.mp rfl
      have hl := congrArg Prod.snd hwrites
      simp only [writeTabs,hfirst,hsecond,Reply.outcome_acknowledged,Reply.on_acknowledged] at hl
      subst hl
      cases hstop : a.stop.outcome with
      | error e =>
        rw [hstop] at h
        cases h
      | ok _ =>
        rw [hstop] at h
        cases h
        exact ⟨urls,captured,hurls,hcaptured,rfl,rfl⟩

/-- A suspend that succeeds leaves the slot with the captured tabs on its disk. -/
theorem suspend_captures (hsent : (Text.decodeUtf8 sent).bind Json.loads = some (.arr targets))
    (h : exec (suspend urlsplit (listedBy urlsplit repr a sent) binding) s = (.ok result,s')) :
    s'.lifecycle.binding = binding ∧ s'.lifecycle.state = .suspended ∧
      s'.lifecycle.savedTabs urlsplit = capturedTabs urlsplit targets ∧
      result.restoredUrls = capturedTabs urlsplit targets := by
  obtain ⟨urls,captured,hurls,hcaptured,rfl,hafter⟩ := suspend_writes h
  obtain ⟨hbinding,htabs⟩ := RestoredTabs.captureTabs_owned hcaptured
  have hown := (s.lifecycle.captureTabs_ok binding hcaptured).1
  have hlisted := listing_eq hsent hurls
  have hsame : captured.urls = capturedTabs urlsplit targets := by
    have hall := @normalizeUrls_pageUrls urlsplit urls
      (by rw [hlisted]; exact fun url hurl => isPageUrl_web (List.mem_of_mem_filter hurl))
    rw [htabs,hlisted] at hall
    exact Except.ok.inj hall
  have hagain := RestoredTabs.normalizeUrls_again htabs
  rw [hsame] at hagain
  rw [hafter]
  refine ⟨hown.symm,rfl,?_,hsame⟩
  simp [OwnerBoundLifecycle.savedTabs,readSnapshot,hbinding,hown,hagain,Except.toOption,hsame]

end Suspended

/-! ### What is opened again -/

section Wake

variable {urlsplit : String → Except Unit SplitResult} {a : Answers} {s : Slot} {tabs : List String}
  {timeoutS pollS : ℚ}

/-- The wake ends ready, and these are the pages that it opens, one after the other. -/
def Reopened (urlsplit : String → Except Unit SplitResult) (a : Answers) (binding : BrowserBinding)
    (timeoutS pollS : ℚ) (s : Slot) (tabs : List String) : Prop :=
  ∃ s', exec (RestoredTabs.wake urlsplit a binding timeoutS pollS) ⟨s,[]⟩ =
    (.ok ⟨"ready",.ready,tabs⟩,⟨s',tabs.map (.opened binding)⟩) ∧ s'.lifecycle.state = .ready

theorem reopened_iff (hstate : s.lifecycle.state = .suspended) (htime : 0 < timeoutS ∧ 0 < pollS) :
    Reopened urlsplit a s.lifecycle.binding timeoutS pollS s tabs ↔
      ComesUp urlsplit a s ∧ tabs = s.lifecycle.savedTabs urlsplit := by
  have htime' : requirePositiveTimeout timeoutS pollS = .ok () :=
    if_neg (by simp [htime])
  have hwake := exec_wake_start urlsplit a s htime' (by simp [hstate])
  have hobserved := @RestoredTabs.wake_projects urlsplit a s.lifecycle.binding timeoutS pollS ⟨s,[]⟩
  obtain ⟨done,hrestores⟩ := @RestoredTabs.wake_restores urlsplit a s.lifecycle.binding timeoutS pollS
    ⟨s,[]⟩
  have hup := launch_ok urlsplit a s
  rw [hwake] at hobserved
  rcases hrun : exec (RestoredTabs.wake urlsplit a s.lifecycle.binding timeoutS pollS) ⟨s,[]⟩ with
    ⟨r,⟨s',log⟩⟩
  rw [hrun] at hobserved hrestores
  constructor
  · rintro ⟨s'',hreopened,-⟩
    cases hrun.symm.trans hreopened
    rcases hlaunch : launch urlsplit a s with ⟨e | _,browser⟩
    · rw [hlaunch] at hobserved
      cases hcleanup : a.cleanup.outcome <;> simp [hcleanup,Except.bind] at hobserved
    · have hreturned := hrestores.returned _ rfl
      rw [hlaunch] at hup
      exact ⟨hup.mp rfl,hreturned.2.1⟩
  · rintro ⟨hcomes,rfl⟩
    rcases hlaunch : launch urlsplit a s with ⟨e | _,browser⟩
    · rw [hlaunch] at hup
      cases hup.mpr hcomes
    · rw [hlaunch] at hobserved
      dsimp only at hobserved
      obtain ⟨rfl,rfl⟩ := Prod.mk.inj hobserved.symm
      have hlog := hrestores.log
      have hdone := (hrestores.returned _ rfl).2.2
      rw [if_neg (by simp [hstate])] at hdone
      rw [hdone] at hlog
      dsimp only at hlog
      rw [List.nil_append] at hlog
      exact ⟨_,by rw [hrun,hlog],rfl⟩

end Wake

section Commands

variable {urlsplit : String → Except Unit SplitResult} {repr : ℚ → List Char}

/-- A command is acknowledged exactly where the sidecar carries it out. -/
theorem commandReply_acknowledged {r : Except SidecarError Unit} {effective : Bool} :
    commandReply (operated repr r) effective = .acknowledged ↔ r = .ok () := by
  cases r with
  | ok _ =>
    have hplain : Json.Plain (.obj [("ok",.bool true)]) := by
      refine .obj _ ?_ (by simp)
      simp only [List.mem_cons,List.not_mem_nil,or_false,forall_eq]
      exact .bool true
    have hlength : (Json.encode repr (.obj [("ok",.bool true)])).length = 11 := rfl
    have hshort : (sendJson repr (.obj [("ok",.bool true)])).length ≤ 64*1024 := by
      rw [AgentControl.length_sendJson hplain,hlength]
      omega
    have hsent := transportJson_ok.mpr (clientJson_plain hplain hshort)
    simp only [commandReply,operated,hsent]
    simp [Except.bind,expectOk,Json.get]
  | error e =>
    have hrefused : ∀ v, transportJson (operated repr (.error e)) ≠ .ok v := by
      intro v hv
      exact absurd (clientJson_ok (transportJson_ok.mp hv)).1 (by decide)
    cases hsent : transportJson (operated repr (.error e)) with
    | ok v => exact absurd hsent (hrefused v)
    | error e' => simp [commandReply,hsent,Except.bind]

theorem askChrome_ok {answer : Option Bytes} {v : Json} : askChrome answer = .ok v ↔
    ∃ sent, answer = some sent ∧ Json.readJson (128*1024) sent = some v := by
  cases answer with
  | none => simp [askChrome]
  | some sent => simp [askChrome,chromeJson_eq]

theorem askChromeText_ok {answer : Option Bytes} : (∃ text, askChromeText answer = .ok text) ↔
    ∃ sent, answer = some sent ∧ (Text.decodeUtf8 (sent.take (128*1024))).isSome = true := by
  cases answer with
  | none => simp [askChromeText]
  | some sent =>
    cases h : Text.decodeUtf8 (sent.take (128*1024)) <;> simp [askChromeText,h]

/-- The body of a request is read where it has a byte and no more than 8192. -/
theorem readText_encodeUtf8 (text : String) : readText (Text.encodeUtf8 text) =
    if 0 < Text.utf8Length text ∧ Text.utf8Length text ≤ 8192 then .ok text
    else .error .valueError := by
  rw [readText,Text.length_encodeUtf8,Text.decodeUtf8_encodeUtf8]
  split_ifs with h h' h'
  · omega
  · rfl
  · rfl
  · omega

theorem requestedPage_ok {url : String} (hpage : adapterIsPageUrl urlsplit url = .ok true) :
    requestedPage urlsplit (Text.encodeUtf8 url) =
      if 0 < Text.utf8Length url ∧ Text.utf8Length url ≤ 8192 then .ok url
      else .error .valueError := by
  rw [requestedPage,readText_encodeUtf8]
  split_ifs
  · simp [bind,Except.bind,hpage,pure,Except.pure]
  · rfl

theorem closeEmptyPages_ok {listed : Option Bytes} {closed : String → Option Bytes} :
    closeEmptyPages listed closed = .ok () ↔ ∃ sent items, listed = some sent ∧
      Json.readJson (128*1024) sent = some (.arr items) ∧
      ∀ targetId ∈ blankTabs items, ∃ answer, closed targetId = some answer ∧
        (Text.decodeUtf8 (answer.take (128*1024))).isSome = true := by
  have hclosed : ∀ items : List Json,
      ((blankTabs items).mapM fun targetId => askChromeText (closed targetId)).bind
        (fun _ => .ok ()) = .ok () ↔
      ∀ targetId ∈ blankTabs items, ∃ answer, closed targetId = some answer ∧
        (Text.decodeUtf8 (answer.take (128*1024))).isSome = true := by
    intro items
    simp only [← askChromeText_ok,← mapM_ok_iff]
    cases (blankTabs items).mapM fun targetId => askChromeText (closed targetId) <;>
      simp [Except.bind]
  constructor
  · intro h
    obtain ⟨v,hv,h⟩ := bind_ok h
    obtain ⟨sent,hsent,hread⟩ := askChrome_ok.mp hv
    cases v with
    | arr items => exact ⟨sent,items,hsent,hread,(hclosed items).mp h⟩
    | _ => cases h
  · rintro ⟨sent,items,hsent,hread,hall⟩
    have hv := askChrome_ok.mpr ⟨sent,hsent,hread⟩
    rw [closeEmptyPages,hv]
    exact (hclosed items).mpr hall

end Commands

section Fidelity

variable {urlsplit : String → Except Unit SplitResult} {repr : ℚ → List Char} {a : Answers}
  {chrome : Chrome} {urls : List String} {targets : List Json}

/-- The tabs have no fragment, their URLs fit into the body of a request to the sidecar, Chrome
answers to the opening of each, and to what is closed at the end. -/
structure Reopenable (urlsplit : String → Except Unit SplitResult) (chrome : Chrome)
    (targets : List Json) : Prop where
  fragments : ∀ w ∈ webPages urlsplit targets, w.url ∈ firstTabs urlsplit targets →
    w.parsed.fragment = ""
  sizes : ∀ url ∈ firstTabs urlsplit targets, 0 < Text.utf8Length url ∧ Text.utf8Length url ≤ 8192
  created : ∀ n < (firstTabs urlsplit targets).length, ∃ sent v, chrome.created n = some sent ∧
    Json.readJson (128*1024) sent = some v
  emptied : ∃ sent items, chrome.listed = some sent ∧
    Json.readJson (128*1024) sent = some (.arr items) ∧
    ∀ targetId ∈ blankTabs items, ∃ answer, chrome.closed targetId = some answer ∧
      (Text.decodeUtf8 (answer.take (128*1024))).isSome = true

theorem capturedTabs_eq :
    capturedTabs urlsplit targets = firstTabs urlsplit targets ↔
      ∀ w ∈ webPages urlsplit targets, w.url ∈ firstTabs urlsplit targets → w.parsed.fragment = "" := by
  have hfragment : ∀ w ∈ webPages urlsplit targets,
      noFragment urlsplit w.url = true ↔ w.parsed.fragment = "" := by
    intro w hw
    simp [noFragment,(webPages_split hw).1,Except.toOption]
  rw [capturedTabs,eraseDups_filter,firstTabs,take_filter]
  constructor
  · intro h w hw htab
    exact (hfragment w hw).mp (h w.url htab)
  · intro h url htab
    obtain ⟨w,hw,rfl⟩ := mem_webUrls.mp (List.mem_eraseDups.mp (List.mem_of_mem_take htab))
    exact (hfragment w hw).mpr (h w hw htab)

/-- One page is opened where its URL fits and Chrome answers. -/
theorem postOpen_acknowledged {url : String} {created : Option Bytes} {effective : Bool}
    (hpage : adapterIsPageUrl urlsplit url = .ok true) :
    commandReply (postOpen urlsplit repr (Text.encodeUtf8 url) created) effective = .acknowledged ↔
      (0 < Text.utf8Length url ∧ Text.utf8Length url ≤ 8192) ∧
        ∃ sent v, created = some sent ∧ Json.readJson (128*1024) sent = some v := by
  rw [postOpen,commandReply_acknowledged,requestedPage_ok hpage]
  by_cases hsize : 0 < Text.utf8Length url ∧ Text.utf8Length url ≤ 8192
  · rw [if_pos hsize]
    simp only [hsize,true_and]
    constructor
    · intro h
      obtain ⟨_,-,h⟩ := bind_ok h
      obtain ⟨v,hv,-⟩ := bind_ok h
      obtain ⟨sent,hsent,hread⟩ := askChrome_ok.mp hv
      exact ⟨sent,v,hsent,hread⟩
    · rintro ⟨sent,v,hsent,hread⟩
      rw [askChrome_ok.mpr ⟨sent,hsent,hread⟩]
      rfl
  · rw [if_neg hsize]
    simp only [hsize,false_and,iff_false]
    intro h
    cases h

theorem opens_acknowledged (hpages : ∀ url ∈ urls, adapterIsPageUrl urlsplit url = .ok true) :
    (∀ n < urls.length, (openedBy urlsplit repr a chrome urls).opens n = .acknowledged) ↔
      (∀ url ∈ urls, 0 < Text.utf8Length url ∧ Text.utf8Length url ≤ 8192) ∧
        ∀ n < urls.length, ∃ sent v, chrome.created n = some sent ∧
          Json.readJson (128*1024) sent = some v := by
  have hget : ∀ n, (hn : n < urls.length) → urls.getD n "" = urls[n] := by
    intro n hn
    simp [hn]
  have hopen : ∀ n < urls.length, (openedBy urlsplit repr a chrome urls).opens n = .acknowledged ↔
      (0 < Text.utf8Length (urls.getD n "") ∧ Text.utf8Length (urls.getD n "") ≤ 8192) ∧
        ∃ sent v, chrome.created n = some sent ∧ Json.readJson (128*1024) sent = some v := by
    intro n hn
    rw [openedBy]
    apply postOpen_acknowledged
    rw [hget n hn]
    exact hpages _ (List.getElem_mem hn)
  constructor
  · intro h
    constructor
    · intro url hurl
      obtain ⟨n,hn,rfl⟩ := List.mem_iff_getElem.mp hurl
      have hsize := ((hopen n hn).mp (h n hn)).1
      rwa [hget n hn] at hsize
    · intro n hn
      exact ((hopen n hn).mp (h n hn)).2
  · rintro ⟨hsizes,hcreated⟩ n hn
    refine (hopen n hn).mpr ⟨?_,hcreated n hn⟩
    rw [hget n hn]
    exact hsizes _ (List.getElem_mem hn)

/-- A wake after a suspend opens the first ten distinct web pages again exactly where none of them
has a fragment, no URL is longer than a request to the sidecar may be, and Chrome answers. -/
theorem reopened_tabs_iff (urlsplit : String → Except Unit SplitResult) (repr : ℚ → List Char)
    (a a' : Answers) (chrome : Chrome) (s s' : Slot) (binding : BrowserBinding) (sent : Bytes)
    (targets : List Json) (result : OrchestrationResult) (timeoutS pollS : ℚ)
    (hsent : (Text.decodeUtf8 sent).bind Json.loads = some (.arr targets))
    (hsuspend : exec (suspend urlsplit (listedBy urlsplit repr a sent) binding) s = (.ok result,s'))
    (htime : 0 < timeoutS ∧ 0 < pollS) (hstart : a'.start = .acknowledged)
    (hready : waitReady s'.transport s'.browser binding a'.probe a'.probes = .ok ()) :
    Reopened urlsplit (openedBy urlsplit repr a' chrome result.restoredUrls) binding timeoutS pollS s'
      (firstTabs urlsplit targets) ↔ Reopenable urlsplit chrome targets := by
  obtain ⟨rfl,hstate,hsaved,hresult⟩ := suspend_captures hsent hsuspend
  have hpages : ∀ url ∈ capturedTabs urlsplit targets, adapterIsPageUrl urlsplit url = .ok true := by
    intro url hurl
    obtain ⟨hweb,hfragment⟩ :=
      List.mem_filter.mp (List.mem_eraseDups.mp (List.mem_of_mem_take hurl))
    exact adapterIsPageUrl_web hweb hfragment
  have hopens := @opens_acknowledged urlsplit repr a' chrome _ hpages
  rw [reopened_iff hstate htime,hsaved,hresult]
  constructor
  · rintro ⟨hcomes,htabs⟩
    have hopened := hcomes.opened
    rw [hsaved] at hopened
    obtain ⟨hsizes,hcreated⟩ := hopens.mp hopened
    have hemptied := closeEmptyPages_ok.mp (commandReply_acknowledged.mp hcomes.closed)
    rw [← htabs] at hsizes hcreated
    exact ⟨capturedTabs_eq.mp htabs.symm,hsizes,hcreated,hemptied⟩
  · rintro ⟨hfragments,hsizes,hcreated,hemptied⟩
    have htabs := capturedTabs_eq.mpr hfragments
    rw [← htabs] at hsizes hcreated
    refine ⟨⟨hstart,hready,?_,?_⟩,htabs.symm⟩
    · rw [hsaved]
      exact hopens.mpr ⟨hsizes,hcreated⟩
    · exact commandReply_acknowledged.mpr (closeEmptyPages_ok.mpr hemptied)

end Fidelity

/-! ### A slot with one page -/

/-- Chrome answers every request, and has no blank tabs. -/
def obligingChrome : Chrome where
  created _ := some (sendJson RouterApi.noFloats (.obj []))
  listed := some (sendJson RouterApi.noFloats (.arr []))
  closed _ := none

/-- Alice's slot, ready. -/
def aliceSlot : Slot :=
  ⟨⟨BindingPush.aliceBinding,.ready,none,none⟩,⟨"alice","generation-a"⟩,
    ⟨"alice","generation-a",true,[]⟩,[]⟩

def topOfSite (url : String) : Except Unit SplitResult :=
  .ok ⟨"https","site","/","",if url = "https://site/#top" then "top" else "",none,none⟩

def siteTargets (url : String) : List Json := [pageTarget "tab-1" url "Site"]

def suspendedSite (url : String) : Except SlotError OrchestrationResult × Slot :=
  exec (suspend topOfSite (listedBy topOfSite RouterApi.noFloats BindingPush.obliging
    (sendJson RouterApi.noFloats (.arr (siteTargets url)))) BindingPush.aliceBinding) aliceSlot

/-- What the suspends of the two pages answer, and that the slot comes up after either. -/
theorem site_runs :
    ((suspendedSite "https://site/").1 = .ok ⟨"suspended",.suspended,["https://site/"]⟩ ∧
      (suspendedSite "https://site/#top").1 = .ok ⟨"suspended",.suspended,[]⟩) ∧
    waitReady (suspendedSite "https://site/").2.transport (suspendedSite "https://site/").2.browser
      BindingPush.aliceBinding (.own true) [] = .ok () ∧
    waitReady (suspendedSite "https://site/#top").2.transport
      (suspendedSite "https://site/#top").2.browser BindingPush.aliceBinding (.own true) [] = .ok () :=
  ⟨⟨by decide +kernel,by decide +kernel⟩,by decide +kernel,by decide +kernel⟩

theorem site_suspended : suspendedSite "https://site/" =
    (.ok ⟨"suspended",.suspended,["https://site/"]⟩,(suspendedSite "https://site/").2) := by
  have hlisted := site_runs.1.1
  rw [← hlisted]

theorem top_suspended : suspendedSite "https://site/#top" =
    (.ok ⟨"suspended",.suspended,[]⟩,(suspendedSite "https://site/#top").2) := by
  have hlisted := site_runs.1.2
  rw [← hlisted]

theorem site_ready : waitReady (suspendedSite "https://site/").2.transport
    (suspendedSite "https://site/").2.browser BindingPush.aliceBinding (.own true) [] = .ok () :=
  site_runs.2.1

theorem top_ready : waitReady (suspendedSite "https://site/#top").2.transport
    (suspendedSite "https://site/#top").2.browser BindingPush.aliceBinding (.own true) [] = .ok () :=
  site_runs.2.2

theorem loads_site (url : String) : (Text.decodeUtf8 (sendJson RouterApi.noFloats
    (.arr (siteTargets url)))).bind Json.loads = some (.arr (siteTargets url)) :=
  loads_targets (by simp [siteTargets,plain_target])

theorem reopened_tabs_iff_site :
    Reopened topOfSite
      (openedBy topOfSite RouterApi.noFloats BindingPush.obliging obligingChrome ["https://site/"])
      BindingPush.aliceBinding 30 (1/10) (suspendedSite "https://site/").2
      (firstTabs topOfSite (siteTargets "https://site/")) ↔
      Reopenable topOfSite obligingChrome (siteTargets "https://site/") :=
  reopened_tabs_iff topOfSite RouterApi.noFloats BindingPush.obliging BindingPush.obliging
    obligingChrome aliceSlot (suspendedSite "https://site/").2 BindingPush.aliceBinding
    (sendJson RouterApi.noFloats (.arr (siteTargets "https://site/"))) (siteTargets "https://site/")
    ⟨"suspended",.suspended,["https://site/"]⟩ 30 (1/10) (loads_site _) site_suspended (by norm_num)
    rfl site_ready

/-- A page with a fragment is not opened again, although Chrome answers everything. -/
theorem fragment_not_reopened : ¬∀ (urlsplit : String → Except Unit SplitResult)
    (repr : ℚ → List Char) (a a' : Answers) (s s' : Slot) (binding : BrowserBinding) (sent : Bytes)
    (targets : List Json) (result : OrchestrationResult) (timeoutS pollS : ℚ),
    (Text.decodeUtf8 sent).bind Json.loads = some (.arr targets) →
    exec (suspend urlsplit (listedBy urlsplit repr a sent) binding) s = (.ok result,s') →
    0 < timeoutS ∧ 0 < pollS → a'.start = .acknowledged →
    waitReady s'.transport s'.browser binding a'.probe a'.probes = .ok () →
    Reopened urlsplit (openedBy urlsplit repr a' obligingChrome result.restoredUrls) binding timeoutS
      pollS s' (firstTabs urlsplit targets) := by
  intro h
  obtain ⟨hbinding,hstate,hsaved,-⟩ := suspend_captures (loads_site "https://site/#top") top_suspended
  have hreopened := h topOfSite RouterApi.noFloats BindingPush.obliging BindingPush.obliging aliceSlot
    (suspendedSite "https://site/#top").2 BindingPush.aliceBinding
    (sendJson RouterApi.noFloats (.arr (siteTargets "https://site/#top")))
    (siteTargets "https://site/#top") ⟨"suspended",.suspended,[]⟩ 30 (1/10)
    (loads_site "https://site/#top") top_suspended (by norm_num) rfl top_ready
  rw [← hbinding] at hreopened
  have htabs := ((reopened_iff hstate (by norm_num)).mp hreopened).2
  rw [hsaved] at htabs
  exact absurd htabs (by decide +kernel)

end BrowserSidecar
end CloudBrowser
