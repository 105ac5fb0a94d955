import CloudBrowser.AgentRelay
import CloudBrowser.JsonPrefix

/-! The page listing of the browser sidecar: Chrome's targets are filtered and bounded, sent as
JSON, and checked again by the client of the agent-control service. -/
namespace CloudBrowser
namespace BrowserSidecar

open AgentControl (SplitResult Tab AgentError httpListPages httpTab sendJson)

inductive SidecarError
  | unavailable (message : String)
  | valueError
  deriving DecidableEq

/-- `ChromeHttpClient.json_request`, for what Chrome sends with a success status. -/
def chromeJson (sent : Bytes) : Except SidecarError Json :=
  match Json.readJson (128*1024) sent with
  | none => .error (.unavailable "Chrome returned invalid JSON")
  | some v => .ok v

/-- `parsed.scheme in ("http", "https") and parsed.netloc`. -/
def absoluteHttp (parsed : SplitResult) : Bool :=
  (parsed.scheme = "http" || parsed.scheme = "https") && parsed.netloc ≠ ""

def noUserinfo (parsed : SplitResult) : Bool := parsed.username.isNone && parsed.password.isNone

/-- `urlunsplit((parsed.scheme, parsed.netloc, parsed.path or "/", "", ""))` of an absolute URL. -/
def publicUrl (parsed : SplitResult) : String :=
  let path := if parsed.path.toList.head? = some '/' then parsed.path else "/" ++ parsed.path
  parsed.scheme ++ "://" ++ parsed.netloc ++ path

theorem publicUrl_ne_empty (parsed : SplitResult) : publicUrl parsed ≠ "" := by
  intro h
  have hlength := congrArg String.length h
  simp only [publicUrl,String.length_append,String.length_empty] at hlength
  have hcolon : "://".length = 3 := rfl
  omega

section Listing

-- the standard library's `urlsplit`, which raises `ValueError` on some malformed hosts
variable (urlsplit : String → Except Unit SplitResult)

/-- One target of `bounded_page_targets`: the page that it is listed as, if it is. -/
def targetPage : Json → Except SidecarError (Option Tab)
  | .obj fields =>
    match Json.get fields "type" with
    | .str "page" =>
      match Json.get fields "id", Json.get fields "url", Json.get fields "title" with
      | .str targetId, .str url, .str title =>
        if targetId = "" ∨ url = "" ∨ title = "" then
          .error (.unavailable "invalid Chrome page target")
        else match urlsplit url with
        | .error _ => .error .valueError
        | .ok parsed =>
          if !absoluteHttp parsed || parsed.username.getD "" ≠ "" ||
              parsed.password.getD "" ≠ "" then
            .ok none
          else if 256 < Text.utf8Length targetId ∨ 4096 < Text.utf8Length url ∨
              4096 < Text.utf8Length title then
            .error (.unavailable "Chrome page target is too large")
          else if 2048 < Text.utf8Length (publicUrl parsed) then
            .error (.unavailable "page URL is too large")
          else .ok (some ⟨targetId,publicUrl parsed,title⟩)
      | _, _, _ => .error (.unavailable "invalid Chrome page target")
    | _ => .ok none
  | _ => .ok none

def collectPages : List Json → List Tab → Except SidecarError (List Tab)
  | [], pages => .ok pages
  | target::targets, pages =>
    match targetPage urlsplit target with
    | .error e => .error e
    | .ok none => collectPages targets pages
    | .ok (some page) =>
      if 32 < (pages ++ [page]).length then .error (.unavailable "too many Chrome page targets")
      else collectPages targets (pages ++ [page])

def boundedPageTargets : Json → Except SidecarError (List Tab)
  | .arr targets =>
    if 256 < targets.length then .error (.unavailable "invalid Chrome target response")
    else collectPages urlsplit targets []
  | _ => .error (.unavailable "invalid Chrome target response")

-- `float.__repr__`
variable (repr : ℚ → List Char)

def failing (errorCode : String) : Json := .obj [("ok",.bool false),("error_code",.str errorCode)]

/-- `_send_json` of the sidecar. -/
def respond (status : ℕ) (payload : Json) : ℕ × Bytes :=
  if 64*1024 < (sendJson repr payload).length then
    (503,sendJson repr (failing "response_too_large"))
  else (status,sendJson repr payload)

def pagesPayload (pages : List Tab) : Json := .obj [("pages",.arr (pages.map Tab.json))]

/-- `GET /agent/pages`, for what Chrome sends for its list of targets. -/
def getAgentPages (sent : Bytes) : ℕ × Bytes :=
  match (chromeJson sent).bind (boundedPageTargets urlsplit) with
  | .ok pages => respond repr 200 (pagesPayload pages)
  | .error (.unavailable _) => respond repr 503 (failing "browser_unavailable")
  | .error .valueError => respond repr 400 (failing "invalid_request")

/-- `HttpJsonClient.request`, for what the sidecar answers. -/
def clientJson (answer : ℕ × Bytes) : Except AgentError Json :=
  if answer.1 < 200 ∨ 300 ≤ answer.1 then .error (.browserUnavailable "browser API is unavailable")
  else match Json.readJson (64*1024) answer.2 with
    | none => .error (.browserUnavailable "browser API returned invalid JSON")
    | some v => .ok v

/-- `HttpAgentBrowserTransport.list_pages` over the sidecar. -/
def listPages (sent : Bytes) : Except AgentError (List Tab) :=
  (clientJson (getAgentPages urlsplit repr sent)).bind httpListPages

end Listing

/-! ### What is to be listed -/

/-- A page target with an absolute HTTP(S) URL without userinfo. -/
structure WebPage where
  fields : List (String × Json)
  parsed : SplitResult

def WebPage.id (w : WebPage) : String := (Json.get w.fields "id").asString.getD ""

def WebPage.url (w : WebPage) : String := (Json.get w.fields "url").asString.getD ""

def WebPage.title (w : WebPage) : String := (Json.get w.fields "title").asString.getD ""

/-- Its id, its URL without query and fragment, and its title. -/
def WebPage.tab (w : WebPage) : Tab := ⟨w.id,publicUrl w.parsed,w.title⟩

section Expected

variable (urlsplit : String → Except Unit SplitResult)

def webPage : Json → Option WebPage
  | .obj fields =>
    match Json.get fields "type", Json.get fields "url" with
    | .str "page", .str url =>
      match urlsplit url with
      | .ok parsed => if absoluteHttp parsed && noUserinfo parsed then some ⟨fields,parsed⟩ else none
      | .error _ => none
    | _, _ => none
  | _ => none

/-- The pages of a target list. -/
def webPages (targets : List Json) : List WebPage := targets.filterMap (webPage urlsplit)

/-- At most 256 targets, and among them at most 32 pages, each within the bounds of its fields. -/
structure Bounded (targets : List Json) : Prop where
  length : targets.length ≤ 256
  pages : (webPages urlsplit targets).length ≤ 32
  fields : ∀ w ∈ webPages urlsplit targets,
    w.id ≠ "" ∧ Text.utf8Length w.id ≤ 256 ∧ w.url ≠ "" ∧ Text.utf8Length w.url ≤ 2048 ∧
      w.title ≠ "" ∧ Text.utf8Length w.title ≤ 4096

/-- The target is no page, or one that the sidecar takes: its id, URL and title are texts that are
not empty, the URL can be split, and it has no userinfo that is empty. -/
def Sound (target : Json) : Prop :=
  ∀ fields, target = .obj fields → Json.get fields "type" = .str "page" →
    ∃ targetId url title parsed, Json.get fields "id" = .str targetId ∧
      Json.get fields "url" = .str url ∧ Json.get fields "title" = .str title ∧
      (targetId ≠ "" ∧ url ≠ "" ∧ title ≠ "") ∧ urlsplit url = .ok parsed ∧
      (absoluteHttp parsed = true → noUserinfo parsed = true ∨
        parsed.username.getD "" ≠ "" ∨ parsed.password.getD "" ≠ "")

/-- The first 128 KiB of what Chrome sends are the whole list, every page target is sound, and the
URLs and the whole answer are not too long. -/
structure Listable (repr : ℚ → List Char) (sent : Bytes) (targets : List Json) : Prop where
  read : Json.readJson (128*1024) sent = some (.arr targets)
  sound : ∀ target ∈ targets, Sound urlsplit target
  urls : ∀ w ∈ webPages urlsplit targets, Text.utf8Length (publicUrl w.parsed) ≤ 2048
  answer : (Json.encode repr (pagesPayload ((webPages urlsplit targets).map WebPage.tab))).length ≤
    64*1024

end Expected

section Collecting

variable {urlsplit : String → Except Unit SplitResult} {target : Json} {targets : List Json}
  {pages ps : List Tab}

/-- The page that a target is listed as, where it raises nothing. -/
def shownPage (urlsplit : String → Except Unit SplitResult) (target : Json) : Option Tab :=
  (targetPage urlsplit target).toOption.join

theorem collectPages_ok : collectPages urlsplit targets pages = .ok ps ↔
    (∀ t ∈ targets, ∃ o, targetPage urlsplit t = .ok o) ∧
      ps = pages ++ targets.filterMap (shownPage urlsplit) ∧
      (targets.filterMap (shownPage urlsplit) = [] ∨ ps.length ≤ 32) := by
  induction targets generalizing pages with
  | nil =>
    simp [collectPages]
    exact eq_comm
  | cons target targets ih =>
    cases htarget : targetPage urlsplit target with
    | error e => simp [collectPages,htarget]
    | ok o =>
      cases o with
      | none => simp [collectPages,htarget,shownPage,Except.toOption,ih]
      | some page =>
        have hshown : shownPage urlsplit target = some page := by
          simp [shownPage,htarget,Except.toOption]
        rw [List.filterMap_cons_some hshown]
        simp only [collectPages,htarget,List.mem_cons,forall_eq_or_imp,reduceCtorEq,false_or]
        split
        · rename_i hlong
          simp only [reduceCtorEq,false_iff]
          rintro ⟨-,rfl,hlength⟩
          simp only [List.length_append,List.length_cons,List.length_nil] at hlong hlength
          omega
        · rename_i hlong
          rw [ih]
          simp only [List.append_assoc,List.singleton_append]
          constructor
          · rintro ⟨hall,rfl,hlength⟩
            refine ⟨⟨⟨_,rfl⟩,hall⟩,rfl,?_⟩
            rcases hlength with hnil | hlength
            · simp only [hnil,List.length_append,List.length_cons,List.length_nil] at hlong ⊢
              omega
            · exact hlength
          · rintro ⟨⟨-,hall⟩,rfl,hlength⟩
            exact ⟨hall,rfl,.inr hlength⟩

end Collecting

section Targets

variable {urlsplit : String → Except Unit SplitResult} {target : Json} {w : WebPage} {o : Option Tab}

theorem webPage_eq_some : webPage urlsplit target = some w ↔ target = .obj w.fields ∧
    Json.get w.fields "type" = .str "page" ∧ Json.get w.fields "url" = .str w.url ∧
    urlsplit w.url = .ok w.parsed ∧ absoluteHttp w.parsed = true ∧ noUserinfo w.parsed = true := by
  constructor
  · intro h
    unfold webPage at h
    split at h
    · split at h
      · rename_i htype hurl
        split at h
        · rename_i hsplit
          split at h
          · rename_i fields _ _ url _ parsed hweb
            cases h
            simp only [Bool.and_eq_true] at hweb
            have hsame : WebPage.url ⟨fields,parsed⟩ = url := by
              rw [WebPage.url,hurl]
              rfl
            exact ⟨rfl,htype,by rw [hsame,hurl],by rw [hsame,hsplit],hweb.1,hweb.2⟩
          · cases h
        · cases h
      · cases h
    · cases h
  · rintro ⟨rfl,htype,hurl,hsplit,habsolute,huserinfo⟩
    simp [webPage,htype,hurl,hsplit,habsolute,huserinfo]

/-- What `bounded_page_targets` asks of a page target before it looks at its URL. -/
theorem page_fields {fields : List (String × Json)} (htype : Json.get fields "type" = .str "page")
    (h : targetPage urlsplit (.obj fields) = .ok o) :
    ∃ targetId url title parsed, Json.get fields "id" = .str targetId ∧
      Json.get fields "url" = .str url ∧ Json.get fields "title" = .str title ∧
      (targetId ≠ "" ∧ url ≠ "" ∧ title ≠ "") ∧ urlsplit url = .ok parsed := by
  simp only [targetPage,htype] at h
  split at h
  · rename_i targetId url title hid hurl htitle
    split at h
    · cases h
    · rename_i hempty
      push Not at hempty
      split at h
      · cases h
      · rename_i parsed hsplit
        exact ⟨targetId,url,title,parsed,hid,hurl,htitle,hempty,hsplit⟩
  · cases h

/-- What it makes of one that passes. -/
theorem targetPage_page {fields : List (String × Json)} {targetId url title : String}
    {parsed : SplitResult} (htype : Json.get fields "type" = .str "page")
    (hid : Json.get fields "id" = .str targetId) (hurl : Json.get fields "url" = .str url)
    (htitle : Json.get fields "title" = .str title)
    (hempty : targetId ≠ "" ∧ url ≠ "" ∧ title ≠ "") (hsplit : urlsplit url = .ok parsed) :
    targetPage urlsplit (.obj fields) =
      if !absoluteHttp parsed || parsed.username.getD "" ≠ "" || parsed.password.getD "" ≠ "" then
        .ok none
      else if 256 < Text.utf8Length targetId ∨ 4096 < Text.utf8Length url ∨
          4096 < Text.utf8Length title then
        .error (.unavailable "Chrome page target is too large")
      else if 2048 < Text.utf8Length (publicUrl parsed) then
        .error (.unavailable "page URL is too large")
      else .ok (some ⟨targetId,publicUrl parsed,title⟩) := by
  have hne : ¬(targetId = "" ∨ url = "" ∨ title = "") := by simp [hempty]
  simp only [targetPage,htype,hid,hurl,htitle]
  rw [if_neg hne,hsplit]

theorem targetPage_other (h : ∀ fields, target = .obj fields → Json.get fields "type" ≠ .str "page") :
    targetPage urlsplit target = .ok none := by
  unfold targetPage
  split
  · split
    · rename_i htype
      exact absurd htype (h _ rfl)
    · rfl
  · rfl

theorem noUserinfo_shown {parsed : SplitResult} (habsolute : absoluteHttp parsed = true)
    (huserinfo : noUserinfo parsed = true) :
    (!absoluteHttp parsed || parsed.username.getD "" ≠ "" || parsed.password.getD "" ≠ "") =
      false := by
  simp only [noUserinfo,Bool.and_eq_true,Option.isNone_iff_eq_none] at huserinfo
  simp [habsolute,huserinfo]

/-- A web page is listed, where its fields are within their bounds. -/
theorem targetPage_web (h : webPage urlsplit target = some w)
    (hid : w.id ≠ "" ∧ Text.utf8Length w.id ≤ 256) (hurl : w.url ≠ "" ∧ Text.utf8Length w.url ≤ 2048)
    (htitle : w.title ≠ "" ∧ Text.utf8Length w.title ≤ 4096)
    (hpublic : Text.utf8Length (publicUrl w.parsed) ≤ 2048) :
    targetPage urlsplit target = .ok (some w.tab) := by
  obtain ⟨rfl,htype,hfield,hsplit,habsolute,huserinfo⟩ := webPage_eq_some.mp h
  have htext : ∀ {v : Json}, v.asString.getD "" ≠ "" → v = .str (v.asString.getD "") := by
    intro v hv
    cases v <;> simp_all [Json.asString]
  have hsmall : ¬(256 < Text.utf8Length w.id ∨ 4096 < Text.utf8Length w.url ∨
      4096 < Text.utf8Length w.title) := by omega
  rw [targetPage_page htype (htext hid.1) hfield (htext htitle.1) ⟨hid.1,hurl.1,htitle.1⟩ hsplit,
    if_neg (by rw [noUserinfo_shown habsolute huserinfo]; simp)]
  exact (if_neg hsmall).trans (if_neg (by omega))

/-- A sound target that is no web page is not listed. -/
theorem targetPage_none (hsound : Sound urlsplit target) (h : webPage urlsplit target = none) :
    targetPage urlsplit target = .ok none := by
  by_cases hpage : ∃ fields, target = .obj fields ∧ Json.get fields "type" = .str "page"
  · obtain ⟨fields,rfl,htype⟩ := hpage
    obtain ⟨targetId,url,title,parsed,hid,hurl,htitle,hempty,hsplit,hinfo⟩ := hsound fields rfl htype
    rw [targetPage_page htype hid hurl htitle hempty hsplit,if_pos]
    by_cases habsolute : absoluteHttp parsed = true
    · rcases hinfo habsolute with hinfo | hinfo | hinfo
      · simp [webPage,htype,hurl,hsplit,habsolute,hinfo] at h
      · simp [hinfo]
      · simp [hinfo]
    · simp [habsolute]
  · push Not at hpage
    exact targetPage_other hpage

/-- A web page that raises nothing is listed, with a URL that is not too long. -/
theorem targetPage_shown (h : webPage urlsplit target = some w)
    (ho : targetPage urlsplit target = .ok o) :
    o = some w.tab ∧ Text.utf8Length (publicUrl w.parsed) ≤ 2048 := by
  obtain ⟨rfl,htype,hfield,hsplit,habsolute,huserinfo⟩ := webPage_eq_some.mp h
  obtain ⟨targetId,url,title,parsed,hid,hurl,htitle,hempty,hsplit'⟩ := page_fields htype ho
  rw [hfield] at hurl
  cases hurl
  rw [hsplit] at hsplit'
  cases hsplit'
  rw [targetPage_page htype hid hfield htitle hempty hsplit,
    if_neg (by rw [noUserinfo_shown habsolute huserinfo]; simp)] at ho
  split at ho
  · cases ho
  · split at ho
    · cases ho
    · cases ho
      refine ⟨?_,by omega⟩
      simp [WebPage.tab,WebPage.id,WebPage.title,hid,htitle,Json.asString]

/-- A target that raises nothing is sound, unless it is listed without being a web page. -/
theorem sound_of_shown (ho : targetPage urlsplit target = .ok o)
    (h : o.isSome = true → (webPage urlsplit target).isSome = true) : Sound urlsplit target := by
  rintro fields rfl htype
  obtain ⟨targetId,url,title,parsed,hid,hurl,htitle,hempty,hsplit⟩ := page_fields htype ho
  refine ⟨targetId,url,title,parsed,hid,hurl,htitle,hempty,hsplit,fun habsolute => ?_⟩
  by_contra hinfo
  push Not at hinfo
  obtain ⟨huserinfo,hname,hpassword⟩ := hinfo
  rw [targetPage_page htype hid hurl htitle hempty hsplit,
    if_neg (by simp [habsolute,hname,hpassword])] at ho
  have hweb : webPage urlsplit (.obj fields) = none := by
    simp [webPage,htype,hurl,hsplit,huserinfo]
  rw [hweb] at h
  split at ho
  · cases ho
  · split at ho
    · cases ho
    · cases ho
      simp at h

end Targets
section Answer

variable {urlsplit : String → Except Unit SplitResult} {repr : ℚ → List Char} {sent : Bytes}
  {ps : List Tab}

theorem plain_pages (ps : List Tab) : Json.Plain (pagesPayload ps) := by
  refine .obj _ ?_ (by simp)
  simp only [List.mem_cons,List.not_mem_nil,or_false,forall_eq]
  exact AgentControl.plain_page (.tabs ps)

/-- The client takes what the sidecar sends, where it is not too large. -/
theorem clientJson_plain {payload : Json} (hplain : Json.Plain payload)
    (hlength : (sendJson repr payload).length ≤ 64*1024) :
    clientJson (respond repr 200 payload) = .ok payload := by
  rw [respond,if_neg (by omega),clientJson,if_neg (by simp),Json.readJson_short hlength,
    AgentControl.loads_sendJson hplain]

theorem clientJson_pages (hlength : (Json.encode repr (pagesPayload ps)).length ≤ 64*1024) :
    clientJson (respond repr 200 (pagesPayload ps)) = .ok (pagesPayload ps) :=
  clientJson_plain (plain_pages ps)
    ((AgentControl.length_sendJson (plain_pages ps)).trans_le hlength)

/-- A listing that comes through has been sent. -/
theorem clientJson_ok {status : ℕ} {payload v : Json} (h : clientJson (respond repr status payload) =
    .ok v) : status < 300 ∧ (sendJson repr payload).length ≤ 64*1024 := by
  by_cases hlong : 64*1024 < (sendJson repr payload).length
  · rw [respond,if_pos hlong,clientJson,if_pos (by simp)] at h
    cases h
  · rw [respond,if_neg hlong,clientJson] at h
    split at h
    · cases h
    · omega

theorem httpTab_eq {tab tab' : Tab} (h : httpTab tab.json = .ok tab') : tab' = tab := by
  simp only [httpTab,Tab.json,Json.get,List.lookup_cons] at h
  simp at h
  split_ifs at h
  cases h
  rfl

theorem httpTab_bounded {tab : Tab} (hid : tab.tabId ≠ "" ∧ Text.utf8Length tab.tabId ≤ 256)
    (hurl : tab.url ≠ "" ∧ Text.utf8Length tab.url ≤ 2048)
    (htitle : tab.title ≠ "" ∧ Text.utf8Length tab.title ≤ 4096) : httpTab tab.json = .ok tab := by
  have hsmall : ¬(256 < Text.utf8Length tab.tabId ∨ 2048 < Text.utf8Length tab.url ∨
      4096 < Text.utf8Length tab.title) := by omega
  have hfull : ¬(tab.tabId = "" ∨ tab.url = "" ∨ tab.title = "") := by
    simp [hid.1,hurl.1,htitle.1]
  exact (if_neg hfull).trans (if_neg hsmall)

theorem httpListPages_bounded (hlength : ps.length ≤ 32) (h : ∀ tab ∈ ps,
    (tab.tabId ≠ "" ∧ Text.utf8Length tab.tabId ≤ 256) ∧
    (tab.url ≠ "" ∧ Text.utf8Length tab.url ≤ 2048) ∧
    (tab.title ≠ "" ∧ Text.utf8Length tab.title ≤ 4096)) :
    httpListPages (pagesPayload ps) = .ok ps := by
  have hall : (ps.map Tab.json).mapM httpTab = .ok ps := by
    induction ps with
    | nil => rfl
    | cons tab ps ih =>
      obtain ⟨hid,hurl,htitle⟩ := h tab List.mem_cons_self
      rw [List.map_cons,List.mapM_cons,httpTab_bounded hid hurl htitle,
        ih (Nat.le_of_succ_le hlength) fun t ht => h t (List.mem_cons_of_mem tab ht)]
      rfl
  exact (if_neg (by simpa using hlength)).trans hall

theorem mapM_httpTab {tabs : List Tab} (h : (ps.map Tab.json).mapM httpTab = .ok tabs) :
    tabs = ps := by
  induction ps generalizing tabs with
  | nil =>
    cases h
    rfl
  | cons tab ps ih =>
    rw [List.map_cons,List.mapM_cons] at h
    obtain ⟨tab',htab,h⟩ := Stateful.bind_ok h
    obtain ⟨tabs',htabs,h⟩ := Stateful.bind_ok h
    cases h
    rw [httpTab_eq htab,ih htabs]

theorem httpListPages_pages (pages : List Json) : httpListPages (.obj [("pages",.arr pages)]) =
    if 32 < pages.length then .error (.browserUnavailable "invalid agent browser pages response")
    else pages.mapM httpTab := rfl

theorem httpListPages_eq {tabs : List Tab} (h : httpListPages (pagesPayload ps) = .ok tabs) :
    tabs = ps := by
  rw [pagesPayload,httpListPages_pages] at h
  split at h
  · cases h
  · exact mapM_httpTab h

theorem listPages_ok : listPages urlsplit repr sent = .ok ps ↔
    (chromeJson sent).bind (boundedPageTargets urlsplit) = .ok ps ∧
      (Json.encode repr (pagesPayload ps)).length ≤ 64*1024 ∧
      httpListPages (pagesPayload ps) = .ok ps := by
  constructor
  · intro h
    obtain ⟨v,hv,hlist⟩ := Stateful.bind_ok h
    unfold getAgentPages at hv
    split at hv
    · rename_i pages hpages
      have hlength := (clientJson_ok hv).2
      rw [AgentControl.length_sendJson (plain_pages pages)] at hlength
      rw [clientJson_pages hlength] at hv
      cases hv
      have hsame := httpListPages_eq hlist
      subst hsame
      exact ⟨hpages,hlength,hlist⟩
    · exact absurd (clientJson_ok hv).1 (by decide)
    · exact absurd (clientJson_ok hv).1 (by decide)
  · rintro ⟨hpages,hlength,hlist⟩
    rw [listPages,getAgentPages,hpages]
    dsimp only
    rw [clientJson_pages hlength]
    exact hlist

end Answer

section Fidelity

variable {urlsplit : String → Except Unit SplitResult} {repr : ℚ → List Char} {sent : Bytes}
  {targets : List Json}

/-- Where no less is kept by the coarser filter, it keeps the same. -/
theorem isSome_of_length {α β γ : Type} {f : α → Option β} {g : α → Option γ} {l : List α}
    (h : ∀ x ∈ l, (g x).isSome = true → (f x).isSome = true)
    (hlength : (l.filterMap f).length = (l.filterMap g).length) :
    ∀ x ∈ l, (f x).isSome = true → (g x).isSome = true := by
  rw [List.length_filterMap_eq_countP,List.length_filterMap_eq_countP] at hlength
  induction l with
  | nil => simp
  | cons x l ih =>
    have hle := List.countP_mono_left fun y hy => h y (List.mem_cons_of_mem x hy)
    have hx := h x List.mem_cons_self
    rw [List.countP_cons,List.countP_cons] at hlength
    intro y hy hf
    rcases List.mem_cons.mp hy with rfl | hy
    · by_contra hg
      simp [hf,hg] at hlength
      omega
    · refine ih (fun z hz => h z (List.mem_cons_of_mem x hz)) ?_ y hy hf
      split_ifs at hlength
      all_goals simp_all
      all_goals omega

theorem chromeJson_eq {v : Json} :
    chromeJson sent = .ok v ↔ Json.readJson (128*1024) sent = some v := by
  unfold chromeJson
  split <;> simp_all

/-- The listing is faithful exactly where Chrome's answer is read whole, its page targets are sound,
and the URLs and the answer of the sidecar are not too long. -/
theorem listPages_iff (urlsplit : String → Except Unit SplitResult) (repr : ℚ → List Char)
    (sent : Bytes) (targets : List Json)
    (hsent : (Text.decodeUtf8 sent).bind Json.loads = some (.arr targets))
    (hbounded : Bounded urlsplit targets) :
    listPages urlsplit repr sent = .ok ((webPages urlsplit targets).map WebPage.tab) ↔
      Listable urlsplit repr sent targets := by
  have hexpected : (webPages urlsplit targets).map WebPage.tab =
      targets.filterMap fun t => (webPage urlsplit t).map WebPage.tab := List.map_filterMap
  constructor
  · intro h
    obtain ⟨hpages,hlength,-⟩ := listPages_ok.mp h
    obtain ⟨v,hv,hpages⟩ := Stateful.bind_ok hpages
    have hread := chromeJson_eq.mp hv
    cases v with
    | arr items =>
      cases Json.readJson_list hread hsent
      obtain ⟨hall,hsame,-⟩ := collectPages_ok.mp
        ((if_neg (Nat.not_lt.mpr hbounded.length)).symm.trans hpages)
      have hshown : ∀ t ∈ targets, ∀ w, webPage urlsplit t = some w →
          shownPage urlsplit t = some w.tab ∧ Text.utf8Length (publicUrl w.parsed) ≤ 2048 := by
        intro t ht w hw
        obtain ⟨o,ho⟩ := hall t ht
        obtain ⟨rfl,hpublic⟩ := targetPage_shown hw ho
        exact ⟨by simp [shownPage,ho,Except.toOption],hpublic⟩
      have hlengths := congrArg List.length hsame
      rw [List.nil_append,webPages,List.length_map] at hlengths
      have hweb := isSome_of_length (f:=shownPage urlsplit) (g:=webPage urlsplit) (l:=targets) (by
        intro t ht hw
        obtain ⟨w,hw⟩ := Option.isSome_iff_exists.mp hw
        simp [(hshown t ht w hw).1]) hlengths.symm
      refine ⟨hread,fun t ht => ?_,fun w hw => ?_,hlength⟩
      · obtain ⟨o,ho⟩ := hall t ht
        refine sound_of_shown ho fun hsome => hweb t ht ?_
        simpa [shownPage,ho,Except.toOption] using hsome
      · obtain ⟨t,ht,hw⟩ := List.mem_filterMap.mp hw
        exact (hshown t ht w hw).2
    | _ => cases hpages
  · rintro ⟨hread,hsound,hurls,hanswer⟩
    have htarget : ∀ t ∈ targets, targetPage urlsplit t =
        .ok ((webPage urlsplit t).map WebPage.tab) := by
      intro t ht
      cases hweb : webPage urlsplit t with
      | none => exact targetPage_none (hsound t ht) hweb
      | some w =>
        have hw : w ∈ webPages urlsplit targets := List.mem_filterMap.mpr ⟨t,ht,hweb⟩
        obtain ⟨hid,hid',hurl,hurl',htitle,htitle'⟩ := hbounded.fields w hw
        exact targetPage_web hweb ⟨hid,hid'⟩ ⟨hurl,hurl'⟩ ⟨htitle,htitle'⟩ (hurls w hw)
    have hcollected : collectPages urlsplit targets [] =
        .ok ((webPages urlsplit targets).map WebPage.tab) := by
      refine collectPages_ok.mpr ⟨fun t ht => ⟨_,htarget t ht⟩,?_,.inr ?_⟩
      · rw [hexpected,List.nil_append]
        refine List.filterMap_congr fun t ht => ?_
        simp [shownPage,htarget t ht,Except.toOption]
      · simpa using hbounded.pages
    refine listPages_ok.mpr ⟨?_,hanswer,httpListPages_bounded (by simpa using hbounded.pages) ?_⟩
    · rw [chromeJson_eq.mpr hread]
      exact (if_neg (Nat.not_lt.mpr hbounded.length)).trans hcollected
    · intro tab htab
      obtain ⟨w,hw,rfl⟩ := List.mem_map.mp htab
      obtain ⟨hid,hid',-,-,htitle,htitle'⟩ := hbounded.fields w hw
      exact ⟨⟨hid,hid'⟩,⟨publicUrl_ne_empty w.parsed,hurls w hw⟩,htitle,htitle'⟩

end Fidelity

/-! ### One page beside a blank tab -/

def pageTarget (targetId url title : String) : Json :=
  .obj [("type",.str "page"),("id",.str targetId),("url",.str url),("title",.str title)]

def splitExample (url : String) : Except Unit SplitResult :=
  if url = "about:blank" then .ok ⟨"about","","blank","","",none,none⟩
  else .ok ⟨"https","example.com","/","","",none,none⟩

def examplePage : Json := pageTarget "tab-1" "https://example.com/" "Example"

def blankTab : Json := pageTarget "tab-2" "about:blank" ""

theorem plain_target (targetId url title : String) : Json.Plain (pageTarget targetId url title) := by
  refine .obj _ ?_ (by simp)
  simp only [List.mem_cons,List.not_mem_nil,or_false,forall_eq_or_imp,forall_eq]
  exact ⟨.str _,.str _,.str _,.str _⟩

theorem loads_targets {targets : List Json} (h : ∀ t ∈ targets, Json.Plain t) :
    (Text.decodeUtf8 (sendJson RouterApi.noFloats (.arr targets))).bind Json.loads =
      some (.arr targets) := AgentControl.loads_sendJson (.arr _ h)

theorem bounded_example {targets : List Json} (hlength : targets.length ≤ 256)
    (h : webPages splitExample targets = webPages splitExample [examplePage]) :
    Bounded splitExample targets := by
  have hpages : webPages splitExample [examplePage] =
      [⟨[("type",.str "page"),("id",.str "tab-1"),("url",.str "https://example.com/"),
        ("title",.str "Example")],⟨"https","example.com","/","","",none,none⟩⟩] := rfl
  refine ⟨hlength,by rw [h,hpages]; decide,?_⟩
  rw [h,hpages]
  simp only [List.mem_singleton,forall_eq]
  decide +kernel

theorem listPages_iff_example :
    listPages splitExample RouterApi.noFloats (sendJson RouterApi.noFloats (.arr [examplePage])) =
      .ok ((webPages splitExample [examplePage]).map WebPage.tab) ↔
      Listable splitExample RouterApi.noFloats
        (sendJson RouterApi.noFloats (.arr [examplePage])) [examplePage] :=
  listPages_iff splitExample RouterApi.noFloats _ [examplePage]
    (loads_targets (by simp [examplePage,plain_target])) (bounded_example (by simp) rfl)

/-- A blank tab has no title, and hides the page beside it. -/
theorem blank_tab_hides : ¬∀ (urlsplit : String → Except Unit SplitResult) (repr : ℚ → List Char)
    (sent : Bytes) (targets : List Json),
    (Text.decodeUtf8 sent).bind Json.loads = some (.arr targets) → Bounded urlsplit targets →
    listPages urlsplit repr sent = .ok ((webPages urlsplit targets).map WebPage.tab) := by
  intro h
  have hplain : ∀ t ∈ [examplePage,blankTab], Json.Plain t := by
    simp [examplePage,blankTab,plain_target]
  have hlisted := h splitExample RouterApi.noFloats _ [examplePage,blankTab]
    (loads_targets hplain) (bounded_example (by simp) rfl)
  obtain ⟨hpages,-,-⟩ := listPages_ok.mp hlisted
  obtain ⟨v,hv,hpages⟩ := Stateful.bind_ok hpages
  have hread := chromeJson_eq.mp hv
  cases v with
  | arr items =>
    cases Json.readJson_list hread (loads_targets hplain)
    obtain ⟨o,ho⟩ := (collectPages_ok.mp hpages).1 blankTab (by simp)
    cases ho
  | _ => cases hpages

end BrowserSidecar
end CloudBrowser
