import CloudBrowser.ReopenedTabs
import CloudBrowser.Quoting

/-! The page actions on their last hop: the requests that the agent-control service makes of the
browser sidecar, and how the sidecar reads them. -/
namespace CloudBrowser
namespace BrowserSidecar

open Stateful
open AgentControl (AgentError BrowserCall sendJson)
open CloudFiles (quote unquote)

/-- A request as the sidecar gets it. -/
structure PageRequest where
  method : String
  path : String
  query : String := ""
  body : Bytes := []
  deriving DecidableEq

section Sending

-- `float.__repr__`
variable (repr : ℚ → List Char)

def textFields (fields : List (String × String)) : Json :=
  .obj (fields.map fun f => (f.1,.str f.2))

/-- A `POST` of `_action_json`. -/
def actionRequest (path : String) (fields : List (String × String)) : PageRequest where
  method := "POST"
  path := path
  body := sendJson repr (textFields fields)

/-- The requests of `HttpAgentBrowserTransport`. -/
def pageRequest : BrowserCall → PageRequest
  | .listPages => { method := "GET", path := "/agent/pages" }
  | .pageInfo tab none =>
    { method := "GET", path := "/agent/pages/info", query := "target_tab_id=" ++ quote tab }
  | .pageInfo tab (some selector) =>
    { method := "GET", path := "/agent/pages/info",
      query := "target_tab_id=" ++ quote tab ++ "&selector=" ++ quote selector }
  | .navigate tab url =>
    actionRequest repr "/agent/pages/navigate" [("target_tab_id",tab),("value",url)]
  | .click tab selector =>
    actionRequest repr "/agent/pages/click" [("target_tab_id",tab),("value",selector)]
  | .typeText tab selector text =>
    actionRequest repr "/agent/pages/type"
      [("target_tab_id",tab),("selector",selector),("text",text)]

/-- `str.count`, for a needle that does not overlap with itself. -/
def countText (needle text : List Char) : ℕ := text.tails.countP (needle.isPrefixOf ·)

/-- `HttpJsonClient.request` looks at the query before it sends anything. -/
def queryAllowed (request : PageRequest) : Bool :=
  let query := request.query.toList
  request.query = "" ||
    (request.method = "GET" && request.path = "/agent/pages/info" &&
      (countText "target_tab_id=".toList query = 1 || "selector=".toList.isPrefixOf query) &&
      countText "selector=".toList query ≤ 1 &&
      (query.splitOn '&').all (fun part => ["target_tab_id","selector"].contains
        (String.ofList (part.takeWhile (· ≠ '=')))) &&
      query.all CloudFiles.isAscii && query.length ≤ 4096)

end Sending

section Reading

/-- One field of `parse_qsl` with strict parsing. -/
def queryField (part : List Char) : Option (String × String) :=
  if '=' ∈ part then do
    let plain := part.map fun c => if c = '+' then ' ' else c
    let name ← unquote (String.ofList (plain.takeWhile (· ≠ '=')))
    let value ← unquote (String.ofList ((plain.dropWhile (· ≠ '=')).drop 1))
    return (name,value)
  else none

/-- `parse_qs(query, keep_blank_values=True, strict_parsing=True, max_num_fields=2)`. -/
def parseQuery (query : String) : Option (List (String × String)) :=
  if query = "" then some []
  else
    let parts := query.toList.splitOn '&'
    if 2 < parts.length then none else parts.mapM queryField

def queryValues (name : String) (fields : List (String × String)) : List String :=
  (fields.filter (·.1 = name)).map Prod.snd

/-- `_validate_target_id`. -/
def validTargetId (targetId : String) : Bool := Text.bounded Text.utf8Length 256 targetId

/-- `GET /agent/pages/info`, up to the selector's own grammar. -/
def readPageInfo (query : String) : Except SidecarError BrowserCall :=
  match parseQuery query with
  | none => .error .valueError
  | some fields =>
    if fields.any fun f => !(["target_tab_id","selector"].contains f.1) then .error .valueError
    else match queryValues "target_tab_id" fields, queryValues "selector" fields with
    | [targetTabId], [] =>
      if validTargetId targetTabId then .ok (.pageInfo targetTabId none) else .error .valueError
    | [targetTabId], [selector] =>
      if validTargetId targetTabId then .ok (.pageInfo targetTabId (some selector))
      else .error .valueError
    | _, _ => .error .valueError

/-- `json.loads(self._read_text())`. -/
def readPayload (body : Bytes) : Except SidecarError Json := do
  match Json.loads (← readText body) with
  | none => .error .valueError
  | some payload => .ok payload

/-- `set(payload) == names`, for a payload that is an object. -/
def hasExactly (names : List String) (fields : List (String × Json)) : Bool :=
  fields.all (fun f => names.contains f.1) && names.all fun name => fields.any (·.1 = name)

/-- `_read_page_action_payload`. -/
def readPageActionPayload (body : Bytes) : Except SidecarError (String × String) := do
  match ← readPayload body with
  | .obj fields =>
    match hasExactly ["target_tab_id","value"] fields, Json.get fields "target_tab_id",
        Json.get fields "value" with
    | true, .str targetTabId, .str value =>
      if validTargetId targetTabId ∧ value ≠ "" then .ok (targetTabId,value) else .error .valueError
    | _, _, _ => .error .valueError
  | _ => .error .valueError

/-- `_read_page_type_payload`, up to the selector's own grammar. -/
def readPageTypePayload (body : Bytes) : Except SidecarError (String × String × String) := do
  match ← readPayload body with
  | .obj fields =>
    match hasExactly ["target_tab_id","selector","text"] fields, Json.get fields "target_tab_id",
        Json.get fields "selector", Json.get fields "text" with
    | true, .str targetTabId, .str selector, .str text =>
      if validTargetId targetTabId ∧ text ≠ "" then .ok (targetTabId,selector,text)
      else .error .valueError
    | _, _, _, _ => .error .valueError
  | _ => .error .valueError

/-- The page action that the sidecar is asked for. -/
def readPageRequest (request : PageRequest) : Except SidecarError BrowserCall :=
  match request.method, request.path with
  | "GET", "/agent/pages" => .ok .listPages
  | "GET", "/agent/pages/info" => readPageInfo request.query
  | "POST", "/agent/pages/navigate" =>
    (readPageActionPayload request.body).map fun r => .navigate r.1 r.2
  | "POST", "/agent/pages/click" =>
    (readPageActionPayload request.body).map fun r => .click r.1 r.2
  | "POST", "/agent/pages/type" =>
    (readPageTypePayload request.body).map fun r => .typeText r.1 r.2.1 r.2.2
  | _, _ => .error (.unavailable "not found")

end Reading

/-! ### What is sent is read -/

section Payloads

variable {repr : ℚ → List Char} {fields : List (String × String)} {tab selector text value : String}
  {path : String}

theorem plain_textFields (h : (fields.map Prod.fst).Nodup) : Json.Plain (textFields fields) := by
  refine .obj _ ?_ ?_
  · intro f hf
    obtain ⟨g,-,rfl⟩ := List.mem_map.mp hf
    exact .str g.2
  · rw [List.map_map]
    exact h

/-- The sidecar reads the payload of a request that is not too long. -/
theorem readPayload_sendJson {payload : Json} (h : Json.Plain payload)
    (hlength : (sendJson repr payload).length ≤ 8192) :
    readPayload (sendJson repr payload) = .ok payload := by
  rw [AgentControl.length_sendJson h] at hlength
  obtain ⟨c,cs,hhead,-⟩ := @Json.encode_head repr _ h
  have hbytes : Text.utf8Length (Json.dumps repr payload) = (Json.encode repr payload).length := by
    rw [Json.dumps,Text.utf8Length_ofList,Json.byteSize_encode h]
  have hpos : 0 < (Json.encode repr payload).length := by
    rw [hhead]
    simp
  rw [readPayload,sendJson,readText_encodeUtf8,hbytes,if_pos ⟨hpos,hlength⟩]
  simp only [bind,Except.bind,Json.loads_dumps h]

theorem readPageActionPayload_sendJson (htab : validTargetId tab = true) (hvalue : value ≠ "")
    (hlength : (sendJson repr (textFields [("target_tab_id",tab),("value",value)])).length ≤ 8192) :
    readPageActionPayload (sendJson repr (textFields [("target_tab_id",tab),("value",value)])) =
      .ok (tab,value) := by
  have hplain : Json.Plain (textFields [("target_tab_id",tab),("value",value)]) :=
    plain_textFields (by simp)
  rw [readPageActionPayload,readPayload_sendJson hplain hlength]
  exact if_pos ⟨htab,hvalue⟩

theorem readPageTypePayload_sendJson (htab : validTargetId tab = true) (htext : text ≠ "")
    (hlength : (sendJson repr (textFields
      [("target_tab_id",tab),("selector",selector),("text",text)])).length ≤ 8192) :
    readPageTypePayload (sendJson repr (textFields
      [("target_tab_id",tab),("selector",selector),("text",text)])) = .ok (tab,selector,text) := by
  have hplain : Json.Plain (textFields
      [("target_tab_id",tab),("selector",selector),("text",text)]) := plain_textFields (by simp)
  rw [readPageTypePayload,readPayload_sendJson hplain hlength]
  exact if_pos ⟨htab,htext⟩

end Payloads

section Queries

variable {needle word before after : List Char} {tab selector : String}

theorem takeWhile_sign (h : '=' ∉ before) :
    (before ++ '=' :: after).takeWhile (· ≠ '=') = before := by
  rw [List.takeWhile_append_of_pos]
  · simp
  · intro c hc
    simp only [ne_eq,decide_eq_true_eq]
    rintro rfl
    exact h hc

theorem dropWhile_sign (h : '=' ∉ before) :
    (before ++ '=' :: after).dropWhile (· ≠ '=') = '=' :: after := by
  rw [List.dropWhile_append_of_pos]
  · simp
  · intro c hc
    simp only [ne_eq,decide_eq_true_eq]
    rintro rfl
    exact h hc

theorem prefix_sign (hword : '=' ∉ word) (hbefore : '=' ∉ before) :
    (word ++ ['=']).isPrefixOf (before ++ '=' :: after) = true ↔ word = before := by
  rw [List.isPrefixOf_iff_prefix]
  constructor
  · rintro ⟨rest,hrest⟩
    have hword' := @takeWhile_sign word rest hword
    have hsame : word ++ '=' :: rest = before ++ '=' :: after := by simpa using hrest
    rw [hsame,takeWhile_sign hbefore] at hword'
    exact hword'.symm
  · rintro rfl
    exact ⟨after,by simp⟩

theorem countText_cons (c : Char) (text : List Char) : countText needle (c::text) =
    countText needle text + if needle.isPrefixOf (c::text) then 1 else 0 := by
  rw [countText,List.tails_cons,List.countP_cons]
  rfl

/-- A word that ends at the next sign `=` is found there; what is found else comes after it. -/
theorem countText_sign (hword : '=' ∉ word) (hbefore : '=' ∉ before) :
    countText (word ++ ['=']) (before ++ '=' :: after) =
      countText (word ++ ['=']) after + if word <:+ before then 1 else 0 := by
  induction before with
  | nil =>
    have hnow := @prefix_sign word [] after hword (by simp)
    rw [List.nil_append] at hnow ⊢
    rw [countText_cons]
    simp only [hnow,List.suffix_nil]
  | cons c before ih =>
    have hnow := @prefix_sign word (c::before) after hword hbefore
    have hrest : '=' ∉ before := fun h => hbefore (List.mem_cons_of_mem c h)
    rw [List.cons_append] at hnow ⊢
    rw [countText_cons,ih hrest]
    simp only [hnow,List.suffix_cons_iff]
    by_cases hwhole : word = c::before
    · have hlong : ¬word <:+ before := by
        intro hsuffix
        have hle := hsuffix.length_le
        rw [hwhole,List.length_cons] at hle
        omega
      subst hwhole
      simp [hlong]
    · simp [hwhole]

theorem countText_none (h : '=' ∉ after) : countText (word ++ ['=']) after = 0 := by
  induction after with
  | nil =>
    rw [countText]
    simp
  | cons c after ih =>
    have hno : (word ++ ['=']).isPrefixOf (c::after) = false := by
      rw [Bool.eq_false_iff,Ne,List.isPrefixOf_iff_prefix]
      intro hbegins
      exact h (hbegins.subset (by simp))
    rw [countText_cons,ih fun hc => h (List.mem_cons_of_mem c hc),hno]
    rfl

/-- What `quote` writes has none of the signs of a query. -/
theorem quote_signs {text : String} {c : Char} (h : c ∈ (quote text).toList) :
    c ≠ '=' ∧ c ≠ '&' ∧ c ≠ '+' ∧ CloudFiles.isAscii c = true := by
  rw [quote,String.toList_ofList] at h
  have hquoted := CloudFiles.isQuoted_quoted h
  refine ⟨?_,?_,?_,CloudFiles.isAscii_of_isQuoted hquoted⟩
  · rintro rfl
    exact absurd hquoted (by decide)
  · rintro rfl
    exact absurd hquoted (by decide)
  · rintro rfl
    exact absurd hquoted (by decide)

/-- A field that is written as `name=quoted` is read as the name and the text. -/
theorem queryField_quote {name : String}
    (hplain : (name.toList.all fun c => c ≠ '=' && c ≠ '+' && c ≠ '%') = true) (text : String) :
    queryField (name.toList ++ '=' :: (quote text).toList) = some (name,text) := by
  have hname : ∀ c ∈ name.toList, c ≠ '=' ∧ c ≠ '+' ∧ c ≠ '%' := by
    intro c hc
    simpa [and_assoc] using List.all_eq_true.mp hplain c hc
  have hsign : '=' ∉ name.toList := fun h => (hname _ h).1 rfl
  have hplain : (name.toList ++ '=' :: (quote text).toList).map
      (fun c => if c = '+' then ' ' else c) = name.toList ++ '=' :: (quote text).toList := by
    refine (List.map_congr_left (g:=id) ?_).trans (List.map_id _)
    intro c hc
    refine if_neg ?_
    rintro rfl
    rcases List.mem_append.mp hc with h | h
    · exact (hname _ h).2.1 rfl
    · rcases List.mem_cons.mp h with h | h
      · cases h
      · exact (quote_signs h).2.2.1 rfl
  have hunescaped : unquote name = some name := by
    rw [unquote,if_pos]
    exact fun h => (hname _ h).2.2 rfl
  rw [queryField,if_pos (by simp),hplain]
  simp only [takeWhile_sign hsign,dropWhile_sign hsign,List.drop_succ_cons,List.drop_zero,
    String.ofList_toList,hunescaped,CloudFiles.unquote_quote]
  rfl

/-- The text of a query field. -/
def fieldText (name text : String) : List Char := name.toList ++ '=' :: (quote text).toList

theorem not_mem_fieldText {name text : String} (h : '&' ∉ name.toList) : '&' ∉ fieldText name text := by
  intro hmem
  rcases List.mem_append.mp hmem with hmem | hmem
  · exact h hmem
  · rcases List.mem_cons.mp hmem with hmem | hmem
    · cases hmem
    · exact (quote_signs hmem).2.1 rfl

theorem query_none (tab : String) : ("target_tab_id=" ++ quote tab).toList =
    fieldText "target_tab_id" tab := by
  rw [String.toList_append]
  rfl

theorem query_some (tab selector : String) :
    ("target_tab_id=" ++ quote tab ++ "&selector=" ++ quote selector).toList =
      fieldText "target_tab_id" tab ++ '&' :: fieldText "selector" selector := by
  simp only [String.toList_append,fieldText,List.append_assoc]
  rfl

theorem split_none (tab : String) : (fieldText "target_tab_id" tab).splitOn '&' =
    [fieldText "target_tab_id" tab] :=
  List.splitOn_eq_singleton (not_mem_fieldText (by decide))

theorem split_some (tab selector : String) :
    (fieldText "target_tab_id" tab ++ '&' :: fieldText "selector" selector).splitOn '&' =
      [fieldText "target_tab_id" tab,fieldText "selector" selector] := by
  rw [List.splitOn_append_cons_self,split_none,
    List.splitOn_eq_singleton (not_mem_fieldText (by decide))]
  rfl

theorem queryField_target (tab : String) :
    queryField (fieldText "target_tab_id" tab) = some ("target_tab_id",tab) :=
  queryField_quote rfl tab

theorem queryField_selector (selector : String) :
    queryField (fieldText "selector" selector) = some ("selector",selector) :=
  queryField_quote rfl selector

theorem parseQuery_none (tab : String) :
    parseQuery ("target_tab_id=" ++ quote tab) = some [("target_tab_id",tab)] := by
  have hne : "target_tab_id=" ++ quote tab ≠ "" := by
    intro h
    have hlist := query_none tab
    rw [h] at hlist
    cases hlist
  rw [parseQuery,if_neg hne,query_none,split_none]
  show [fieldText "target_tab_id" tab].mapM queryField = _
  rw [List.mapM_cons,queryField_target]
  rfl

theorem parseQuery_some (tab selector : String) :
    parseQuery ("target_tab_id=" ++ quote tab ++ "&selector=" ++ quote selector) =
      some [("target_tab_id",tab),("selector",selector)] := by
  have hne : "target_tab_id=" ++ quote tab ++ "&selector=" ++ quote selector ≠ "" := by
    intro h
    have hlist := query_some tab selector
    rw [h] at hlist
    cases hlist
  rw [parseQuery,if_neg hne,query_some,split_some]
  show [fieldText "target_tab_id" tab,fieldText "selector" selector].mapM queryField = _
  rw [List.mapM_cons,List.mapM_cons,queryField_target,queryField_selector]
  rfl

theorem readPageInfo_none (htab : validTargetId tab = true) :
    readPageInfo ("target_tab_id=" ++ quote tab) = .ok (.pageInfo tab none) := by
  rw [readPageInfo,parseQuery_none]
  exact if_pos htab

theorem readPageInfo_some (htab : validTargetId tab = true) :
    readPageInfo ("target_tab_id=" ++ quote tab ++ "&selector=" ++ quote selector) =
      .ok (.pageInfo tab (some selector)) := by
  rw [readPageInfo,parseQuery_some]
  exact if_pos htab

theorem length_quote (text : String) : (quote text).toList.length ≤ 3*Text.utf8Length text := by
  rw [quote,String.toList_ofList,← Text.length_encodeUtf8]
  exact CloudFiles.length_quoted _

theorem no_sign (text : String) : '=' ∉ (quote text).toList := fun h => (quote_signs h).1 rfl

/-- A field is allowed under either of the two names. -/
theorem fieldText_allowed {name : String} (text : String)
    (hname : name ∈ ["target_tab_id","selector"]) :
    ["target_tab_id","selector"].contains
      (String.ofList ((fieldText name text).takeWhile (· ≠ '='))) = true := by
  have hsign : '=' ∉ name.toList := by
    simp only [List.mem_cons,List.not_mem_nil,or_false] at hname
    rcases hname with rfl | rfl <;> decide
  rw [fieldText,takeWhile_sign hsign,String.ofList_toList]
  simpa using hname

theorem ascii_fieldText {name text : String} (h : name.toList.all CloudFiles.isAscii = true) :
    (fieldText name text).all CloudFiles.isAscii = true := by
  have hquoted : (quote text).toList.all CloudFiles.isAscii = true :=
    List.all_eq_true.mpr fun c hc => (quote_signs hc).2.2.2
  rw [fieldText,List.all_append,List.all_cons,h,hquoted]
  rfl

theorem count_none (word tab : String) (hword : '=' ∉ word.toList) :
    countText (word.toList ++ ['=']) (fieldText "target_tab_id" tab) =
      if word.toList <:+ "target_tab_id".toList then 1 else 0 := by
  rw [fieldText,countText_sign hword (by decide),countText_none (no_sign tab),Nat.zero_add]

theorem count_some (word tab selector : String) (hword : '=' ∉ word.toList) :
    countText (word.toList ++ ['='])
      (fieldText "target_tab_id" tab ++ '&' :: fieldText "selector" selector) =
      (if word.toList <:+ (quote tab).toList ++ "&selector".toList then 1 else 0) +
        if word.toList <:+ "target_tab_id".toList then 1 else 0 := by
  have hsame : fieldText "target_tab_id" tab ++ '&' :: fieldText "selector" selector =
      "target_tab_id".toList ++ '=' :: (((quote tab).toList ++ "&selector".toList) ++
        '=' :: (quote selector).toList) := by
    simp only [fieldText,List.append_assoc,List.cons_append]
    rfl
  have hbefore : '=' ∉ (quote tab).toList ++ "&selector".toList := by
    intro h
    rcases List.mem_append.mp h with h | h
    · exact no_sign tab h
    · exact absurd h (by decide)
  rw [hsame,countText_sign hword (by decide),countText_sign hword hbefore,
    countText_none (no_sign selector),Nat.zero_add]

theorem queryAllowed_info {query : String}
    (htarget : countText "target_tab_id=".toList query.toList = 1)
    (hselector : countText "selector=".toList query.toList ≤ 1)
    (hparts : ∀ part ∈ query.toList.splitOn '&', ["target_tab_id","selector"].contains
      (String.ofList (part.takeWhile (· ≠ '='))) = true)
    (hascii : query.toList.all CloudFiles.isAscii = true) (hlength : query.toList.length ≤ 4096) :
    queryAllowed { method := "GET", path := "/agent/pages/info", query := query } = true := by
  simp only [queryAllowed,htarget,List.all_eq_true.mpr hparts,hascii,decide_true,
    Bool.true_or,Bool.and_true,decide_eq_true hselector,decide_eq_true hlength,
    Bool.or_true]

/-- The client sends every query that the transport makes. -/
theorem queryAllowed_pageInfo (repr : ℚ → List Char) (htab : Text.utf8Length tab ≤ 256)
    {selector : Option String} (hselector : ∀ s, selector = some s → Text.utf8Length s ≤ 512) :
    queryAllowed (pageRequest repr (.pageInfo tab selector)) = true := by
  have hlength := length_quote tab
  cases selector with
  | none =>
    have htarget := count_none "target_tab_id" tab (by decide)
    have hnone := count_none "selector" tab (by decide)
    rw [if_pos (by decide)] at htarget
    rw [if_neg (by decide)] at hnone
    apply queryAllowed_info <;> rw [query_none]
    · exact htarget
    · exact hnone.trans_le (by omega)
    · rw [split_none]
      simp only [List.mem_singleton,forall_eq]
      exact fieldText_allowed tab (by decide)
    · exact ascii_fieldText (by decide)
    · have hname : "target_tab_id".toList.length = 13 := rfl
      simp only [fieldText,List.length_append,List.length_cons,hname]
      omega
  | some s =>
    have hshort := hselector s rfl
    have hlength' := length_quote s
    have hcount := count_some "target_tab_id" tab s (by decide)
    have hcount' := count_some "selector" tab s (by decide)
    have hother : ¬"target_tab_id".toList <:+ (quote tab).toList ++ "&selector".toList := by
      intro h
      rcases List.suffix_or_suffix_of_suffix h (List.suffix_append _ _) with h | h
      · exact absurd h (by decide)
      · exact absurd h (by decide)
    rw [if_neg hother,if_pos (by decide)] at hcount
    rw [if_neg (show ¬"selector".toList <:+ "target_tab_id".toList by decide)] at hcount'
    apply queryAllowed_info <;> rw [query_some]
    · exact hcount
    · refine hcount'.trans_le ?_
      split <;> omega
    · rw [split_some]
      simp only [List.mem_cons,List.not_mem_nil,or_false,forall_eq_or_imp,forall_eq]
      exact ⟨fieldText_allowed tab (by decide),fieldText_allowed s (by decide)⟩
    · rw [List.all_append,List.all_cons,ascii_fieldText (by decide),ascii_fieldText (by decide)]
      rfl
    · have hname : "target_tab_id".toList.length = 13 := rfl
      have hname' : "selector".toList.length = 8 := rfl
      simp only [fieldText,List.length_append,List.length_cons,hname,hname']
      omega

end Queries

section Received

variable {repr : ℚ → List Char} {c : BrowserCall}

/-- A page action within the bounds of the service. -/
def WithinBounds : BrowserCall → Prop
  | .listPages => True
  | .pageInfo tab selector =>
    validTargetId tab = true ∧ ∀ s, selector = some s → Text.utf8Length s ≤ 512
  | .navigate tab url => validTargetId tab = true ∧ url ≠ ""
  | .click tab selector => validTargetId tab = true ∧ selector ≠ ""
  | .typeText tab _ text => validTargetId tab = true ∧ text ≠ ""

theorem queryAllowed_pageRequest (h : WithinBounds c) : queryAllowed (pageRequest repr c) = true := by
  cases c with
  | pageInfo tab selector =>
    have htab : Text.utf8Length tab ≤ 256 := by
      have hvalid := h.1
      simp only [validTargetId,Text.bounded,Bool.and_eq_true,decide_eq_true_eq] at hvalid
      exact hvalid.1.2
    exact queryAllowed_pageInfo repr htab h.2
  | _ => rfl

/-- The sidecar reads what the service sends, where the body is not too long. -/
theorem readPageRequest_pageRequest (h : WithinBounds c)
    (hlength : (pageRequest repr c).body.length ≤ 8192) :
    readPageRequest (pageRequest repr c) = .ok c := by
  cases c with
  | listPages => rfl
  | pageInfo tab selector =>
    cases selector with
    | none => exact readPageInfo_none h.1
    | some s => exact readPageInfo_some h.1
  | navigate tab url =>
    simp only [pageRequest,actionRequest] at hlength
    have hread := @readPageActionPayload_sendJson repr tab url h.1 h.2 hlength
    simp only [pageRequest,actionRequest,readPageRequest,hread,Except.map]
  | click tab selector =>
    simp only [pageRequest,actionRequest] at hlength
    have hread := @readPageActionPayload_sendJson repr tab selector h.1 h.2 hlength
    simp only [pageRequest,actionRequest,readPageRequest,hread,Except.map]
  | typeText tab selector text =>
    simp only [pageRequest,actionRequest] at hlength
    have hread := @readPageTypePayload_sendJson repr tab selector text h.1 h.2 hlength
    simp only [pageRequest,actionRequest,readPageRequest,hread,Except.map]

end Received

end BrowserSidecar
end CloudBrowser
