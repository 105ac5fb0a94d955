import CloudBrowser.DownloadsKept
import CloudBrowser.IngestPipeline
import CloudBrowser.Latin1
import Mathlib.Data.List.DropRight
import Mathlib.Data.List.TakeWhile

/-! A download on its way to the ingest receiver. Its name and its binding travel as header
values: in Latin-1, and without the blanks at their ends. -/
namespace CloudBrowser
namespace Downloads

open CloudFiles
open Directories

/-! ### Header values -/

def isBlank (c : Char) : Bool := c == ' ' || c == '\t'

/-- What a header parser reads of a value. Some take the blanks behind it away as well. -/
def arriving (trims : Bool) (value : String) : String :=
  String.ofList (if trims then (value.toList.dropWhile isBlank).rdropWhile isBlank
    else value.toList.dropWhile isBlank)

/-- The texts that arrive as they were sent. -/
structure Travels (trims : Bool) (text : String) : Prop where
  latin1 : text.toList.all Text.isLatin1 = true
  head : ∀ c ∈ text.toList.head?, isBlank c = false
  last : trims = true → ∀ c ∈ text.toList.getLast?, isBlank c = false

theorem dropWhile_isBlank_eq_iff {l : List Char} :
    l.dropWhile isBlank = l ↔ ∀ c ∈ l.head?, isBlank c = false := by
  rw [List.dropWhile_eq_self_iff]
  cases l <;> simp

theorem rdropWhile_isBlank_eq_iff {l : List Char} :
    l.rdropWhile isBlank = l ↔ ∀ c ∈ l.getLast?, isBlank c = false := by
  rw [List.rdropWhile_eq_self_iff]
  rcases List.eq_nil_or_concat l with rfl | ⟨l',c,rfl⟩ <;> simp

theorem arriving_eq_iff {trims : Bool} {text : String} : arriving trims text = text ↔
    (∀ c ∈ text.toList.head?, isBlank c = false) ∧
      (trims = true → ∀ c ∈ text.toList.getLast?, isBlank c = false) := by
  rw [← String.toList_inj,arriving,String.toList_ofList,← dropWhile_isBlank_eq_iff,
    ← rdropWhile_isBlank_eq_iff]
  cases trims with
  | false => simp
  | true =>
    constructor
    · intro h
      have hdrop : text.toList.dropWhile isBlank = text.toList := by
        refine (List.dropWhile_suffix isBlank).eq_of_length_le ?_
        have hprefix := (List.rdropWhile_prefix isBlank (text.toList.dropWhile isBlank)).length_le
        simp only [if_true] at h
        rwa [h] at hprefix
      simp only [if_true,hdrop] at h
      exact ⟨hdrop,fun _ => h⟩
    · rintro ⟨hdrop,hlast⟩
      simp [hdrop,hlast rfl]

theorem travels_iff {trims : Bool} {text : String} : Travels trims text ↔
    text.toList.all Text.isLatin1 = true ∧ arriving trims text = text := by
  rw [arriving_eq_iff]
  exact ⟨fun h => ⟨h.latin1,h.head,h.last⟩,fun h => ⟨h.1,h.2.1,h.2.2⟩⟩

instance (trims : Bool) (text : String) : Decidable (Travels trims text) :=
  decidable_of_iff _ travels_iff.symm

/-- A text whose characters are all Latin-1 and no blanks travels. -/
theorem travels_of_all {trims : Bool} {text : String}
    (h : ∀ c ∈ text.toList, Text.isLatin1 c = true ∧ isBlank c = false) : Travels trims text where
  latin1 := List.all_eq_true.mpr fun c hc => (h c hc).1
  head c hc := (h c (List.mem_of_mem_head? hc)).2
  last _ c hc := (h c (List.mem_of_mem_getLast? hc)).2

theorem alphanum_travels {c : Char} (h : c.isAlphanum = true) :
    Text.isLatin1 c = true ∧ isBlank c = false := by
  have hn : 48 ≤ c.toNat ∧ c.toNat < 123 := by
    -- the letters and the digits are three ranges of code points
    change ((decide (65 ≤ c.val ∧ c.val ≤ 90) || decide (97 ≤ c.val) && decide (c.val ≤ 122)) ||
      decide (48 ≤ c.val) && decide (c.val ≤ 57)) = true at h
    simp only [Bool.or_eq_true,Bool.and_eq_true,decide_eq_true_eq,UInt32.le_iff_toNat_le] at h
    have htoNat : c.toNat = c.val.toNat := rfl
    rcases h with (⟨h1,h2⟩ | ⟨h1,h2⟩) | ⟨h1,h2⟩ <;> simp at h1 h2 <;> omega
  constructor
  · simp only [Text.isLatin1,decide_eq_true_eq,UInt32.lt_iff_toNat_lt]
    show c.toNat < 256
    omega
  · have hne : ∀ d : Char, d.toNat < 48 → (c == d) = false := by
      intro d hd
      simp only [beq_eq_false_iff_ne,ne_eq]
      rintro rfl
      omega
    simp [isBlank,hne]

theorem matchesName_travels {trims : Bool} {extra : List Char} {s : String}
    (hextra : extra.all fun c => Text.isLatin1 c && !isBlank c) (h : matchesName extra s = true) :
    Travels trims s := by
  refine travels_of_all fun c hc => ?_
  have hmem : c.isAlphanum = true ∨ c ∈ extra := by
    unfold matchesName at h
    cases hs : s.toList with
    | nil => simp [hs] at hc
    | cons c' cs =>
      rw [hs] at h hc
      simp only [Bool.and_eq_true,decide_eq_true_eq,List.all_eq_true,Bool.or_eq_true,
        List.contains_iff_mem] at h
      rcases List.mem_cons.mp hc with rfl | hc
      · exact Or.inl h.1.1
      · exact h.2 c hc
  rcases hmem with halnum | hmem
  · exact alphanum_travels halnum
  · simpa using List.all_eq_true.mp hextra c hmem

theorem principal_travels {trims : Bool} {s : String} (h : isPrincipal s = true) :
    Travels trims s := matchesName_travels (by decide) h

theorem token_travels {trims : Bool} {s : String} (h : isToken s = true) : Travels trims s := by
  simp only [isToken,Bool.or_eq_true,decide_eq_true_eq] at h
  rcases h with rfl | h
  · exact travels_of_all (by simp)
  · exact matchesName_travels (by decide) h

theorem toList_toString (n : ℕ) : (toString n).toList = Nat.toDigits 10 n := by
  simp [Nat.toString_eq_repr,Nat.repr_eq_ofList_toDigits]

theorem digits_travel {trims : Bool} (n : ℕ) : Travels trims (toString n) := by
  refine travels_of_all fun c hc => alphanum_travels ?_
  rw [toList_toString] at hc
  simp [Char.isAlphanum,Json.isDigit_toDigits n c hc]

theorem digit_not_space {c : Char} (h : c.isDigit = true) :
    isSpace c = false ∧ c ≠ '-' ∧ c ≠ '+' ∧ c ≠ '_' := by
  simp only [Char.isDigit,Bool.and_eq_true,decide_eq_true_eq,UInt32.le_iff_toNat_le,ge_iff_le] at h
  have hlow : 48 ≤ c.val.toNat := h.1
  have hhigh : c.val.toNat ≤ 57 := h.2
  refine ⟨?_,?_,?_,?_⟩
  · simp only [isSpace,Bool.or_eq_false_iff,Bool.and_eq_false_iff,decide_eq_false_iff_not,
      UInt32.le_iff_toNat_le,beq_eq_false_iff_ne,ne_eq,← UInt32.toNat_inj,UInt32.reduceToNat]
    omega
  all_goals
    rintro rfl
    simp at hlow hhigh

/-- `int` reads a length as it was written, unless that has too many digits. -/
theorem intOfText_toString (n : ℕ) : intOfText (toString n) =
    if (toString n).length ≤ Json.maxStrDigits then some (n : ℤ) else none := by
  have hlength : (toString n).length = (Nat.toDigits 10 n).length := by
    rw [← toList_toString,String.length_toList]
  have hdigit := Json.isDigit_toDigits n
  have hne : Nat.toDigits 10 n ≠ [] := Nat.toDigits_ne_nil
  have hvalue := Nat.ofDigitChars_ten_toDigits (n:=n)
  rw [intOfText,toList_toString,hlength]
  generalize Nat.toDigits 10 n = digits at *
  have hstrip : ∀ l : List Char, (∀ c ∈ l, c.isDigit = true) → l.dropWhile isSpace = l := by
    intro l hl
    rw [List.dropWhile_eq_self_iff]
    intro hpos
    simp [(digit_not_space (hl _ (List.getElem_mem hpos))).1]
  rw [hstrip digits hdigit,hstrip digits.reverse (by simpa using hdigit),List.reverse_reverse]
  have hplain : digitsOf digits =
      if digits.length ≤ Json.maxStrDigits then some n else none := by
    have hsplit : digits.splitOn '_' = [digits] :=
      List.splitOn_eq_singleton fun h => (digit_not_space (hdigit _ h)).2.2.2 rfl
    have hall : digits.all Char.isDigit = true := List.all_eq_true.mpr hdigit
    have hparts : ([digits].all fun part => !part.isEmpty && part.all Char.isDigit) = true := by
      simp [hall,hne]
    rw [digitsOf,hsplit,if_pos hparts,List.flatten_singleton,hvalue]
    split_ifs with hlong hlong' hlong'
    · omega
    · rfl
    · rfl
    · omega
  split
  · exact absurd rfl (digit_not_space (hdigit _ (List.mem_cons_self ..))).2.1
  · exact absurd rfl (digit_not_space (hdigit _ (List.mem_cons_self ..))).2.2.1
  · rw [hplain]
    split_ifs <;> rfl

/-! ### The receiver -/

/-- What the handler calls the pipeline with, where it does: the binding, the name and the length
of the body. -/
def pipelineCall (server : IngestServer) (request : PostRequest) :
    Option (PrincipalBinding × String × ℕ) :=
  match server.accept request with
  | .error _ => none
  | .ok (binding,declared) => some (binding,(request.entry "x-cb-filename").getD "",declared)

theorem doPost_of_pipelineCall {σ : Type} {server : IngestServer} {request : PostRequest}
    {binding : PrincipalBinding} {name : String} {declared : ℕ} (t : Staging)
    (stream : BodyStream σ) (start : σ)
    (h : pipelineCall server request = some (binding,name,declared)) :
    (server.doPost t stream request start).2 = (Stateful.exec (ingest server.pipeline t
      ⟨stream,server.maxBytes,declared⟩ binding name) { stream := start }).2 := by
  rw [pipelineCall] at h
  rw [IngestServer.doPost]
  cases haccept : server.accept request with
  | error response =>
    rw [haccept] at h
    cases h
  | ok call =>
    rw [haccept] at h
    cases h
    dsimp only
    split <;> rename_i hrun <;> rw [hrun]

/-- A request that does not get to the pipeline hands nothing over. -/
theorem doPost_of_no_call {σ : Type} {server : IngestServer} {request : PostRequest} (t : Staging)
    (stream : BodyStream σ) (start : σ) (h : pipelineCall server request = none) :
    (server.doPost t stream request start).2 = { stream := start } := by
  rw [pipelineCall] at h
  rw [IngestServer.doPost]
  cases haccept : server.accept request with
  | error response => rfl
  | ok call =>
    rw [haccept] at h
    cases h

/-- The request at the receiver, whose URL the client was given. -/
def received (trims : Bool) (headers : List (String × String)) : PostRequest where
  path := "/ingest/complete"
  headers := headers.map fun h => (h.1,arriving trims h.2)

def sentHeaders (client : IngestClient) (event : BrowserDownloadCompleted) (safe : String) :
    List (String × String) :=
  client.headers event.binding ++ [("Content-Length",toString event.size),("X-CB-Filename",safe)]

/-- What the receiver finds under the names of the headers. -/
structure Found (trims : Bool) (client : IngestClient) (event : BrowserDownloadCompleted)
    (safe : String) (request : PostRequest) : Prop where
  path : request.path.toList.takeWhile (· ≠ '?') = "/ingest/complete".toList
  secret : request.entry "x-cb-trusted-secret" = some (arriving trims client.sharedSecret)
  principalId : request.entry "x-cb-principal" = some event.binding.principalId
  profileId : request.entry "x-cb-profile" = some event.binding.profileId
  browserId : request.entry "x-cb-browser" = some event.binding.browserId
  generation : request.entry "x-cb-generation" = some event.binding.generation
  requestId : request.entry "x-cb-request-id" = some event.binding.requestId
  length : request.header "content-length" = some (toString event.size)
  filename : request.entry "x-cb-filename" = some (arriving trims safe)

theorem find_of_nodup {headers : List (String × String)} {h : String × String} {name : List Char}
    (hdistinct : (headers.map fun h => Text.lower h.1).Nodup) (hmem : h ∈ headers)
    (hname : Text.lower h.1 = name) :
    headers.find? (fun h => Text.lower h.1 = name) = some h := by
  induction headers with
  | nil => cases hmem
  | cons g headers ih =>
    obtain ⟨hnew,hdistinct⟩ := List.nodup_cons.mp hdistinct
    rcases List.mem_cons.mp hmem with rfl | hrest
    · exact List.find?_cons_of_pos (by simpa using hname)
    · have hother : Text.lower g.1 ≠ name := fun hg =>
        hnew (List.mem_map.mpr ⟨h,hrest,hname.trans hg.symm⟩)
      rw [List.find?_cons_of_neg (by simpa using hother)]
      exact ih hdistinct hrest

/-- No two headers that are sent have one name. -/
theorem nodup_received (trims : Bool) (client : IngestClient) (event : BrowserDownloadCompleted)
    (safe : String) : ((received trims (sentHeaders client event safe)).headers.map
      fun h => Text.lower h.1).Nodup := by
  have hnames : (["X-CB-Trusted-Secret","X-CB-Principal","X-CB-Profile","X-CB-Browser",
      "X-CB-Generation","X-CB-Request-Id","Content-Length",
      "X-CB-Filename"].map Text.lower).Nodup := by
    decide +kernel
  exact hnames

section Sent

variable {trims : Bool} {client : IngestClient} {event : BrowserDownloadCompleted}
  {safe name value : String}

theorem header_received (sent : String)
    (hsent : (sent,value) ∈ sentHeaders client event safe) (hname : Text.lower sent = name.toList) :
    (received trims (sentHeaders client event safe)).header name =
      some (arriving trims value) := by
  rw [PostRequest.header,find_of_nodup (nodup_received trims client event safe)
    (List.mem_map_of_mem hsent) hname]
  rfl

theorem entry_received (sent : String)
    (hsent : (sent,value) ∈ sentHeaders client event safe) (hname : Text.lower sent = name.toList) :
    (received trims (sentHeaders client event safe)).entry name =
      some (arriving trims value) := by
  have hdistinct := List.nodup_reverse.mpr (nodup_received trims client event safe)
  rw [← List.map_reverse] at hdistinct
  rw [PostRequest.entry,find_of_nodup hdistinct
    (List.mem_reverse.mpr (List.mem_map_of_mem hsent)) hname]
  rfl

end Sent

theorem found_received (trims : Bool) (client : IngestClient) (event : BrowserDownloadCompleted)
    (safe : String) :
    Found trims client event safe (received trims (sentHeaders client event safe)) := by
  have htokens := event.binding.tokens
  simp only [List.all_cons,List.all_nil,Bool.and_true,Bool.and_eq_true] at htokens
  have harrives : ∀ {a : Option String} {value : String}, a = some (arriving trims value) →
      Travels trims value → a = some value :=
    fun h htravels => h.trans (congrArg some (travels_iff.mp htravels).2)
  have hsent : ∀ i : Fin 8, (sentHeaders client event safe).get i ∈
      sentHeaders client event safe := fun i => List.get_mem (sentHeaders client event safe) i
  constructor
  case path =>
    show ("/ingest/complete".toList.takeWhile (· ≠ '?')) = _
    decide +kernel
  case secret => exact entry_received "X-CB-Trusted-Secret" (hsent 0) (by decide +kernel)
  case principalId =>
    refine harrives ?_ (principal_travels event.binding.principal)
    exact entry_received "X-CB-Principal" (hsent 1) (by decide +kernel)
  case profileId =>
    refine harrives ?_ (token_travels htokens.1)
    exact entry_received "X-CB-Profile" (hsent 2) (by decide +kernel)
  case browserId =>
    refine harrives ?_ (token_travels htokens.2.1)
    exact entry_received "X-CB-Browser" (hsent 3) (by decide +kernel)
  case generation =>
    refine harrives ?_ (token_travels htokens.2.2.1)
    exact entry_received "X-CB-Generation" (hsent 4) (by decide +kernel)
  case requestId =>
    refine harrives ?_ (token_travels htokens.2.2.2)
    exact entry_received "X-CB-Request-Id" (hsent 5) (by decide +kernel)
  case length =>
    refine harrives ?_ (digits_travel event.size)
    exact header_received "Content-Length" (hsent 6) (by decide +kernel)
  case filename => exact entry_received "X-CB-Filename" (hsent 7) (by decide +kernel)

/-- A length that the receiver reads, and takes. -/
def Fits (server : IngestServer) (size : ℕ) : Prop :=
  (toString size).length ≤ Json.maxStrDigits ∧ size ≤ server.maxBytes

instance (server : IngestServer) (size : ℕ) : Decidable (Fits server size) := by
  unfold Fits
  infer_instance

theorem accept_found {trims : Bool} {client : IngestClient} {event : BrowserDownloadCompleted}
    {safe : String} {server : IngestServer} {request : PostRequest}
    (hresolver : server.bindingResolver = defaultBindingResolver)
    (hsecret : server.trustedSecret = Text.encodeUtf8 client.sharedSecret)
    (hfound : Found trims client event safe request) : pipelineCall server request =
      if arriving trims client.sharedSecret = client.sharedSecret ∧ Fits server event.size then
        some (event.binding,arriving trims safe,event.size)
      else none := by
  have hchecked : checkTrustedSecret request server.trustedSecret =
      decide (arriving trims client.sharedSecret = client.sharedSecret) := by
    have hnonempty : client.sharedSecret ≠ "" := by
      intro hempty
      have hlong := client.secret_long
      rw [hempty] at hlong
      exact absurd hlong (by decide)
    rw [checkTrustedSecret,hfound.secret,hsecret]
    by_cases h : arriving trims client.sharedSecret = client.sharedSecret
    · simp [h,hnonempty]
    · have hdiffers : Text.encodeUtf8 (arriving trims client.sharedSecret) ≠
          Text.encodeUtf8 client.sharedSecret := fun heq => h (Text.encodeUtf8_injective heq)
      simp [h,hdiffers]
  have hbinding : server.bindingResolver request = some event.binding := by
    have hbuild : PrincipalBinding.build event.binding.principalId event.binding.profileId
        event.binding.browserId event.binding.generation event.binding.requestId =
          some event.binding := by
      rw [PrincipalBinding.build,dif_pos event.binding.principal,dif_pos event.binding.tokens]
    have hprincipal : event.binding.principalId ≠ "" := by
      intro hempty
      have hvalid := event.binding.principal
      rw [hempty] at hvalid
      exact absurd hvalid (by decide)
    rw [hresolver,defaultBindingResolver,hfound.principalId,hfound.profileId,hfound.browserId,
      hfound.generation,hfound.requestId]
    simpa [hprincipal] using hbuild
  unfold pipelineCall IngestServer.accept
  rw [if_neg (not_not.mpr hfound.path),hchecked,hbinding,hfound.length,hfound.filename]
  by_cases h : arriving trims client.sharedSecret = client.sharedSecret
  · simp only [h,decide_true,Bool.not_true,Bool.false_eq_true,if_false,Option.getD_some,
      intOfText_toString,true_and,Fits]
    by_cases hdigits : (toString event.size).length ≤ Json.maxStrDigits
    · have hsign : ¬(event.size : ℤ) < 0 := by omega
      simp only [hdigits,if_true,true_and,hsign,if_false]
      by_cases hmax : event.size ≤ server.maxBytes
      · have hfits : ¬(server.maxBytes : ℤ) < event.size := by omega
        simp only [hmax,hfits,if_true,if_false,Int.toNat_natCast]
      · have hlarge : (server.maxBytes : ℤ) < event.size := by omega
        simp only [hmax,hlarge,if_true,if_false]
    · simp only [hdigits,false_and,if_false]
  · simp [h]

/-! ### One submission -/

/-- A watcher and the receiver that its client submits to, with the secret that both are given. -/
structure Deployment where
  watcher : BrowserDownloadWatcher
  server : IngestServer
  resolver : server.bindingResolver = defaultBindingResolver
  secret : server.trustedSecret = Text.encodeUtf8 watcher.client.sharedSecret

/-- What the pipeline is called with when the watcher takes the size of the file that it has opened
and submits it. -/
def Deployment.submission (x : Deployment) (trims : Bool) (d : Directory Node) :
    Option (PrincipalBinding × String × ℕ) :=
  match (step d x.watcher .fstat).2.2 with
  | some (.posted headers _) => pipelineCall x.server (received trims headers)
  | _ => none

/-- The submission gets to the pipeline, under the name that the validator gives. -/
def Deployment.Delivers (x : Deployment) (trims : Bool) (d : Directory Node) (name : String)
    (binding : PrincipalBinding) (size : ℕ) : Prop :=
  ∃ safe, validateName name = some safe ∧ x.submission trims d = some (binding,safe,size)

section Submission

variable {x : Deployment} {trims : Bool} {d : Directory Node} {name safe : String}
  {binding : PrincipalBinding} {descriptor : ℕ} {rest : List String} {content : Bytes}

/-- What the client sends, unless a character of the secret or of the name is not in Latin-1. -/
theorem request_eq_sent {client : IngestClient} {event : BrowserDownloadCompleted}
    (hname : validateName event.sourceName = some safe) (hid : event.binding.requestId ≠ "") :
    client.request event = if client.sharedSecret.toList.all Text.isLatin1 = true ∧
      safe.toList.all Text.isLatin1 = true then some (sentHeaders client event safe) else none := by
  have htokens := event.binding.tokens
  simp only [List.all_cons,List.all_nil,Bool.and_true,Bool.and_eq_true] at htokens
  have hprincipal := (@principal_travels true _ event.binding.principal).latin1
  have hprofile := (@token_travels true _ htokens.1).latin1
  have hbrowser := (@token_travels true _ htokens.2.1).latin1
  have hgeneration := (@token_travels true _ htokens.2.2.1).latin1
  have hrequest := (@token_travels true _ htokens.2.2.2).latin1
  have hlength := (@digits_travel true event.size).latin1
  have hall : ((sentHeaders client event safe).all fun h => h.2.toList.all Text.isLatin1) =
      (client.sharedSecret.toList.all Text.isLatin1 && safe.toList.all Text.isLatin1) := by
    simp only [sentHeaders,IngestClient.headers,List.cons_append,List.nil_append,List.all_cons,
      List.all_nil,hprincipal,hprofile,hbrowser,hgeneration,hrequest,hlength,Bool.true_and,
      Bool.and_true]
  rw [IngestClient.request,hname]
  show (if event.binding.requestId ≠ "" ∧ ((sentHeaders client event safe).all fun h =>
    h.2.toList.all Text.isLatin1) = true then some (sentHeaders client event safe) else none) = _
  simp only [hid,hall,ne_eq,not_false_eq_true,true_and,Bool.and_eq_true]

theorem submission_eq (hphase : x.watcher.phase = .opened name binding descriptor rest)
    (hfile : d.node descriptor = .file content)
    (hmax : content.length ≤ x.watcher.config.maxBytes)
    (hname : validateName name = some safe) (hid : binding.requestId ≠ "") :
    x.submission trims d =
      if Travels trims x.watcher.client.sharedSecret ∧ Fits x.server content.length ∧
        safe.toList.all Text.isLatin1 = true then some (binding,arriving trims safe,content.length)
      else none := by
  have hsent := @request_eq_sent safe x.watcher.client
    ⟨binding,name,descriptor,content.length⟩ hname hid
  have hcall := accept_found x.resolver x.secret (found_received trims x.watcher.client
    ⟨binding,name,descriptor,content.length⟩ safe)
  unfold Deployment.submission
  simp only [travels_iff]
  by_cases hlatin : x.watcher.client.sharedSecret.toList.all Text.isLatin1 = true ∧
      safe.toList.all Text.isLatin1 = true
  · rw [if_pos hlatin] at hsent
    simp only [step,hphase,checkSize,hfile,if_pos hmax,beginSubmit,hsent,hcall,hlatin.1,hlatin.2,
      true_and,and_true]
  · rw [if_neg hlatin] at hsent
    simp only [step,hphase,checkSize,hfile,if_pos hmax,beginSubmit,hsent]
    rw [if_neg]
    rintro ⟨⟨hsecret,-⟩,-,hsafe⟩
    exact hlatin ⟨hsecret,hsafe⟩

/-- A file that was selected and opened gets to the pipeline under its name and its binding exactly
where its name travels, if the secret does and the receiver takes its length. -/
theorem delivers_iff (x : Deployment) (trims : Bool) (d : Directory Node) (name : String)
    (binding : PrincipalBinding) (descriptor : ℕ) (rest : List String) (content : Bytes)
    (hphase : x.watcher.phase = .opened name binding descriptor rest)
    (hfile : d.node descriptor = .file content)
    (hcandidate : isCandidate x.watcher.config.maxBytes name (some (.file content)) = true)
    (hid : binding.requestId ≠ "") : x.Delivers trims d name binding content.length ↔
      Travels trims x.watcher.client.sharedSecret ∧ Fits x.server content.length ∧
        ∀ safe ∈ validateName name, Travels trims safe := by
  simp only [isCandidate,Bool.and_eq_true,decide_eq_true_eq] at hcandidate
  obtain ⟨⟨-,hvalid⟩,hmax⟩ := hcandidate
  obtain ⟨safe,hsafe⟩ := Option.isSome_iff_exists.mp hvalid
  have hsubmission := @submission_eq x trims d name safe _ _ _ _ hphase hfile hmax hsafe hid
  simp only [Deployment.Delivers,hsafe,Option.some.injEq,exists_eq_left',hsubmission,
    Option.mem_def,forall_eq']
  constructor
  · intro h
    split_ifs at h with hsent
    obtain ⟨hsecret,hfits,hlatin⟩ := hsent
    simp only [Option.some.injEq,Prod.mk.injEq,true_and,and_true] at h
    exact ⟨hsecret,hfits,travels_iff.mpr ⟨hlatin,h⟩⟩
  · rintro ⟨hsecret,hfits,hsafe'⟩
    rw [if_pos ⟨hsecret,hfits,hsafe'.latin1⟩,(travels_iff.mp hsafe').2]

end Submission

def aliceTonight : PrincipalBinding :=
  ⟨"alice","profile-a","browser-a","generation-a","req-1",principal_alice,by decide⟩

/-- The watcher has opened a file of that name. -/
def openedAs (name : String) : Deployment where
  watcher :=
    { config := aliceConfig, client := receiver, phase := .opened name aliceTonight 0 [] }
  server :=
    { pipeline :=
        { store := fun h => .ok { name := some h.sourceName }
          maxBytes_pos := maxBytes_default
          chunkBytes_pos := chunkBytes_default }
      trustedSecret := Text.encodeUtf8 receiver.sharedSecret
      secret_length := by decide +kernel
      maxBytes_pos := maxBytes_default }
  resolver := rfl
  secret := rfl

theorem delivers_iff_report :
    (openedAs "rapport é.pdf").Delivers false (emptyDirectory.create "rapport é.pdf" (.file [1]))
        "rapport é.pdf" aliceTonight 1 ↔
      Travels false receiver.sharedSecret ∧ Fits (openedAs "rapport é.pdf").server 1 ∧
        ∀ safe ∈ validateName "rapport é.pdf", Travels false safe :=
  delivers_iff (openedAs "rapport é.pdf") false
    (emptyDirectory.create "rapport é.pdf" (.file [1])) "rapport é.pdf" aliceTonight 0 [] [1] rfl
    (by decide +kernel) (by decide +kernel) (by decide)

/-- The client cannot send a name in Cyrillic. -/
theorem cyrillic_not_sent : ¬∀ (x : Deployment) (trims : Bool) (d : Directory Node) (name : String)
    (binding : PrincipalBinding) (descriptor : ℕ) (rest : List String) (content : Bytes),
    x.watcher.phase = .opened name binding descriptor rest → d.node descriptor = .file content →
    isCandidate x.watcher.config.maxBytes name (some (.file content)) = true →
    binding.requestId ≠ "" → x.Delivers trims d name binding content.length := by
  intro h
  obtain ⟨safe,-,hsent⟩ := h (openedAs "отчёт.pdf") true
    (emptyDirectory.create "отчёт.pdf" (.file [1])) "отчёт.pdf" aliceTonight 0 [] [1] rfl
    (by decide +kernel) (by decide +kernel) (by decide)
  have hnone : (openedAs "отчёт.pdf").submission true
      (emptyDirectory.create "отчёт.pdf" (.file [1])) = none := by decide +kernel
  rw [hnone] at hsent
  cases hsent

/-- A name that begins with a blank arrives as another one. -/
example : (openedAs " report").submission true (emptyDirectory.create " report" (.file [1])) =
    some (aliceTonight,"report",1) := by decide +kernel

end Downloads
end CloudBrowser
