import CloudBrowser.IngestPipeline

/-! When the ingest API takes a truncated body for a complete one. -/
namespace CloudBrowser
namespace CloudFiles

open Stateful

variable {σ : Type}

/-- The body ends before its declared length, after chunks that the pipeline takes and the
temporary file accepts. `n` chunks of `size` bytes in all have come before. -/
inductive CutShort (p : IngestPipeline) (t : Staging) (stream : BodyStream σ) (declared : ℕ) :
    ℕ → ℕ → σ → Prop
  | ends {n size : ℕ} {s : σ} (hsize : size < declared)
      (hread : (stream.read (min p.chunkBytes (declared-size)) s).1 = .ok []) :
      CutShort p t stream declared n size s
  | more {n size : ℕ} {s s' : σ} {chunk : Bytes} (hsize : size < declared)
      (hread : stream.read (min p.chunkBytes (declared-size)) s = (.ok chunk,s')) (hchunk : chunk ≠ [])
      (hmax : size+chunk.length ≤ p.maxBytes) (hwrite : t.write n ≠ .failed)
      (hrest : CutShort p t stream declared (n+1) (size+chunk.length) s') :
      CutShort p t stream declared n size s

/-- Nothing but the body stands in the way of the hand-over. -/
structure Staging.Clear (t : Staging) : Prop where
  prepare : t.prepare = .ok ()
  sync : t.sync = .ok ()
  scan : ∃ scanResult, t.scan = .ok scanResult
  reopen : t.reopen = .ok ()

section Copy

variable {p : IngestPipeline} {t : Staging} {r : BoundedReader σ} {n size : ℕ} {s : σ} {w : World σ}

/-- A read that the declared length leaves open is one of the stream. -/
theorem exec_read (hopen : w.received.length < r.declared) (hmax : r.declared ≤ r.maxBytes) :
    exec (r.read p.chunkBytes) w =
      match r.stream.read (min p.chunkBytes (r.declared-w.received.length)) w.stream with
      | (.error _,s) => (.error .other,{ w with stream := s })
      | (.ok chunk,s) => (.ok chunk,{ w with stream := s, received := w.received ++ chunk }) := by
  have hpos := p.chunkBytes_pos
  have hsome : min p.chunkBytes (r.declared-w.received.length) ≠ 0 := by omega
  have hle := r.stream.read_le (min p.chunkBytes (r.declared-w.received.length)) w.stream
  simp only [BoundedReader.read,exec_bind,exec_get,not_le.mpr hopen,hsome,if_false]
  rcases hread : r.stream.read (min p.chunkBytes (r.declared-w.received.length)) w.stream with ⟨e | chunk,s⟩
  · simp [exec_bind,-bind_pure_comp]
  · rw [hread] at hle
    have hfits : ¬r.maxBytes < w.received.length+chunk.length := by
      have hlen := hle chunk rfl
      omega
    simp [exec_bind,hfits,-bind_pure_comp]

theorem exec_read_end (hclosed : r.declared ≤ w.received.length) :
    exec (r.read p.chunkBytes) w = (.ok [],w) := by
  simp [BoundedReader.read,exec_bind,hclosed]

/-- A write touches the temporary file only. -/
theorem exec_writeTemp (n : ℕ) (chunk : Bytes) (w : World σ) : ∃ temp,
    exec (writeTemp t n chunk) w =
      (if t.write n = .failed then .error .other else .ok (),{ w with temp := temp }) ∧
    (t.write n = .all → temp = w.temp ++ chunk) := by
  cases h : t.write n with
  | all => exact ⟨w.temp ++ chunk,by simp [writeTemp,h]⟩
  | part k => exact ⟨w.temp ++ chunk.take k,by simp [writeTemp,h]⟩
  | failed => exact ⟨w.temp,by simp [writeTemp,h]⟩

/-- What the loop returns is what was received, and it falls short of the declared length exactly
where the stream is cut short. A loop that raises has not been. -/
structure Copied (p : IngestPipeline) (t : Staging) (r : BoundedReader σ) (n : ℕ) (w : World σ)
    (out : Except IngestError (ℕ × Bytes) × World σ) : Prop where
  handed : out.2.handed = w.handed
  returned : ∀ size hashed, out.1 = .ok (size,hashed) → size = out.2.received.length ∧
    hashed = out.2.received ∧ size ≤ r.declared
  staged : (∀ k, t.write k = .all) → w.temp = w.received → ∀ x, out.1 = .ok x →
    out.2.temp = out.2.received
  cut : CutShort p t r.stream r.declared n w.received.length w.stream ↔
    ∃ size hashed, out.1 = .ok (size,hashed) ∧ size < r.declared

theorem cutShort_iff (hopen : size < r.declared) :
    CutShort p t r.stream r.declared n size s ↔
      match r.stream.read (min p.chunkBytes (r.declared-size)) s with
      | (.error _,_) => False
      | (.ok chunk,s') => chunk = [] ∨ size+chunk.length ≤ p.maxBytes ∧ t.write n ≠ .failed ∧
          CutShort p t r.stream r.declared (n+1) (size+chunk.length) s' := by
  rcases hread : r.stream.read (min p.chunkBytes (r.declared-size)) s with ⟨e | chunk,s'⟩
  · simp only [iff_false]
    intro h
    cases h with
    | ends _ hread' => simp [hread] at hread'
    | more _ hread' => simp [hread] at hread'
  · constructor
    · intro h
      cases h with
      | ends _ hread' =>
        left
        simpa [hread] using hread'
      | more _ hread' _ hmax hwrite hrest =>
        right
        rw [hread] at hread'
        cases hread'
        exact ⟨hmax,hwrite,hrest⟩
    · intro h
      by_cases hchunk : chunk = []
      · exact .ends hopen (by simp [hread,hchunk])
      · obtain ⟨hmax,hwrite,hrest⟩ := h.resolve_left hchunk
        exact .more hopen hread hchunk hmax hwrite hrest

theorem not_cutShort (hclosed : r.declared ≤ size) : ¬CutShort p t r.stream r.declared n size s := by
  intro h
  cases h <;> omega

theorem copied (hmax : r.declared ≤ r.maxBytes) (fuel n : ℕ) (w : World σ)
    (hle : w.received.length ≤ r.declared) (hfuel : r.declared-w.received.length < fuel) :
    Copied p t r n w (exec (copyChunks p t r fuel n w.received.length w.received) w) := by
  induction fuel generalizing n w with
  | zero => omega
  | succ fuel ih =>
    rw [copyChunks,exec_bind]
    by_cases hopen : w.received.length < r.declared
    · have hlen := r.stream.read_le (min p.chunkBytes (r.declared-w.received.length)) w.stream
      have hcut := @cutShort_iff σ p t r n w.received.length w.stream hopen
      rw [exec_read hopen hmax]
      rcases hread : r.stream.read (min p.chunkBytes (r.declared-w.received.length)) w.stream with ⟨e | chunk,s⟩
      · rw [hread] at hcut
        exact ⟨rfl,nofun,nofun,by simp [hcut]⟩
      · rw [hread] at hcut hlen
        dsimp only at hcut ⊢
        by_cases hchunk : chunk = []
        · subst hchunk
          rw [if_pos rfl]
          refine ⟨rfl,?_,?_,by simp [hcut,hopen]⟩
          · rintro size hashed ⟨⟩
            simp [hle]
          · intro _ htemp x _
            simpa using htemp
        · rw [if_neg hchunk]
          simp only [hchunk,false_or] at hcut
          by_cases hlarge : p.maxBytes < w.received.length+chunk.length
          · rw [if_pos hlarge]
            exact ⟨rfl,nofun,nofun,by simp [hcut,hlarge]⟩
          · rw [if_neg hlarge,exec_bind]
            obtain ⟨temp,htemp,hall⟩ := exec_writeTemp (t:=t) n chunk
              { w with stream := s, received := w.received ++ chunk }
            rw [htemp]
            by_cases hwrite : t.write n = .failed
            · rw [if_pos hwrite]
              exact ⟨rfl,nofun,nofun,by simp [hcut,hwrite]⟩
            · rw [if_neg hwrite]
              have hpos := List.length_pos_of_ne_nil hchunk
              have hchunkle := hlen chunk rfl
              have hnext := ih (n+1) ⟨s,w.received ++ chunk,temp,w.handed⟩
                (by simp only [List.length_append]; omega) (by simp only [List.length_append]; omega)
              simp only [List.length_append] at hnext
              refine ⟨hnext.handed,hnext.returned,?_,?_⟩
              · intro hwhole htemp
                exact hnext.staged hwhole (by simp [hall (hwhole n),htemp])
              have hrest := hnext.cut
              simp only [List.length_append] at hrest
              rw [hcut,← hrest]
              simp [hwrite,not_lt.mp hlarge]
    · rw [exec_read_end (by omega)]
      dsimp only
      rw [if_pos rfl]
      refine ⟨rfl,?_,fun _ htemp _ _ => htemp,?_⟩
      · rintro size hashed ⟨⟩
        exact ⟨rfl,rfl,hle⟩
      · have hnot : ¬CutShort p t r.stream r.declared n w.received.length w.stream :=
          not_cutShort (by omega)
        simp only [hnot,false_iff]
        rintro ⟨size,hashed,⟨⟩,hsize⟩
        omega

theorem build_size {name requestId : String} {status : IngestStatus} {sha256 : Option String}
    {receipt : IngestReceipt}
    (h : IngestReceipt.build name size status requestId sha256 = .ok receipt) : receipt.size = size := by
  unfold IngestReceipt.build at h
  split_ifs at h
  cases h
  rfl

/-- What reaches the port is what was received, and it falls short of the declared length exactly
where the body is cut short and nothing else stands in the way. -/
structure Stored (p : IngestPipeline) (t : Staging) (r : BoundedReader σ) (start : σ)
    (out : Except IngestError IngestReceipt × World σ) : Prop where
  handed : ∀ h ∈ out.2.handed, h.size = out.2.received.length ∧ h.size ≤ r.declared ∧
    h.sha256 = hexDigest out.2.received ∧ ((∀ k, t.write k = .all) → h.source = out.2.received)
  receipt : ∀ receipt, out.1 = .ok receipt → ∃ h ∈ out.2.handed, receipt.size = h.size
  cut : (∃ h ∈ out.2.handed, h.size < r.declared) ↔
    t.Clear ∧ CutShort p t r.stream r.declared 0 0 start

theorem stored (hmax : r.declared ≤ r.maxBytes) (binding : PrincipalBinding) (safeName : String) (start : σ) :
    Stored p t r start (exec (stageAndStore p t r binding safeName) { stream := start }) := by
  -- a run that stops before the hand-over
  have hstop : ∀ (e : IngestError) (w : World σ), w.handed = [] →
      (t.Clear → ¬CutShort p t r.stream r.declared 0 0 start) → Stored p t r start (.error e,w) := by
    intro e w hnone hnot
    exact ⟨by simp [hnone],nofun,by simpa [hnone] using hnot⟩
  have hcopied : Copied p t r 0 { stream := start }
      (exec (copyChunks p t r (r.declared+1) 0 0 []) { stream := start }) :=
    copied hmax (r.declared+1) 0 { stream := start } (by simp) (by simp)
  rw [stageAndStore]
  cases hprepare : t.prepare with
  | error e => exact hstop e _ rfl fun hclear => by simp [hclear.prepare] at hprepare
  | ok _ =>
    rw [exec_bind,exec_check]
    dsimp only
    rw [exec_bind]
    rcases hcopy : exec (copyChunks p t r (r.declared+1) 0 0 []) { stream := start } with ⟨e | ⟨size,hashed⟩,w⟩
    · rw [hcopy] at hcopied
      exact hstop e w hcopied.handed fun _ hcut => by simpa using hcopied.cut.mp hcut
    · rw [hcopy] at hcopied
      obtain ⟨hsize,hhashed,hle⟩ := hcopied.returned size hashed rfl
      have hnone : w.handed = [] := hcopied.handed
      dsimp only at hsize hhashed ⊢
      cases hsync : t.sync with
      | error e => exact hstop e w hnone fun hclear => by simp [hclear.sync] at hsync
      | ok _ =>
        cases hscan : t.scan with
        | error e => exact hstop e w hnone fun hclear => by simpa [hscan] using hclear.scan
        | ok scanResult =>
          cases hreopen : t.reopen with
          | error e => exact hstop e w hnone fun hclear => by simp [hclear.reopen] at hreopen
          | ok _ =>
            have hclear : t.Clear := ⟨hprepare,hsync,⟨scanResult,hscan⟩,hreopen⟩
            -- from here on the port has been given the stream
            have hgiven : ∀ out : Except IngestError IngestReceipt, (∀ receipt, out = .ok receipt → receipt.size = size) →
                Stored p t r start (out,{ w with handed := [⟨scanResult = "clean",binding,safeName,w.temp,size,
                  hexDigest hashed⟩] }) := by
              intro out hout
              refine ⟨?_,?_,?_⟩
              · simp only [List.mem_singleton,forall_eq]
                exact ⟨hsize,hle,by rw [hhashed],fun hwhole => hcopied.staged hwhole rfl _ rfl⟩
              · intro receipt hreceipt
                exact ⟨_,List.mem_singleton_self _,hout receipt hreceipt⟩
              · have hcut := hcopied.cut
                simp only [List.mem_singleton,exists_eq_left,hclear,true_and]
                rw [show CutShort p t r.stream r.declared 0 0 start ↔ _ from hcut]
                simp
            simp only [exec_bind,exec_check,exec_get,handOver,exec_modify,hnone,List.nil_append]
            cases p.store ⟨scanResult = "clean",binding,safeName,w.temp,size,hexDigest hashed⟩ with
            | error e => exact hgiven _ nofun
            | ok receipt => exact hgiven _ fun _ => build_size

/-- Removing the temporary file may hide the receipt, and does nothing else. -/
theorem stored_ingest (hmax : r.declared ≤ r.maxBytes) (binding : PrincipalBinding) {sourceName : String}
    (hname : validateName sourceName ≠ none) (start : σ) :
    Stored p t r start (exec (ingest p t r binding sourceName) { stream := start }) := by
  obtain ⟨safeName,hsafe⟩ := Option.ne_none_iff_exists'.mp hname
  have h := stored (p:=p) (t:=t) hmax binding safeName start
  simp only [ingest,hsafe]
  rw [exec_ensuring]
  rcases hrun : exec (stageAndStore p t r binding safeName) { stream := start } with ⟨out,w⟩
  rw [hrun] at h
  dsimp only
  rw [exec_check]
  cases t.unlink with
  | ok _ => exact h
  | error e => exact ⟨h.handed,nofun,h.cut⟩

end Copy

section Complete

/-- The declared length of a request, where it has one. -/
def PostRequest.declared (request : PostRequest) : Option ℤ :=
  intOfText ((request.header "content-length").getD "")

def PostRequest.filename (request : PostRequest) : String := (request.entry "x-cb-filename").getD ""

/-- Whatever reaches the downloads port is all of the declared body, and a receipt is for all of it. -/
structure Complete (request : PostRequest) (out : Response × World σ) : Prop where
  handed : ∀ h ∈ out.2.handed, request.declared = some (h.size : ℤ) ∧ out.2.received.length = h.size
  accepted : ∀ receipt, out.1 = .accepted receipt → request.declared = some (receipt.size : ℤ)

variable (s : IngestServer) (t : Staging) (stream : BodyStream σ) (request : PostRequest) (start : σ)

theorem accept_ok {s : IngestServer} {request : PostRequest} {binding : PrincipalBinding} {declared : ℕ}
    (h : s.accept request = .ok (binding,declared)) :
    request.declared = some (declared : ℤ) ∧ declared ≤ s.maxBytes := by
  unfold IngestServer.accept at h
  split_ifs at h
  split at h
  · cases h
  · split at h
    · cases h
    · rename_i length hlength
      split_ifs at h
      cases h
      constructor
      · rw [PostRequest.declared,hlength]
        simp
        omega
      · omega

theorem refusal_ne (e : IngestError) (receipt : IngestReceipt) : refusal e ≠ .accepted receipt := by
  cases e <;> simp [refusal]

theorem accept_error {s : IngestServer} {request : PostRequest} {response : Response}
    (h : s.accept request = .error response) (receipt : IngestReceipt) : response ≠ .accepted receipt := by
  unfold IngestServer.accept at h
  rintro rfl
  split_ifs at h
  · cases h
  · cases h
  · split at h
    · cases h
    · split at h
      · cases h
      · split_ifs at h
        · cases h
        · cases h

/-- A run that hands nothing over and gives no receipt is complete. -/
theorem complete_refused {out : Response × World σ} (hhanded : out.2.handed = [])
    (hout : ∀ receipt, out.1 ≠ .accepted receipt) : Complete request out :=
  ⟨by simp [hhanded],fun receipt h => absurd h (hout receipt)⟩

/-- What the pipeline stores is complete unless the body is cut short. -/
theorem Stored.complete {p : IngestPipeline} {t : Staging} {r : BoundedReader σ} {start : σ}
    {out : Except IngestError IngestReceipt × World σ} {response : Response} {request : PostRequest}
    (hstored : Stored p t r start out) (hdeclared : request.declared = some (r.declared : ℤ))
    (hresponse : ∀ receipt, response = .accepted receipt → out.1 = .ok receipt) :
    Complete request (response,out.2) ↔ (t.Clear → ¬CutShort p t r.stream r.declared 0 0 start) := by
  rw [← not_and,← hstored.cut]
  push Not
  constructor
  · intro h handover hmem
    have hlen := (h.handed handover hmem).1
    rw [hdeclared] at hlen
    simp only [Option.some.injEq,Nat.cast_inj] at hlen
    omega
  · intro h
    have hall : ∀ handover ∈ out.2.handed, handover.size = r.declared := by
      intro handover hmem
      have hlow := h handover hmem
      have hhigh := (hstored.handed handover hmem).2.1
      omega
    refine ⟨?_,?_⟩
    · intro handover hmem
      have hreceived := (hstored.handed handover hmem).1
      rw [← hreceived,hall handover hmem]
      exact ⟨hdeclared,rfl⟩
    · intro receipt hreceipt
      obtain ⟨handover,hmem,hsize⟩ := hstored.receipt receipt (hresponse receipt hreceipt)
      rw [hsize,hall handover hmem]
      exact hdeclared

/-- A request is answered completely unless its body is cut short and nothing else stops it. -/
theorem complete_iff :
    Complete request (s.doPost t stream request start) ↔
      ∀ binding declared, s.accept request = .ok (binding,declared) →
        validateName request.filename ≠ none → t.Clear →
          ¬CutShort s.pipeline t stream declared 0 0 start := by
  unfold IngestServer.doPost
  cases haccept : s.accept request with
  | error response =>
    simp only [reduceCtorEq,false_implies,implies_true,iff_true]
    exact complete_refused request rfl (accept_error haccept)
  | ok accepted =>
    obtain ⟨binding,declared⟩ := accepted
    obtain ⟨hdeclared,hmax⟩ := accept_ok haccept
    dsimp only
    rw [← PostRequest.filename]
    by_cases hname : validateName request.filename = none
    · simp only [ingest,hname,ne_eq,not_true_eq_false,false_implies,implies_true,iff_true]
      exact complete_refused request rfl (refusal_ne .invalidName)
    · have hstored := stored_ingest (p:=s.pipeline) (t:=t) (r:=⟨stream,s.maxBytes,declared⟩) hmax binding hname start
      rcases hrun : exec (ingest s.pipeline t ⟨stream,s.maxBytes,declared⟩ binding request.filename)
        { stream := start } with ⟨e | receipt,w⟩
      · rw [hrun] at hstored
        have hanswer := @Stored.complete _ _ _ _ _ _ (refusal e) request hstored hdeclared
          fun receipt h => absurd h (refusal_ne e receipt)
        simpa [hname] using hanswer
      · rw [hrun] at hstored
        have hanswer := @Stored.complete _ _ _ _ _ _ (.accepted receipt) request hstored hdeclared
          fun receipt' h => by
            cases h
            rfl
        simpa [hname] using hanswer

end Complete

section Truncated

/-- A body that arrives in these chunks. -/
def chunked : BodyStream (List Bytes) where
  read
    | _, [] => (.ok [],[])
    | n, chunk::chunks => (.ok (chunk.take n),if chunk.length ≤ n then chunks else chunk.drop n :: chunks)
  read_le n s bytes h := by
    cases s with
    | nil =>
      cases h
      simp
    | cons chunk chunks =>
      cases h
      simp

/-- A machine on which nothing fails, with a scanner that finds nothing. -/
def smooth : Staging where
  prepare := .ok ()
  write _ := .all
  sync := .ok ()
  scan := .ok "clean"
  reopen := .ok ()
  unlink := .ok ()

def exampleServer : IngestServer where
  pipeline := { store := fun h => .ok { name := some h.sourceName }, maxBytes_pos := maxBytes_default, chunkBytes_pos := chunkBytes_default }
  trustedSecret := Text.encodeUtf8 "trusted-secret-value"
  secret_length := by decide
  maxBytes_pos := maxBytes_default

/-- Five bytes are declared. -/
def exampleUpload : PostRequest where
  path := "/ingest/complete"
  headers := [("X-CB-Trusted-Secret","trusted-secret-value"),("X-CB-Principal","alice"),
    ("X-CB-Filename","report.pdf"),("Content-Length","5")]

/-- A connection that ends after two of five bytes publishes the two. -/
theorem truncated_published : ¬∀ (s : IngestServer) (t : Staging) (stream : BodyStream (List Bytes))
    (request : PostRequest) (start : List Bytes), Complete request (s.doPost t stream request start) := by
  intro h
  have hcomplete := (h exampleServer smooth chunked exampleUpload [[0x61,0x62]]).handed
  have hsizes : (exampleServer.doPost smooth chunked exampleUpload [[0x61,0x62]]).2.handed.map Handover.size =
      [2] := by decide +kernel
  obtain ⟨handover,hmem,hsize⟩ := List.mem_map.mp (hsizes ▸ List.mem_singleton_self 2)
  have hdeclared := (hcomplete handover hmem).1
  rw [hsize] at hdeclared
  exact absurd hdeclared (by decide +kernel)

end Truncated

end CloudFiles
end CloudBrowser
