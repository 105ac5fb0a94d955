import CloudBrowser.EdgeAuth
import CloudBrowser.LengthPrefixed
import CloudBrowser.ScannedIngest
import CloudBrowser.ShortReads
import CloudBrowser.Stateful

/-! The scan of a staged file by a ClamAV daemon: what the daemon reads, when the verdict is not an
error, and what the ingest pipeline publishes. -/
namespace CloudBrowser
namespace CloudFiles
namespace Instream

open Stateful
open ShortReads (Cuts Stream)
open WebSockets (bigEndian)

inductive Verdict
  | clean
  | infected
  | error
  deriving DecidableEq, Repr

def Verdict.value : Verdict → String
  | .clean => "clean"
  | .infected => "infected"
  | .error => "error"

inductive Fault
  | osError
  | structError

structure ClamAvScanner where
  maxBytes : ℕ := 1024*1024*1024
  chunkBytes : ℕ := 64*1024
  maxBytes_pos : 0 < maxBytes
  chunkBytes_pos : 0 < chunkBytes

/-- What the disk, the network and the daemon do: the calls that raise, by their number, how long
the reads are, and `bytes.decode("utf-8", errors="replace")`. -/
structure Surroundings where
  isFile : Bool
  connects : Bool
  opens : Bool
  sendFails : ℕ → Bool
  recvFails : ℕ → Bool
  readFails : ℕ → Bool
  cuts : Cuts
  fileCuts : Cuts
  decode : Bytes → String

/-- What the daemon sends until it closes, and what was given to `sendall`. -/
structure Connection where
  stream : Stream UInt8
  sent : List Bytes

abbrev Scan (α : Type) := Op Fault Connection α

section Scanning

variable (scanner : ClamAvScanner) (env : Surroundings)

def sendall (bytes : Bytes) : Scan Unit := do
  let c ← get
  set {c with sent := c.sent ++ [bytes]}
  if env.sendFails c.sent.length then throw .osError else pure ()

/-- `connection.recv(4096)`. -/
def recv : Scan Bytes := do
  let c ← get
  if env.recvFails c.stream.reads then throw .osError
  else
    set {c with stream := (env.cuts.recv 4096 c.stream).2}
    return (env.cuts.recv 4096 c.stream).1

/-- `struct.pack(">I", n)`. -/
def packI (n : ℕ) : Except Fault Bytes :=
  if n < 256^4 then .ok (bigEndian 4 n) else .error .structError

/-- The loop over the file, which reads at least one byte in each turn but the last; whether all of
it was sent. -/
def sendChunks : ℕ → Stream UInt8 → ℕ → Scan Bool
  | 0, _, _ => return true
  | fuel+1, file, sent =>
    if env.readFails file.reads then throw .osError
    else
      let read := env.fileCuts.recv scanner.chunkBytes file
      if read.1 = [] then return true
      else if scanner.maxBytes < sent+read.1.length then return false
      else do
        let header ← check (packI read.1.length)
        sendall env (header ++ read.1)
        sendChunks fuel read.2 (sent+read.1.length)

/-- The loop of `_read_reply`, which reads at least one byte in each turn but the last. -/
def gatherReply : ℕ → Bytes → Scan Bytes
  | 0, data => return data
  | fuel+1, data => do
    let chunk ← recv env
    if chunk = [] then return data
    else if 10 ∈ data ++ chunk then return data ++ chunk
    else gatherReply fuel (data ++ chunk)

def readReply : Scan String := do
  let c ← get
  let data ← gatherReply env (c.stream.rest.length+1) []
  return String.ofList (EdgeAuth.strip (env.decode data).toList)

/-- `_verdict`. -/
def verdict (reply : String) : Verdict :=
  if Text.mentions "found" reply then .infected
  else if "ok".toList.isPrefixOf (Text.lower reply) || Text.mentions "stream: ok" reply then .clean
  else .error

/-- `zINSTREAM`, with its end. -/
def instream : Bytes := Text.encodeUtf8 "zINSTREAM" ++ [0]

/-- The body of the `try`; nothing is returned where the file is too long. -/
def converse (content : Bytes) : Scan (Option String) :=
  if env.connects = false then throw .osError
  else do
    sendall env instream
    if env.opens = false then throw .osError
    else
      if ← sendChunks scanner env (content.length+1) ⟨content,0⟩ 0 then
        sendall env (bigEndian 4 0)
        let reply ← readReply env
        return some reply
      else return none

def scan (content : Bytes) : Scan Verdict :=
  if env.isFile = false then return .error
  else do
    let reply ← tryCatch (converse scanner env content) fun _ => return none
    return (reply.map verdict).getD .error

end Scanning

/-! ### What the daemon reads -/

section Sent

variable {scanner : ClamAvScanner} {env : Surroundings} {c c' : Connection} {fuel sent : ℕ}
  {file : Stream UInt8} {content data : Bytes}

theorem exec_sendall {bytes : Bytes} (h : exec (sendall env bytes) c = (.ok (),c')) :
    c' = {c with sent := c.sent ++ [bytes]} := by
  rw [sendall,exec_bind_ok (exec_get c),exec_bind_ok (exec_set _ _)] at h
  by_cases hfails : env.sendFails c.sent.length = true
  · rw [if_pos hfails] at h
    cases h
  · rw [if_neg hfails] at h
    cases h
    rfl

theorem packI_ok {n : ℕ} {header : Bytes} (h : packI n = .ok header) :
    n < 256^4 ∧ header = bigEndian 4 n := by
  unfold packI at h
  split_ifs at h with hn
  cases h
  exact ⟨hn,rfl⟩

/-- All that is left of the file was sent, each part behind its length. -/
structure Chunked (scanner : ClamAvScanner) (rest : Bytes) (sent : ℕ) (c c' : Connection) :
    Prop where
  parts : ∃ chunks : List Bytes, chunks.flatten = rest ∧ chunks.length ≤ rest.length ∧
    (∀ chunk ∈ chunks, chunk ≠ [] ∧ chunk.length < 256^4) ∧
    c'.sent = c.sent ++ chunks.map (LengthPrefixed.encodeChunk 4)
  stream : c'.stream = c.stream
  bounded : rest ≠ [] → sent+rest.length ≤ scanner.maxBytes

/-- Induction on the turns. -/
theorem sendChunks_sent (hfuel : file.rest.length < fuel)
    (h : exec (sendChunks scanner env fuel file sent) c = (.ok true,c')) :
    Chunked scanner file.rest sent c c' := by
  induction fuel generalizing file sent c with
  | zero => exact absurd hfuel (Nat.not_lt_zero _)
  | succ fuel ih =>
    rw [sendChunks] at h
    by_cases hreads : env.readFails file.reads = true
    · rw [if_pos hreads] at h
      cases h
    rw [if_neg hreads] at h
    have hsplit := @Cuts.recv_append _ env.fileCuts scanner.chunkBytes file
    rcases hread : env.fileCuts.recv scanner.chunkBytes file with ⟨chunk,file'⟩
    rw [hread] at h hsplit
    dsimp only at h hsplit
    by_cases hnone : chunk = []
    · rw [if_pos hnone] at h
      cases h
      have hrest : file.rest = [] := by
        by_contra hrest
        have hsome := @Cuts.recv_ne_nil _ env.fileCuts _ _ scanner.chunkBytes_pos hrest
        rw [hread] at hsome
        exact hsome hnone
      rw [hrest]
      exact ⟨⟨[],rfl,le_rfl,by simp,by simp⟩,rfl,fun hne => absurd rfl hne⟩
    rw [if_neg hnone] at h
    by_cases hlong : scanner.maxBytes < sent+chunk.length
    · rw [if_pos hlong] at h
      cases h
    rw [if_neg hlong] at h
    obtain ⟨header,c₁,hheader,h⟩ := exec_bind_eq_ok.mp h
    obtain ⟨_,c₂,hsent,h⟩ := exec_bind_eq_ok.mp h
    rw [exec_check] at hheader
    obtain ⟨hpack,rfl⟩ := Prod.mk.inj hheader
    obtain ⟨hshort,rfl⟩ := packI_ok hpack
    have hc₂ := exec_sendall hsent
    subst hc₂
    have hpos := List.length_pos_iff.mpr hnone
    have hlength := congrArg List.length hsplit
    rw [List.length_append] at hlength
    obtain ⟨⟨chunks,hchunks,hcount,hall,hlog⟩,hstream,hbounded⟩ := ih (by omega) h
    refine ⟨⟨chunk::chunks,?_,?_,List.forall_mem_cons.mpr ⟨⟨hnone,hshort⟩,hall⟩,?_⟩,hstream,?_⟩
    · rw [List.flatten_cons,hchunks,hsplit]
    · rw [List.length_cons]
      omega
    · rw [hlog,List.map_cons,List.append_assoc]
      rfl
    · intro _
      by_cases hrest : file'.rest = []
      · rw [hrest,List.length_nil] at hlength
        omega
      · have hle := hbounded hrest
        omega

/-- What was read of the daemon's answer, and that it ended there. -/
theorem gatherReply_read (hfuel : c.stream.rest.length < fuel) (hdata : 10 ∉ content)
    (h : exec (gatherReply env fuel content) c = (.ok data,c')) :
    data ++ c'.stream.rest = content ++ c.stream.rest ∧ c'.sent = c.sent ∧
      (10 ∈ data ∨ c'.stream.rest = []) := by
  induction fuel generalizing c content with
  | zero => exact absurd hfuel (Nat.not_lt_zero _)
  | succ fuel ih =>
    obtain ⟨chunk,c₁,hrecv,h⟩ := exec_bind_eq_ok.mp h
    rw [recv,exec_bind_ok (exec_get c)] at hrecv
    by_cases hfails : env.recvFails c.stream.reads = true
    · rw [if_pos hfails] at hrecv
      cases hrecv
    rw [if_neg hfails] at hrecv
    obtain ⟨rfl,rfl⟩ : (env.cuts.recv 4096 c.stream).1 = chunk ∧
        {c with stream := (env.cuts.recv 4096 c.stream).2} = c₁ := by
      have heq := Prod.mk.inj hrecv
      exact ⟨Except.ok.inj heq.1,heq.2⟩
    have hsplit := @Cuts.recv_append _ env.cuts 4096 c.stream
    by_cases hnone : (env.cuts.recv 4096 c.stream).1 = []
    · rw [if_pos hnone] at h
      cases h
      have hrest : c.stream.rest = [] := by
        by_contra hrest
        exact Cuts.recv_ne_nil (by decide) hrest hnone
      rw [hnone,List.nil_append] at hsplit
      exact ⟨by rw [hsplit],rfl,Or.inr (hsplit.trans hrest)⟩
    rw [if_neg hnone] at h
    have hpos := List.length_pos_iff.mpr hnone
    have hlength := congrArg List.length hsplit
    rw [List.length_append] at hlength
    by_cases hend : 10 ∈ content ++ (env.cuts.recv 4096 c.stream).1
    · rw [if_pos hend] at h
      cases h
      exact ⟨by rw [List.append_assoc,hsplit],rfl,Or.inl hend⟩
    · rw [if_neg hend] at h
      obtain ⟨hread,hsent,hlast⟩ := ih (by dsimp only; omega) hend h
      exact ⟨by rw [hread,List.append_assoc,hsplit],hsent,hlast⟩

/-- The length of a chunk that is not more than was asked for, in four bytes. -/
theorem packI_short {n : ℕ} (h : n < 256^4) : packI n = .ok (bigEndian 4 n) := if_pos h

end Sent

/-! ### When nothing fails -/

/-- No call raises, on the disk or on the network. -/
structure Quiet (env : Surroundings) : Prop where
  isFile : env.isFile = true
  connects : env.connects = true
  opens : env.opens = true
  sends : ∀ n, env.sendFails n = false
  recvs : ∀ n, env.recvFails n = false
  reads : ∀ n, env.readFails n = false

section Quiet

variable {scanner : ClamAvScanner} {env : Surroundings}

theorem exec_sendall_quiet (quiet : Quiet env) (bytes : Bytes) (c : Connection) :
    exec (sendall env bytes) c = (.ok (),{c with sent := c.sent ++ [bytes]}) := by
  rw [sendall,exec_bind_ok (exec_get c),exec_bind_ok (exec_set _ _),quiet.sends]
  rfl

theorem exec_recv_quiet (quiet : Quiet env) (c : Connection) : exec (recv env) c =
    (.ok (env.cuts.recv 4096 c.stream).1,{c with stream := (env.cuts.recv 4096 c.stream).2}) := by
  rw [recv,exec_bind_ok (exec_get c),quiet.recvs]
  rfl

/-- A file that is not too long is sent to its end. -/
theorem sendChunks_quiet (quiet : Quiet env) (hchunk : scanner.chunkBytes < 256^4) (fuel : ℕ)
    (file : Stream UInt8) (sent : ℕ) (hbounded : sent+file.rest.length ≤ scanner.maxBytes)
    (c : Connection) :
    ∃ c',exec (sendChunks scanner env fuel file sent) c = (.ok true,c') := by
  induction fuel generalizing file sent c with
  | zero => exact ⟨c,rfl⟩
  | succ fuel ih =>
    have hsplit := congrArg List.length
      (@Cuts.recv_append _ env.fileCuts scanner.chunkBytes file)
    have hshort := @Cuts.length_recv_le _ env.fileCuts scanner.chunkBytes file
    rw [List.length_append] at hsplit
    rw [sendChunks,quiet.reads]
    by_cases hnone : (env.fileCuts.recv scanner.chunkBytes file).1 = []
    · exact ⟨c,by simp [hnone]⟩
    · obtain ⟨c',hnext⟩ := ih (env.fileCuts.recv scanner.chunkBytes file).2
        (sent+(env.fileCuts.recv scanner.chunkBytes file).1.length) (by omega)
        {c with sent := c.sent ++ [bigEndian 4 (env.fileCuts.recv scanner.chunkBytes file).1.length
          ++ (env.fileCuts.recv scanner.chunkBytes file).1]}
      refine ⟨c',?_⟩
      rw [if_neg Bool.false_ne_true]
      dsimp only
      rw [if_neg hnone,if_neg (by omega),packI_short (by omega),
        exec_bind_ok (exec_check _ _),exec_bind_ok (exec_sendall_quiet quiet _ _)]
      exact hnext

theorem gatherReply_quiet (quiet : Quiet env) (fuel : ℕ) (data : Bytes) (c : Connection) :
    ∃ data' c',exec (gatherReply env fuel data) c = (.ok data',c') := by
  induction fuel generalizing data c with
  | zero => exact ⟨data,c,rfl⟩
  | succ fuel ih =>
    rw [gatherReply,exec_bind_ok (exec_recv_quiet quiet c)]
    split_ifs
    · exact ⟨data,_,rfl⟩
    · exact ⟨_,_,rfl⟩
    · exact ih _ _

theorem readReply_quiet (quiet : Quiet env) (c : Connection) :
    ∃ reply c',exec (readReply env) c = (.ok reply,c') := by
  obtain ⟨data,c',hdata⟩ := gatherReply_quiet quiet (c.stream.rest.length+1) [] c
  refine ⟨String.ofList (EdgeAuth.strip (env.decode data).toList),c',?_⟩
  rw [readReply,exec_bind_ok (exec_get c),exec_bind_ok hdata]
  rfl

end Quiet

/-! ### The verdict -/

/-- The verdict is the daemon's, who read all of the file and nothing else, on an answer that was
read to its end. -/
structure Judged (scanner : ClamAvScanner) (env : Surroundings) (content : Bytes)
    (c c' : Connection) (v : Verdict) : Prop where
  framed : ∃ framed,c'.sent.flatten = c.sent.flatten ++ (instream ++ framed) ∧
    LengthPrefixed.decode 4 (content.length+1) framed = some (content,[])
  bounded : content.length ≤ scanner.maxBytes
  answer : ∃ data,data ++ c'.stream.rest = c.stream.rest ∧ (10 ∈ data ∨ c'.stream.rest = []) ∧
    verdict (String.ofList (EdgeAuth.strip (env.decode data).toList)) = v

section Verdicts

variable {scanner : ClamAvScanner} {env : Surroundings} {content : Bytes} {c c' : Connection}
  {reply : String}

theorem readReply_read (h : exec (readReply env) c = (.ok reply,c')) :
    c'.sent = c.sent ∧ ∃ data,data ++ c'.stream.rest = c.stream.rest ∧
      (10 ∈ data ∨ c'.stream.rest = []) ∧
      String.ofList (EdgeAuth.strip (env.decode data).toList) = reply := by
  rw [readReply,exec_bind_ok (exec_get c)] at h
  obtain ⟨data,c₁,hread,h⟩ := exec_bind_eq_ok.mp h
  obtain ⟨hdata,hsent,hlast⟩ := gatherReply_read (Nat.lt_succ_self _) List.not_mem_nil hread
  cases h
  exact ⟨hsent,data,hdata,hlast,rfl⟩

/-- A conversation that has an answer. -/
theorem converse_judged (h : exec (converse scanner env content) c = (.ok (some reply),c')) :
    Judged scanner env content c c' (verdict reply) := by
  rw [converse] at h
  by_cases hconnects : env.connects = false
  · rw [if_pos hconnects] at h
    cases h
  rw [if_neg hconnects] at h
  obtain ⟨_,c₁,hhead,h⟩ := exec_bind_eq_ok.mp h
  have hc₁ := exec_sendall hhead
  subst hc₁
  by_cases hopens : env.opens = false
  · rw [if_pos hopens] at h
    cases h
  rw [if_neg hopens] at h
  obtain ⟨all,c₂,hchunks,h⟩ := exec_bind_eq_ok.mp h
  cases all with
  | false => cases h
  | true =>
    rw [if_pos rfl] at h
    obtain ⟨_,c₃,hend,h⟩ := exec_bind_eq_ok.mp h
    obtain ⟨_,c₄,hreply,h⟩ := exec_bind_eq_ok.mp h
    cases h
    have hc₃ := exec_sendall hend
    subst hc₃
    obtain ⟨hsent,data,hdata,hlast,hverdict⟩ := readReply_read hreply
    obtain ⟨⟨chunks,hflat,hcount,hall,hlog⟩,hstream,hbounded⟩ :=
      sendChunks_sent (Nat.lt_succ_self _) hchunks
    refine ⟨⟨LengthPrefixed.encode 4 chunks,?_,?_⟩,?_,data,?_,hlast,congrArg verdict hverdict⟩
    · rw [hsent]
      simp [hlog,LengthPrefixed.encode,List.flatMap]
    · have hdecoded := LengthPrefixed.decode_encode hall (Nat.lt_succ_of_le hcount) []
      rwa [List.append_nil,hflat] at hdecoded
    · by_cases hempty : content = []
      · rw [hempty]
        exact Nat.zero_le _
      · have hle := hbounded hempty
        rwa [Nat.zero_add] at hle
    · rw [hdata]
      exact congrArg Stream.rest hstream

theorem converse_quiet (quiet : Quiet env) (hchunk : scanner.chunkBytes < 256^4)
    (hbounded : content.length ≤ scanner.maxBytes) (c : Connection) :
    ∃ reply c',exec (converse scanner env content) c = (.ok (some reply),c') := by
  obtain ⟨c₁,hchunks⟩ := sendChunks_quiet quiet hchunk (content.length+1)
    ⟨content,0⟩ 0 (by rwa [Nat.zero_add]) {c with sent := c.sent ++ [instream]}
  obtain ⟨reply,c₂,hreply⟩ := readReply_quiet quiet {c₁ with sent := c₁.sent ++ [bigEndian 4 0]}
  refine ⟨reply,c₂,?_⟩
  rw [converse,quiet.connects,if_neg Bool.false_ne_true.symm,
    exec_bind_ok (exec_sendall_quiet quiet _ _),quiet.opens,
    if_neg Bool.false_ne_true.symm,exec_bind_ok hchunks,if_pos rfl,
    exec_bind_ok (exec_sendall_quiet quiet _ _),exec_bind_ok hreply]
  rfl

end Verdicts

/-- A scan never raises, whatever fails. -/
theorem scan_answers (scanner : ClamAvScanner) (env : Surroundings) (content : Bytes)
    (c : Connection) : ∃ v c',exec (scan scanner env content) c = (.ok v,c') := by
  rw [scan]
  by_cases hfile : env.isFile = false
  · exact ⟨.error,c,by rw [if_pos hfile,exec_pure]⟩
  rw [if_neg hfile,exec_bind,exec_tryCatch]
  rcases exec (converse scanner env content) c with ⟨e | answer,c'⟩
  · exact ⟨.error,c',rfl⟩
  · exact ⟨(answer.map verdict).getD .error,c',rfl⟩

/-- The verdict on a conversation that did not raise. -/
theorem scan_of_converse {scanner : ClamAvScanner} {env : Surroundings} {content : Bytes}
    {c c' : Connection} {answer : Option String} (hfile : ¬env.isFile = false)
    (h : exec (converse scanner env content) c = (.ok answer,c')) :
    exec (scan scanner env content) c = (.ok ((answer.map verdict).getD .error),c') := by
  rw [scan,if_neg hfile,exec_bind,exec_tryCatch,h]
  rfl

theorem scan_judged {scanner : ClamAvScanner} {env : Surroundings} {content : Bytes}
    {c c' : Connection} {v : Verdict} (h : exec (scan scanner env content) c = (.ok v,c'))
    (hv : v ≠ .error) : Judged scanner env content c c' v := by
  by_cases hfile : env.isFile = false
  · rw [scan,if_pos hfile] at h
    cases h
    exact absurd rfl hv
  rcases hconverse : exec (converse scanner env content) c with ⟨e | answer,c₁⟩
  · rw [scan,if_neg hfile,exec_bind,exec_tryCatch,hconverse] at h
    cases h
    exact absurd rfl hv
  · rw [scan_of_converse hfile hconverse] at h
    cases h
    cases answer with
    | none => exact absurd rfl hv
    | some reply => exact converse_judged hconverse

theorem scan_quiet {scanner : ClamAvScanner} {env : Surroundings} {content : Bytes}
    {c c' : Connection} {v : Verdict} (quiet : Quiet env) (hchunk : scanner.chunkBytes < 256^4)
    (hbounded : content.length ≤ scanner.maxBytes)
    (h : exec (scan scanner env content) c = (.ok v,c')) : Judged scanner env content c c' v := by
  obtain ⟨reply,c₁,hconverse⟩ := converse_quiet quiet hchunk hbounded c
  have hfile : ¬env.isFile = false := by
    rw [quiet.isFile]
    exact Bool.false_ne_true.symm
  rw [scan_of_converse hfile hconverse] at h
  cases h
  exact converse_judged hconverse

end Instream

/-! ### The pipeline with this scanner -/

namespace Scanned

open Instream (ClamAvScanner Connection Fault Verdict Judged)
open Stateful

/-- What the pipeline is given by a scan. -/
def scanAnswer : Except Fault Verdict → Except IngestError Json
  | .ok v => .ok (.str v.value)
  | .error _ => .error .other

/-- The same surroundings, with a daemon that a new connection reaches for each file. -/
def Surroundings.scannedBy (t : Surroundings) (scanner : ClamAvScanner)
    (env : Bytes → Instream.Surroundings) (c : Bytes → Connection) : Surroundings :=
  {t with scan := fun content =>
    scanAnswer (exec (Instream.scan scanner (env content) content) (c content)).1}

section Verdicts

variable {σ : Type} {p : IngestPipeline} {t : Surroundings} {source : Source σ}

/-- The record of the scans is one of what the scanner answered. -/
def Truthful (t : Surroundings) (a : Area σ) : Prop := ∀ x ∈ a.scanned,x.2 = t.scan x.1

theorem Truthful.modify {f : Area σ → Area σ} (h : ∀ a,(f a).scanned = a.scanned) :
    Keeps (Truthful t) (modify f : Action σ PUnit) := by
  intro a ha x hx
  rw [exec_modify] at hx
  exact ha x (h a ▸ hx)

theorem createTemp_truthful : Keeps (Truthful (σ:=σ) t) (createTemp t) := by
  refine Keeps.bind (Keeps.check _) fun _ => ?_
  intro a ha
  rw [exec_bind_ok (exec_get a)]
  by_cases htaken : (a.dir.lookup t.temp).isSome = true
  · rw [if_pos htaken]
    exact ha
  · rw [if_neg htaken]
    exact ha

theorem readSource_truthful : Keeps (Truthful t) (readSource p source) := by
  intro a ha
  rw [exec_readSource]
  rcases source p.chunkBytes a.source with ⟨_ | _,_⟩ <;> exact ha

theorem copySource_truthful (inode fuel n size : ℕ) (hashed : Bytes) :
    Keeps (Truthful t) (copySource p t source inode fuel n size hashed) := by
  induction fuel generalizing n size hashed with
  | zero => exact fun _ ha => ha
  | succ fuel ih =>
    refine Keeps.bind readSource_truthful fun chunk => ?_
    refine Keeps.ite _ (fun _ ha => ha) (Keeps.ite _ (fun _ ha => ha) ?_)
    refine Keeps.bind ?_ fun _ => ih _ _ _
    exact Keeps.bind (Keeps.check _) fun _ => Truthful.modify fun _ => rfl

theorem readTemp_truthful : Keeps (Truthful (σ:=σ) t) (readTemp t) := by
  intro a ha
  rw [readTemp,exec_bind_ok (exec_get a),exec_check]
  exact ha

theorem scanTemp_truthful : Keeps (Truthful (σ:=σ) t) (scanTemp t) := by
  refine Keeps.bind readTemp_truthful fun content => ?_
  refine Keeps.bind ?_ fun _ => Keeps.check _
  intro a ha x hx
  rw [exec_modify] at hx
  rcases List.mem_append.mp hx with hold | hnew
  · exact ha x hold
  · rw [List.mem_singleton.mp hnew]

theorem scanAndStore_truthful (binding : PrincipalBinding) (safeName : String) (size : ℕ)
    (hashed : Bytes) :
    Keeps (Truthful (σ:=σ) t) (scanAndStore p t binding safeName size hashed) := by
  refine Keeps.bind scanTemp_truthful fun verdict => ?_
  refine Keeps.bind (Keeps.check _) fun _ => Keeps.bind (Keeps.check _) fun _ => ?_
  refine Keeps.bind readTemp_truthful fun staged => ?_
  refine Keeps.bind (Keeps.bind (Truthful.modify fun _ => rfl) fun _ => Keeps.check _) fun _ => ?_
  exact Keeps.bind (Keeps.check _) fun _ => Keeps.check _

theorem stageAndStore_truthful (p : IngestPipeline) (t : Surroundings) (source : Source σ)
    (binding : PrincipalBinding) (safeName : String) :
    Keeps (Truthful t) (stageAndStore p t source binding safeName) := by
  refine Keeps.bind createTemp_truthful fun inode => ?_
  refine Keeps.bind (copySource_truthful inode _ _ _ _) fun copied => ?_
  exact Keeps.bind (Keeps.check _) fun _ => scanAndStore_truthful binding safeName _ _

/-- What a call has handed over and recorded of the scans. -/
theorem ingest_truthful (p : IngestPipeline) (t : Surroundings) (source : Source σ)
    (binding : PrincipalBinding) (sourceName : String) (s : σ) (d : Directories.Directory Bytes) :
    Handed (exec (ingest p t source binding sourceName) (start s d)).2 ∧
      Truthful t (exec (ingest p t source binding sourceName) (start s d)).2 := by
  have hstart : Truthful t (start s d) := fun x hx => absurd hx List.not_mem_nil
  apply ingest_ends (Q:=fun a => Handed a ∧ Truthful t a) binding sourceName s
    ⟨handed_nil rfl,hstart⟩
  rintro safeName a rfl
  have hconfined := stageAndStore_confined (d:=d) p t source binding safeName s
  have htruthful := stageAndStore_truthful p t source binding safeName _ hstart
  exact ⟨(gated_unlink hconfined).toHanded,htruthful⟩

end Verdicts

/-- What is handed over is what was read; and to be published, the daemon has read these bytes, all
of them and no others, and its answer is clean. -/
structure Vetted {σ : Type} (scanner : ClamAvScanner) (env : Bytes → Instream.Surroundings)
    (c : Bytes → Connection) (a : Area σ) : Prop where
  received : ∀ h ∈ a.handed,h.source = a.received
  judged : ∀ h ∈ a.handed,h.clean = true → ∃ c',
    exec (Instream.scan scanner (env h.source) h.source) (c h.source) = (.ok .clean,c') ∧
    Judged scanner (env h.source) h.source (c h.source) c' .clean

end Scanned
end CloudFiles
end CloudBrowser
