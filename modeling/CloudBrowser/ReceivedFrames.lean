import CloudBrowser.DevToolsSocket

/-! What the DevTools socket receives does not depend on how the bytes come: neither the texts, nor
the answers to the pings, nor what is left for later. -/
namespace CloudBrowser
namespace DevTools

open Stateful
open ShortReads (Cuts Stream)
open WebSockets (Form Frame Mask bigEndian ofBytes)

/-! ### Exact reads -/

/-- The bytes still to be used, and what was sent so far. -/
def At (pending : Bytes) (sent : List Bytes) (ws : WebSocket) : Prop :=
  ws.pending = pending ∧ ws.sent = sent

/-- What an operation ends with. -/
def Ends {α : Type} (r : Except Raised α) (pending : Bytes) (sent : List Bytes) :
    Except Raised α → WebSocket → Prop :=
  fun r' ws => r' = r ∧ At pending sent ws

def streamEnded : Raised := .browserUnavailable "DevTools WebSocket stream ended"

section Reads

variable {α β : Type} {P : WebSocket → Prop} {m : Socket α} {f : α → Socket β} {x : α}
  {r : Except Raised α} {pending : Bytes} {sent : List Bytes}
  {Q : Except Raised β → WebSocket → Prop}

theorem Ends.bind (hm : Triple P m (Ends (.ok x) pending sent))
    (hf : Triple (At pending sent) (f x) Q) : Triple P (m >>= f) Q := by
  refine Triple.bind hm ?_ ?_
  · rintro y ws ⟨hy,hat⟩
    cases hy
    exact hf ws hat
  · rintro e ws ⟨he,-⟩
    cases he

theorem Ends.bind_error {e : Raised} (hm : Triple P m (Ends (.error e) pending sent)) :
    Triple P (m >>= f) (Ends (.error e) pending sent) := by
  refine Triple.bind hm ?_ ?_
  · rintro y ws ⟨hy,-⟩
    cases hy
  · rintro e' ws ⟨he,hat⟩
    cases he
    exact ⟨rfl,hat⟩

theorem ends_pure : Triple (At pending sent) (pure x : Socket α) (Ends (.ok x) pending sent) :=
  fun _ hat => ⟨rfl,hat⟩

theorem ends_throw {e : Raised} :
    Triple (At pending sent) (throw e : Socket α) (Ends (.error e) pending sent) :=
  fun _ hat => ⟨rfl,hat⟩

end Reads

section Steady

variable {cuts : Cuts} {urandom : ℕ → Mask} {count : ℕ} {pending : Bytes} {sent : List Bytes}
  {ws : WebSocket}

theorem exec_sockRecv : exec (sockRecv (.steady cuts urandom) count) ws =
    (.ok (cuts.recv count ws.stream).1,{ws with stream := (cuts.recv count ws.stream).2}) := rfl

/-- What the loop of `_read_exact` ends with, from these bytes on. -/
def Gathered (count : ℕ) (chunks : Bytes) (ws : WebSocket) : Except Raised Bytes → WebSocket → Prop
  | .ok all, ws' => count ≤ all.length ∧ all ++ ws'.stream.rest = chunks ++ ws.stream.rest ∧
      ws'.buffer = ws.buffer ∧ ws'.sent = ws.sent
  | .error e, ws' => e = streamEnded ∧ chunks.length+ws.stream.rest.length < count ∧
      ws'.stream.rest = [] ∧ ws'.buffer = ws.buffer ∧ ws'.sent = ws.sent

/-- A read before the others. -/
theorem Gathered.append {chunks chunk : Bytes} {stream : Stream UInt8} {r : Except Raised Bytes}
    {ws' : WebSocket} (h : Gathered count (chunks ++ chunk) {ws with stream := stream} r ws')
    (hread : chunk ++ stream.rest = ws.stream.rest) : Gathered count chunks ws r ws' := by
  cases r with
  | ok all =>
    obtain ⟨hcount,hall,hbuffer,hsent⟩ := h
    refine ⟨hcount,?_,hbuffer,hsent⟩
    rw [hall,List.append_assoc,hread]
  | error e =>
    obtain ⟨he,hshort,hrest,hbuffer,hsent⟩ := h
    refine ⟨he,?_,hrest,hbuffer,hsent⟩
    rw [← hread,List.length_append]
    rwa [List.length_append,Nat.add_assoc] at hshort

theorem gather_gathered {fuel : ℕ} {chunks : Bytes} (hfuel : count ≤ chunks.length+fuel) :
    Gathered count chunks ws (exec (gather (.steady cuts urandom) count fuel chunks) ws).1
      (exec (gather (.steady cuts urandom) count fuel chunks) ws).2 := by
  induction fuel generalizing chunks ws with
  | zero => exact ⟨hfuel,rfl,rfl,rfl⟩
  | succ fuel ih =>
    rw [gather]
    split_ifs with hshort
    · rw [exec_bind_ok exec_sockRecv]
      have hsize : 0 < min (64*1024) (count-chunks.length) := by omega
      have happend := @Cuts.recv_append _ cuts (min (64*1024) (count-chunks.length)) ws.stream
      split_ifs with hnone
      · have hrest : ws.stream.rest = [] := by
          by_contra hrest
          exact Cuts.recv_ne_nil hsize hrest hnone
        rw [hrest,hnone,List.nil_append] at happend
        refine ⟨rfl,?_,happend,rfl,rfl⟩
        rw [hrest,List.length_nil]
        exact hshort
      · have hread := List.length_pos_iff.mpr hnone
        refine (ih ?_).append happend
        rw [List.length_append]
        omega
    · exact ⟨Nat.le_of_not_lt hshort,rfl,rfl,rfl⟩

/-- Exactly so many of the bytes that come next, or the end of the stream. -/
def takeExact (count : ℕ) (pending : Bytes) : Except Raised Bytes × Bytes :=
  if count ≤ pending.length then (.ok (pending.take count),pending.drop count)
  else (.error streamEnded,[])

theorem triple_readExact (count : ℕ) (pending : Bytes) (sent : List Bytes) :
    Triple (At pending sent) (readExact (.steady cuts urandom) count)
      (Ends (takeExact count pending).1 (takeExact count pending).2 sent) := by
  rintro ws ⟨rfl,rfl⟩
  have hgathered := @gather_gathered cuts urandom count {ws with buffer := []} count ws.buffer
    (Nat.le_add_left _ _)
  rw [readExact,exec_bind_ok (exec_get ws),exec_bind_ok (exec_set _ _)]
  rcases hr : exec (gather (.steady cuts urandom) count count ws.buffer) {ws with buffer := []} with
    ⟨e | all,ws'⟩
  · rw [hr] at hgathered
    obtain ⟨rfl,hshort,hrest,hbuffer,hsent⟩ := hgathered
    have hfew : ¬count ≤ ws.pending.length := by
      rw [WebSocket.pending,List.length_append]
      exact Nat.not_le.mpr hshort
    rw [exec_bind_error hr,takeExact,if_neg hfew]
    refine ⟨rfl,?_,hsent⟩
    rw [WebSocket.pending,hbuffer,hrest]
    rfl
  · rw [hr] at hgathered
    obtain ⟨hcount,hall,hbuffer,hsent⟩ := hgathered
    have hpending : ws.pending = all ++ ws'.stream.rest := hall.symm
    have henough : count ≤ ws.pending.length := by
      rw [hpending,List.length_append]
      omega
    rw [exec_bind_ok hr,takeExact,if_pos henough,hpending,List.take_append_of_le_length hcount,
      List.drop_append_of_le_length hcount]
    split_ifs with hmore
    · exact ⟨rfl,rfl,hsent⟩
    · have hsame : all.drop count = [] := List.drop_eq_nil_of_le (Nat.le_of_not_lt hmore)
      refine ⟨rfl,?_,hsent⟩
      show ws'.buffer ++ ws'.stream.rest = _
      rw [hbuffer,hsame]

theorem triple_take {bytes : Bytes} (hcount : bytes.length = count) (rest : Bytes)
    (sent : List Bytes) : Triple (At (bytes ++ rest) sent)
      (readExact (.steady cuts urandom) count) (Ends (.ok bytes) rest sent) := by
  have hread := @triple_readExact cuts urandom count (bytes ++ rest) sent
  rwa [takeExact,if_pos (by rw [List.length_append]; omega),List.take_left' hcount,
    List.drop_left' hcount] at hread

/-- At the end of the stream there is nothing more to read. -/
theorem triple_ended (hcount : 0 < count) (sent : List Bytes) : Triple (At [] sent)
    (readExact (.steady cuts urandom) count) (Ends (.error streamEnded) [] sent) := by
  have hread := @triple_readExact cuts urandom count [] sent
  rwa [takeExact,if_neg (by rw [List.length_nil]; omega)] at hread

/-! ### Frames -/

theorem triple_readLength {form : Form} {n : ℕ} (hn : n < form.bound) (rest : Bytes)
    (sent : List Bytes) : Triple (At (form.extended n ++ rest) sent)
      (readLength (.steady cuts urandom) (form.code n)) (Ends (.ok n) rest sent) := by
  cases form with
  | short =>
    have hsmall : n < 126 := hn
    rw [readLength,Form.code,if_neg (by omega),if_neg (by omega)]
    exact ends_pure
  | medium =>
    have hread : ofBytes (bigEndian 2 n) = n := WebSockets.ofBytes_bigEndian hn
    refine Ends.bind (triple_take (WebSockets.length_bigEndian 2 n) rest sent) ?_
    rw [hread]
    exact ends_pure
  | long =>
    have hread : ofBytes (bigEndian 8 n) = n :=
      WebSockets.ofBytes_bigEndian (Nat.lt_trans hn (by decide))
    refine Ends.bind (triple_take (WebSockets.length_bigEndian 8 n) rest sent) ?_
    rw [hread]
    exact ends_pure

end Steady

/-! ### Any bytes -/

section Uniform

variable {α β : Type} {urandom : ℕ → Mask}

/-- What the operation does is settled by the bytes still to be used and those sent so far, however
the bytes come. -/
def Uniform (urandom : ℕ → Mask) (m : Network → Socket α) : Prop :=
  ∀ pending sent, ∃ r pending' sent', ∀ cuts,
    Triple (At pending sent) (m (.steady cuts urandom)) (Ends r pending' sent')

theorem Uniform.pure (x : α) : Uniform urandom fun _ => (Pure.pure x : Socket α) :=
  fun pending sent => ⟨_,pending,sent,fun _ => ends_pure⟩

theorem Uniform.throw (e : Raised) :
    Uniform urandom fun _ => (MonadExcept.throw e : Socket α) :=
  fun pending sent => ⟨_,pending,sent,fun _ => ends_throw⟩

theorem Uniform.bind {m : Network → Socket α} {f : Network → α → Socket β}
    (hm : Uniform urandom m) (hf : ∀ x, Uniform urandom fun net => f net x) :
    Uniform urandom fun net => m net >>= f net := by
  intro pending sent
  obtain ⟨r,pending₁,sent₁,hm⟩ := hm pending sent
  cases r with
  | error e => exact ⟨_,_,_,fun cuts => Ends.bind_error (hm cuts)⟩
  | ok x =>
    obtain ⟨r,pending₂,sent₂,hx⟩ := hf x pending₁ sent₁
    exact ⟨r,pending₂,sent₂,fun cuts => Ends.bind (hm cuts) (hx cuts)⟩

theorem Uniform.ite {m m' : Network → Socket α} (c : Prop) [Decidable c] (hm : Uniform urandom m)
    (hm' : Uniform urandom m') : Uniform urandom fun net => if c then m net else m' net := by
  by_cases hc : c
  · simpa only [if_pos hc] using hm
  · simpa only [if_neg hc] using hm'

theorem Uniform.tryCatch {m : Network → Socket α} {handler : Raised → Network → Socket α}
    (hm : Uniform urandom m) (hh : ∀ e, Uniform urandom (handler e)) :
    Uniform urandom fun net => MonadExcept.tryCatch (m net) fun e => handler e net := by
  intro pending sent
  obtain ⟨r,pending₁,sent₁,hm⟩ := hm pending sent
  cases r with
  | ok x =>
    refine ⟨.ok x,pending₁,sent₁,fun cuts => Triple.tryCatch (hm cuts) (fun _ _ h => h) ?_⟩
    rintro e ws ⟨he,-⟩
    cases he
  | error e =>
    obtain ⟨r,pending₂,sent₂,hh⟩ := hh e pending₁ sent₁
    refine ⟨r,pending₂,sent₂,fun cuts => Triple.tryCatch (hm cuts) ?_ ?_⟩
    · rintro x ws ⟨hx,-⟩
      cases hx
    · rintro e' ws ⟨he,hat⟩
      cases he
      exact hh cuts ws hat

theorem readExact_uniform (count : ℕ) : Uniform urandom fun net => readExact net count :=
  fun pending sent => ⟨_,_,_,fun _ => triple_readExact count pending sent⟩

theorem readLength_uniform (length : ℕ) : Uniform urandom fun net => readLength net length := by
  unfold readLength
  refine .ite _ (.bind (readExact_uniform 2) fun bytes => .pure _) (.ite _ ?_ (.pure length))
  exact .bind (readExact_uniform 8) fun bytes => .pure _

theorem readPayload_uniform (length : ℕ) : Uniform urandom fun net => readPayload net length :=
  .ite _ (.pure []) (readExact_uniform length)

theorem sendPong_uniform (payload : Bytes) : Uniform urandom fun net => sendPong net payload := by
  intro pending sent
  refine ⟨.ok (),pending,sent ++ [0x8A :: UInt8.ofNat (0x80 ||| payload.length) ::
    ((urandom sent.length).bytes ++ (urandom sent.length).apply payload)],fun cuts => ?_⟩
  rintro ws ⟨rfl,rfl⟩
  exact ⟨rfl,rfl,rfl⟩

theorem acceptFrame_uniform (opcode : ℕ) (payload : Bytes) :
    Uniform urandom fun net => acceptFrame net opcode payload :=
  .ite _ (.throw _) (.ite _
    (.ite _ (.throw _) (.bind (sendPong_uniform payload) fun _ => .pure none))
    (.ite _ (.throw _) (.pure (some payload))))

theorem recvFrame_uniform : Uniform urandom recvFrame := by
  refine .bind (readExact_uniform 2) fun result => .ite _ (.throw _) ?_
  refine .bind (readLength_uniform _) fun length => .ite _ (.throw _) ?_
  exact .bind (readPayload_uniform length) fun payload => acceptFrame_uniform _ payload

theorem recvLoop_uniform (fuel : ℕ) : Uniform urandom fun net => recvLoop net fuel := by
  induction fuel with
  | zero => exact .throw _
  | succ fuel ih =>
    refine .bind recvFrame_uniform fun answer => ?_
    cases answer with
    | none => exact ih
    | some payload => exact .pure payload

/-- A call returns, sends and leaves the same for all cuts, of a stream of any bytes. -/
theorem recv_uniform : Uniform urandom recv := by
  intro pending sent
  -- how many turns there can be is settled by the bytes too
  obtain ⟨r,pending',sent',hloop⟩ := Uniform.tryCatch (recvLoop_uniform (pending.length+1))
    (fun e => .throw (receiveFailure e)) pending sent
  refine ⟨r,pending',sent',fun cuts => ?_⟩
  rintro ws ⟨rfl,rfl⟩
  exact hloop cuts ws ⟨rfl,rfl⟩

end Uniform

inductive Kind
  | text | ping
  deriving DecidableEq, Repr

def Kind.opcode : Kind → ℕ
  | text => 0x1
  | ping => 0x9

/-- How long a payload may be. -/
def Kind.limit : Kind → ℕ
  | text => maxFramePayload
  | ping => 125

/-- A frame of Chrome's: final, without a mask, with its length in any form that can hold it. -/
structure ServerFrame where
  kind : Kind
  form : Form
  payload : Bytes
  length_le : payload.length ≤ kind.limit
  fits : payload.length < form.bound

namespace ServerFrame

def frame (f : ServerFrame) : Frame := ⟨true,f.kind.opcode,none,f.payload⟩

def wire (f : ServerFrame) : Bytes := f.frame.encode f.form

/-- What `recv` returns for it. -/
def answer (f : ServerFrame) : Option Bytes :=
  match f.kind with
  | .text => some f.payload
  | .ping => none

end ServerFrame

/-- The frame that answers a ping. -/
def pongFrame (mask : Mask) (payload : Bytes) : Frame := ⟨true,0xA,some mask,payload⟩

/-- The payloads of the pings among the frames. -/
def pings (frames : List ServerFrame) : List Bytes :=
  frames.filterMap fun f => match f.kind with
    | .text => none
    | .ping => some f.payload

/-- The pongs for the pings among the frames, after so many frames of our own. -/
def pongs (urandom : ℕ → Mask) (n : ℕ) : List Bytes → List Bytes
  | [] => []
  | payload::payloads =>
    (pongFrame (urandom n) payload).encode .short :: pongs urandom (n+1) payloads

section Steady

variable {cuts : Cuts} {urandom : ℕ → Mask} {count : ℕ} {rest : Bytes} {sent : List Bytes}

theorem triple_sendPong {payload : Bytes} (h : payload.length ≤ 125) :
    Triple (At rest sent) (sendPong (.steady cuts urandom) payload) (Ends (.ok ()) rest
      (sent ++ [(pongFrame (urandom sent.length) payload).encode .short])) := by
  rintro ws ⟨rfl,rfl⟩
  rw [sendPong,exec_bind_ok (exec_get ws),flag_or (by omega)]
  exact ⟨rfl,rfl,rfl⟩

theorem triple_readPayload (payload rest : Bytes) (sent : List Bytes) :
    Triple (At (payload ++ rest) sent) (readPayload (.steady cuts urandom) payload.length)
      (Ends (.ok payload) rest sent) := by
  unfold readPayload
  split_ifs with hempty
  · rw [List.length_eq_zero_iff.mp hempty]
    exact ends_pure
  · exact triple_take rfl rest sent

theorem triple_acceptFrame (f : ServerFrame) (rest : Bytes) (sent : List Bytes) :
    Triple (At rest sent) (acceptFrame (.steady cuts urandom) f.kind.opcode f.payload)
      (Ends (.ok f.answer) rest (sent ++ pongs urandom sent.length (pings [f]))) := by
  obtain ⟨kind,form,payload,hlimit,hfits⟩ := f
  cases kind with
  | text =>
    have hnone : sent ++ pongs urandom sent.length (pings [⟨.text,form,payload,hlimit,hfits⟩]) =
        sent := List.append_nil sent
    rw [hnone]
    exact ends_pure
  | ping =>
    have hshort : ¬125 < payload.length := Nat.not_lt.mpr hlimit
    have hbranch : acceptFrame (.steady cuts urandom) Kind.ping.opcode payload =
        if 125 < payload.length then throw (.browserUnavailable "invalid WebSocket ping")
        else sendPong (.steady cuts urandom) payload >>= fun _ => pure none := rfl
    rw [hbranch,if_neg hshort]
    exact Ends.bind (triple_sendPong hlimit) ends_pure

theorem triple_recvFrame (f : ServerFrame) (rest : Bytes) (sent : List Bytes) :
    Triple (At (f.wire ++ rest) sent) (recvFrame (.steady cuts urandom))
      (Ends (.ok f.answer) rest (sent ++ pongs urandom sent.length (pings [f]))) := by
  obtain ⟨kind,form,payload,hlimit,hfits⟩ := f
  have hcode := Form.code_lt hfits
  have hseven : (UInt8.ofNat (0+form.code payload.length)).toNat &&& 0x7F =
      form.code payload.length := by
    rw [UInt8.toNat_ofNat',Nat.and_two_pow_sub_one_eq_mod _ 7]
    omega
  have hsplit : (ServerFrame.wire ⟨kind,form,payload,hlimit,hfits⟩ ++ rest) =
      [UInt8.ofNat (128+kind.opcode),UInt8.ofNat (0+form.code payload.length)] ++
        (form.extended payload.length ++ (payload ++ rest)) := by
    simp [ServerFrame.wire,ServerFrame.frame,Frame.encode,WebSockets.maskBytes,WebSockets.cover]
  have hsize : payload.length ≤ maxFramePayload := by
    cases kind with
    | text => exact hlimit
    | ping => exact Nat.le_trans hlimit (by decide)
  have hpast : Triple (At (form.extended payload.length ++ (payload ++ rest)) sent)
      (readLength (.steady cuts urandom) (form.code payload.length) >>= fun length =>
        if maxFramePayload < length then
          throw (.browserUnavailable "DevTools WebSocket frame is too large")
        else readPayload (.steady cuts urandom) length >>= acceptFrame (.steady cuts urandom)
          kind.opcode)
      (Ends (.ok (ServerFrame.answer ⟨kind,form,payload,hlimit,hfits⟩)) rest
        (sent ++ pongs urandom sent.length (pings [⟨kind,form,payload,hlimit,hfits⟩]))) := by
    refine Ends.bind (triple_readLength hfits _ sent) ?_
    rw [if_neg (Nat.not_lt.mpr hsize)]
    exact Ends.bind (triple_readPayload payload rest sent) (triple_acceptFrame _ rest sent)
  rw [hsplit,recvFrame]
  refine Ends.bind (triple_take rfl _ sent) ?_
  simp only [List.getD_cons_zero,List.getD_cons_succ,hseven]
  cases kind with
  | text => exact hpast
  | ping => exact hpast

end Steady

/-! ### Calls -/

def wires (frames : List ServerFrame) : Bytes := frames.flatMap ServerFrame.wire

/-- The texts among the frames. -/
def texts (frames : List ServerFrame) : List Bytes :=
  frames.filterMap fun f => match f.kind with
    | .text => some f.payload
    | .ping => none

def receive (net : Network) : ℕ → Socket (List Bytes)
  | 0 => pure []
  | n+1 => do
    let message ← recv net
    let messages ← receive net n
    return message::messages

/-- The last frame is a text, if there is any. -/
def EndsInText (frames : List ServerFrame) : Prop := ∀ f ∈ frames.getLast?, f.kind = .text

section Calls

variable {cuts : Cuts} {urandom : ℕ → Mask} {rest : Bytes} {sent : List Bytes}
  {frames : List ServerFrame} {f : ServerFrame}

theorem length_wire (f : ServerFrame) : 2 ≤ f.wire.length := by
  rw [ServerFrame.wire,Frame.encode,List.length_cons,List.length_cons]
  omega

theorem length_wires (frames : List ServerFrame) : frames.length ≤ (wires frames).length := by
  induction frames with
  | nil => exact le_rfl
  | cons f frames ih =>
    have hwire := length_wire f
    rw [wires,List.flatMap_cons,List.length_append,List.length_cons]
    have hrest : frames.length ≤ (frames.flatMap ServerFrame.wire).length := ih
    omega

@[simp] theorem wires_cons : wires (f::frames) = f.wire ++ wires frames := List.flatMap_cons

@[simp] theorem wires_append (front back : List ServerFrame) :
    wires (front ++ back) = wires front ++ wires back := List.flatMap_append

theorem pongs_append (n : ℕ) (payloads payloads' : List Bytes) :
    pongs urandom n (payloads ++ payloads') =
      pongs urandom n payloads ++ pongs urandom (n+payloads.length) payloads' := by
  induction payloads generalizing n with
  | nil => rfl
  | cons payload payloads ih =>
    rw [List.cons_append,pongs,pongs,ih,List.cons_append,List.length_cons,
      show n+1+payloads.length = n+(payloads.length+1) by omega]

@[simp] theorem length_pongs (n : ℕ) (payloads : List Bytes) :
    (pongs urandom n payloads).length = payloads.length := by
  induction payloads generalizing n with
  | nil => rfl
  | cons payload payloads ih => rw [pongs,List.length_cons,ih,List.length_cons]

/-- Each pong is one final, masked frame with the payload of its ping. -/
def Answers (payload bytes : Bytes) : Prop :=
  ∃ mask, WebSockets.decode bytes = some (pongFrame mask payload,[])

theorem answers_pongs (n : ℕ) {payloads : List Bytes} (h : ∀ p ∈ payloads, p.length ≤ 125) :
    List.Forall₂ Answers payloads (pongs urandom n payloads) := by
  induction payloads generalizing n with
  | nil => exact .nil
  | cons payload payloads ih =>
    have hlength := h payload List.mem_cons_self
    have hform : Form.ofLength payload.length = .short := if_pos (by omega)
    have hread := WebSockets.decode_encode (f := pongFrame (urandom n) payload)
      (by show 0xA < 16; decide) (by show payload.length < 2^63; omega) []
    rw [List.append_nil] at hread
    refine .cons ⟨urandom n,?_⟩ (ih (n+1) fun p hp => h p (List.mem_cons_of_mem payload hp))
    rw [← hform]
    exact hread

theorem pings_short (frames : List ServerFrame) : ∀ p ∈ pings frames, p.length ≤ 125 := by
  intro p hp
  obtain ⟨⟨kind,form,payload,hlimit,hfits⟩,-,hf⟩ := List.mem_filterMap.mp hp
  cases kind with
  | text => cases hf
  | ping =>
    cases hf
    exact hlimit

theorem pings_append (front back : List ServerFrame) :
    pings (front ++ back) = pings front ++ pings back := List.filterMap_append

theorem pings_cons (f : ServerFrame) (frames : List ServerFrame) :
    pings (f::frames) = pings [f] ++ pings frames := pings_append [f] frames

theorem pings_of_text (htext : f.kind = .text) : pings [f] = [] := by
  simp [pings,htext]

theorem pings_of_ping (hping : f.kind = .ping) : pings [f] = [f.payload] := by
  simp [pings,hping]

/-- The loop goes on after each ping. -/
theorem triple_recvLoop_pings {Q : Except Raised Bytes → WebSocket → Prop} {fuel : ℕ}
    {before : List ServerFrame} (hpings : ∀ f ∈ before, f.kind = .ping)
    (hloop : Triple (At rest (sent ++ pongs urandom sent.length (pings before)))
      (recvLoop (.steady cuts urandom) fuel) Q) :
    Triple (At (wires before ++ rest) sent)
      (recvLoop (.steady cuts urandom) (before.length+fuel)) Q := by
  induction before generalizing sent with
  | nil =>
    have hsent : sent ++ pongs urandom sent.length (pings []) = sent := List.append_nil sent
    rw [hsent] at hloop
    rwa [List.length_nil,Nat.zero_add]
  | cons f before ih =>
    have hping := hpings f List.mem_cons_self
    have hnext := pings_of_ping hping
    rw [pings_cons,pongs_append,hnext,List.length_singleton,← List.append_assoc] at hloop
    rw [wires_cons,List.append_assoc,List.length_cons,Nat.add_right_comm]
    refine Ends.bind (triple_recvFrame f _ sent) ?_
    rw [ServerFrame.answer,hping]
    apply ih fun g hg => hpings g (List.mem_cons_of_mem f hg)
    rwa [hnext,List.length_append,length_pongs,List.length_singleton]

theorem triple_recvLoop_text (htext : f.kind = .text) (fuel : ℕ) :
    Triple (At (f.wire ++ rest) sent) (recvLoop (.steady cuts urandom) (fuel+1))
      (Ends (.ok f.payload) rest sent) := by
  have hnone : sent ++ pongs urandom sent.length (pings [f]) = sent := by
    rw [pings_of_text htext]
    exact List.append_nil sent
  refine Ends.bind (triple_recvFrame f rest sent) ?_
  rw [hnone,ServerFrame.answer,htext]
  exact ends_pure

theorem triple_recvLoop_ended (fuel : ℕ) : Triple (At [] sent)
    (recvLoop (.steady cuts urandom) (fuel+1)) (Ends (.error streamEnded) [] sent) :=
  Ends.bind_error (Ends.bind_error (triple_ended (by decide) sent))

/-- Outside the loop nothing changes what it ends with. -/
theorem triple_recv {r : Except Raised Bytes} {pending : Bytes} {sent' : List Bytes}
    (hr : ∀ e, r = .error e → ∃ message, e = .browserUnavailable message)
    (hloop : Triple (At pending sent) (recvLoop (.steady cuts urandom) (pending.length+1))
      (Ends r rest sent')) :
    Triple (At pending sent) (recv (.steady cuts urandom)) (Ends r rest sent') := by
  rintro ws ⟨rfl,rfl⟩
  have hends := hloop ws ⟨rfl,rfl⟩
  rw [recv,exec_bind_ok (exec_get ws),exec_tryCatch]
  rcases hexec : exec (recvLoop (.steady cuts urandom) (ws.pending.length+1)) ws with ⟨e | x,ws'⟩
  · rw [hexec] at hends
    obtain ⟨message,rfl⟩ := hr e hends.1.symm
    exact hends
  · rw [hexec] at hends
    exact hends

/-- A call returns the next text, and answers the pings before it. -/
theorem triple_recv_text {before : List ServerFrame} (hpings : ∀ f ∈ before, f.kind = .ping)
    (htext : f.kind = .text) :
    Triple (At (wires before ++ (f.wire ++ rest)) sent) (recv (.steady cuts urandom))
      (Ends (.ok f.payload) rest (sent ++ pongs urandom sent.length (pings before))) := by
  apply triple_recv
  · intro e he
    cases he
  · have hlength : before.length ≤ (wires before ++ (f.wire ++ rest)).length := by
      rw [List.length_append]
      exact Nat.le_add_right_of_le (length_wires before)
    obtain ⟨fuel,hfuel⟩ := Nat.exists_eq_add_of_le hlength
    rw [hfuel,Nat.add_assoc]
    exact triple_recvLoop_pings hpings (triple_recvLoop_text htext fuel)

/-- When only pings are left, a call answers them and then finds the end of the stream. -/
theorem triple_recv_ended {before : List ServerFrame} (hpings : ∀ f ∈ before, f.kind = .ping) :
    Triple (At (wires before) sent) (recv (.steady cuts urandom)) (Ends (.error streamEnded) []
      (sent ++ pongs urandom sent.length (pings before))) := by
  apply triple_recv
  · rintro e ⟨⟩
    exact ⟨_,rfl⟩
  · obtain ⟨fuel,hfuel⟩ := Nat.exists_eq_add_of_le (length_wires before)
    have hloop := triple_recvLoop_pings hpings
      (@triple_recvLoop_ended cuts urandom (sent ++ pongs urandom sent.length (pings before)) fuel)
    rw [hfuel,Nat.add_assoc]
    rwa [List.append_nil] at hloop

theorem texts_cons_text (htext : f.kind = .text) (frames : List ServerFrame) :
    texts (f::frames) = f.payload :: texts frames := by
  simp [texts,htext]

theorem texts_cons_ping (hping : f.kind = .ping) (frames : List ServerFrame) :
    texts (f::frames) = texts frames := by
  simp [texts,hping]

theorem EndsInText.tail {front back : List ServerFrame} (h : EndsInText (front ++ back)) :
    EndsInText back := by
  intro f hf
  apply h f
  rw [Option.mem_def] at hf ⊢
  rw [List.getLast?_append,hf]
  rfl

/-- So many calls return the texts of the frames before them, one after the other. -/
theorem triple_receive_after {before : List ServerFrame} (hpings : ∀ f ∈ before, f.kind = .ping)
    (hends : EndsInText (before ++ frames)) :
    Triple (At (wires (before ++ frames) ++ rest) sent)
      (receive (.steady cuts urandom) (texts frames).length)
      (Ends (.ok (texts frames)) rest
        (sent ++ pongs urandom sent.length (pings (before ++ frames)))) := by
  induction frames generalizing before sent with
  | nil =>
    have hnone : before = [] := by
      rw [← List.getLast?_eq_none_iff]
      cases hlast : before.getLast? with
      | none => rfl
      | some f =>
        have htext := hends f (by rwa [List.append_nil])
        rw [hpings f (List.mem_of_getLast? hlast)] at htext
        cases htext
    rw [hnone,show sent ++ pongs urandom sent.length (pings ([] ++ [])) = sent from
      List.append_nil sent]
    exact ends_pure
  | cons f frames ih =>
    have hmove : before ++ f::frames = (before ++ [f]) ++ frames := List.append_cons _ _ _
    cases hkind : f.kind with
    | ping =>
      rw [texts_cons_ping hkind,hmove]
      refine ih ?_ (hmove ▸ hends)
      intro g hg
      rcases List.mem_append.mp hg with hg | hg
      · exact hpings g hg
      · rw [List.mem_singleton.mp hg,hkind]
    | text =>
      have hnone : ∀ g ∈ ([] : List ServerFrame), g.kind = .ping := fun _ hg => nomatch hg
      have hwires : wires (before ++ f::frames) ++ rest =
          wires before ++ (f.wire ++ (wires frames ++ rest)) := by
        rw [wires_append,wires_cons,List.append_assoc,List.append_assoc]
      have hpongs : pings (before ++ f::frames) = pings before ++ pings frames := by
        rw [pings_append,pings_cons,pings_of_text hkind,List.nil_append]
      rw [texts_cons_text hkind,hwires,hpongs,pongs_append,
        ← List.append_assoc sent]
      refine Ends.bind (triple_recv_text hpings hkind) ?_
      refine Ends.bind (ih hnone (hmove ▸ hends).tail) ?_
      rw [List.nil_append,List.length_append,length_pongs]
      exact ends_pure

theorem triple_receive (hends : EndsInText frames) :
    Triple (At (wires frames ++ rest) sent)
      (receive (.steady cuts urandom) (texts frames).length)
      (Ends (.ok (texts frames)) rest (sent ++ pongs urandom sent.length (pings frames))) := by
  have hnone : ∀ f ∈ ([] : List ServerFrame), f.kind = .ping := fun _ hf => nomatch hf
  exact triple_receive_after hnone hends

/-- One call more finds the end of the stream, when every ping has its answer. -/
theorem triple_receive_ended {before : List ServerFrame} (hends : EndsInText frames)
    (hpings : ∀ f ∈ before, f.kind = .ping) :
    Triple (At (wires (frames ++ before)) sent)
      (receive (.steady cuts urandom) (texts frames).length >>= fun _ =>
        recv (.steady cuts urandom))
      (Ends (.error streamEnded) []
        (sent ++ pongs urandom sent.length (pings (frames ++ before)))) := by
  rw [wires_append,pings_append,pongs_append,← List.append_assoc sent]
  refine Ends.bind (triple_receive hends) ?_
  have hended := @triple_recv_ended cuts urandom
    (sent ++ pongs urandom sent.length (pings frames)) _ hpings
  rwa [List.length_append,length_pongs] at hended

end Calls
/-! ### The handshake -/

section Handshake

variable {cuts : Cuts} {urandom : ℕ → Mask} {head following : Bytes} {ws : WebSocket}

/-- The response is found with what came after it, or its head is almost as long as is allowed. -/
def HeadRead (head following : Bytes) (ws : WebSocket) :
    Except Raised (Bytes × Bytes) → WebSocket → Prop
  | .ok parts, ws' => parts.1 = head ∧ parts.2 ++ ws'.stream.rest = following ∧ ws'.sent = ws.sent
  | .error _, _ => 16*1024 < head.length+4+4095

theorem readHead_headRead {fuel : ℕ} {data : Bytes} (hdata : data.length ≤ 16*1024)
    (hfuel : 16*1024 < data.length+fuel)
    (hwhole : Partitions.partition blankLine (data ++ ws.stream.rest) = some (head,following)) :
    HeadRead head following ws (exec (readHead (.steady cuts urandom) fuel data) ws).1
      (exec (readHead (.steady cuts urandom) fuel data) ws).2 := by
  induction fuel generalizing data ws with
  | zero => omega
  | succ fuel ih =>
    rw [readHead]
    cases hparts : Partitions.partition blankLine data with
    | some parts =>
      have hsame := Partitions.partition_append hparts ws.stream.rest
      rw [hwhole] at hsame
      cases hsame
      exact ⟨rfl,rfl,rfl⟩
    | none =>
      have hearly := Partitions.length_of_partition_none hparts hwhole
      have happend := @Cuts.recv_append _ cuts 4096 ws.stream
      have hchunk := @Cuts.length_recv_le _ cuts 4096 ws.stream
      dsimp only
      rw [exec_bind_ok exec_sockRecv]
      split_ifs with hnone hlarge
      · have hrest : ws.stream.rest = [] := by
          by_contra hrest
          exact Cuts.recv_ne_nil (by decide) hrest hnone
        rw [hrest,List.append_nil,hparts] at hwhole
        cases hwhole
      · rw [List.length_append] at hlarge
        have hfour : blankLine.length = 4 := rfl
        show 16*1024 < head.length+4+4095
        omega
      · have hread := List.length_pos_iff.mpr hnone
        refine ih (Nat.le_of_not_lt hlarge) ?_ ?_
        · rw [List.length_append]
          omega
        · rwa [List.append_assoc,happend]

/-- Whatever came with the response is the first that is received after it. -/
def ResponseRead (head following : Bytes) (ws : WebSocket) :
    Except Raised (String × List (String × String)) → WebSocket → Prop
  | .ok response, ws' => response = responseOf head ∧ At following ws.sent ws'
  | .error _, _ => 16*1024 < head.length+4+4095

theorem response_read
    (hwhole : Partitions.partition blankLine ws.stream.rest = some (head,following)) :
    ResponseRead head following ws (exec (readHttpResponse (.steady cuts urandom)) ws).1
      (exec (readHttpResponse (.steady cuts urandom)) ws).2 := by
  have hread := @readHead_headRead cuts urandom head following ws (16*1024+1) []
    (Nat.zero_le _) (by rw [List.length_nil]; omega) hwhole
  rw [readHttpResponse]
  rcases hr : exec (readHead (.steady cuts urandom) (16*1024+1) []) ws with ⟨e | parts,ws'⟩
  · rw [exec_bind_error hr]
    rwa [hr] at hread
  · rw [hr] at hread
    obtain ⟨rfl,hfollowing,hsent⟩ := hread
    rw [exec_bind_ok hr]
    exact ⟨rfl,hfollowing,hsent⟩

/-- From this state on, calls return the texts of these frames in their order and answer each ping
before them once, and the bytes behind them stay; where nothing but pings is behind them, the next
call answers these too before it finds the end of the stream. -/
structure Delivers (net : Network) (frames : List ServerFrame) (tail : Bytes) (ws : WebSocket) :
    Prop where
  inOrder : ∀ front back, frames = front ++ back → EndsInText front → ∃ ws' answers,
    exec (receive net (texts front).length) ws = (.ok (texts front),ws') ∧
      ws'.sent = ws.sent ++ answers ∧ List.Forall₂ Answers (pings front) answers ∧
      ws'.pending = wires back ++ tail
  noMore : ∀ front back, frames = front ++ back → EndsInText front →
    (∀ f ∈ back, f.kind = .ping) → tail = [] → ∃ ws' answers,
    exec (receive net (texts front).length >>= fun _ => recv net) ws = (.error streamEnded,ws') ∧
      ws'.sent = ws.sent ++ answers ∧ List.Forall₂ Answers (pings frames) answers ∧
      ws'.pending = []

theorem delivers {frames : List ServerFrame} {tail : Bytes}
    (hpending : ws.pending = wires frames ++ tail) :
    Delivers (.steady cuts urandom) frames tail ws where
  inOrder := by
    rintro front back rfl hends
    rw [wires_append,List.append_assoc] at hpending
    obtain ⟨hr,hrest,hsent⟩ := @triple_receive cuts urandom (wires back ++ tail) ws.sent front hends
      ws ⟨hpending,rfl⟩
    exact ⟨_,_,Prod.ext hr rfl,hsent,answers_pongs _ (pings_short front),hrest⟩
  noMore := by
    rintro front back rfl hends hpings rfl
    rw [List.append_nil] at hpending
    obtain ⟨hr,hrest,hsent⟩ := @triple_receive_ended cuts urandom ws.sent front back hends hpings
      ws ⟨hpending,rfl⟩
    exact ⟨_,_,Prod.ext hr rfl,hsent,answers_pongs _ (pings_short _),hrest⟩

/-- However the bytes of the response and of the frames behind it are cut into reads, the response
is read, unless its head comes near to 16 KiB, and the frames are delivered. -/
theorem delivered_however_cut (cuts : Cuts) (urandom : ℕ → Mask) (ws : WebSocket) (head : Bytes)
    (frames : List ServerFrame) (tail : Bytes)
    (hwhole : Partitions.partition blankLine ws.stream.rest = some (head,wires frames ++ tail)) :
    (head.length+4+4095 ≤ 16*1024 → ∃ ws', exec (readHttpResponse (.steady cuts urandom)) ws =
      (.ok (responseOf head),ws')) ∧
    ∀ response ws', exec (readHttpResponse (.steady cuts urandom)) ws = (.ok response,ws') →
      response = responseOf head ∧ ws'.sent = ws.sent ∧
        Delivers (.steady cuts urandom) frames tail ws' := by
  have hread := @response_read cuts urandom head (wires frames ++ tail) ws hwhole
  constructor
  · intro hshort
    rcases hr : exec (readHttpResponse (.steady cuts urandom)) ws with ⟨e | response,ws'⟩
    · rw [hr] at hread
      exact absurd hshort (Nat.not_le.mpr hread)
    · rw [hr] at hread
      exact ⟨ws',by rw [hread.1]⟩
  · intro response ws' hr
    rw [hr] at hread
    obtain ⟨hresponse,hpending,hsent⟩ := hread
    exact ⟨hresponse,hsent,delivers hpending⟩

/-- A ping, and a text whose length is written in two bytes. -/
def sampleFrames : List ServerFrame :=
  [⟨.ping,.short,[104,105],by decide,by decide⟩,⟨.text,.medium,[123,125],by decide,by decide⟩]

def sampleSocket : WebSocket := ⟨⟨[72] ++ (blankLine ++ wires sampleFrames),0⟩,[],[]⟩

theorem delivered_bytewise :
    ([72] : Bytes).length+4+4095 ≤ 16*1024 ∧
    Partitions.partition blankLine sampleSocket.stream.rest =
      some ([72],wires sampleFrames ++ []) ∧
    ∃ ws', exec (readHttpResponse (.steady Cuts.single fun _ => ⟨1,2,3,4⟩)) sampleSocket =
      (.ok (responseOf [72]),ws') ∧
      Delivers (.steady Cuts.single fun _ => ⟨1,2,3,4⟩) sampleFrames [] ws' := by
  have hwhole : Partitions.partition blankLine sampleSocket.stream.rest =
      some ([72],wires sampleFrames ++ []) := by decide +kernel
  have hshort : ([72] : Bytes).length+4+4095 ≤ 16*1024 := by decide
  obtain ⟨hopens,hdelivers⟩ := delivered_however_cut Cuts.single (fun _ => ⟨1,2,3,4⟩) sampleSocket
    [72] sampleFrames [] hwhole
  obtain ⟨ws',hr⟩ := hopens hshort
  exact ⟨hshort,hwhole,ws',hr,(hdelivers _ ws' hr).2.2⟩

end Handshake
end DevTools
end CloudBrowser
