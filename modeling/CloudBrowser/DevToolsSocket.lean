import CloudBrowser.EdgeAuth
import CloudBrowser.JsonText
import CloudBrowser.KeyedTable
import CloudBrowser.Latin1
import CloudBrowser.Partitions
import CloudBrowser.ShortReads
import CloudBrowser.Stateful
import CloudBrowser.WebSockets

/-! The WebSocket over which a slot talks to the DevTools of its Chrome: the frames that it sends,
and how it reads the response to its handshake and the frames that come. -/
namespace CloudBrowser
namespace DevTools

open Stateful
open ShortReads (Cuts Stream)
open WebSockets (Form Frame Mask bigEndian ofBytes)

/-- `_WS_MAX_FRAME_PAYLOAD`. -/
def maxFramePayload : ℕ := 256*1024

inductive Raised
  | browserUnavailable (message : String)
  | osError
  | structError
  deriving DecidableEq, Repr

/-- What the socket does, and `os.urandom`: how long its reads are, the calls that raise, and the
mask of each frame. -/
structure Network where
  cuts : Cuts
  recvFails : ℕ → Bool
  sendFails : ℕ → Bool
  urandom : ℕ → Mask

/-- A network on which no call raises. -/
def Network.steady (cuts : Cuts) (urandom : ℕ → Mask) : Network :=
  ⟨cuts,fun _ => false,fun _ => false,urandom⟩

/-- What the peer sends until it closes, what was read of it and not used yet, and what was given to
`sendall`. -/
structure WebSocket where
  stream : Stream UInt8
  buffer : Bytes
  sent : List Bytes

abbrev Socket (α : Type) := Op Raised WebSocket α

variable (net : Network)

/-- `self._sock.recv(count)`. -/
def sockRecv (count : ℕ) : Socket Bytes := do
  let ws ← get
  if net.recvFails ws.stream.reads then
    set {ws with stream := {ws.stream with reads := ws.stream.reads+1}}
    throw .osError
  else
    set {ws with stream := (net.cuts.recv count ws.stream).2}
    return (net.cuts.recv count ws.stream).1

/-- `self._sock.sendall(bytes)`. -/
def sendall (bytes : Bytes) : Socket Unit := do
  let ws ← get
  set {ws with sent := ws.sent ++ [bytes]}
  if net.sendFails ws.sent.length then throw .osError else pure ()

section Handshake

def blankLine : Bytes := [13,10,13,10]

/-- `text.split("\r\n")`. -/
def splitLines : List Char → List (List Char)
  | [] => [[]]
  | '\r' :: '\n' :: rest => [] :: splitLines rest
  | c::rest =>
    match splitLines rest with
    | [] => [[c]]
    | line::lines => (c::line)::lines

/-- `str.lower`, of a Latin-1 character. -/
def lowerLatin1 (c : Char) : Char :=
  if (0x41 ≤ c.val ∧ c.val ≤ 0x5A) ∨ (0xC0 ≤ c.val ∧ c.val ≤ 0xDE ∧ c.val ≠ 0xD7) then
    Char.ofNat (c.toNat+32)
  else c

/-- The name and the value of a header's line. -/
def headerOf (line : List Char) : String × String :=
  let name := line.takeWhile (· ≠ ':')
  (String.ofList ((EdgeAuth.strip name).map lowerLatin1),
    String.ofList (EdgeAuth.strip (line.drop (name.length+1))))

/-- The status line and the headers; a name that comes again takes the later value. -/
def responseOf (head : Bytes) : String × List (String × String) :=
  let lines := splitLines (Text.decodeLatin1 head).toList
  (String.ofList (lines.headD []),
    (lines.tail.map headerOf).foldl (Keyed.Table.putRows Prod.fst) [])

/-- The loop of `_read_http_response`, which reads at least one byte in each turn; what comes before
the first blank line and after it. -/
def readHead : ℕ → Bytes → Socket (Bytes × Bytes)
  | 0, _ => throw (.browserUnavailable "DevTools WebSocket handshake too large")
  | fuel+1, data =>
    match Partitions.partition blankLine data with
    | some parts => pure parts
    | none => do
      let chunk ← sockRecv net 4096
      if chunk = [] then
        throw (.browserUnavailable "DevTools WebSocket handshake truncated")
      else if 16*1024 < (data ++ chunk).length then
        throw (.browserUnavailable "DevTools WebSocket handshake too large")
      else readHead fuel (data ++ chunk)

def readHttpResponse : Socket (String × List (String × String)) := do
  let parts ← readHead net (16*1024+1) []
  modify fun ws => {ws with buffer := parts.2}
  return responseOf parts.1

end Handshake

section Sending

/-- `struct.pack(">H", n)`. -/
def packH (n : ℕ) : Except Raised Bytes :=
  if n < 2^16 then .ok (bigEndian 2 n) else .error .structError

/-- The bytes of the length of a masked frame. -/
def lengthHeader (n : ℕ) : Except Raised Bytes :=
  if n < 126 then .ok [UInt8.ofNat (0x80 ||| n)]
  else do
    let packed ← packH n
    return UInt8.ofNat (0x80 ||| 126) :: packed

def send (payload : String) : Socket Unit := do
  let data := Text.encodeUtf8 payload
  if maxFramePayload < data.length then
    throw (.browserUnavailable "DevTools WebSocket payload is too large")
  else
    let header ← check (lengthHeader data.length)
    let ws ← get
    let mask := net.urandom ws.sent.length
    tryCatch (sendall net (0x81 :: (header ++ (mask.bytes ++ mask.apply data)))) fun
      | .osError => throw (.browserUnavailable "DevTools WebSocket send failed")
      | e => throw e

def sendPong (payload : Bytes) : Socket Unit := do
  let ws ← get
  let mask := net.urandom ws.sent.length
  sendall net (0x8A :: UInt8.ofNat (0x80 ||| payload.length) :: (mask.bytes ++ mask.apply payload))

end Sending

section Receiving

/-- The loop of `_read_exact`, which reads at least one byte in each turn. -/
def gather (count : ℕ) : ℕ → Bytes → Socket Bytes
  | 0, chunks => pure chunks
  | fuel+1, chunks =>
    if chunks.length < count then do
      let chunk ← sockRecv net (min (64*1024) (count-chunks.length))
      if chunk = [] then throw (.browserUnavailable "DevTools WebSocket stream ended")
      else gather count fuel (chunks ++ chunk)
    else pure chunks

def readExact (count : ℕ) : Socket Bytes := do
  let ws ← get
  set {ws with buffer := []}
  let chunks ← gather net count count ws.buffer
  if count < chunks.length then
    modify fun ws => {ws with buffer := chunks.drop count}
    return chunks.take count
  else return chunks.take count

/-- The length of a frame, from the seven bits of its second byte. -/
def readLength (length : ℕ) : Socket ℕ :=
  if length = 126 then do
    let bytes ← readExact net 2
    return ofBytes bytes
  else if length = 127 then do
    let bytes ← readExact net 8
    return ofBytes bytes
  else pure length

def readPayload (length : ℕ) : Socket Bytes :=
  if length = 0 then pure [] else readExact net length

/-- What is done with a frame: its payload is returned, or the loop goes on. -/
def acceptFrame (opcode : ℕ) (payload : Bytes) : Socket (Option Bytes) :=
  if opcode = 0x8 then throw (.browserUnavailable "DevTools WebSocket closed early")
  else if opcode = 0x9 then
    if 125 < payload.length then throw (.browserUnavailable "invalid WebSocket ping")
    else do
      sendPong net payload
      return none
  else if opcode ≠ 0x1 then
    throw (.browserUnavailable "unsupported DevTools WebSocket opcode")
  else return some payload

/-- A turn of the loop of `recv`. -/
def recvFrame : Socket (Option Bytes) := do
  let result ← readExact net 2
  let first := (result.getD 0 0).toNat
  let second := (result.getD 1 0).toNat
  let opcode := first &&& 0x0F
  if first &&& 0x80 = 0 ∨ opcode = 0x0 ∨ opcode = 0x2 then
    throw (.browserUnavailable "unsupported or fragmented DevTools frame")
  else
    let length ← readLength net (second &&& 0x7F)
    if maxFramePayload < length then
      throw (.browserUnavailable "DevTools WebSocket frame is too large")
    else
      let payload ← readPayload net length
      acceptFrame net opcode payload

/-- The turns of the loop; each that goes on has read two bytes at least. -/
def recvLoop : ℕ → Socket Bytes
  | 0 => throw (.browserUnavailable "DevTools WebSocket stream ended")
  | fuel+1 => do
    match ← recvFrame net with
    | some payload => return payload
    | none => recvLoop fuel

/-- The bytes that have come or will come and that no call has used. -/
def WebSocket.pending (ws : WebSocket) : Bytes := ws.buffer ++ ws.stream.rest

/-- What `recv` raises instead of what was raised in it. -/
def receiveFailure : Raised → Raised
  | .browserUnavailable message => .browserUnavailable message
  | _ => .browserUnavailable "DevTools WebSocket receive failed"

def recv : Socket Bytes := do
  let ws ← get
  tryCatch (recvLoop net (ws.pending.length+1)) fun e => throw (receiveFailure e)

end Receiving

/-! ### What `send` sends -/

section Sent

variable {net} {payload : String} {ws : WebSocket}

theorem flag_or {n : ℕ} (h : n < 128) : 0x80 ||| n = 128+n :=
  (Nat.two_pow_add_eq_or_of_lt (i := 7) h 1).symm

/-- The frame of a payload. -/
def textFrame (mask : Mask) (payload : String) : Frame := ⟨true,1,some mask,Text.encodeUtf8 payload⟩

theorem lengthHeader_ok {n : ℕ} (h : n < 2^16) : lengthHeader n =
    .ok (UInt8.ofNat (128+(Form.ofLength n).code n) :: (Form.ofLength n).extended n) := by
  unfold lengthHeader Form.ofLength
  split_ifs with hshort
  · rw [flag_or (by omega)]
    rfl
  · rw [packH,if_pos h]
    rfl

theorem lengthHeader_long {n : ℕ} (h : 2^16 ≤ n) : lengthHeader n = .error .structError := by
  rw [lengthHeader,if_neg (by omega),packH,if_neg (by omega)]
  rfl

/-- A payload of less than 64 KiB goes out as its frame. -/
theorem exec_send (h : (Text.encodeUtf8 payload).length < 2^16) :
    exec (send net payload) ws =
      (if net.sendFails ws.sent.length then
        .error (.browserUnavailable "DevTools WebSocket send failed") else .ok (),
      {ws with sent := ws.sent ++ [(textFrame (net.urandom ws.sent.length) payload).encode
        (Form.ofLength (Text.encodeUtf8 payload).length)]}) := by
  have hsmall : ¬maxFramePayload < (Text.encodeUtf8 payload).length := by
    unfold maxFramePayload
    omega
  rw [send,if_neg hsmall,lengthHeader_ok h,exec_bind_ok (exec_check _ ws),
    exec_bind_ok (exec_get ws),exec_tryCatch,sendall,exec_bind_ok (exec_get ws),
    exec_bind_ok (exec_set _ _)]
  split_ifs with hfails <;> rfl

/-- A longer one cannot be sent: the length does not fit its two bytes. -/
theorem exec_send_long (h : 2^16 ≤ (Text.encodeUtf8 payload).length)
    (hlimit : (Text.encodeUtf8 payload).length ≤ maxFramePayload) :
    exec (send net payload) ws = (.error .structError,ws) := by
  rw [send,if_neg (Nat.not_lt.mpr hlimit),lengthHeader_long h]
  rfl

theorem decode_textFrame {mask : Mask} (h : (Text.encodeUtf8 payload).length < 2^63) :
    WebSockets.decode ((textFrame mask payload).encode
      (Form.ofLength (Text.encodeUtf8 payload).length)) = some (textFrame mask payload,[]) := by
  have hread := WebSockets.decode_encode (f := textFrame mask payload)
    (by show 1 < 16; decide) h []
  rwa [List.append_nil] at hread

variable (net) in
/-- What is given to the socket for a payload is its frame, final and masked, and nothing else; and
its length raises nothing. -/
def SendsFrame (payload : String) (ws : WebSocket) : Prop :=
  (exec (send net payload) ws).1 ≠ .error .structError ∧
    ∃ bytes, (exec (send net payload) ws).2.sent = ws.sent ++ [bytes] ∧
      WebSockets.decode bytes = some (textFrame (net.urandom ws.sent.length) payload,[])

/-- Of the payloads that are not refused, those that fit two bytes of length are sent. -/
theorem sendsFrame_iff (net : Network) (payload : String) (ws : WebSocket)
    (hlimit : (Text.encodeUtf8 payload).length ≤ maxFramePayload) :
    SendsFrame net payload ws ↔ (Text.encodeUtf8 payload).length ≤ 65535 := by
  constructor
  · intro h
    by_contra hlong
    apply h.1
    rw [exec_send_long (by omega) hlimit]
  · intro h
    have hsent := @exec_send net payload ws (by omega)
    refine ⟨?_,_,congrArg (fun r => r.2.sent) hsent,decode_textFrame (by omega)⟩
    rw [hsent]
    dsimp only
    split_ifs
    · intro heq
      cases heq
    · intro heq
      cases heq

/-- A socket that takes everything. -/
def openSocket : WebSocket := ⟨⟨[],0⟩,[],[]⟩

def plainNetwork : Network := .steady Cuts.whole fun _ => ⟨1,2,3,4⟩

theorem sendsFrame_command : SendsFrame plainNetwork "[1]" openSocket ↔
    (Text.encodeUtf8 "[1]").length ≤ 65535 :=
  sendsFrame_iff plainNetwork _ openSocket (by decide +kernel)

/-- A payload of so many letters. -/
def letters (n : ℕ) : String := String.ofList (List.replicate n 'a')

theorem length_letters (n : ℕ) : (Text.encodeUtf8 (letters n)).length = n := by
  have hsize : ( 'a').utf8Size = 1 := rfl
  rw [Text.length_encodeUtf8,letters,Text.utf8Length_ofList,Text.byteSize,List.map_replicate,hsize]
  simp

theorem long_payload_fails : ¬∀ net payload ws,
    (Text.encodeUtf8 payload).length ≤ maxFramePayload → SendsFrame net payload ws := by
  intro h
  have hlength := length_letters 65536
  have hlimit : (Text.encodeUtf8 (letters 65536)).length ≤ maxFramePayload := by
    rw [hlength,maxFramePayload]
    omega
  apply (h plainNetwork (letters 65536) openSocket hlimit).1
  rw [exec_send_long (Nat.le_of_eq hlength.symm) hlimit]

end Sent
end DevTools
end CloudBrowser
