import CloudBrowser.JsonDumps
import CloudBrowser.ReceivedFrames

/-! A command to the DevTools of a tab: the request that Chrome reads, and the message from which
the answer is taken. -/
namespace CloudBrowser
namespace Json

/-! ### Objects with blanks -/

/-- A member as `json.dumps` writes it, with a blank after the colon. -/
def spacedMember (f : String × List Char) : List Char := dumpString f.1 ++ ':' :: ' ' :: f.2

/-- The members of an object after the first. -/
def spacedRest (fields : List (String × List Char)) : List Char :=
  fields.flatMap fun f => ',' :: ' ' :: spacedMember f

def spacedObject : List (String × List Char) → List Char
  | [] => ['{','}']
  | f::fields => '{' :: spacedMember f ++ spacedRest fields ++ ['}']

section Spaced

variable {reader : List Char → Option (Json × List Char)} {f : TextField} {fields : List TextField}

theorem readMember_spaced {rest : List Char} (hrest : endsNumber rest)
    (hf : ReadBy reader f.2.1 f.2.2) :
    readMember reader (spacedMember f.text ++ rest) = some (f.value,rest) := by
  have hcolon : ∀ text, skipBlanks (':'::text) = ':'::text := fun _ => rfl
  have hblank : ∀ text, skipBlanks (' '::text) = skipBlanks text := fun _ => rfl
  obtain ⟨body,hbody,hread⟩ := quotes_dumpString f.1 (':' :: ' ' :: f.2.1 ++ rest)
  have htext : spacedMember f.text ++ rest = '"'::body := by
    rw [← hbody]
    simp [spacedMember,TextField.text]
  rw [htext,readMember]
  simp only [hread,TextField.value,Option.bind_eq_bind,Option.bind_some,List.cons_append,hcolon,
    hblank,hf.skip,hf.read rest hrest]

/-- Induction on the members still to be read. -/
theorem readMembers_spaced (rest : List Char) (fields : List TextField) :
    ∀ (f : TextField) (fuel : ℕ) (before : List (String × Json)), fields.length < fuel →
    (∀ g ∈ f::fields, ReadBy reader g.2.1 g.2.2) →
    (before.map Prod.fst ++ (f::fields).map Prod.fst).Nodup →
    readMembers reader fuel
      (spacedMember f.text ++ (spacedRest (fields.map TextField.text) ++ '}'::rest)) before =
        some (before ++ (f::fields).map TextField.value,rest) := by
  have hcomma : ∀ text, skipBlanks (','::text) = ','::text := fun _ => rfl
  have hbrace : ∀ text, skipBlanks ('}'::text) = '}'::text := fun _ => rfl
  have hmember : ∀ g text, skipBlanks (' '::(spacedMember g ++ text)) = spacedMember g ++ text :=
    fun _ _ => rfl
  induction fields with
  | nil =>
    intro f fuel before hfuel hreads hnodup
    obtain ⟨fuel,rfl⟩ := Nat.exists_eq_succ_of_ne_zero (Nat.pos_iff_ne_zero.mp hfuel)
    have hends : endsNumber ('}'::rest) := by
      rintro c ⟨⟩
      decide
    have hnew : f.value.1 ∉ before.map Prod.fst :=
      fun hmem => (List.nodup_append.mp hnodup).2.2 _ hmem _ List.mem_cons_self rfl
    have hnil : spacedRest (([] : List TextField).map TextField.text) = [] := rfl
    rw [hnil,List.nil_append,readMembers,readMember_spaced hends (hreads f List.mem_cons_self)]
    simp only [Option.bind_eq_bind,Option.bind_some,hbrace]
    rw [assign_new hnew]
    rfl
  | cons g fields ih =>
    intro f fuel before hfuel hreads hnodup
    obtain ⟨fuel,rfl⟩ := Nat.exists_eq_succ_of_ne_zero (Nat.ne_zero_of_lt hfuel)
    have hcons : spacedRest ((g::fields).map TextField.text) =
        ',' :: ' ' :: spacedMember g.text ++ spacedRest (fields.map TextField.text) := rfl
    have hends : endsNumber (',' :: ' ' :: (spacedMember g.text ++
        (spacedRest (fields.map TextField.text) ++ '}'::rest))) := by
      rintro c ⟨⟩
      decide
    have hnew : f.value.1 ∉ before.map Prod.fst :=
      fun hmem => (List.nodup_append.mp hnodup).2.2 _ hmem _ List.mem_cons_self rfl
    have hnext := ih g fuel (before ++ [f.value]) (Nat.lt_of_succ_lt_succ hfuel)
      (fun h hh => hreads h (List.mem_cons_of_mem f hh))
      (by simpa [TextField.value] using hnodup)
    rw [hcons,List.append_assoc,List.cons_append,List.cons_append,readMembers,
      readMember_spaced hends (hreads f List.mem_cons_self)]
    simp only [Option.bind_eq_bind,Option.bind_some,hcomma,hmember]
    rw [assign_new hnew]
    simpa using hnext

theorem length_le_spacedRest (fields : List (String × List Char)) :
    fields.length ≤ (spacedRest fields).length := by
  induction fields with
  | nil => simp
  | cons f fields ih =>
    have hcons : spacedRest (f::fields) = ',' :: ' ' :: spacedMember f ++ spacedRest fields := rfl
    rw [hcons]
    simp only [List.cons_append,List.length_cons,List.length_append]
    omega

theorem readBy_spaced {m : ℕ} (hreads : ∀ g ∈ f::fields, ReadBy (readValue m) g.2.1 g.2.2)
    (hnodup : ((f::fields).map Prod.fst).Nodup) :
    ReadBy (readValue (m+1)) (spacedObject ((f::fields).map TextField.text))
      (.obj ((f::fields).map TextField.value)) where
  read rest _ := by
    have hlen := length_le_spacedRest (fields.map TextField.text)
    have htext : spacedObject ((f::fields).map TextField.text) ++ rest =
        '{'::(spacedMember f.text ++ (spacedRest (fields.map TextField.text) ++ '}'::rest)) := by
      simp [spacedObject]
    generalize hbody :
      spacedMember f.text ++ (spacedRest (fields.map TextField.text) ++ '}'::rest) = body at htext
    obtain ⟨cs,hquote⟩ : ∃ cs, body = '"'::cs := ⟨_,hbody.symm⟩
    have hmembers : readMembers (readValue m) body.length body [] =
        some ((f::fields).map TextField.value,rest) := by
      have hfuel : fields.length < body.length := by
        rw [← hbody]
        simp only [List.length_append,List.length_cons,List.length_map] at hlen ⊢
        omega
      rw [← hbody] at hfuel ⊢
      exact readMembers_spaced rest fields f _ [] hfuel hreads hnodup
    have hskip : skipBlanks body = body := by
      rw [hquote]
      rfl
    rw [htext,readValue,hskip]
    split
    · cases hquote
    · rw [hmembers]
      rfl
  skip _ := rfl

theorem loads_of_readBy {text : List Char} {v : Json} {m : ℕ} (hm : m = text.length+1)
    (h : ReadBy (readValue m) text v) : loads (String.ofList text) = some v := by
  have hskip : skipBlanks text = text := by simpa using h.skip []
  have hvalue : readValue (text.length+1) text = some (v,[]) := by
    rw [← hm]
    simpa using h.read [] (by simp [endsNumber])
  rw [loads,String.toList_ofList,hskip,hvalue]
  rfl

end Spaced
end Json

namespace DevTools

open Stateful
open ShortReads (Cuts Stream)
open WebSockets (Form Frame Mask)

/-! ### Requests -/

/-- The commands of the adapter. -/
inductive Command
  | navigate (url : String)
  | evaluate (expression : String)

namespace Command

def method : Command → String
  | .navigate _ => "Page.navigate"
  | .evaluate _ => "Runtime.evaluate"

/-- The parameters with their texts. -/
def params : Command → List Json.TextField
  | .navigate url => [("url",Json.dumpString url,.str url)]
  | .evaluate expression =>
    [("expression",Json.dumpString expression,.str expression),
      ("returnByValue",['t','r','u','e'],.bool true)]

/-- `{"id": 1, "method": method, "params": params}`, with the texts of its values. -/
def request (c : Command) : List Json.TextField :=
  [("id",Json.writeInt 1,.int 1),("method",Json.dumpString c.method,.str c.method),
    ("params",Json.spacedObject (c.params.map Json.TextField.text),
      .obj (c.params.map Json.TextField.value))]

/-- What `json.dumps` writes of the request. -/
def text (c : Command) : String :=
  String.ofList (Json.spacedObject (c.request.map Json.TextField.text))

theorem readBy_params (c : Command) (n : ℕ) : Json.ReadBy (Json.readValue (n+2))
    (Json.spacedObject (c.params.map Json.TextField.text))
    (.obj (c.params.map Json.TextField.value)) := by
  cases c with
  | navigate url =>
    refine Json.readBy_spaced (fun g hg => ?_) (List.nodup_singleton _)
    rw [List.mem_singleton.mp hg]
    exact (Json.reads_dumpString url).readBy n
  | evaluate expression =>
    refine Json.readBy_spaced (fun g hg => ?_)
      (show ["expression","returnByValue"].Nodup by decide)
    rcases List.mem_cons.mp hg with rfl | hg
    · exact (Json.reads_dumpString expression).readBy n
    · rw [List.mem_singleton.mp hg]
      exact ⟨fun _ _ => rfl,fun _ => rfl⟩

/-- Chrome reads the method and the parameters as they are, whatever characters they have. -/
theorem loads_text (c : Command) :
    Json.loads c.text = some (.obj (c.request.map Json.TextField.value)) := by
  have hread : ∀ n, Json.ReadBy (Json.readValue (n+3))
      (Json.spacedObject (c.request.map Json.TextField.text))
      (.obj (c.request.map Json.TextField.value)) := by
    intro n
    refine Json.readBy_spaced (fun g hg => ?_) (show ["id","method","params"].Nodup by decide)
    simp only [List.mem_cons,List.not_mem_nil,or_false] at hg
    rcases hg with rfl | rfl | rfl
    · exact (Json.reads_atom (a:=.int 1) rfl).readBy (n+1)
    · exact (Json.reads_dumpString c.method).readBy (n+1)
    · exact c.readBy_params n
  have hlength : 2 ≤ (Json.spacedObject (c.request.map Json.TextField.text)).length :=
    Nat.le_add_left 2 _
  obtain ⟨n,hn⟩ := Nat.exists_eq_add_of_le' hlength
  exact Json.loads_of_readBy (by rw [hn]) (hread n)

end Command

/-! ### Answers -/

inductive CommandError
  | socket (raised : Raised)
  | attributeError
  | deadlineExceeded
  deriving DecidableEq, Repr

/-- `message.get("id") == 1`. -/
def isFirst : Json → Bool
  | .int i => i = 1
  | .real q => q = 1
  | .bool b => b
  | _ => false

def parse (payload : Bytes) : Option Json := (Text.decodeUtf8 payload).bind Json.loads

/-- What a message brings: the result of the command, or nothing. -/
def readMessage (method : String) (payload : Bytes) : Except CommandError (Option Json) :=
  match parse payload with
  | none => .error (.socket (.browserUnavailable "DevTools returned invalid JSON"))
  | some (.obj message) =>
    if isFirst (Json.get message "id") then
      if (message.lookup "error").isSome then
        .error (.socket (.browserUnavailable ("DevTools rejected " ++ method)))
      else .ok (some (Json.get message "result"))
    else .ok none
  | some _ => .error .attributeError

section Commands

-- whether the deadline has passed when it is checked for the `n`-th time; never without one
variable (net : Network) (late : ℕ → Bool) (method : String)

/-- The turns of `_command`. -/
def converse (late : ℕ → Bool) : ℕ → Op CommandError WebSocket Json
  | 0 => throw (.socket (.browserUnavailable "DevTools did not answer the command"))
  | turns+1 =>
    if late 0 then throw .deadlineExceeded
    else do
      let payload ← rethrow .socket (recv net)
      match ← check (readMessage method payload) with
      | some result => return result
      | none => converse (fun n => late (n+1)) turns

/-- `_command`, on a socket that is open. -/
def command (c : Command) : Op CommandError WebSocket Json :=
  if late 0 then throw .deadlineExceeded
  else do
    rethrow .socket (send net c.text)
    converse net c.method (fun n => late (n+1)) 64

/-- The answer to a command, by the messages that come until the end. -/
def replyOf (method : String) (late : ℕ → Bool) : ℕ → List Bytes → Except CommandError Json
  | 0, _ => .error (.socket (.browserUnavailable "DevTools did not answer the command"))
  | _+1, [] => if late 0 then .error .deadlineExceeded else .error (.socket streamEnded)
  | turns+1, payload::messages =>
    if late 0 then .error .deadlineExceeded
    else
      match readMessage method payload with
      | .error e => .error e
      | .ok (some result) => .ok result
      | .ok none => replyOf method (fun n => late (n+1)) turns messages

end Commands

section Answers

variable {method : String} {late : ℕ → Bool} {payload : Bytes} {messages : List Bytes} {v : Json}

theorem replyOf_late (hlate : late 0 = true) (turns : ℕ) (messages : List Bytes) :
    replyOf method late (turns+1) messages = .error .deadlineExceeded := by
  cases messages with
  | nil => rw [replyOf,if_pos hlate]
  | cons payload messages => rw [replyOf,if_pos hlate]

/-- A message to which the command does not answer, as an event. -/
def Event (payload : Bytes) : Prop :=
  ∃ fields, parse payload = some (.obj fields) ∧ isFirst (Json.get fields "id") = false

/-- The message that answers the command with a value. -/
def Brings (payload : Bytes) (v : Json) : Prop :=
  ∃ fields, parse payload = some (.obj fields) ∧ isFirst (Json.get fields "id") = true ∧
    fields.lookup "error" = none ∧ v = Json.get fields "result"

theorem readMessage_none : readMessage method payload = .ok none ↔ Event payload := by
  unfold readMessage Event
  cases hparse : parse payload with
  | none => simp
  | some message =>
    cases message with
    | obj fields =>
      by_cases hid : isFirst (Json.get fields "id") = true
      · by_cases herror : (fields.lookup "error").isSome = true <;> simp [hid,herror]
      · simp [hid]
    | _ => simp

theorem readMessage_some : readMessage method payload = .ok (some v) ↔ Brings payload v := by
  unfold readMessage Brings
  cases hparse : parse payload with
  | none => simp
  | some message =>
    cases message with
    | obj fields =>
      simp only [Option.some.injEq,Json.obj.injEq,exists_eq_left']
      by_cases hid : isFirst (Json.get fields "id") = true
      · cases herror : fields.lookup "error" with
        | none =>
          simp only [hid,if_true,Option.isSome_none,Bool.false_eq_true,if_false,true_and,
            Except.ok.injEq,Option.some.injEq]
          exact eq_comm
        | some e => simp only [hid,if_true,Option.isSome_some,reduceCtorEq,false_and,and_false]
      · simp [hid]
    | _ => simp

/-- A value is the answer where a message brings it, among the first so many, before which there
are only events, and the deadline has not passed until then. -/
def Answered (late : ℕ → Bool) (turns : ℕ) (messages : List Bytes) (v : Json) : Prop :=
  ∃ before payload after, messages = before ++ payload :: after ∧ before.length < turns ∧
    (∀ m ∈ before, Event m) ∧ Brings payload v ∧ ∀ n ≤ before.length, late n = false

theorem replyOf_ok {turns : ℕ} : replyOf method late turns messages = .ok v ↔
    Answered late turns messages v := by
  induction turns generalizing late messages with
  | zero =>
    constructor
    · intro h
      cases h
    · rintro ⟨before,_,_,-,hlt,-⟩
      exact absurd hlt (Nat.not_lt_zero _)
  | succ turns ih =>
    constructor
    · intro h
      by_cases hlate : late 0 = true
      · rw [replyOf_late hlate] at h
        cases h
      cases messages with
      | nil =>
        rw [replyOf,if_neg hlate] at h
        cases h
      | cons payload messages =>
        rw [replyOf,if_neg hlate] at h
        cases hread : readMessage method payload with
        | error e =>
          rw [hread] at h
          cases h
        | ok answer =>
          rw [hread] at h
          cases answer with
          | some result =>
            cases h
            refine ⟨[],payload,messages,rfl,Nat.succ_pos _,by simp,readMessage_some.mp hread,?_⟩
            intro n hn
            rw [Nat.le_zero.mp hn]
            simpa using hlate
          | none =>
            obtain ⟨before,brought,after,rfl,hlt,hevents,hbrings,hprompt⟩ := ih.mp h
            refine ⟨payload::before,brought,after,rfl,Nat.succ_lt_succ hlt,?_,hbrings,?_⟩
            · intro m hm
              rcases List.mem_cons.mp hm with rfl | hm
              · exact readMessage_none.mp hread
              · exact hevents m hm
            · intro n hn
              cases n with
              | zero => simpa using hlate
              | succ n => exact hprompt n (Nat.le_of_succ_le_succ hn)
    · rintro ⟨before,brought,after,rfl,hlt,hevents,hbrings,hprompt⟩
      have hlate : ¬late 0 = true := by simp [hprompt 0 (Nat.zero_le _)]
      cases before with
      | nil =>
        rw [List.nil_append,replyOf,if_neg hlate,(@readMessage_some method _ _).mpr hbrings]
      | cons m before =>
        rw [List.cons_append,replyOf,if_neg hlate,
          (@readMessage_none method _).mpr (hevents m List.mem_cons_self)]
        apply ih.mpr
        exact ⟨before,brought,after,rfl,Nat.lt_of_succ_lt_succ hlt,
          fun m' hm' => hevents m' (List.mem_cons_of_mem m hm'),hbrings,
          fun n hn => hprompt (n+1) (Nat.succ_le_succ hn)⟩

end Answers

/-! ### A command over the network -/

section Steady

variable {cuts : Cuts} {urandom : ℕ → Mask} {frames : List ServerFrame} {method : String}

/-- Frames are pings, up to the first text. -/
theorem split_text (frames : List ServerFrame) : (∀ f ∈ frames, f.kind = .ping) ∨
    ∃ before f after, frames = before ++ f :: after ∧ (∀ g ∈ before, g.kind = .ping) ∧
      f.kind = .text := by
  induction frames with
  | nil => exact Or.inl (by simp)
  | cons f frames ih =>
    cases hkind : f.kind with
    | text => exact Or.inr ⟨[],f,frames,rfl,by simp,hkind⟩
    | ping =>
      rcases ih with hpings | ⟨before,g,after,rfl,hpings,htext⟩
      · exact Or.inl (List.forall_mem_cons.mpr ⟨hkind,hpings⟩)
      · exact Or.inr ⟨f::before,g,after,rfl,List.forall_mem_cons.mpr ⟨hkind,hpings⟩,htext⟩

theorem texts_of_pings (hpings : ∀ f ∈ frames, f.kind = .ping) (after : List ServerFrame) :
    texts (frames ++ after) = texts after := by
  induction frames with
  | nil => rfl
  | cons f frames ih =>
    obtain ⟨hping,hpings⟩ := List.forall_mem_cons.mp hpings
    rw [List.cons_append,texts_cons_ping hping,ih hpings]

/-- What the turns end with: the answer by the texts, when the pings before have their pongs. -/
def Conversed (method : String) (late : ℕ → Bool) (urandom : ℕ → Mask) (turns : ℕ)
    (frames : List ServerFrame) (sent : List Bytes) (r : Except CommandError Json)
    (ws : WebSocket) : Prop :=
  r = replyOf method late turns (texts frames) ∧ ∃ front back, frames = front ++ back ∧
    At (wires back) (sent ++ pongs urandom sent.length (pings front)) ws

theorem Conversed.nothing {late : ℕ → Bool} {turns : ℕ} {sent : List Bytes}
    {r : Except CommandError Json} {ws : WebSocket} (hat : At (wires frames) sent ws)
    (hr : r = replyOf method late turns (texts frames)) :
    Conversed method late urandom turns frames sent r ws := by
  refine ⟨hr,[],frames,rfl,hat.1,?_⟩
  rw [hat.2]
  exact (List.append_nil sent).symm

/-- A turn before the others. -/
theorem Conversed.after {late : ℕ → Bool} {turns : ℕ} {sent : List Bytes}
    {r : Except CommandError Json} {ws : WebSocket} {front : List ServerFrame}
    (h : Conversed method (fun n => late (n+1)) urandom turns frames
      (sent ++ pongs urandom sent.length (pings front)) r ws)
    (hreply : replyOf method late (turns+1) (texts (front ++ frames)) =
      replyOf method (fun n => late (n+1)) turns (texts frames)) :
    Conversed method late urandom (turns+1) (front ++ frames) sent r ws := by
  obtain ⟨hr,front',back,rfl,hpending,hsent⟩ := h
  refine ⟨hr.trans hreply.symm,front ++ front',back,(List.append_assoc _ _ _).symm,hpending,?_⟩
  rw [hsent,pings_append,pongs_append,List.append_assoc,List.length_append,length_pongs]

theorem triple_converse (turns : ℕ) (late : ℕ → Bool) (frames : List ServerFrame)
    (sent : List Bytes) : Triple (At (wires frames) sent)
      (converse (.steady cuts urandom) method late turns)
      (Conversed method late urandom turns frames sent) := by
  induction turns generalizing late frames sent with
  | zero => exact fun ws hat => .nothing hat rfl
  | succ turns ih =>
    intro ws hat
    by_cases hlate : late 0 = true
    · rw [converse,if_pos hlate]
      exact Conversed.nothing hat (replyOf_late hlate turns _).symm
    rw [converse,if_neg hlate]
    rcases split_text frames with hpings | ⟨before,f,after,rfl,hpings,htext⟩
    · have hrecv := @triple_recv_ended cuts urandom sent frames hpings ws hat
      rcases hr : exec (recv (.steady cuts urandom)) ws with ⟨r,ws'⟩
      rw [hr] at hrecv
      obtain ⟨rfl,hat'⟩ := hrecv
      have hnone : texts frames = [] := by
        rw [← List.append_nil frames,texts_of_pings hpings]
        rfl
      have hraised : exec (rethrow CommandError.socket (recv (.steady cuts urandom))) ws =
          (.error (.socket streamEnded),ws') := by
        rw [exec_rethrow,hr]
      rw [exec_bind_error hraised]
      refine ⟨?_,frames,[],(List.append_nil _).symm,hat'⟩
      rw [hnone,replyOf,if_neg hlate]
    · have htexts : texts (before ++ f :: after) = f.payload :: texts after := by
        rw [texts_of_pings hpings,texts_cons_text htext]
      have hsplit : wires (before ++ f :: after) = wires before ++ (f.wire ++ wires after) := by
        rw [wires_append,wires_cons]
      have hpinged : pings (before ++ [f]) = pings before := by
        rw [pings_append,pings_of_text htext,List.append_nil]
      rw [hsplit] at hat
      have hrecv := @triple_recv_text cuts urandom (wires after) sent f before hpings htext ws hat
      rcases hr : exec (recv (.steady cuts urandom)) ws with ⟨r,ws'⟩
      rw [hr] at hrecv
      obtain ⟨rfl,hat'⟩ := hrecv
      rw [← hpinged] at hat'
      have hread : exec (rethrow CommandError.socket (recv (.steady cuts urandom))) ws =
          (.ok f.payload,ws') := by
        rw [exec_rethrow,hr]
      rw [exec_bind_ok hread,List.append_cons]
      have htexts' : texts ((before ++ [f]) ++ after) = f.payload :: texts after := by
        rw [← htexts]
        simp
      cases hmessage : readMessage method f.payload with
      | error e =>
        rw [exec_bind_error (exec_check _ ws')]
        refine ⟨?_,before ++ [f],after,rfl,hat'⟩
        rw [htexts',replyOf,if_neg hlate]
        simp only [hmessage]
      | ok answer =>
        rw [exec_bind_ok (exec_check _ ws')]
        cases answer with
        | some result =>
          refine ⟨?_,before ++ [f],after,rfl,hat'⟩
          rw [htexts',replyOf,if_neg hlate]
          simp only [hmessage]
          rfl
        | none =>
          apply Conversed.after (ih (fun n => late (n+1)) after _ ws' hat')
          rw [htexts',replyOf,if_neg hlate]
          simp only [hmessage]

/-- What a command does: it sends its request, answers the pings, and returns what the first
message with its number brings. -/
structure Commanded (c : Command) (late : ℕ → Bool) (frames : List ServerFrame) (ws : WebSocket)
    (r : Except CommandError Json) (ws' : WebSocket) : Prop where
  answered : ∀ v, r = .ok v ↔ Answered (fun n => late (n+1)) 64 (texts frames) v
  requested : ∃ mask request answers front back, ws'.sent = ws.sent ++ request :: answers ∧
    WebSockets.decode request = some (textFrame mask c.text,[]) ∧
    frames = front ++ back ∧ List.Forall₂ Answers (pings front) answers ∧ ws'.pending = wires back
  read : Json.loads c.text = some (.obj (c.request.map Json.TextField.value))

/-- An event, a ping and the answer. -/
def answeringFrames : List ServerFrame :=
  [⟨.text,.short,[123,32,125],by decide,by decide⟩,⟨.ping,.short,[104],by decide,by decide⟩,
    ⟨.text,.short,[123,34,105,100,34,58,49,125],by decide,by decide⟩]

def answeringSocket : WebSocket := ⟨⟨wires answeringFrames,0⟩,[],[]⟩

end Steady
end DevTools
end CloudBrowser
