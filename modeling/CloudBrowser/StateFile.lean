import CloudBrowser.RouterTransitions

/-! The state file of the router: what a new store reads from it when the router starts, and
runs in which the router is restarted. -/
namespace CloudBrowser
namespace RouterSessions

open Stateful Keyed

section Numbers

def digitValue (c : Char) : ℕ := c.toNat - 48

/-- The digits of a number, with single underscores between them. -/
def decimal (n : ℕ) : List Char → Option ℕ
  | [] => some n
  | c::cs =>
    if c = '_' then
      match cs with
      | d::ds => if d.isDigit then decimal (10*n+digitValue d) ds else none
      | [] => none
    else if c.isDigit then decimal (10*n+digitValue c) cs else none

/-- `int(text)`, for text in ASCII. -/
def parseInt (text : List Char) : Option ℤ :=
  let trimmed := ((text.dropWhile Char.isWhitespace).reverse.dropWhile Char.isWhitespace).reverse
  let magnitude : List Char → Option ℕ
    | c::cs => if c.isDigit then decimal (digitValue c) cs else none
    | [] => none
  match trimmed with
  | '-' :: cs => (magnitude cs).map fun n => -n
  | '+' :: cs => (magnitude cs).map fun n => n
  | cs => (magnitude cs).map fun n => n

theorem decimal_digits {cs : List Char} (h : ∀ c ∈ cs, c.isDigit = true) (n : ℕ) :
    decimal n cs = some (Nat.ofDigitChars 10 cs n) := by
  induction cs generalizing n with
  | nil => simp [decimal]
  | cons c cs ih =>
    have hc := h c (by simp)
    have hne : c ≠ '_' := by
      rintro rfl
      simp at hc
    rw [decimal.eq_def]
    simp only [hne,hc,if_false,if_true]
    rw [ih (fun d hd => h d (by simp [hd])),Nat.ofDigitChars_cons]
    rfl

theorem dropWhile_digits {cs : List Char} (h : ∀ c ∈ cs, c.isDigit = true) :
    cs.dropWhile Char.isWhitespace = cs := by
  cases cs with
  | nil => rfl
  | cons c cs =>
    have hc := h c (by simp)
    have hspace : c.isWhitespace = false := by
      by_contra hspace
      simp only [Char.isWhitespace,Bool.not_eq_false,Bool.or_eq_true,decide_eq_true_eq] at hspace
      rcases hspace with ((rfl | rfl) | rfl) | rfl <;> simp at hc
    simp [hspace]

theorem parseInt_digits (n : ℕ) : parseInt (Nat.toDigits 10 n) = some (n : ℤ) := by
  have hdigits : ∀ c ∈ Nat.toDigits 10 n, c.isDigit = true :=
    fun c hc => Nat.isDigit_of_mem_toDigits (by decide) (by decide) hc
  have hvalue := Nat.ofDigitChars_ten_toDigits (n:=n)
  rw [parseInt,dropWhile_digits hdigits,dropWhile_digits (by simpa using hdigits),
    List.reverse_reverse]
  cases hcs : Nat.toDigits 10 n with
  | nil => exact absurd hcs Nat.toDigits_ne_nil
  | cons c cs =>
    rw [hcs] at hdigits hvalue
    have hc := hdigits c (by simp)
    rw [Nat.ofDigitChars_cons] at hvalue
    have hcs : ∀ d ∈ cs, d.isDigit = true := fun d hd => hdigits d (by simp [hd])
    have hrest := decimal_digits hcs (digitValue c)
    have hread : decimal (digitValue c) cs = some n := by
      rw [hrest,← hvalue]
      simp [digitValue]
    split
    · rename_i heq
      cases heq
      simp at hc
    · rename_i heq
      cases heq
      simp at hc
    · simp [hc,hread]

end Numbers

namespace SessionStatus

def ofValue (s : String) : Option SessionStatus :=
  [waiting,offered,active,backedOff,stopped,left].find? fun status => status.value = s

theorem ofValue_value (status : SessionStatus) : ofValue status.value = some status := by
  cases status <;> decide

end SessionStatus

section Decoding

def requireField (item : List (String × Json)) (name : String) : Except RouterError Json :=
  match item.lookup name with
  | some value => .ok value
  | none => .error (.keyError name)

def requireText (name : String) (value : Json) : Except RouterError String :=
  match value.asString with
  | some s => do
    validateText name s
    return s
  | none => .error (.valueError (name ++ " is invalid"))

def optionalText (name : String) : Json → Except RouterError (Option String)
  | .null => .ok none
  | value => do
    let s ← requireText name value
    return some s

/-- `float(value)`. -/
def asFloat : Json → Except RouterError Time
  | .real q => .ok q
  | .int i => .ok i
  | .bool b => .ok (if b then 1 else 0)
  | _ => .error (.valueError "could not convert to float")

def optionalFloat : Json → Except RouterError (Option Time)
  | .null => .ok none
  | value => do
    let t ← asFloat value
    return some t

def decodeStatus (value : Json) : Except RouterError SessionStatus :=
  match value.asString.bind SessionStatus.ofValue with
  | some status => .ok status
  | none => .error (.valueError "")

/-- A field of a stored binding, which is text whenever the store wrote it. -/
def bindingField (fields : List (String × Json)) (name : String) : Except RouterError String := do
  let value ← requireField fields name
  match value.asString with
  | some s => return s
  | none => throw (.valueError "")

def decodeBinding (principalId : String) : Json → Except RouterError (Option BrowserBinding)
  | .null => .ok none
  | .obj fields => do
    let binding : BrowserBinding :=
      { profileId := ← bindingField fields "profile_id"
        principalId := ← bindingField fields "principal_id"
        browserId := ← bindingField fields "browser_id"
        generation := ← bindingField fields "generation" }
    if binding.principalId ≠ principalId then throw (.valueError "")
    else return some binding
  | _ => .error (.valueError "")

/-- `_decode`. -/
def RouterSession.decode : Json → Except RouterError RouterSession
  | .obj item => do
    let sessionId ← requireField item "session_id"
    let requestId ← requireField item "request_id"
    let principalId ← requireField item "principal_id"
    let status ← requireField item "status"
    let status ← decodeStatus status
    let sessionId ← requireText "session_id" sessionId
    let requestId ← requireText "request_id" requestId
    let principalId ← requireText "principal_id" principalId
    let binding ← decodeBinding principalId (Json.get item "binding")
    let slotId ← optionalText "slot_id" (Json.get item "slot_id")
    let displayEmail ← optionalText "display_email" (Json.get item "display_email")
    let enqueuedAt ← requireField item "enqueued_at"
    return { sessionId := sessionId, requestId := requestId, principalId := principalId,
             status := status, enqueuedAt := ← asFloat enqueuedAt, slotId := slotId,
             binding := binding,
             offerExpiresAt := ← optionalFloat (Json.get item "offer_expires_at"),
             sessionExpiresAt := ← optionalFloat (Json.get item "session_expires_at"),
             backoffUntil := ← optionalFloat (Json.get item "backoff_until"),
             displayEmail := displayEmail }
  | _ => .error (.valueError "")

/-- The records of a state file, in the file's order, and its next sequence number. -/
def decodeDocument : Json → Except RouterError (List RouterSession × ℕ)
  | .obj document => do
    let items ← requireField document "sessions"
    let next ← requireField document "next_sequence"
    match items, next with
    | .arr items, .int next =>
      if next < 1 then throw (.valueError "")
      else do
        let records ← items.mapM RouterSession.decode
        return (records,next.toNat)
    | _, _ => throw (.valueError "")
  | _ => .error (.valueError "")

end Decoding

section RoundTrip

theorem requireText_str (name s : String) :
    requireText name (.str s) =
      if readable s then .ok s else .error (.valueError (name ++ " is invalid")) := by
  by_cases h : readable s = true
  · simp [requireText,Json.asString,validateText,readable] at h ⊢
    simp [h]
  · simp [requireText,Json.asString,validateText,readable] at h ⊢
    simp [h]

theorem requireText_ok {name s x : String} (h : requireText name (.str s) = .ok x) :
    readable s = true := by
  rw [requireText_str] at h
  by_contra hs
  simp [hs] at h

theorem optionalText_encoded {name : String} {s : Option String} (h : ∀ x ∈ s, readable x) :
    optionalText name (s.elim .null .str) = .ok s := by
  cases s with
  | none => rfl
  | some x =>
    have hx := h x rfl
    simp only [optionalText,Option.elim,requireText_str,hx,if_true]
    rfl

theorem optionalText_ok {name : String} {s x : Option String}
    (h : optionalText name (s.elim .null .str) = .ok x) : ∀ x ∈ s, readable x := by
  rintro x rfl
  obtain ⟨y,hy,-⟩ := bind_ok h
  exact requireText_ok hy

theorem optionalFloat_encoded (t : Option Time) : optionalFloat (t.elim .null .real) = .ok t := by
  cases t <;> rfl

/-- What `_decode` asks of a record. -/
structure RouterSession.Storable (r : RouterSession) : Prop where
  sessionId : readable r.sessionId
  requestId : readable r.requestId
  principalId : readable r.principalId
  slotId : ∀ s ∈ r.slotId, readable s
  displayEmail : ∀ s ∈ r.displayEmail, readable s
  owner : ∀ b ∈ r.binding, b.principalId = r.principalId

def encodeBinding (b : BrowserBinding) : Json :=
  .obj [("browser_id",.str b.browserId), ("generation",.str b.generation),
    ("principal_id",.str b.principalId),("profile_id",.str b.profileId)]

theorem decodeBinding_encoded (principalId : String) (b : Option BrowserBinding) :
    decodeBinding principalId (b.elim .null encodeBinding) =
      if ∀ x ∈ b, x.principalId = principalId then .ok b else .error (.valueError "") := by
  cases b with
  | none => simp [decodeBinding]
  | some b =>
    obtain ⟨profile,principal,browser,generation⟩ := b
    by_cases hb : principal = principalId
    · simp [encodeBinding,decodeBinding,bindingField,requireField,List.lookup_cons,Json.asString,
        bind,Except.bind,pure,Except.pure,hb]
    · simp [encodeBinding,decodeBinding,bindingField,requireField,List.lookup_cons,Json.asString,
        bind,Except.bind,pure,Except.pure,hb]
      rfl

/-- What each key of an encoded record holds. -/
theorem encode_fields (r : RouterSession) : ∃ item, r.encode = .obj item ∧
    item.lookup "session_id" = some (.str r.sessionId) ∧
    item.lookup "request_id" = some (.str r.requestId) ∧
    item.lookup "principal_id" = some (.str r.principalId) ∧
    item.lookup "status" = some (.str r.status.value) ∧
    item.lookup "enqueued_at" = some (.real r.enqueuedAt) ∧
    Json.get item "binding" = r.binding.elim .null encodeBinding ∧
    Json.get item "slot_id" = r.slotId.elim .null .str ∧
    Json.get item "display_email" = r.displayEmail.elim .null .str ∧
    Json.get item "offer_expires_at" = r.offerExpiresAt.elim .null .real ∧
    Json.get item "session_expires_at" = r.sessionExpiresAt.elim .null .real ∧
    Json.get item "backoff_until" = r.backoffUntil.elim .null .real := by
  refine ⟨_,rfl,?_⟩
  cases r.displayEmail <;> exact ⟨rfl,rfl,rfl,rfl,rfl,rfl,rfl,rfl,rfl,rfl,rfl⟩

/-- A record that passes the checks of `_decode` is read back as it was. -/
theorem decode_encode {r : RouterSession} (h : r.Storable) :
    RouterSession.decode r.encode = .ok r := by
  obtain ⟨item,hitem,hsession,hrequest,hprincipal,hstatus,henqueued,hbinding,hslot,hemail,hoffer,
    htimer,hbackoff⟩ := encode_fields r
  have howner := decodeBinding_encoded r.principalId r.binding
  rw [if_pos h.owner] at howner
  have hvalue : decodeStatus (.str r.status.value) = .ok r.status := by
    simp [decodeStatus,Json.asString,SessionStatus.ofValue_value]
  simp only [hitem,RouterSession.decode,requireField,hsession,hrequest,hprincipal,hstatus,henqueued,
    hbinding,hslot,hemail,hoffer,htimer,hbackoff,requireText_str,h.sessionId,h.requestId,
    h.principalId,if_true,howner,hvalue,optionalText_encoded h.slotId,
    optionalText_encoded h.displayEmail,optionalFloat_encoded,asFloat,bind,Except.bind,pure,
    Except.pure]

theorem storable_of_decode {r r' : RouterSession} (h : RouterSession.decode r.encode = .ok r') :
    r.Storable := by
  obtain ⟨item,hitem,hsession,hrequest,hprincipal,hstatus,henqueued,hbinding,hslot,hemail,hoffer,
    htimer,hbackoff⟩ := encode_fields r
  have hvalue : decodeStatus (.str r.status.value) = .ok r.status := by
    simp [decodeStatus,Json.asString,SessionStatus.ofValue_value]
  simp only [hitem,RouterSession.decode,requireField,hsession,hrequest,hprincipal,hstatus,henqueued,
    hbinding,hslot,hemail,hvalue,bind,Except.bind] at h
  obtain ⟨_,h1,h⟩ := bind_ok h
  obtain ⟨_,h2,h⟩ := bind_ok h
  obtain ⟨_,h3,h⟩ := bind_ok h
  obtain ⟨_,h4,h⟩ := bind_ok h
  obtain ⟨_,h5,h⟩ := bind_ok h
  obtain ⟨_,h6,h⟩ := bind_ok h
  have hread := requireText_ok h3
  rw [requireText_str,if_pos hread] at h3
  cases h3
  rw [decodeBinding_encoded] at h4
  have howner : ∀ b ∈ r.binding, b.principalId = r.principalId := by
    by_contra hb
    rw [if_neg hb] at h4
    cases h4
  exact ⟨requireText_ok h1,requireText_ok h2,hread,optionalText_ok h5,optionalText_ok h6,howner⟩

theorem mapM_decode {rows : List RouterSession} (h : ∀ r ∈ rows, r.Storable) :
    (rows.map RouterSession.encode).mapM RouterSession.decode = .ok rows := by
  have hrows := Stateful.mapM_eq_ok fun r hr => decode_encode (h r hr)
  rw [List.mapM_map]
  exact hrows.trans (congrArg Except.ok (List.map_id rows))

theorem decodeDocument_eq (s : Store) :
    decodeDocument (document s) =
      if (s.nextSequence : ℤ) < 1 then .error (.valueError "")
      else (s.sessions.rows.map RouterSession.encode).mapM RouterSession.decode >>= fun records =>
        .ok (records,s.nextSequence) := rfl

/-- The state file holds the sessions and the next sequence number of the store that wrote
it, as long as every record passes the checks. -/
theorem decodeDocument_document {s : Store} (h : ∀ r ∈ s.sessions, r.Storable)
    (hnext : 1 ≤ s.nextSequence) :
    decodeDocument (document s) = .ok (s.sessions.rows,s.nextSequence) := by
  have hpos : ¬(s.nextSequence : ℤ) < 1 := by omega
  rw [decodeDocument_eq,if_neg hpos,mapM_decode h]
  rfl

/-- What is read from a state file is what was written to it. -/
theorem decodeDocument_ok {s : Store} {x : List RouterSession × ℕ}
    (h : decodeDocument (document s) = .ok x) :
    (∀ r ∈ s.sessions, r.Storable) ∧ 1 ≤ s.nextSequence ∧
      x = (s.sessions.rows,s.nextSequence) := by
  by_cases hpos : (s.nextSequence : ℤ) < 1
  · rw [decodeDocument_eq,if_pos hpos] at h
    cases h
  have hnext : 1 ≤ s.nextSequence := by omega
  have hstorable : ∀ r ∈ s.sessions, r.Storable := by
    have hread := h
    rw [decodeDocument_eq,if_neg hpos] at hread
    obtain ⟨rows,hrows,-⟩ := bind_ok hread
    intro r hr
    obtain ⟨r',hr'⟩ := mapM_ok hrows r.encode (List.mem_map_of_mem hr)
    exact storable_of_decode hr'
  rw [decodeDocument_document hstorable hnext] at h
  exact ⟨hstorable,hnext,(Except.ok.inj h).symm⟩

end RoundTrip

section Loading

def RouterSession.survivorRank (r : RouterSession) : ℕ ×ₗ Time :=
  toLex (r.status.order,-r.enqueuedAt)

/-- One record's turn in the loop of `_load`. The table is keyed by session id; the record
that this one competes with is looked up there under its principal id. -/
def loadRecord (t : SessionTable) (record : RouterSession) : SessionTable :=
  match t.find record.principalId with
  | none => t.put record
  | some current => if record.survivorRank < current.survivorRank then t.put record else t

def loadRecords (records : List RouterSession) : SessionTable := records.foldl loadRecord .empty

def sequenceAfter (next : ℕ) (sessionId : String) : ℕ :=
  match sessionId.toList with
  | 'q' :: '-' :: number =>
    match parseInt number with
    | some i => max next (i+1).toNat
    | none => next
  | _ => next

/-- `_load`. -/
def load (settings : Settings) : Operation Unit := do
  let w ← get
  match w.store.file with
  | none => return ()
  | some file =>
    match decodeDocument file with
    | .error _ => throw (.valueError "router state is invalid")
    | .ok (records,next) =>
      let t := loadRecords records
      let next := (t.rows.map RouterSession.sessionId).foldl sequenceAfter next
      set { w with store := { w.store with sessions := t, nextSequence := next } }
      let _ ← expireLocked
      let _ ← assignWaitersLocked settings
      return ()

/-- `__init__` on the state file found at its path. -/
def construct (settings : Settings) (file : Option Json) (outside : Outside) :
    Except RouterError Store :=
  match exec (load settings) ⟨⟨.empty,1,file⟩,outside⟩ with
  | (.ok _,w) => .ok w.store
  | (.error e,_) => .error e

end Loading

/-- A router process with its session store, or only the state file it left. -/
inductive Router
  | down (file : Option Json)
  | up (settings : Settings) (store : Store)

def Router.file : Router → Option Json
  | down file => file
  | up _ store => store.file

def Router.sessions : Router → SessionTable
  | down _ => .empty
  | up _ store => store.sessions

/-- The router is started, in place of the process that runs, or one operation is called. -/
inductive Event
  | construct (settings : Settings) (outside : Outside)
  | call (request : Request) (outside : Outside)

def Router.next (r : Router) : Event → Router
  | .construct settings outside =>
    match RouterSessions.construct settings r.file outside with
    | .ok store => .up settings store
    | .error _ => .down r.file
  | .call request outside =>
    match r with
    | .up settings store => .up settings (store.step settings (request,outside))
    | .down file => .down file

def Router.run (r : Router) (es : List Event) : Router := es.foldl Router.next r

/-- No router has run yet. -/
def Router.initial : Router := .down none

end RouterSessions
end CloudBrowser
