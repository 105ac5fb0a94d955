import CloudBrowser.BasicAuth

/-! The credentials of a submission go out once, and only for a challenge of the declared origin;
every other challenge is cancelled. -/
namespace CloudBrowser
namespace BasicAuth

open Stateful

section Laws

variable (t : Surroundings) (origin username password : String)

/-- An event that asks for the credentials of the declared origin. -/
structure Challenges (message : Message) (id : String) : Prop where
  event : isMethod message "Fetch.authRequired" = true
  requested : requestId message = some id
  request : ∃ url, requestUrl message = some url ∧ originOf t.urlsplit url = .ok (some origin)
  challenge : challengeOrigin t.urlsplit (Json.get (paramsOf message) "authChallenge") =
    .ok (some origin)

/-- Credentials are the answer to such an event. -/
def Matched (effects : List Effect) : Prop :=
  ∀ c b, Effect.sent c b ∈ effects → c.provides = true → ∃ message id,
    Challenges t origin message id ∧ c = provide id username password ∧
      [Effect.received message,Effect.sent c b] <:+: effects

/-- Every `authRequired` event with a request id is answered at once. -/
def Answered (effects : List Effect) : Prop :=
  ∀ (i : ℕ) message id, effects[i]? = some (.received message) →
    isMethod message "Fetch.authRequired" = true → requestId message = some id →
      effects[i+1]? = some (.sent (cancel id) true) ∨
      effects[i+1]? = some (.sent (provide id username password) true) ∧ Challenges t origin message id

/-- Credentials were sent at most once, and not at all before `sent`. -/
structure Held (sent : Bool) (effects : List Effect) : Prop where
  count : effects.countP Effect.provides ≤ sent.toNat
  matched : Matched t origin username password effects

end Laws

variable {t : Surroundings} {origin username password : String} {deadline : Option Time}
  {effects rest : List Effect} {sent : Bool} {message : Message} {id : String}

/-! ### Traces -/

theorem Held.relax (h : Held t origin username password sent effects) :
    Held t origin username password true effects := by
  constructor
  · have hcount := h.count
    have hsent := Bool.toNat_le sent
    simp only [Bool.toNat_true]
    omega
  · exact h.matched

/-- Effects without credentials do no harm. -/
theorem Held.append (h : Held t origin username password sent effects)
    (hrest : ∀ x ∈ rest, x.provides = false) :
    Held t origin username password sent (effects ++ rest) := by
  constructor
  · have hnone : rest.countP Effect.provides = 0 := by
      rw [List.countP_eq_zero]
      intro x hx
      simp [hrest x hx]
    rw [List.countP_append,hnone]
    exact h.count
  · intro c b hc hprovides
    rcases List.mem_append.mp hc with hold | hnew
    · obtain ⟨message,id,hchallenges,hc,hpart⟩ := h.matched c b hold hprovides
      exact ⟨message,id,hchallenges,hc,hpart.trans (List.prefix_append _ _).isInfix⟩
    · have hfalse : c.provides = false := hrest _ hnew
      rw [hprovides] at hfalse
      cases hfalse

/-- The credentials go out for the first time. -/
theorem Held.provide (h : Held t origin username password false effects)
    (hchallenges : Challenges t origin message id) (b : Bool) :
    Held t origin username password true
      (effects ++ [.received message,.sent (provide id username password) b]) := by
  constructor
  · have hcount := h.count
    simp [List.countP_append,Effect.provides] at hcount ⊢
    simpa using hcount
  · intro c b' hc hprovides
    rcases List.mem_append.mp hc with hold | hnew
    · obtain ⟨message',id',hchallenges',hc,hpart⟩ := h.matched c b' hold hprovides
      exact ⟨message',id',hchallenges',hc,hpart.trans (List.prefix_append _ _).isInfix⟩
    · simp at hnew
      obtain ⟨rfl,rfl⟩ := hnew
      exact ⟨message,id,hchallenges,rfl,(List.suffix_append _ _).isInfix⟩

theorem Answered.append (h : Answered t origin username password effects)
    (hrest : Answered t origin username password rest) :
    Answered t origin username password (effects ++ rest) := by
  intro i message id hi hevent hid
  by_cases hlt : i < effects.length
  · rw [List.getElem?_append_left hlt] at hi
    have hanswer := h i message id hi hevent hid
    have hsucc : i+1 < effects.length := by
      by_contra hge
      rw [List.getElem?_eq_none (by omega : effects.length ≤ i+1)] at hanswer
      simp at hanswer
    rwa [List.getElem?_append_left hsucc]
  · rw [List.getElem?_append_right (by omega)] at hi ⊢
    have hanswer := hrest (i-effects.length) message id hi hevent hid
    rwa [show i+1-effects.length = i-effects.length+1 by omega]

theorem answered_sent (c : Command) (b : Bool) :
    Answered t origin username password [.sent c b] := by
  intro i message id hi
  cases i <;> simp at hi

/-- A message that is no challenge, or has no request id, needs no answer. -/
theorem answered_received (h : ∀ id, isMethod message "Fetch.authRequired" = true →
    requestId message ≠ some id) : Answered t origin username password [.received message] := by
  intro i message' id hi hevent hid
  cases i with
  | zero =>
    simp at hi
    subst hi
    exact absurd hid (h id hevent)
  | succ i => simp at hi

theorem answered_cancelled (hid : requestId message = some id) :
    Answered t origin username password [.received message,.sent (cancel id) true] := by
  intro i message' id' hi _ hid'
  match i with
  | 0 =>
    simp at hi
    subst hi
    rw [hid] at hid'
    cases hid'
    exact Or.inl rfl
  | 1 => simp at hi
  | i+2 => simp at hi

theorem answered_provided (hchallenges : Challenges t origin message id) :
    Answered t origin username password
      [.received message,.sent (provide id username password) true] := by
  intro i message' id' hi _ hid'
  match i with
  | 0 =>
    simp at hi
    subst hi
    rw [hchallenges.requested] at hid'
    cases hid'
    exact Or.inr ⟨rfl,hchallenges⟩
  | 1 => simp at hi
  | i+2 => simp at hi

theorem challenges_of_matching (hevent : isMethod message "Fetch.authRequired" = true)
    (h : matching t origin message = .ok (some id)) : Challenges t origin message id := by
  unfold matching at h
  obtain ⟨challenge,hchallenge,h⟩ := bind_ok h
  split at h
  case h_1 id' url hid hurl =>
    obtain ⟨found,hfound,h⟩ := bind_ok h
    split_ifs at h with hsame
    · cases h
      exact ⟨hevent,hid,⟨url,hurl,hsame.1 ▸ hfound⟩,hsame.2 ▸ hchallenge⟩
    · cases h
  case h_2 => cases h

/-! ### Operations that leave the connection alone -/

/-- The operation has no effect on the connection. -/
def Quiet {α : Type} (m : Action α) : Prop := ∀ effects, Keeps (fun s => s.trace = effects) m

theorem Quiet.pure {α : Type} (x : α) : Quiet (Pure.pure x : Action α) := fun _ _ h => h

theorem Quiet.throw {α : Type} (e : AuthError) : Quiet (MonadExcept.throw e : Action α) :=
  fun _ _ h => h

theorem Quiet.check {α : Type} (r : Except AuthError α) : Quiet (check r : Action α) := by
  intro effects s hs
  simpa using hs

theorem Quiet.bind {α β : Type} {m : Action α} {f : α → Action β} (hm : Quiet m)
    (hf : ∀ x, Quiet (f x)) : Quiet (m >>= f) :=
  fun effects => (hm effects).bind fun x => hf x effects

theorem Quiet.outcome {α : Type} {m : Action α} (hm : Quiet m) : Quiet (outcome m) := by
  intro effects s hs
  simpa using hm effects s hs

theorem quiet_readClock : Quiet (readClock t) := fun _ _ h => h

theorem quiet_checkDeadline : Quiet (checkDeadline t deadline) := by
  cases deadline with
  | none => exact Quiet.pure _
  | some expiresAt =>
    apply quiet_readClock.bind
    intro now
    split_ifs
    · exact Quiet.throw _
    · exact Quiet.pure _

theorem quiet_remaining (default : Time) : Quiet (remaining t deadline default) := by
  cases deadline with
  | none => exact Quiet.pure _
  | some expiresAt =>
    apply quiet_readClock.bind
    intro now
    dsimp only
    split_ifs
    · exact Quiet.throw _
    · exact Quiet.pure _

theorem quiet_jsonList : Quiet (jsonList t) := by
  intro effects s hs
  unfold jsonList
  simpa [exec_bind] using hs

theorem quiet_target (targetId : String) : Quiet (target t targetId) := by
  apply (Quiet.check _).bind
  intro _
  apply quiet_jsonList.bind
  intro raw
  split
  · split
    · exact Quiet.pure _
    · exact Quiet.throw _
  · exact Quiet.throw _

theorem quiet_currentUrl (targetId : String) : Quiet (currentUrl t targetId deadline) := by
  apply quiet_checkDeadline.bind
  intro _
  apply (quiet_target targetId).bind
  intro found
  split
  · exact Quiet.pure _
  · exact Quiet.throw _

theorem quiet_get {α : Type} {f : Session → Action α} (hf : ∀ s, Quiet (f s)) :
    Quiet (get >>= f) :=
  Quiet.bind (fun _ _ h => h) hf

theorem quiet_targetUrlOrLast (targetId : String) : Quiet (targetUrlOrLast t targetId deadline) := by
  apply quiet_checkDeadline.bind
  intro _
  apply (quiet_currentUrl targetId).outcome.bind
  intro r
  split
  · exact Quiet.pure _
  · apply quiet_get
    intro s
    split_ifs
    · exact Quiet.pure _
    · exact Quiet.throw _
  · exact Quiet.throw _

theorem quiet_retryWebsocket (targetId : String) (retryEnd : Time) (fuel : ℕ) :
    Quiet (retryWebsocket t targetId deadline retryEnd fuel) := by
  induction fuel with
  | zero => exact Quiet.throw _
  | succ fuel ih =>
    apply quiet_readClock.bind
    intro now
    split_ifs
    · apply quiet_checkDeadline.bind
      intro _
      apply (quiet_target targetId).bind
      intro found
      split
      · exact Quiet.check _
      · exact ih
    · exact Quiet.throw _

theorem quiet_pageWebsocket (timeout : Time) (targetId : String) (fuel : ℕ) :
    Quiet (pageWebsocket t timeout targetId deadline fuel) := by
  apply quiet_checkDeadline.bind
  intro _
  apply (quiet_target targetId).bind
  intro found
  apply quiet_checkDeadline.bind
  intro _
  split
  · exact Quiet.check _
  · apply quiet_readClock.bind
    intro now
    apply (quiet_remaining 1).bind
    intro left
    exact quiet_retryWebsocket targetId _ fuel

theorem quiet_settle (targetId fallback : String) (settleEnd : Time) (fuel : ℕ) :
    Quiet (settle t targetId fallback deadline settleEnd fuel) := by
  induction fuel with
  | zero => exact Quiet.throw _
  | succ fuel ih =>
    apply quiet_checkDeadline.bind
    intro _
    apply (quiet_targetUrlOrLast targetId).bind
    intro observed
    apply (Quiet.check _).bind
    intro found
    split_ifs
    · exact Quiet.pure _
    · apply quiet_readClock.bind
      intro now
      split_ifs
      · exact Quiet.pure _
      · exact ih

theorem quiet_settledTargetUrl (timeout : Time) (targetId fallback : String) (fuel : ℕ) :
    Quiet (settledTargetUrl t timeout targetId fallback deadline fuel) := by
  apply quiet_readClock.bind
  intro now
  apply (quiet_remaining 1).bind
  intro left
  exact quiet_settle targetId fallback _ fuel

/-! ### The conversation -/

theorem send_triple (c : Command) : Triple (fun s => s.trace = effects) (send t c) fun r s =>
    s.trace = effects ++ [.sent c (match r with | .ok _ => true | .error _ => false)] := by
  intro s hs
  subst hs
  unfold send
  rw [exec_bind,exec_get]
  cases hsend : t.send s.trace.length with
  | ok _ => simp [hsend]
  | error e => simp [hsend,exec_bind]

/-- What a receive leaves; it may raise with the message, too. -/
def Received (effects : List Effect) : Except AuthError Message → Session → Prop
  | .ok message, s => s.trace = effects ++ [.received message]
  | .error e, s => s.trace = effects ∨
      e.isReceiveTimeout = false ∧ ∃ message, s.trace = effects ++ [.received message]

theorem receive_triple : Triple (fun s => s.trace = effects) (receive t) (Received effects) := by
  intro s hs
  subst hs
  unfold receive
  rw [exec_bind,exec_get]
  dsimp only
  split
  · exact Or.inl rfl
  case h_2 message _ =>
    rw [exec_bind,exec_set]
    dsimp only
    split_ifs
    · exact Or.inr ⟨rfl,message,rfl⟩
    · rfl
  · exact Or.inl rfl

/-- What holds of the effects whatever happens, and what if nothing is raised. -/
def Outcome (t : Surroundings) (origin username password : String) {α : Type} :
    Except AuthError α → Session → Prop
  | .ok _, s => Held t origin username password true s.trace ∧
      Answered t origin username password s.trace
  | .error _, s => Held t origin username password true s.trace

theorem Outcome.held {α : Type} {r : Except AuthError α} {s : Session}
    (h : Outcome t origin username password r s) : Held t origin username password true s.trace := by
  cases r with
  | ok x => exact h.1
  | error e => exact h

theorem pure_triple {α : Type} (x : α) (hheld : Held t origin username password sent effects)
    (hanswered : Answered t origin username password effects) :
    Triple (fun s => s.trace = effects) (pure x : Action α) (Outcome t origin username password) := by
  intro s hs
  subst hs
  exact ⟨hheld.relax,hanswered⟩

theorem throw_triple {α : Type} (e : AuthError) (hheld : Held t origin username password sent effects) :
    Triple (fun s => s.trace = effects) (throw e : Action α) (Outcome t origin username password) := by
  intro s hs
  subst hs
  exact hheld.relax

section Steps

variable {α β : Type} {m : Action α} {f : α → Action β}

/-- What comes after a quiet operation. -/
theorem Quiet.bind_triple (hm : Quiet m) (hheld : Held t origin username password sent effects)
    (hf : ∀ x, Triple (fun s => s.trace = effects) (f x) (Outcome t origin username password)) :
    Triple (fun s => s.trace = effects) (m >>= f) (Outcome t origin username password) := by
  apply Triple.bind (hm effects) hf
  intro e s hs
  subst hs
  exact hheld.relax

/-- What comes after a command. -/
theorem send_bind {f : Unit → Action β} (c : Command)
    (hheld : ∀ b, Held t origin username password true (effects ++ [.sent c b]))
    (hf : Triple (fun s => s.trace = effects ++ [.sent c true]) (f ())
      (Outcome t origin username password)) :
    Triple (fun s => s.trace = effects) (send t c >>= f) (Outcome t origin username password) := by
  refine Triple.bind (send_triple c) (fun _ => hf) ?_
  intro e s hs
  show Held t origin username password true s.trace
  rw [hs]
  exact hheld false

/-- What comes after a message, or after a failure to receive one. -/
theorem receive_bind {f : Except AuthError Message → Action β} {Q : Except AuthError β → Session → Prop}
    (hok : ∀ message, Triple (fun s => s.trace = effects ++ [.received message]) (f (.ok message)) Q)
    (herror : ∀ e, Triple (Received effects (.error e)) (f (.error e)) Q) :
    Triple (fun s => s.trace = effects) (outcome (receive t) >>= f) Q := by
  intro s hs
  have hreceived := receive_triple (t:=t) s hs
  rw [exec_bind,exec_outcome]
  cases hr : (exec (receive t) s).1 with
  | ok message =>
    rw [hr] at hreceived
    exact hok message _ hreceived
  | error e =>
    rw [hr] at hreceived
    exact herror e _ hreceived

end Steps

theorem held_received (hheld : Held t origin username password sent effects) (message : Message) :
    Held t origin username password sent (effects ++ [.received message]) := by
  apply hheld.append
  simp [Effect.provides]

theorem held_answer (hheld : Held t origin username password sent effects) {c : Command}
    (hc : c.provides = false) (b : Bool) :
    Held t origin username password sent (effects ++ [.sent c b]) := by
  apply hheld.append
  simp [Effect.provides,hc]

theorem answered_other (h : isMethod message "Fetch.authRequired" = false) :
    Answered t origin username password [.received message] := by
  apply answered_received
  intro id hevent
  rw [h] at hevent
  cases hevent

/-- The challenge of a message is cancelled, and the loop goes on. -/
theorem cancelAuth_bind {β : Type} {f : Unit → Action β}
    (hheld : Held t origin username password sent effects)
    (hanswered : Answered t origin username password effects)
    (hf : ∀ rest, Held t origin username password sent (effects ++ rest) →
      Answered t origin username password (effects ++ rest) →
      Triple (fun s => s.trace = effects ++ rest) (f ()) (Outcome t origin username password)) :
    Triple (fun s => s.trace = effects ++ [.received message]) (cancelAuth t message >>= f)
      (Outcome t origin username password) := by
  have hreceived := held_received hheld message
  unfold cancelAuth
  split
  case h_1 id hid =>
    apply send_bind _ fun b => (held_answer hreceived (provides_cancel id) b).relax
    have hsent := held_answer hreceived (provides_cancel id) true
    rw [List.append_assoc] at hsent ⊢
    exact hf _ hsent (hanswered.append (answered_cancelled hid))
  case h_2 hid =>
    apply (Quiet.pure ()).bind_triple hreceived
    intro _
    apply hf _ hreceived
    apply hanswered.append
    apply answered_received
    intro id _ hsome
    rw [hid] at hsome
    cases hsome

theorem continueRequest_bind {β : Type} {f : Unit → Action β}
    (hheld : Held t origin username password sent effects)
    (hanswered : Answered t origin username password effects)
    (h : isMethod message "Fetch.authRequired" = false)
    (hf : ∀ rest, Held t origin username password sent (effects ++ rest) →
      Answered t origin username password (effects ++ rest) →
      Triple (fun s => s.trace = effects ++ rest) (f ()) (Outcome t origin username password)) :
    Triple (fun s => s.trace = effects ++ [.received message]) (continueRequest t message >>= f)
      (Outcome t origin username password) := by
  have hreceived := held_received hheld message
  have hother := hanswered.append (answered_other h)
  unfold continueRequest
  split
  case h_1 id _ =>
    apply send_bind _ fun b => (held_answer hreceived rfl b).relax
    have hsent := held_answer hreceived (rfl : (resumeRequest id).provides = false) true
    have hanswered' := hother.append (answered_sent (resumeRequest id) true)
    rw [List.append_assoc] at hsent hanswered' ⊢
    exact hf _ hsent hanswered'
  case h_2 =>
    apply (Quiet.pure ()).bind_triple hreceived
    intro _
    exact hf _ hreceived hother

/-- The loop from some number of replies on, as the induction over it has it. -/
def Resumes (t : Surroundings) (origin username password : String) (deadline : Option Time)
    (replies : ℕ) : Prop :=
  ∀ (flags : Flags) (effects : List Effect),
    Held t origin username password flags.credentialsSent effects →
    Answered t origin username password effects →
      Triple (fun s => s.trace = effects)
        (answerChallenges t origin username password deadline replies flags)
        (Outcome t origin username password)

/-- An `authRequired` event, and the rest of the loop. -/
theorem challenge_triple {replies : ℕ} {flags : Flags}
    (hheld : Held t origin username password flags.credentialsSent effects)
    (hanswered : Answered t origin username password effects)
    (hevent : isMethod message "Fetch.authRequired" = true)
    (ih : Resumes t origin username password deadline replies) :
    Triple (fun s => s.trace = effects ++ [.received message])
      (answerChallenge t origin username password deadline flags message
        (answerChallenges t origin username password deadline replies))
      (Outcome t origin username password) := by
  have hreceived := held_received hheld message
  apply Triple.check_bind _ fun e s hs => throw_triple e hreceived s hs
  intro found hfound
  cases found with
  | none =>
    apply cancelAuth_bind hheld hanswered
    intro rest hheld' hanswered'
    exact ih flags _ hheld' hanswered'
  | some id =>
    have hchallenges := challenges_of_matching hevent hfound
    dsimp only
    by_cases hsent : flags.credentialsSent = true
    · have hcancelled (b : Bool) := held_answer hreceived (provides_cancel id) b
      rw [if_pos hsent]
      apply send_bind _ fun b => (hcancelled b).relax
      apply pure_triple _ (hcancelled true)
      rw [List.append_assoc]
      exact hanswered.append (answered_cancelled hchallenges.requested)
    · have hfresh : Held t origin username password false effects := by
        rwa [Bool.eq_false_iff.mpr hsent] at hheld
      rw [if_neg hsent]
      apply quiet_checkDeadline.bind_triple hreceived
      intro _
      apply send_bind
      · intro b
        rw [List.append_assoc]
        exact hfresh.provide hchallenges b
      · apply ih
        · rw [List.append_assoc]
          exact hfresh.provide hchallenges true
        · rw [List.append_assoc]
          exact hanswered.append (answered_provided hchallenges)

/-- The loop keeps what holds of the effects, however many replies are left. -/
theorem resumes (replies : ℕ) : Resumes t origin username password deadline replies := by
  induction replies with
  | zero =>
    intro flags effects hheld hanswered
    exact pure_triple flags hheld hanswered
  | succ replies ih =>
    intro flags effects hheld hanswered
    rw [answerChallenges]
    apply quiet_checkDeadline.bind_triple hheld
    intro _
    apply receive_bind
    · intro message
      have hreceived := held_received hheld message
      apply quiet_checkDeadline.bind_triple hreceived
      intro _
      by_cases hevent : isMethod message "Fetch.authRequired" = true
      · rw [if_pos hevent]
        exact challenge_triple hheld hanswered hevent ih
      · have hother : isMethod message "Fetch.authRequired" = false := by simpa using hevent
        rw [if_neg hevent]
        split_ifs
        · apply continueRequest_bind hheld hanswered hother
          intro rest hheld' hanswered'
          exact ih flags _ hheld' hanswered'
        · exact ih flags _ hreceived (hanswered.append (answered_other hother))
    · intro e
      dsimp only
      split_ifs with hlate <;> intro s hs
      · rcases hs with hs | ⟨htimeout,-⟩
        · exact pure_triple flags hheld hanswered s hs
        · simp [htimeout] at hlate
      · rcases hs with hs | ⟨-,message,hs⟩
        · exact throw_triple _ hheld s hs
        · exact throw_triple _ (held_received hheld message) s hs

/-! ### The submission -/

theorem held_nil : Held t origin username password false [] := by
  constructor
  · simp
  · intro c b hc
    simp at hc

theorem converse_triple (current : String) : Triple (fun s => s.trace = [])
    (converse t origin username password deadline current) (Outcome t origin username password) := by
  have hfirst (b : Bool) : Held t origin username password false [.sent enableFetch b] :=
    held_answer held_nil rfl b
  have hsecond (b : Bool) := held_answer (hfirst true)
    (rfl : (navigate current).provides = false) b
  apply send_bind _ fun b => (hfirst b).relax
  apply send_bind _ fun b => (hsecond b).relax
  intro s hs
  have hresumes : Resumes t origin username password deadline 128 := resumes 128
  have hloop := hresumes {} _ (hsecond true)
    ((answered_sent enableFetch true).append (answered_sent (navigate current) true)) s hs
  rw [exec_bind]
  rcases hr : exec (answerChallenges t origin username password deadline 128 {}) s with ⟨e | flags,s'⟩
  · rwa [hr] at hloop
  · rw [hr] at hloop
    dsimp only
    split_ifs
    · exact hloop
    · exact hloop.1

theorem exec_hangUp (s : Session) : (exec (hangUp t) s).2 = (exec (send t disableFetch) s).2 := by
  have hdiscard := exec_discard (outcome (send t disableFetch)) s
  rw [exec_outcome] at hdiscard
  rw [hangUp,exec_bind,← hdiscard]
  rcases exec (discard (outcome (send t disableFetch))) s with ⟨_ | _,s'⟩ <;> simp

/-- Hanging up sends no credentials, and leaves no event unanswered. -/
theorem hangUp_triple (r : Except AuthError Flags) :
    Triple (Outcome t origin username password r) (hangUp t) fun _ =>
      Outcome t origin username password r := by
  intro s hs
  have hsend := send_triple (t:=t) disableFetch s rfl
  rw [exec_hangUp]
  have hheld : Held t origin username password true (exec (send t disableFetch) s).2.trace := by
    rw [hsend]
    exact held_answer hs.held rfl _
  cases r with
  | error e => exact hheld
  | ok flags =>
    refine ⟨hheld,?_⟩
    rw [hsend]
    exact hs.2.append (answered_sent disableFetch _)

theorem Quiet.modify {f : Session → Session} (hf : ∀ s, (f s).trace = s.trace) :
    Quiet (modify f : Action PUnit) := by
  intro effects s hs
  exact (hf s).trans hs

theorem quiet_recordState (timeout : Time) (targetId successPath current : String) (fuel : ℕ)
    (flags : Flags) :
    Quiet (recordState t origin deadline timeout targetId successPath current fuel flags) := by
  apply (quiet_settledTargetUrl timeout targetId current fuel).bind
  intro url
  apply (Quiet.check _).bind
  intro authenticated
  exact Quiet.modify fun _ => rfl

/-- What a quiet operation leaves of the outcome of the one before it. -/
theorem Quiet.after {α β : Type} {m : Action β} (hm : Quiet m) (x : α) :
    Triple (Outcome t origin username password (.ok x)) m (Outcome t origin username password) := by
  intro s hs
  have heffects := hm s.trace s rfl
  cases hr : (exec m s).1 with
  | ok y =>
    show Held _ _ _ _ _ (exec m s).2.trace ∧ Answered _ _ _ _ (exec m s).2.trace
    rw [heffects]
    exact hs
  | error e =>
    show Held _ _ _ _ _ (exec m s).2.trace
    rw [heffects]
    exact hs.1

theorem exchange_triple (current : String) : Triple (fun s => s.trace = [])
    (ensuring (converse t origin username password deadline current) (hangUp t))
    (Outcome t origin username password) := by
  intro s hs
  have hconverse : Triple (fun s => s.trace = [])
    (converse t origin username password deadline current) (Outcome t origin username password) :=
    converse_triple current
  have hresult := hconverse s hs
  rw [exec_ensuring]
  rcases hr : exec (converse t origin username password deadline current) s with ⟨r,s'⟩
  rw [hr] at hresult
  have hclosed := hangUp_triple r s' hresult
  dsimp only
  rcases hc : exec (hangUp t) s' with ⟨e | _,s''⟩
  · rw [hc] at hclosed
    exact hclosed.held
  · rw [hc] at hclosed
    exact hclosed

theorem submitLocked_triple (timeout : Time) (targetId successPath : String) (fuel : ℕ) :
    Triple (fun s => s.trace = [])
      (submitLocked t origin username password deadline timeout targetId successPath fuel)
      (Outcome t origin username password) := by
  apply (Quiet.check _).bind_triple held_nil
  intro _
  apply (Quiet.check _).bind_triple held_nil
  intro _
  apply (Quiet.check _).bind_triple held_nil
  intro _
  apply quiet_checkDeadline.bind_triple held_nil
  intro _
  apply (quiet_targetUrlOrLast targetId).bind_triple held_nil
  intro current
  apply (Quiet.check _).bind_triple held_nil
  intro _
  apply (quiet_remaining timeout).bind_triple held_nil
  intro _
  apply (quiet_pageWebsocket timeout targetId fuel).bind_triple held_nil
  intro _
  apply (Quiet.check _).bind_triple held_nil
  intro _
  refine Triple.bind (exchange_triple current) ?_ fun e s hs => hs
  intro flags
  exact (quiet_recordState timeout targetId successPath current fuel flags).after flags

theorem submit_triple (timeout : Time) (targetId successPath : String) (fuel : ℕ) :
    Triple (fun s => s.trace = [])
      (submit t origin username password deadline timeout targetId successPath fuel)
      (Outcome t origin username password) := by
  have hlocked : Triple (fun s => s.trace = [])
      (submitLocked t origin username password deadline timeout targetId successPath fuel)
      (Outcome t origin username password) :=
    submitLocked_triple timeout targetId successPath fuel
  have hget : Quiet get := fun _ _ h => h
  have hlock : Quiet (modify fun s => { s with locked := true }) := Quiet.modify fun _ => rfl
  apply hget.bind_triple held_nil
  intro s
  split_ifs
  · exact throw_triple _ held_nil
  · apply hlock.bind_triple held_nil
    intro _ s hs
    have hresult := hlocked s hs
    rw [exec_ensuring]
    rcases hr : exec (submitLocked t origin username password deadline timeout targetId
      successPath fuel) s with ⟨r,s'⟩
    rw [hr] at hresult
    cases r <;> exact hresult

/-- What is claimed of a submission: its credentials, and the other challenges it took. -/
structure AnsweredOnce (t : Surroundings) (origin username password : String)
    (result : Except AuthError Unit × Session) : Prop where
  once : result.2.trace.countP Effect.provides ≤ 1
  matched : Matched t origin username password result.2.trace
  answered : result.1 = .ok () → Answered t origin username password result.2.trace

/-- Whatever a submission meets on its connection, it sends the credentials at most once, and for a
challenge of the declared origin; and if it returns, it has cancelled every other challenge. -/
theorem answered_once (t : Surroundings) (origin username password : String)
    (deadline : Option Time) (timeout : Time) (targetId successPath : String) (fuel : ℕ)
    (s : Session) :
    AnsweredOnce t origin username password
      (exec (submit t origin username password deadline timeout targetId successPath fuel)
        { s with trace := [] }) := by
  have hsubmit : Triple (fun s => s.trace = [])
      (submit t origin username password deadline timeout targetId successPath fuel)
      (Outcome t origin username password) :=
    submit_triple timeout targetId successPath fuel
  have houtcome := hsubmit { s with trace := [] } rfl
  constructor
  · exact houtcome.held.count
  · exact houtcome.held.matched
  · intro hok
    rw [hok] at houtcome
    exact houtcome.2

/-- Chrome on a page of one origin, which it challenges over and over. -/
def challenged : Surroundings where
  urlsplit url :=
    if url = "ws://localhost:9222/tab" then
      .ok ⟨⟨"ws","localhost:9222","/tab","","",none,none⟩,some "localhost",.ok (some 9222)⟩
    else .ok ⟨⟨"https","site.example","/","","",none,none⟩,some "site.example",.ok none⟩
  clock _ := 0
  targets _ := .ok (.arr [.obj [("type",.str "page"),("id",.str "tab"),
    ("url",.str "https://site.example/"),("webSocketDebuggerUrl",.str "ws://localhost:9222/tab")]])
  connect := .ok ()
  send _ := .ok ()
  recv _ := .ok (some (.obj [("method",.str "Fetch.authRequired"),("params",.obj
    [("requestId",.str "request"),("request",.obj [("url",.str "https://site.example/")]),
      ("authChallenge",.obj [("scheme",.str "Basic"),("origin",.str "https://site.example")])])]))
  close := .ok ()

/-- The second challenge is cancelled, and the state reports a loop. -/
example :
    let result := exec (submit challenged "https://site.example" "user" "password" none 5 "tab" "/" 1)
      ⟨⟨"","",none,false⟩,false,0,0,[]⟩
    result.1 = .ok () ∧ result.2.trace.countP Effect.provides = 1 ∧
      result.2.state.challengeOrigin = some "https://site.example" := by
  decide +kernel

end BasicAuth
end CloudBrowser
