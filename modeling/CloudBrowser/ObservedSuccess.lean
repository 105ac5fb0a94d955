import CloudBrowser.AnsweredChallenge

/-! Whether a submission that ends as a login has seen the page of the login, after its credentials
went out. -/
namespace CloudBrowser
namespace BasicAuth

open Stateful

section Settling

variable (t : Surroundings) (origin targetId successPath : String) (deadline : Option Time)

/-- The URL that a target list shows for the target, if it shows one. -/
def shown (n : ℕ) : Option String :=
  match t.targets n with
  | .ok (.arr targets) => (targets.find? (isTarget targetId)).bind fun found =>
      (Json.get (asDict found) "url").asString.filter (· ≠ "")
  | _ => none

/-- A target list shows the page that stands for a login. -/
def ShowsLogin (n : ℕ) : Prop :=
  ∃ url, shown t targetId n = some url ∧ proved t origin successPath url = .ok true

/-- A lookup of the URL of the target, as each turn of the loop makes it. -/
def lookup : Action (Except AuthError String) := do
  checkDeadline t deadline
  checkDeadline t deadline
  outcome (currentUrl t targetId deadline)

/-- What a lookup amounts to, by the state of the capability. -/
def recalled (state : BasicAuthState) : Except AuthError String → Except AuthError String
  | .ok url => .ok url
  | .error (.unavailable message timeout) =>
    if state.targetId = targetId ∧ state.url ≠ "" then .ok state.url
    else .error (.unavailable message timeout)
  | .error e => .error e

/-- The target shows no page of an HTTPS origin, until the last lookup fails and a remembered URL
stands for a login, or until the time is up and the URL from before does. -/
inductive Misled (fallback : String) (settleEnd : Time) : ℕ → Session → Prop
  | remembered {fuel : ℕ} {s s' : Session} {e : AuthError} {url : String}
      (hlookup : exec (lookup t targetId deadline) s = (.ok (.error e),s'))
      (hrecalled : recalled targetId s'.state (.error e) = .ok url)
      (hproved : proved t origin successPath url = .ok true) :
      Misled fallback settleEnd (fuel+1) s
  | timedOut {fuel : ℕ} {s s' : Session} {r : Except AuthError String} {url : String}
      (hlookup : exec (lookup t targetId deadline) s = (.ok r,s'))
      (hrecalled : recalled targetId s'.state r = .ok url)
      (hblank : originOf t.urlsplit url = .ok none) (hlate : settleEnd ≤ t.clock s'.readings)
      (hproved : proved t origin successPath fallback = .ok true) :
      Misled fallback settleEnd (fuel+1) s
  | again {fuel : ℕ} {s s' : Session} {r : Except AuthError String} {url : String}
      (hlookup : exec (lookup t targetId deadline) s = (.ok r,s'))
      (hrecalled : recalled targetId s'.state r = .ok url)
      (hblank : originOf t.urlsplit url = .ok none) (hearly : ¬settleEnd ≤ t.clock s'.readings)
      (hrest : Misled fallback settleEnd fuel { s' with readings := s'.readings+1 }) :
      Misled fallback settleEnd (fuel+1) s

end Settling

variable {t : Surroundings} {origin username password targetId successPath fallback : String}
  {deadline : Option Time} {settleEnd : Time} {s s' s₀ : Session}

theorem proved_origin {url : String} (h : proved t origin successPath url = .ok true) :
    originOf t.urlsplit url = .ok (some origin) := by
  unfold proved at h
  obtain ⟨found,hfound,h⟩ := bind_ok h
  split_ifs at h with hsame
  · cases h
  · rw [hfound,not_not.mp hsame]

/-! ### Operations that take no target list -/

/-- The operation takes no target list, and leaves the state of the capability. -/
def Waits {α : Type} (m : Action α) : Prop :=
  ∀ s, (exec m s).2.requests = s.requests ∧ (exec m s).2.state = s.state

theorem Waits.pure {α : Type} (x : α) : Waits (Pure.pure x : Action α) := fun _ => ⟨rfl,rfl⟩

theorem Waits.throw {α : Type} (e : AuthError) : Waits (MonadExcept.throw e : Action α) :=
  fun _ => ⟨rfl,rfl⟩

theorem Waits.check {α : Type} (r : Except AuthError α) : Waits (Stateful.check r : Action α) := by
  intro s
  rw [exec_check]
  exact ⟨rfl,rfl⟩

theorem Waits.bind {α β : Type} {m : Action α} {f : α → Action β} (hm : Waits m)
    (hf : ∀ x, Waits (f x)) : Waits (m >>= f) := by
  intro s
  have hfirst := hm s
  rw [exec_bind]
  rcases hx : exec m s with ⟨e | x,s'⟩ <;> rw [hx] at hfirst
  · exact hfirst
  · exact ⟨(hf x s').1.trans hfirst.1,(hf x s').2.trans hfirst.2⟩

theorem Waits.outcome {α : Type} {m : Action α} (hm : Waits m) : Waits (Stateful.outcome m) := by
  intro s
  rw [exec_outcome]
  exact hm s

theorem waits_readClock : Waits (readClock t) := fun _ => ⟨rfl,rfl⟩

theorem waits_checkDeadline : Waits (checkDeadline t deadline) := by
  cases deadline with
  | none => exact .pure _
  | some expiresAt =>
    apply waits_readClock.bind
    intro now
    split_ifs
    · exact .throw _
    · exact .pure _

theorem waits_remaining (default : Time) : Waits (remaining t deadline default) := by
  cases deadline with
  | none => exact .pure _
  | some expiresAt =>
    apply waits_readClock.bind
    intro now
    dsimp only
    split_ifs
    · exact .throw _
    · exact .pure _

theorem waits_send (c : Command) : Waits (send t c) := by
  intro s
  rw [send,exec_bind,exec_get]
  dsimp only
  split
  · exact ⟨rfl,rfl⟩
  · exact ⟨rfl,rfl⟩

theorem waits_receive : Waits (receive t) := by
  intro s
  rw [receive,exec_bind,exec_get]
  dsimp only
  split
  · exact ⟨rfl,rfl⟩
  · rw [exec_bind,exec_set]
    dsimp only
    split_ifs
    · exact ⟨rfl,rfl⟩
    · exact ⟨rfl,rfl⟩
  · exact ⟨rfl,rfl⟩

theorem waits_cancelAuth (message : Message) : Waits (cancelAuth t message) := by
  unfold cancelAuth
  split
  · exact waits_send _
  · exact .pure _

theorem waits_continueRequest (message : Message) : Waits (continueRequest t message) := by
  unfold continueRequest
  split
  · exact waits_send _
  · exact .pure _

/-- From the credentials to the end of the connection, no target list is taken. -/
theorem waits_answerChallenges (replies : ℕ) (flags : Flags) :
    Waits (answerChallenges t origin username password deadline replies flags) := by
  induction replies generalizing flags with
  | zero => exact .pure _
  | succ replies ih =>
    rw [answerChallenges]
    apply waits_checkDeadline.bind
    intro _
    apply waits_receive.outcome.bind
    intro r
    split
    · split_ifs
      · exact .pure _
      · exact .throw _
    · apply waits_checkDeadline.bind
      intro _
      split_ifs
      · apply (Waits.check _).bind
        intro found
        split
        · exact (waits_cancelAuth _).bind fun _ => ih _
        · split_ifs
          · exact (waits_send _).bind fun _ => .pure _
          · exact waits_checkDeadline.bind fun _ => (waits_send _).bind fun _ => ih _
      · exact (waits_continueRequest _).bind fun _ => ih _
      · exact ih _

theorem waits_exchange (current : String) :
    Waits (ensuring (converse t origin username password deadline current) (hangUp t)) := by
  have hconverse : Waits (converse t origin username password deadline current) := by
    apply (waits_send _).bind
    intro _
    apply (waits_send _).bind
    intro _
    apply (waits_answerChallenges _ _).bind
    intro flags
    dsimp only
    split_ifs
    · exact .pure _
    · exact .throw _
  have hhangUp : Waits (hangUp t) := by
    apply Waits.bind _ fun _ => .check _
    intro s
    rw [exec_discard]
    exact (waits_send _).outcome s
  intro s
  have hfirst := hconverse s
  rw [exec_ensuring]
  rcases hx : exec (converse t origin username password deadline current) s with ⟨r,s'⟩
  rw [hx] at hfirst
  have hsecond := hhangUp s'
  dsimp only
  rcases hy : exec (hangUp t) s' with ⟨e | _,s''⟩ <;> rw [hy] at hsecond
  · exact ⟨hsecond.1.trans hfirst.1,hsecond.2.trans hfirst.2⟩
  · exact ⟨hsecond.1.trans hfirst.1,hsecond.2.trans hfirst.2⟩

/-! ### Lookups -/

theorem checkDeadline_error {e : AuthError}
    (h : (exec (checkDeadline t deadline) s).1 = .error e) : e = .deadlineExceeded := by
  cases deadline with
  | none => cases h
  | some expiresAt =>
    have hclock : exec (readClock t) s =
        (.ok (t.clock s.readings),{ s with readings := s.readings+1 }) := rfl
    rw [checkDeadline,exec_bind,hclock] at h
    dsimp only at h
    split_ifs at h
    · exact (Except.error.inj h).symm
    · cases h

/-- What is found of the target in the next target list. -/
theorem exec_target (s : Session) : exec (target t targetId) s =
    match validateTargetId targetId with
    | .error e => (.error e,s)
    | .ok _ => (match t.targets s.requests with
        | .ok (.arr targets) => match targets.find? (isTarget targetId) with
          | some found => .ok (asDict found)
          | none => .error (.unavailable "requested page target is not available" false)
        | .ok _ => .error (.unavailable "invalid Chrome target response" false)
        | .error e => .error e,{ s with requests := s.requests+1 }) := by
  have hlist : exec (jsonList t) s =
      (t.targets s.requests,{ s with requests := s.requests+1 }) := by
    rw [jsonList,exec_bind,exec_get]
    dsimp only
    rw [exec_bind,exec_set]
    dsimp only
    rw [exec_check]
  rw [target,exec_bind,exec_check]
  cases validateTargetId targetId with
  | error e => rfl
  | ok _ =>
    dsimp only
    rw [exec_bind,hlist]
    rcases t.targets s.requests with e | raw
    · rfl
    · cases raw with
      | arr targets =>
        dsimp only
        cases targets.find? (isTarget targetId) <;> rfl
      | _ => rfl

/-- A lookup that gives a URL, or fails in a way that is made up for, has taken one target list. -/
structure Looked (t : Surroundings) (targetId : String) (s : Session)
    (r : Except AuthError String) (s' : Session) : Prop where
  state : s'.state = s.state
  url : ∀ url, r = .ok url → shown t targetId s.requests = some url ∧ s'.requests = s.requests+1
  unavailable : ∀ message timeout, r = .error (.unavailable message timeout) →
    shown t targetId s.requests = none ∧ s'.requests = s.requests+1

theorem looked_currentUrl (hold : s₀.state = s.state ∧ s₀.requests = s.requests) :
    Looked t targetId s (exec (currentUrl t targetId deadline) s₀).1
      (exec (currentUrl t targetId deadline) s₀).2 := by
  have hcheck : Waits (checkDeadline t deadline) := waits_checkDeadline
  have hwait := hcheck s₀
  rw [currentUrl,exec_bind]
  rcases hx : exec (checkDeadline t deadline) s₀ with ⟨e | _,s₁⟩ <;> rw [hx] at hwait
  · have he := checkDeadline_error (congrArg Prod.fst hx)
    cases he
    exact ⟨hwait.2.trans hold.1,nofun,nofun⟩
  · dsimp only
    have hrequests : s₁.requests = s.requests := hwait.1.trans hold.2
    have hstate : s₁.state = s.state := hwait.2.trans hold.1
    rw [exec_bind,exec_target,hrequests]
    rcases hvalid : validateTargetId targetId with e | _
    · refine ⟨hstate,nofun,?_⟩
      rintro message timeout ⟨⟩
      unfold validateTargetId at hvalid
      split_ifs at hvalid
      cases hvalid
    · dsimp only
      -- a list without the target, or with one that shows no URL
      have hfailed : ∀ r : Except AuthError String, (∀ url, r ≠ .ok url) →
          shown t targetId s.requests = none →
            Looked t targetId s r { s₁ with requests := s.requests+1 } := fun r hr hnone =>
        ⟨hstate,fun url hurl => absurd hurl (hr url),fun _ _ _ => ⟨hnone,rfl⟩⟩
      have hshown : ∀ raw, t.targets s.requests = raw → shown t targetId s.requests =
          match raw with
          | .ok (.arr targets) => (targets.find? (isTarget targetId)).bind fun found =>
              (Json.get (asDict found) "url").asString.filter (· ≠ "")
          | _ => none := by
        rintro raw rfl
        rfl
      rcases hraw : t.targets s.requests with e | raw
      · exact hfailed _ nofun (hshown _ hraw)
      · cases raw with
        | arr targets =>
          have hshown := hshown _ hraw
          dsimp only at hshown ⊢
          cases hfound : targets.find? (isTarget targetId) with
          | none =>
            rw [hfound] at hshown
            exact hfailed _ nofun hshown
          | some found =>
            rw [hfound] at hshown
            dsimp only [Option.bind_some] at hshown ⊢
            cases hurl : (Json.get (asDict found) "url").asString.filter (· ≠ "") with
            | none =>
              rw [hurl] at hshown
              exact hfailed _ nofun hshown
            | some url =>
              rw [hurl] at hshown
              refine ⟨hstate,?_,nofun⟩
              rintro url' ⟨⟩
              exact ⟨hshown,rfl⟩
        | _ => exact hfailed _ nofun (hshown _ hraw)

theorem looked {r : Except AuthError String}
    (h : exec (lookup t targetId deadline) s = (.ok r,s')) : Looked t targetId s r s' := by
  have hcheck : Waits (checkDeadline t deadline) := waits_checkDeadline
  have hfirst := hcheck s
  rw [lookup,exec_bind] at h
  rcases hx : exec (checkDeadline t deadline) s with ⟨e | _,s₁⟩ <;> rw [hx] at h hfirst
  · cases h
  · have hsecond := hcheck s₁
    dsimp only at h
    rw [exec_bind] at h
    rcases hy : exec (checkDeadline t deadline) s₁ with ⟨e | _,s₂⟩ <;> rw [hy] at h hsecond
    · cases h
    · have hlook : Looked t targetId s (exec (currentUrl t targetId deadline) s₂).1
          (exec (currentUrl t targetId deadline) s₂).2 :=
        looked_currentUrl ⟨hsecond.2.trans hfirst.2,hsecond.1.trans hfirst.1⟩
      dsimp only at h
      rw [exec_outcome] at h
      cases h
      exact hlook

/-! ### The loop -/

theorem exec_targetUrlOrLast (s : Session) : exec (targetUrlOrLast t targetId deadline) s =
    match exec (checkDeadline t deadline) s with
    | (.error e,s') => (.error e,s')
    | (.ok _,s') => (recalled targetId (exec (currentUrl t targetId deadline) s').2.state
        (exec (currentUrl t targetId deadline) s').1,
          (exec (currentUrl t targetId deadline) s').2) := by
  rw [targetUrlOrLast,exec_bind]
  rcases exec (checkDeadline t deadline) s with ⟨e | _,s'⟩
  · rfl
  · dsimp only
    rw [exec_bind,exec_outcome]
    rcases exec (currentUrl t targetId deadline) s' with ⟨e | url,s''⟩
    · cases e with
      | unavailable message timeout =>
        dsimp only [recalled]
        rw [exec_bind,exec_get]
        dsimp only
        split_ifs <;> rfl
      | _ => rfl
    · rfl

/-- One turn of the loop. -/
theorem exec_settle (fuel : ℕ) (s : Session) :
    exec (settle t targetId fallback deadline settleEnd (fuel+1)) s =
      match exec (lookup t targetId deadline) s with
      | (.error e,s') => (.error e,s')
      | (.ok r,s') =>
        match recalled targetId s'.state r with
        | .error e => (.error e,s')
        | .ok url =>
          match originOf t.urlsplit url with
          | .error e => (.error e,s')
          | .ok (some _) => (.ok url,s')
          | .ok none =>
            if settleEnd ≤ t.clock s'.readings then
              (.ok fallback,{ s' with readings := s'.readings+1 })
            else exec (settle t targetId fallback deadline settleEnd fuel)
              { s' with readings := s'.readings+1 } := by
  rw [settle,exec_bind,lookup,exec_bind]
  rcases exec (checkDeadline t deadline) s with ⟨e | _,s₁⟩
  · rfl
  · dsimp only
    rw [exec_bind,exec_targetUrlOrLast,exec_bind]
    rcases exec (checkDeadline t deadline) s₁ with ⟨e | _,s₂⟩
    · rfl
    · dsimp only
      rw [exec_outcome]
      rcases exec (currentUrl t targetId deadline) s₂ with ⟨r,s₃⟩
      dsimp only
      rcases recalled targetId s₃.state r with e | url
      · rfl
      · dsimp only
        rw [exec_bind,exec_check]
        rcases originOf t.urlsplit url with e | _ | found
        · rfl
        · have hclock : exec (readClock t) s₃ =
              (.ok (t.clock s₃.readings),{ s₃ with readings := s₃.readings+1 }) := rfl
          dsimp only
          rw [Option.isSome_none,if_neg Bool.false_ne_true,exec_bind,hclock]
          dsimp only
          split_ifs <;> rfl
        · rfl

/-- What the target lists showed from one state to another stands for no login. -/
def Unseen (t : Surroundings) (origin targetId successPath : String) (s s' : Session) : Prop :=
  ∀ n, s.requests ≤ n → n < s'.requests → ¬ShowsLogin t origin targetId successPath n

/-- A turn that goes on has taken one target list. -/
theorem turn {r : Except AuthError String} {url : String} (h : Looked t targetId s r s')
    (hrecalled : recalled targetId s'.state r = .ok url) :
    s'.requests = s.requests+1 ∧ (shown t targetId s.requests = some url ∧ r = .ok url ∨
      shown t targetId s.requests = none ∧ ∃ e, r = .error e) := by
  rcases r with e | url'
  · cases e with
    | unavailable message timeout =>
      obtain ⟨hnone,hrequests⟩ := h.unavailable message timeout rfl
      exact ⟨hrequests,.inr ⟨hnone,_,rfl⟩⟩
    | _ => cases hrecalled
  · cases hrecalled
    obtain ⟨hshown,hrequests⟩ := h.url url rfl
    exact ⟨hrequests,.inl ⟨hshown,rfl⟩⟩

theorem unseen_turn {r : Except AuthError String} {url : String} (h : Looked t targetId s r s')
    (hrecalled : recalled targetId s'.state r = .ok url)
    (hnot : ∀ url, r = .ok url → proved t origin successPath url ≠ .ok true) :
    Unseen t origin targetId successPath s s' := by
  obtain ⟨hrequests,hshown⟩ := turn h hrecalled
  rintro n hfirst hlast ⟨url',hurl,hproved⟩
  have hn : n = s.requests := by omega
  rw [hn] at hurl
  rcases hshown with ⟨hsome,hr⟩ | ⟨hnone,-⟩
  · cases hsome.symm.trans hurl
    exact hnot url hr hproved
  · cases hnone.symm.trans hurl

theorem Misled.cases_turn {fuel : ℕ} {r : Except AuthError String}
    (h : Misled t origin targetId successPath deadline fallback settleEnd (fuel+1) s)
    (hlookup : exec (lookup t targetId deadline) s = (.ok r,s')) :
    ∃ url, recalled targetId s'.state r = .ok url ∧
      ((∃ e, r = .error e) ∧ proved t origin successPath url = .ok true ∨
        originOf t.urlsplit url = .ok none ∧
          (settleEnd ≤ t.clock s'.readings ∧ proved t origin successPath fallback = .ok true ∨
            ¬settleEnd ≤ t.clock s'.readings ∧ Misled t origin targetId successPath deadline
              fallback settleEnd fuel { s' with readings := s'.readings+1 })) := by
  cases h with
  | remembered hlookup' hrecalled hproved =>
    cases hlookup.symm.trans hlookup'
    exact ⟨_,hrecalled,.inl ⟨⟨_,rfl⟩,hproved⟩⟩
  | timedOut hlookup' hrecalled hblank hlate hproved =>
    cases hlookup.symm.trans hlookup'
    exact ⟨_,hrecalled,.inr ⟨hblank,.inl ⟨hlate,hproved⟩⟩⟩
  | again hlookup' hrecalled hblank hearly hrest =>
    cases hlookup.symm.trans hlookup'
    exact ⟨_,hrecalled,.inr ⟨hblank,.inr ⟨hearly,hrest⟩⟩⟩

theorem not_proved_blank {url : String} (h : originOf t.urlsplit url = .ok none) :
    proved t origin successPath url ≠ .ok true := by
  intro hproved
  cases h.symm.trans (proved_origin hproved)

/-- The loop is misled, and returns for a login what has not been seen; or it is not, and what it
returns for a login has been seen. -/
def Told (t : Surroundings) (origin targetId successPath : String) (deadline : Option Time)
    (fallback : String) (settleEnd : Time) (fuel : ℕ) (s : Session) : Prop :=
  (Misled t origin targetId successPath deadline fallback settleEnd fuel s ∧
    ∃ url s', exec (settle t targetId fallback deadline settleEnd fuel) s = (.ok url,s') ∧
      proved t origin successPath url = .ok true ∧ Unseen t origin targetId successPath s s') ∨
  ¬Misled t origin targetId successPath deadline fallback settleEnd fuel s ∧
    ∀ url s', exec (settle t targetId fallback deadline settleEnd fuel) s = (.ok url,s') →
      proved t origin successPath url = .ok true →
        ∃ n, s.requests ≤ n ∧ n < s'.requests ∧ ShowsLogin t origin targetId successPath n

section Told

variable {fuel : ℕ} {e : AuthError} {r : Except AuthError String} {url : String}

/-- A loop that raises is not misled. -/
theorem told_error {s₁ : Session}
    (hturn : exec (settle t targetId fallback deadline settleEnd fuel) s = (.error e,s₁))
    (hnot : ¬Misled t origin targetId successPath deadline fallback settleEnd fuel s) :
    Told t origin targetId successPath deadline fallback settleEnd fuel s :=
  .inr ⟨hnot,fun url s' h => by cases hturn.symm.trans h⟩

/-- The time is up, and the target shows no page. -/
theorem told_late (hlookup : exec (lookup t targetId deadline) s = (.ok r,s'))
    (hrecalled : recalled targetId s'.state r = .ok url)
    (hblank : originOf t.urlsplit url = .ok none) (hlate : settleEnd ≤ t.clock s'.readings)
    (hunseen : Unseen t origin targetId successPath s s')
    (hturn : exec (settle t targetId fallback deadline settleEnd (fuel+1)) s =
      (.ok fallback,{ s' with readings := s'.readings+1 })) :
    Told t origin targetId successPath deadline fallback settleEnd (fuel+1) s := by
  by_cases hproved : proved t origin successPath fallback = .ok true
  · exact .inl ⟨.timedOut hlookup hrecalled hblank hlate hproved,fallback,_,hturn,hproved,hunseen⟩
  · right
    constructor
    · intro h
      obtain ⟨url',hurl,hcase⟩ := h.cases_turn hlookup
      cases hrecalled.symm.trans hurl
      rcases hcase with ⟨-,hlogin⟩ | ⟨-,⟨-,hlogin⟩ | ⟨hearly,-⟩⟩
      · exact not_proved_blank hblank hlogin
      · exact hproved hlogin
      · exact hearly hlate
    · intro url' s'' h hlogin
      cases hturn.symm.trans h
      exact absurd hlogin hproved

/-- The target shows no page, and there is time for another turn. -/
theorem told_again (hlookup : exec (lookup t targetId deadline) s = (.ok r,s'))
    (hrecalled : recalled targetId s'.state r = .ok url)
    (hblank : originOf t.urlsplit url = .ok none) (hearly : ¬settleEnd ≤ t.clock s'.readings)
    (hunseen : Unseen t origin targetId successPath s s') (hrequests : s'.requests = s.requests+1)
    (hturn : exec (settle t targetId fallback deadline settleEnd (fuel+1)) s =
      exec (settle t targetId fallback deadline settleEnd fuel)
        { s' with readings := s'.readings+1 })
    (hrest : Told t origin targetId successPath deadline fallback settleEnd fuel
      { s' with readings := s'.readings+1 }) :
    Told t origin targetId successPath deadline fallback settleEnd (fuel+1) s := by
  rcases hrest with ⟨hmisled,url',s₂,hrest,hlogin,hnone⟩ | ⟨hnot,hseen⟩
  · refine .inl ⟨.again hlookup hrecalled hblank hearly hmisled,url',s₂,hturn.trans hrest,hlogin,?_⟩
    intro n hfirst hlast
    by_cases hn : n < s'.requests
    · exact hunseen n hfirst hn
    · exact hnone n (not_lt.mp hn) hlast
  · right
    constructor
    · intro h
      obtain ⟨url',hurl,hcase⟩ := h.cases_turn hlookup
      cases hrecalled.symm.trans hurl
      rcases hcase with ⟨-,hlogin⟩ | ⟨-,⟨hended,-⟩ | ⟨-,hrest⟩⟩
      · exact not_proved_blank hblank hlogin
      · exact hearly hended
      · exact hnot hrest
    · intro url' s'' h hlogin
      obtain ⟨n,hfirst,hlast,hshows⟩ := hseen url' s'' (hturn.symm.trans h) hlogin
      dsimp only at hfirst
      exact ⟨n,by omega,hlast,hshows⟩

/-- The target shows a page, or one is remembered for it. -/
theorem told_page {found : String} (hlookup : exec (lookup t targetId deadline) s = (.ok r,s'))
    (hrecalled : recalled targetId s'.state r = .ok url)
    (hpage : originOf t.urlsplit url = .ok (some found))
    (hturn : exec (settle t targetId fallback deadline settleEnd (fuel+1)) s = (.ok url,s')) :
    Told t origin targetId successPath deadline fallback settleEnd (fuel+1) s := by
  have hnot (h : ¬((∃ e, r = .error e) ∧ proved t origin successPath url = .ok true)) :
      ¬Misled t origin targetId successPath deadline fallback settleEnd (fuel+1) s := by
    intro hmisled
    obtain ⟨url',hurl,hcase⟩ := hmisled.cases_turn hlookup
    cases hrecalled.symm.trans hurl
    rcases hcase with hremembered | ⟨hblank,-⟩
    · exact h hremembered
    · cases hpage.symm.trans hblank
  obtain ⟨hrequests,⟨hsome,rfl⟩ | ⟨hnone,e,rfl⟩⟩ := turn (looked hlookup) hrecalled
  · refine .inr ⟨hnot ?_,?_⟩
    · rintro ⟨⟨e,he⟩,-⟩
      cases he
    · intro url' s'' h hlogin
      cases hturn.symm.trans h
      exact ⟨s.requests,le_refl _,by omega,url,hsome,hlogin⟩
  · by_cases hproved : proved t origin successPath url = .ok true
    · exact .inl ⟨.remembered hlookup hrecalled hproved,url,s',hturn,hproved,
        unseen_turn (looked hlookup) hrecalled nofun⟩
    · refine .inr ⟨hnot fun h => hproved h.2,?_⟩
      intro url' s'' h hlogin
      cases hturn.symm.trans h
      exact absurd hlogin hproved

theorem told (fuel : ℕ) (s : Session) :
    Told t origin targetId successPath deadline fallback settleEnd fuel s := by
  induction fuel generalizing s with
  | zero => exact .inr ⟨nofun,nofun⟩
  | succ fuel ih =>
    have hturn := @exec_settle t targetId fallback deadline settleEnd fuel s
    rcases hlookup : exec (lookup t targetId deadline) s with ⟨e | r,s₁⟩
    · rw [hlookup] at hturn
      apply told_error hturn
      intro h
      cases h with
      | remembered hlookup' _ _ => cases hlookup.symm.trans hlookup'
      | timedOut hlookup' _ _ _ _ => cases hlookup.symm.trans hlookup'
      | again hlookup' _ _ _ _ => cases hlookup.symm.trans hlookup'
    · rw [hlookup] at hturn
      dsimp only at hturn
      rcases hrecalled : recalled targetId s₁.state r with e | url
      · rw [hrecalled] at hturn
        apply told_error hturn
        intro h
        obtain ⟨url,hurl,-⟩ := h.cases_turn hlookup
        cases hrecalled.symm.trans hurl
      · rw [hrecalled] at hturn
        dsimp only at hturn
        rcases horigin : originOf t.urlsplit url with e | _ | found
        · rw [horigin] at hturn
          apply told_error hturn
          intro h
          obtain ⟨url',hurl,⟨-,hproved⟩ | ⟨hblank,-⟩⟩ := h.cases_turn hlookup
          · cases hrecalled.symm.trans hurl
            cases horigin.symm.trans (proved_origin hproved)
          · cases hrecalled.symm.trans hurl
            cases horigin.symm.trans hblank
        · rw [horigin] at hturn
          dsimp only at hturn
          have hunseen : Unseen t origin targetId successPath s s₁ := by
            apply unseen_turn (looked hlookup) hrecalled
            rintro url' rfl
            cases hrecalled
            exact not_proved_blank horigin
          by_cases hlate : settleEnd ≤ t.clock s₁.readings
          · rw [if_pos hlate] at hturn
            exact told_late hlookup hrecalled horigin hlate hunseen hturn
          · rw [if_neg hlate] at hturn
            exact told_again hlookup hrecalled horigin hlate hunseen
              (turn (looked hlookup) hrecalled).1 hturn (ih _)
        · rw [horigin] at hturn
          exact told_page hlookup hrecalled horigin hturn

end Told

/-! ### Challenges after the answer -/

/-- After the credentials no challenge of the declared origin has come. -/
def Calm (t : Surroundings) (origin : String) (effects : List Effect) : Prop :=
  ∀ (i j : ℕ) c b message id, effects[i]? = some (.sent c b) → c.provides = true → i < j →
    effects[j]? = some (.received message) → ¬Challenges t origin message id

section Calm

variable {effects rest : List Effect} {sent : Bool} {message : Message} {flags : Flags}

theorem calm_of_none (h : ∀ x ∈ effects, x.provides = false) : Calm t origin effects := by
  intro i j c b message id hi hc
  have hnone : c.provides = false := h _ (List.mem_of_getElem? hi)
  rw [hnone] at hc
  cases hc

theorem Calm.append (h : Calm t origin effects) (hrest : ∀ x ∈ rest, x.provides = false)
    (hmessages : ∀ message id, .received message ∈ rest → ¬Challenges t origin message id) :
    Calm t origin (effects ++ rest) := by
  intro i j c b message id hi hc hij hj
  have hlt : i < effects.length := by
    by_contra hge
    rw [List.getElem?_append_right (not_lt.mp hge)] at hi
    have hnone : c.provides = false := hrest _ (List.mem_of_getElem? hi)
    rw [hnone] at hc
    cases hc
  rw [List.getElem?_append_left hlt] at hi
  by_cases hj' : j < effects.length
  · rw [List.getElem?_append_left hj'] at hj
    exact h i j c b message id hi hc hij hj
  · rw [List.getElem?_append_right (not_lt.mp hj')] at hj
    exact hmessages message id (List.mem_of_getElem? hj)

/-- Nothing comes after the last effect. -/
theorem calm_last (h : ∀ x ∈ effects, x.provides = false) (x : Effect) :
    Calm t origin (effects ++ [x]) := by
  intro i j c b message id hi hc hij hj
  have hlast : j < (effects ++ [x]).length := (List.getElem?_eq_some_iff.mp hj).1
  rw [List.length_append,List.length_singleton] at hlast
  rw [List.getElem?_append_left (by omega)] at hi
  have hnone : c.provides = false := h _ (List.mem_of_getElem? hi)
  rw [hnone] at hc
  cases hc

/-- Before the credentials nothing has been provided; after them no challenge has come. -/
structure Calms (t : Surroundings) (origin : String) (sent : Bool) (effects : List Effect) :
    Prop where
  none : sent = false → ∀ x ∈ effects, x.provides = false
  calm : Calm t origin effects

theorem Calms.append (h : Calms t origin sent effects) (hrest : ∀ x ∈ rest, x.provides = false)
    (hmessages : ∀ message id, .received message ∈ rest → ¬Challenges t origin message id) :
    Calms t origin sent (effects ++ rest) := by
  refine ⟨?_,h.calm.append hrest hmessages⟩
  intro hsent x hx
  rcases List.mem_append.mp hx with hold | hnew
  · exact h.none hsent x hold
  · exact hrest x hnew

theorem Calms.send (h : Calms t origin sent effects) {c : Command} (hc : c.provides = false)
    (b : Bool) : Calms t origin sent (effects ++ [.sent c b]) := by
  apply h.append
  · simpa [Effect.provides] using hc
  · simp

theorem Calms.received (h : Calms t origin sent effects)
    (hmessage : ∀ id, ¬Challenges t origin message id) :
    Calms t origin sent (effects ++ [.received message]) := by
  apply h.append
  · simp [Effect.provides]
  · intro message' id hmem
    rw [List.mem_singleton] at hmem
    cases hmem
    exact hmessage id

/-- How the loop ends, unless it raises or meets a second challenge. -/
def Calmed (t : Surroundings) (origin : String) : Except AuthError Flags → Session → Prop
  | .ok flags, s => flags.challengeLoop = false → Calm t origin s.trace
  | .error _, _ => True

theorem Quiet.calmed {α : Type} {m : Action α} {f : α → Action Flags} (hm : Quiet m)
    (hf : ∀ x, Triple (fun s => s.trace = effects) (f x) (Calmed t origin)) :
    Triple (fun s => s.trace = effects) (m >>= f) (Calmed t origin) :=
  Triple.bind (hm effects) hf fun _ _ _ => trivial

theorem send_calmed {f : Unit → Action Flags} (c : Command)
    (hf : Triple (fun s => s.trace = effects ++ [.sent c true]) (f ()) (Calmed t origin)) :
    Triple (fun s => s.trace = effects) (send t c >>= f) (Calmed t origin) :=
  Triple.bind (send_triple c) (fun _ => hf) fun _ _ _ => trivial

/-- A challenge of the declared origin is one that is matched. -/
theorem matching_of_challenges {id : String} (h : Challenges t origin message id) :
    matching t origin message = .ok (some id) := by
  obtain ⟨url,hurl,horigin⟩ := h.request
  rw [matching,h.challenge,h.requested,hurl]
  simp only [bind,Except.bind,horigin,and_self,if_true]
  rfl

/-- The loop from some number of replies on. -/
def Goes (t : Surroundings) (origin username password : String) (deadline : Option Time)
    (replies : ℕ) : Prop :=
  ∀ (flags : Flags) (effects : List Effect), Calms t origin flags.credentialsSent effects →
    Triple (fun s => s.trace = effects)
      (answerChallenges t origin username password deadline replies flags) (Calmed t origin)

theorem answerChallenge_calmed {replies : ℕ} (h : Calms t origin flags.credentialsSent effects)
    (ih : Goes t origin username password deadline replies) :
    Triple (fun s => s.trace = effects ++ [.received message])
      (answerChallenge t origin username password deadline flags message
        (answerChallenges t origin username password deadline replies)) (Calmed t origin) := by
  refine Triple.check_bind (Q:=Calmed t origin) ?_ fun _ _ _ => trivial
  intro found hfound
  cases found with
  | none =>
    have hother : Calms t origin flags.credentialsSent (effects ++ [.received message]) := by
      apply h.received
      intro id hchallenges
      cases hfound.symm.trans (matching_of_challenges hchallenges)
    dsimp only [cancelAuth]
    split
    · exact send_calmed _ (ih flags _ (hother.send (provides_cancel _) true))
    · exact (Quiet.pure ()).calmed fun _ => ih flags _ hother
  | some id =>
    dsimp only
    by_cases hsent : flags.credentialsSent = true
    · rw [if_pos hsent]
      apply send_calmed
      intro s _ hloop
      cases hloop
    · rw [if_neg hsent]
      have hnone := h.none (Bool.eq_false_iff.mpr hsent)
      refine quiet_checkDeadline.calmed fun _ => send_calmed _ (ih _ _ ⟨nofun,calm_last ?_ _⟩)
      intro x hx
      rcases List.mem_append.mp hx with hold | hnew
      · exact hnone x hold
      · rw [List.mem_singleton.mp hnew]
        rfl

theorem goes (replies : ℕ) : Goes t origin username password deadline replies := by
  induction replies with
  | zero =>
    intro flags effects h s hs _
    rw [answerChallenges,exec_pure,hs]
    exact h.calm
  | succ replies ih =>
    intro flags effects h
    rw [answerChallenges]
    apply quiet_checkDeadline.calmed
    intro _
    apply receive_bind
    · intro message
      apply quiet_checkDeadline.calmed
      intro _
      by_cases hevent : isMethod message "Fetch.authRequired" = true
      · rw [if_pos hevent]
        exact answerChallenge_calmed h ih
      · have hother : Calms t origin flags.credentialsSent (effects ++ [.received message]) :=
          h.received fun id hchallenges => hevent hchallenges.event
        rw [if_neg hevent]
        split_ifs
        · dsimp only [continueRequest]
          split
          · exact send_calmed _ (ih flags _ (hother.send rfl true))
          · exact (Quiet.pure ()).calmed fun _ => ih flags _ hother
        · exact ih flags _ hother
    · intro e
      dsimp only
      split_ifs with hlate <;> intro s hs
      · rcases hs with hsame | ⟨htimeout,-⟩
        · intro _
          rw [exec_pure,hsame]
          exact h.calm
        · rw [htimeout] at hlate
          exact absurd hlate.2.2 Bool.false_ne_true
      · trivial

/-- The connection, from the credentials to its end. -/
theorem exchange_calmed (current : String) : Triple (fun s => s.trace = [])
    (ensuring (converse t origin username password deadline current) (hangUp t))
    (Calmed t origin) := by
  have hstart : Calms t origin false [] := by
    refine ⟨?_,calm_of_none ?_⟩ <;> simp
  have hconverse : Triple (fun s => s.trace = [])
      (converse t origin username password deadline current) (Calmed t origin) := by
    apply send_calmed
    apply send_calmed
    have hgoes : Goes t origin username password deadline 128 := goes 128
    refine Triple.bind (hgoes {} _ ((hstart.send rfl true).send rfl true)) ?_ fun _ _ _ => trivial
    intro flags s hs
    dsimp only
    split_ifs
    · exact hs
    · trivial
  intro s hs
  have hresult := hconverse s hs
  rw [exec_ensuring]
  rcases hr : exec (converse t origin username password deadline current) s with ⟨r,s'⟩
  rw [hr] at hresult
  dsimp only
  have hclosed := exec_hangUp (t:=t) s'
  rcases hc : exec (hangUp t) s' with ⟨e | _,s''⟩
  · trivial
  · rcases r with e | flags
    · trivial
    · intro hloop
      have hsend := send_triple (t:=t) disableFetch s' rfl
      rw [hc] at hclosed
      dsimp only at hclosed ⊢
      rw [hclosed,hsend]
      apply Calm.append (hresult hloop)
      · simp only [List.mem_singleton,forall_eq]
        rfl
      · simp

end Calm

/-! ### The submission -/

section Submission

variable (t : Surroundings) (origin username password : String) (deadline : Option Time)
  (timeout : Time) (targetId successPath : String) (fuel : ℕ)

/-- What a submission does before its connection: it returns the URL from before. -/
def opening : Action String := do
  check (validateCredential t.urlsplit origin username password)
  check (validateTargetId targetId)
  check (validateSuccessPath successPath)
  checkDeadline t deadline
  let current ← targetUrlOrLast t targetId deadline
  check (checkCurrent t origin current)
  let _ ← remaining t deadline timeout
  let _ ← pageWebsocket t timeout targetId deadline fuel
  check t.connect
  return current

/-- When the loop ends that waits for a page. -/
def settlingEnd : Action Time := do
  let now ← readClock t
  let left ← remaining t deadline 1
  return now + min timeout left

/-- What a submission does on its connection. -/
def exchange (current : String) : Action Flags :=
  ensuring (converse t origin username password deadline current) (hangUp t)

/-- A submission that is mistaken for a login: it gets through with no second challenge, and is
misled about the page after it. -/
inductive Mistaken (s : Session) : Prop
  | intro {s₀ s₁ s₂ : Session} {current : String} {flags : Flags} {settleEnd : Time}
      (hlocked : s.locked = false)
      (hopening : exec (opening t origin username password deadline timeout targetId successPath
        fuel) { s with locked := true, trace := [] } = (.ok current,s₀))
      (hexchange : exec (exchange t origin username password deadline current) s₀ = (.ok flags,s₁))
      (hloop : flags.challengeLoop = false)
      (hend : exec (settlingEnd t deadline timeout) s₁ = (.ok settleEnd,s₂))
      (hmisled : Misled t origin targetId successPath deadline current settleEnd fuel s₂)

/-- What is claimed of a submission: a login that it reports has been seen after its credentials,
and no challenge has come after them. -/
def LoginObserved (s : Session) : Prop :=
  ∀ final, exec (submit t origin username password deadline timeout targetId successPath fuel)
    { s with trace := [] } = (.ok (),final) → final.state.applicationAuthenticated = true →
      ∃ current s₀, exec (opening t origin username password deadline timeout targetId successPath
        fuel) { s with locked := true, trace := [] } = (.ok current,s₀) ∧
          (∃ n, s₀.requests ≤ n ∧ n < final.requests ∧
            ShowsLogin t origin targetId successPath n) ∧
          Calm t origin final.trace

variable {t origin username password deadline timeout targetId successPath fuel}

theorem submitLocked_eq :
    submitLocked t origin username password deadline timeout targetId successPath fuel =
      opening t origin username password deadline timeout targetId successPath fuel >>=
        fun current => exchange t origin username password deadline current >>=
          recordState t origin deadline timeout targetId successPath current fuel := by
  simp only [submitLocked,opening,exchange,bind_assoc,pure_bind]

theorem settledTargetUrl_eq : settledTargetUrl t timeout targetId fallback deadline fuel =
    settlingEnd t deadline timeout >>= fun settleEnd =>
      settle t targetId fallback deadline settleEnd fuel := by
  simp only [settledTargetUrl,settlingEnd,bind_assoc,pure_bind]

/-- What it takes to record a state. -/
theorem exec_recordState_iff {current : String} {flags : Flags} :
    exec (recordState t origin deadline timeout targetId successPath current fuel flags) s =
      (.ok (),s') ↔ ∃ settleEnd s₂ url s₃ authenticated,
        exec (settlingEnd t deadline timeout) s = (.ok settleEnd,s₂) ∧
        exec (settle t targetId current deadline settleEnd fuel) s₂ = (.ok url,s₃) ∧
        (if flags.challengeLoop then .ok false else proved t origin successPath url) =
          .ok authenticated ∧
        s' = { s₃ with state :=
          ⟨targetId,url,if flags.challengeLoop then some origin else none,authenticated⟩ } := by
  rw [recordState,exec_bind_eq_ok,settledTargetUrl_eq]
  constructor
  · rintro ⟨url,s₃,hurl,hrest⟩
    obtain ⟨settleEnd,s₂,hend,hsettle⟩ := exec_bind_eq_ok.mp hurl
    obtain ⟨authenticated,s₄,hproved,hstate⟩ := exec_bind_eq_ok.mp hrest
    rw [exec_check] at hproved
    obtain ⟨hvalue,rfl⟩ := Prod.mk.inj hproved
    cases hstate
    exact ⟨settleEnd,s₂,url,s₃,authenticated,hend,hsettle,hvalue,rfl⟩
  · rintro ⟨settleEnd,s₂,url,s₃,authenticated,hend,hsettle,hproved,rfl⟩
    refine ⟨url,s₃,exec_bind_eq_ok.mpr ⟨settleEnd,s₂,hend,hsettle⟩,?_⟩
    rw [exec_bind,exec_check,hproved]
    rfl

/-- What it takes for a submission to return. -/
theorem exec_submit_iff : exec
    (submit t origin username password deadline timeout targetId successPath fuel) s =
      (.ok (),s') ↔ s.locked = false ∧ ∃ current s₀ flags s₁ final,
        exec (opening t origin username password deadline timeout targetId successPath fuel)
          { s with locked := true } = (.ok current,s₀) ∧
        exec (exchange t origin username password deadline current) s₀ = (.ok flags,s₁) ∧
        exec (recordState t origin deadline timeout targetId successPath current fuel flags) s₁ =
          (.ok (),final) ∧ s' = { final with locked := false } := by
  rw [submit,exec_bind,exec_get]
  dsimp only
  by_cases hlocked : s.locked = true
  · rw [if_pos hlocked]
    simp [hlocked]
  · have hfree : s.locked = false := Bool.eq_false_iff.mpr hlocked
    rw [if_neg hlocked,exec_bind,exec_modify]
    dsimp only
    rw [exec_ensuring,submitLocked_eq]
    constructor
    · intro h
      refine ⟨hfree,?_⟩
      rcases hx : exec (opening t origin username password deadline timeout targetId successPath
        fuel >>= fun current => exchange t origin username password deadline current >>=
          recordState t origin deadline timeout targetId successPath current fuel)
        { s with locked := true } with ⟨r,final⟩
      rw [hx] at h
      dsimp only at h
      rw [exec_modify] at h
      cases h
      obtain ⟨current,s₀,hopening,hrest⟩ := exec_bind_eq_ok.mp hx
      obtain ⟨flags,s₁,hexchange,hrecord⟩ := exec_bind_eq_ok.mp hrest
      exact ⟨current,s₀,flags,s₁,final,hopening,hexchange,hrecord,rfl⟩
    · rintro ⟨-,current,s₀,flags,s₁,final,hopening,hexchange,hrecord,rfl⟩
      rw [exec_bind_eq_ok.mpr ⟨_,_,hopening,exec_bind_eq_ok.mpr ⟨_,_,hexchange,hrecord⟩⟩]
      dsimp only
      rw [exec_modify]

theorem waits_settlingEnd : Waits (settlingEnd t deadline timeout) :=
  waits_readClock.bind fun _ => (waits_remaining 1).bind fun _ => .pure _

/-- The target lists of the loop are taken after the credentials. -/
theorem requests_settle {current : String} {flags : Flags} {s₁ s₂ : Session} {settleEnd : Time}
    (hexchange : exec (exchange t origin username password deadline current) s₀ = (.ok flags,s₁))
    (hend : exec (settlingEnd t deadline timeout) s₁ = (.ok settleEnd,s₂)) :
    s₂.requests = s₀.requests := by
  have hwaits : Waits (exchange t origin username password deadline current) :=
    waits_exchange current
  have hlimit : Waits (settlingEnd t deadline timeout) := waits_settlingEnd
  have hfirst := (hwaits s₀).1
  have hsecond := (hlimit s₁).1
  rw [hexchange] at hfirst
  rw [hend] at hsecond
  exact hsecond.trans hfirst

/-- The loop leaves what has been sent and received. -/
theorem trace_settle {current : String} {s₁ s₂ s₃ : Session} {settleEnd : Time} {url : String}
    (hend : exec (settlingEnd t deadline timeout) s₁ = (.ok settleEnd,s₂))
    (hsettle : exec (settle t targetId current deadline settleEnd fuel) s₂ = (.ok url,s₃)) :
    s₃.trace = s₁.trace := by
  have hurl : exec (settledTargetUrl t timeout targetId current deadline fuel) s₁ =
      (.ok url,s₃) := by
    rw [settledTargetUrl_eq]
    exact exec_bind_eq_ok.mpr ⟨settleEnd,s₂,hend,hsettle⟩
  have hquiet : Quiet (settledTargetUrl t timeout targetId current deadline fuel) :=
    quiet_settledTargetUrl timeout targetId current fuel
  have hsame := hquiet s₁.trace s₁ rfl
  rwa [hurl] at hsame

/-- The connection is opened with nothing sent. -/
theorem trace_opening {current : String} (hempty : s.trace = [])
    (hopening : exec (opening t origin username password deadline timeout targetId successPath
      fuel) s = (.ok current,s₀)) : s₀.trace = [] := by
  have hquiet : Quiet (opening t origin username password deadline timeout targetId successPath
      fuel) := by
    apply (Quiet.check _).bind
    intro _
    apply (Quiet.check _).bind
    intro _
    apply (Quiet.check _).bind
    intro _
    apply quiet_checkDeadline.bind
    intro _
    apply (quiet_targetUrlOrLast targetId).bind
    intro current
    apply (Quiet.check _).bind
    intro _
    apply (quiet_remaining timeout).bind
    intro _
    apply (quiet_pageWebsocket timeout targetId fuel).bind
    intro _
    apply (Quiet.check _).bind
    intro _
    exact .pure _
  have hsame := hquiet [] s hempty
  rwa [hopening] at hsame

end Submission

/-- A submission reports a login that has not been seen exactly where it is mistaken. -/
theorem login_observed_iff (t : Surroundings) (origin username password : String)
    (deadline : Option Time) (timeout : Time) (targetId successPath : String) (fuel : ℕ)
    (s : Session) :
    LoginObserved t origin username password deadline timeout targetId successPath fuel s ↔
      ¬Mistaken t origin username password deadline timeout targetId successPath fuel s := by
  constructor
  · rintro hobserved ⟨hlocked,hopening,hexchange,hloop,hend,hmisled⟩
    rename_i s₀ s₁ s₂ current flags settleEnd
    have htold : Told t origin targetId successPath deadline current settleEnd fuel s₂ :=
      told fuel s₂
    rcases htold with ⟨-,url,s₃,hsettle,hproved,hunseen⟩ | ⟨hnot,-⟩
    · have hrecord : exec (recordState t origin deadline timeout targetId successPath current fuel
          flags) s₁ = (.ok (),{ s₃ with state := ⟨targetId,url,none,true⟩ }) := by
        refine exec_recordState_iff.mpr ⟨settleEnd,s₂,url,s₃,true,hend,hsettle,?_,?_⟩
        · simpa [hloop] using hproved
        · simp [hloop]
      have hsubmit := (exec_submit_iff (s:={ s with trace := [] })).mpr
        ⟨hlocked,current,s₀,flags,s₁,_,hopening,hexchange,hrecord,rfl⟩
      obtain ⟨current',s₀',hopening',⟨n,hfirst,hlast,hshows⟩,-⟩ := hobserved _ hsubmit rfl
      cases hopening.symm.trans hopening'
      rw [← requests_settle hexchange hend] at hfirst
      exact hunseen n hfirst hlast hshows
    · exact hnot hmisled
  · intro hnot final hsubmit hauthenticated
    obtain ⟨hlocked,current,s₀,flags,s₁,recorded,hopening,hexchange,hrecord,rfl⟩ :=
      exec_submit_iff.mp hsubmit
    obtain ⟨settleEnd,s₂,url,s₃,authenticated,hend,hsettle,hproved,rfl⟩ :=
      exec_recordState_iff.mp hrecord
    dsimp only at hauthenticated
    subst hauthenticated
    by_cases hloop : flags.challengeLoop = true
    · rw [if_pos hloop] at hproved
      cases hproved
    · rw [if_neg hloop] at hproved
      have hquiet : flags.challengeLoop = false := Bool.eq_false_iff.mpr hloop
      refine ⟨current,s₀,hopening,?_,?_⟩
      · have htold : Told t origin targetId successPath deadline current settleEnd fuel s₂ :=
          told fuel s₂
        rcases htold with ⟨hmisled,-⟩ | ⟨-,hseen⟩
        · exact absurd ⟨hlocked,hopening,hexchange,hquiet,hend,hmisled⟩ hnot
        · obtain ⟨n,hfirst,hlast,hshows⟩ := hseen url s₃ hsettle hproved
          rw [requests_settle hexchange hend] at hfirst
          exact ⟨n,hfirst,hlast,hshows⟩
      · have hcalmed : Triple (fun s => s.trace = [])
            (exchange t origin username password deadline current) (Calmed t origin) :=
          exchange_calmed current
        have hcalm := hcalmed s₀ (trace_opening rfl hopening)
        rw [hexchange] at hcalm
        show Calm t origin s₃.trace
        rw [trace_settle hend hsettle]
        exact hcalm hquiet

/-- Chrome on the page that stands for a login, which it challenges once and then fails to load. -/
def failing : Surroundings where
  urlsplit url :=
    if url = "ws://localhost:9222/tab" then
      .ok ⟨⟨"ws","localhost:9222","/tab","","",none,none⟩,some "localhost",.ok (some 9222)⟩
    else if url = "https://site.example" then
      .ok ⟨⟨"https","site.example","","","",none,none⟩,some "site.example",.ok none⟩
    else if url = "https://site.example/home" then
      .ok ⟨⟨"https","site.example","/home","","",none,none⟩,some "site.example",.ok none⟩
    else .ok ⟨⟨"chrome-error","chromewebdata","/","","",none,none⟩,some "chromewebdata",.ok none⟩
  clock n := n
  targets n := .ok (.arr [.obj [("type",.str "page"),("id",.str "tab"),
    ("url",.str (if n < 2 then "https://site.example/home" else "chrome-error://chromewebdata/")),
    ("webSocketDebuggerUrl",.str "ws://localhost:9222/tab")]])
  connect := .ok ()
  send _ := .ok ()
  recv n := if n = 2 then .ok (some (.obj [("method",.str "Fetch.authRequired"),("params",.obj
      [("requestId",.str "request"),("request",.obj [("url",.str "https://site.example/home")]),
        ("authChallenge",.obj [("scheme",.str "Basic"),("origin",.str "https://site.example")])])]))
    else .error .timeoutError
  close := .ok ()

/-- Only the URL from before the submission is that of the login. -/
theorem failing_not_observed : ¬LoginObserved failing "https://site.example" "user" "password" none
    5 "tab" "/home" 1 ⟨⟨"","",none,false⟩,false,0,0,[]⟩ := by
  intro hobserved
  let start : Session := ⟨⟨"","",none,false⟩,false,0,0,[]⟩
  have hend : ((exec (submit failing "https://site.example" "user" "password" none 5 "tab" "/home" 1)
      start).map (fun r => r.isOk) fun s => (s.state.applicationAuthenticated,s.requests)) =
        (true,true,3) := by decide +kernel
  obtain ⟨result,hresult⟩ : ∃ result, result =
    exec (submit failing "https://site.example" "user" "password" none 5 "tab" "/home" 1) start :=
    ⟨_,rfl⟩
  rw [← hresult] at hend
  obtain ⟨r | ⟨⟨⟩⟩,s₁⟩ := result
  · cases congrArg Prod.fst hend
  have hauthenticated : s₁.state.applicationAuthenticated = true :=
    congrArg (fun x => x.2.1) hend
  have hlast : s₁.requests = 3 := congrArg (fun x => x.2.2) hend
  obtain ⟨current,s₀,hopening,⟨n,hfirst,hn,url,hshown,hproved⟩,-⟩ :=
    hobserved s₁ hresult.symm hauthenticated
  have hopened : s₀.requests = 2 := by
    rw [← show (exec (opening failing "https://site.example" "user" "password" none 5 "tab" "/home"
      1) { start with locked := true }).2.requests = 2 by decide +kernel]
    exact congrArg (fun r => r.2.requests) hopening.symm
  have htwo : n = 2 := by omega
  rw [htwo] at hshown
  have hblank : shown failing "tab" 2 = some "chrome-error://chromewebdata/" := by decide +kernel
  cases hblank.symm.trans hshown
  have hnot : proved failing "https://site.example" "/home" "chrome-error://chromewebdata/" =
      .ok false := by decide +kernel
  cases hnot.symm.trans hproved

end BasicAuth
end CloudBrowser
