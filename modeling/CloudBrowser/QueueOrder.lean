import CloudBrowser.QueueTurns

/-! Who has waited longer. The queue is ordered by a clock that may stand still, and then by the
text of the session ids; the numbers in these grow with each session, but their texts do not. -/
namespace CloudBrowser
namespace RouterSessions

open Stateful Keyed

/-- The place in the queue that `position_for` finds. -/
def position (t : SessionTable) (id : String) : Option ℕ :=
  (((queue t).map RouterSession.sessionId).idxOf? id).map (·+1)

def positionFor (sessionId : String) : Operation (Option ℕ) := do
  let record ← requireLocked sessionId
  if record.status ≠ .waiting then return none
  else do
    let t ← sessions
    return position t sessionId

def holds (t : SessionTable) (id : String) (status : SessionStatus) : Bool :=
  (t.find id).any fun r => r.status = status

section Places

variable {t : SessionTable} {a b r : RouterSession} {id : String} {status : SessionStatus}

theorem holds_iff : holds t id status = true ↔ ∃ r ∈ t, r.sessionId = id ∧ r.status = status := by
  simp only [holds,Option.any_eq_true,Table.find_eq_some,decide_eq_true_eq]
  exact ⟨fun ⟨r,⟨hr,hid⟩,hs⟩ => ⟨r,hr,hid,hs⟩,fun ⟨r,hr,hid,hs⟩ => ⟨r,⟨hr,hid⟩,hs⟩⟩

theorem holds_of_mem (hr : r ∈ t) : holds t r.sessionId status = true ↔ r.status = status := by
  rw [holds_iff]
  constructor
  · rintro ⟨x,hx,hid,hstatus⟩
    rwa [← Table.eq_of_key hx hr hid]
  · exact fun hstatus => ⟨r,hr,rfl,hstatus⟩

theorem idxOf_lt_iff {q : List RouterSession} (hsorted : q.Pairwise RouterSession.before)
    (hnodup : (q.map RouterSession.sessionId).Nodup) (ha : a ∈ q) (hb : b ∈ q)
    (hne : a.sessionId ≠ b.sessionId) :
    ∃ i j, (q.map RouterSession.sessionId).idxOf? a.sessionId = some i ∧
      (q.map RouterSession.sessionId).idxOf? b.sessionId = some j ∧ (i < j ↔ a.before b) := by
  induction q with
  | nil => cases ha
  | cons x q ih =>
    rw [List.pairwise_cons] at hsorted
    rw [List.map_cons,List.nodup_cons] at hnodup
    have hcons : ∀ y ∈ q, ∀ i, (q.map RouterSession.sessionId).idxOf? y.sessionId = some i →
        ((x::q).map RouterSession.sessionId).idxOf? y.sessionId = some (i+1) := by
      intro y hy i hi
      have hx : x.sessionId ≠ y.sessionId := fun heq => hnodup.1 (heq ▸ List.mem_map_of_mem hy)
      simp [List.idxOf?_cons,hx,hi]
    have hhead : ((x::q).map RouterSession.sessionId).idxOf? x.sessionId = some 0 := by
      simp [List.idxOf?_cons]
    have hfound : ∀ y ∈ q, ∃ i, (q.map RouterSession.sessionId).idxOf? y.sessionId = some i := by
      intro y hy
      apply Option.isSome_iff_exists.mp
      rw [List.isSome_idxOf?]
      exact List.mem_map_of_mem hy
    rcases List.mem_cons.mp ha with rfl | haq <;> rcases List.mem_cons.mp hb with rfl | hbq
    · exact absurd rfl hne
    · obtain ⟨j,hj⟩ := hfound b hbq
      exact ⟨0,j+1,hhead,hcons b hbq j hj,iff_of_true (by omega) (hsorted.1 b hbq)⟩
    · obtain ⟨i,hi⟩ := hfound a haq
      refine ⟨i+1,0,hcons a haq i hi,hhead,iff_of_false (by omega) fun hab => ?_⟩
      exact hne (RouterSession.sessionId_of_before hab (hsorted.1 a haq))
    · obtain ⟨i,j,hi,hj,hij⟩ := ih hsorted.2 hnodup.2 haq hbq
      exact ⟨i+1,j+1,hcons a haq i hi,hcons b hbq j hj,by rw [← hij]; omega⟩

/-- The places of those who wait are in the order of the queue. -/
theorem position_lt_iff (ha : a ∈ queue t) (hb : b ∈ queue t) (hne : a.sessionId ≠ b.sessionId) :
    (∃ i j, position t a.sessionId = some i ∧ position t b.sessionId = some j ∧ i < j) ↔
      a.before b := by
  obtain ⟨i,j,hi,hj,hij⟩ := idxOf_lt_iff (sorted_queue t) (nodup_queue t) ha hb hne
  simp only [position,hi,hj,Option.map_some,Option.some.injEq,← hij]
  constructor
  · rintro ⟨_,_,rfl,rfl,hlt⟩
    omega
  · exact fun hlt => ⟨i+1,j+1,rfl,rfl,by omega⟩

end Places

/-- `position_for` of a session. -/
theorem exec_positionFor {w : World} {r : RouterSession} (hr : r ∈ w.store.sessions)
    (hid : readable r.sessionId = true) : exec (positionFor r.sessionId) w =
      (.ok (position w.store.sessions r.sessionId),w) := by
  have hfind : w.store.sessions.find r.sessionId = some r := Table.find_eq_some.mpr ⟨hr,rfl⟩
  rw [positionFor,exec_bind,exec_requireLocked,if_pos hid,hfind]
  by_cases hwaiting : r.status = .waiting
  · simp only [hwaiting]
    rfl
  · have hnone : position w.store.sessions r.sessionId = none := by
      simp only [position,Option.map_eq_none_iff,List.idxOf?_eq_none_iff,List.mem_map,not_exists,
        not_and]
      intro x hx heq
      obtain ⟨hx,hxwaiting⟩ := mem_queue.mp hx
      exact hwaiting (Table.eq_of_key hx hr heq ▸ hxwaiting)
    simp [hwaiting,hnone]

section Turns

variable {settings : Settings} {request : Request} {outside : Outside} {t t₁ t' : SessionTable}
  {r r' x : RouterSession}

/-- No session joins in a call of the request. -/
def Request.Joins : Request → Prop
  | .enqueue _ _ _ => True
  | _ => False

theorem expire_of_waiting {now : Time} (h : r.status = .waiting) : r.expire now = r :=
  expire_of_not_lapsed (by simp [RouterSession.lapsed,h])

theorem eq_of_expire_offered {now : Time} (h : (r.expire now).status = .offered) :
    r.expire now = r := by
  cases hlapsed : r.lapsed now with
  | false => exact expire_of_not_lapsed hlapsed
  | true =>
    unfold RouterSession.expire at h
    rw [hlapsed] at h
    cases hs : r.status <;> simp [hs] at h

theorem lapses_waiting (h : Relation.ReflTransGen (Lapse outside) t t₁) (hr : r ∈ t)
    (hwaiting : r.status = .waiting) : r ∈ t₁ := by
  induction h with
  | refl => exact hr
  | tail _ hstep ih =>
    obtain ⟨n,rfl⟩ := hstep
    exact mem_expireAll.mpr ⟨r,ih,expire_of_waiting hwaiting⟩

theorem lapses_ids (h : Relation.ReflTransGen (Lapse outside) t t₁) (hr : r ∈ t) :
    ∃ r' ∈ t₁, r'.sessionId = r.sessionId := by
  induction h with
  | refl => exact ⟨r,hr,rfl⟩
  | tail _ hstep ih =>
    obtain ⟨n,rfl⟩ := hstep
    obtain ⟨x,hx,hid⟩ := ih
    exact ⟨x.expire (outside.readings n),mem_expireAll.mpr ⟨x,hx,rfl⟩,
      (RouterSession.expire_sessionId _ x).trans hid⟩

theorem lapses_offered (h : Relation.ReflTransGen (Lapse outside) t t₁) (hr : r ∈ t₁)
    (hoffered : r.status = .offered) : r ∈ t := by
  induction h with
  | refl => exact hr
  | tail _ hstep ih =>
    obtain ⟨n,rfl⟩ := hstep
    obtain ⟨x,hx,hexpired⟩ := mem_expireAll.mp hr
    have hsame : x.expire (outside.readings n) = x := by
      apply eq_of_expire_offered
      rw [hexpired]
      exact hoffered
    apply ih
    rw [← hexpired,hsame]
    exact hx

theorem mem_of_mem_put {status : SessionStatus} (hr : r.status = status) (hx : x.status ≠ status)
    (h : r ∈ t.put x) : r ∈ t := by
  rcases Table.mem_put.mp h with rfl | hmem
  · exact absurd hr hx
  · exact hmem.1

/-- In the turns nobody comes back into the queue. -/
theorem turns_waiting (hjoins : ¬request.Joins)
    (h : Relation.ReflTransGen (Turn settings request outside) t₁ t') (hr : r ∈ t')
    (hwaiting : r.status = .waiting) : r ∈ t₁ := by
  induction h with
  | refl => exact hr
  | tail _ hturn ih =>
    have hput : ∀ {t : SessionTable} {x : RouterSession}, x.status ≠ .waiting → r ∈ t.put x →
        r ∈ t := fun hstatus => mem_of_mem_put hwaiting hstatus
    cases hturn with
    | offer r slot n hfirst hfree => exact ih (hput (by simp [RouterSession.offer]) hr)
    | join r n hbounded =>
      rw [hbounded.called] at hjoins
      exact absurd trivial hjoins
    | activate r n hcalled => exact ih (hput (by simp [RouterSession.activate]) hr)
    | leave r hcalled => exact ih (hput (by simp [RouterSession.leave]) hr)
    | backoff r n hcalled => exact ih (hput (by simp [RouterSession.backoff]) hr)
    | renew r n hcalled hmem hactive =>
      exact ih (hput (by simp [RouterSession.renew,hactive]) hr)

/-- Whoever is offered a slot in the turns was in the queue before all who are still in it. -/
theorem turns_offered (hjoins : ¬request.Joins)
    (h : Relation.ReflTransGen (Turn settings request outside) t₁ t') (hr : r' ∈ t')
    (hoffered : r'.status = .offered) :
    r' ∈ t₁ ∨ ∃ r ∈ t₁, r.status = .waiting ∧ r.sessionId = r'.sessionId ∧
      ∀ x ∈ t', x.status = .waiting → r.before x := by
  induction h generalizing r' with
  | refl => exact Or.inl hr
  | tail hturns hturn ih =>
    rename_i t t''
    have hkept : ∀ x ∈ t'', x.status = .waiting → x ∈ t := by
      intro x hx hwaiting
      exact turns_waiting hjoins (.single hturn) hx hwaiting
    have hold : r' ∈ t → r' ∈ t₁ ∨ ∃ r ∈ t₁, r.status = .waiting ∧ r.sessionId = r'.sessionId ∧
        ∀ x ∈ t'', x.status = .waiting → r.before x := by
      intro hmem
      rcases ih hmem hoffered with h | ⟨r,hr,hwaiting,hid,hbefore⟩
      · exact Or.inl h
      · exact Or.inr ⟨r,hr,hwaiting,hid,fun x hx hw => hbefore x (hkept x hx hw) hw⟩
    have hput : ∀ {x : RouterSession}, x.status ≠ .offered → r' ∈ t.put x → r' ∈ t :=
      fun hstatus => mem_of_mem_put hoffered hstatus
    cases hturn with
    | offer r slot n hfirst hfree =>
      rcases Table.mem_put.mp hr with rfl | hmem
      · right
        obtain ⟨hmem,hwaiting⟩ := mem_queue.mp (List.mem_of_head? hfirst)
        refine ⟨r,turns_waiting hjoins hturns hmem hwaiting,hwaiting,rfl,fun x hx hw => ?_⟩
        exact before_of_head hfirst (hkept x hx hw) hw
      · exact hold hmem.1
    | join r n hbounded =>
      rw [hbounded.called] at hjoins
      exact absurd trivial hjoins
    | activate r n hcalled => exact hold (hput (by simp [RouterSession.activate]) hr)
    | leave r hcalled => exact hold (hput (by simp [RouterSession.leave]) hr)
    | backoff r n hcalled => exact hold (hput (by simp [RouterSession.backoff]) hr)
    | renew r n hcalled hmem hactive =>
      exact hold (hput (by simp [RouterSession.renew,hactive]) hr)

theorem turns_ids (h : Relation.ReflTransGen (Turn settings request outside) t₁ t') (hr : r ∈ t₁) :
    ∃ r' ∈ t', r'.sessionId = r.sessionId := by
  induction h with
  | refl => exact ⟨r,hr,rfl⟩
  | tail _ hturn ih =>
    rename_i t t'' _
    obtain ⟨y,hy,hid⟩ := ih
    have hput : ∀ x : RouterSession, ∃ r' ∈ t.put x, r'.sessionId = r.sessionId := by
      intro x
      by_cases hx : y.sessionId = x.sessionId
      · exact ⟨x,by simp,hx.symm.trans hid⟩
      · exact ⟨y,Table.mem_put.mpr (Or.inr ⟨hy,hx⟩),hid⟩
    cases hturn <;> exact hput _

/-- What a call in which nobody joins leaves of the queue. -/
structure Orderly (t t' : SessionTable) : Prop where
  ids : ∀ r ∈ t, ∃ r' ∈ t', r'.sessionId = r.sessionId
  kept : ∀ r' ∈ t', r'.status = .waiting → ∀ r ∈ t, r.status = .waiting →
    r.sessionId = r'.sessionId → r' = r
  first : ∀ r ∈ t, r.status = .waiting → ∀ r' ∈ t', r'.status = .offered →
    r.sessionId = r'.sessionId → ∀ x ∈ t', x.status = .waiting → r.before x

theorem Conducted.orderly (h : Conducted settings request outside t t')
    (hjoins : ¬request.Joins) : Orderly t t' := by
  obtain ⟨t₁,hlapses,hturns⟩ := h
  constructor
  · intro r hr
    obtain ⟨x,hx,hid⟩ := lapses_ids hlapses hr
    obtain ⟨r',hr',hid'⟩ := turns_ids hturns hx
    exact ⟨r',hr',hid'.trans hid⟩
  · intro r' hr' hwaiting' r hr hwaiting hid
    have hmem := turns_waiting hjoins hturns hr' hwaiting'
    exact Table.eq_of_key hmem (lapses_waiting hlapses hr hwaiting) hid.symm
  · intro r hr hwaiting r' hr' hoffered hid x hx hxwaiting
    rcases turns_offered hjoins hturns hr' hoffered with hmem | ⟨y,hy,hywaiting,hyid,hbefore⟩
    · have hsame := Table.eq_of_key (lapses_offered hlapses hmem hoffered) hr hid.symm
      rw [hsame,hwaiting] at hoffered
      cases hoffered
    · have hsame := Table.eq_of_key hy (lapses_waiting hlapses hr hwaiting) (hyid.trans hid.symm)
      exact hsame ▸ hbefore x hx hxwaiting

end Turns

/-! ### Joining -/

/-- The id that the next session gets. -/
def Store.newId (s : Store) : String :=
  let ids := s.sessions.rows.map RouterSession.sessionId
  sessionName (Table.firstFree sessionName ids ids.length s.nextSequence)

/-- The session that a call of `enqueue` makes. -/
def newcomer (w : World) (p r : String) (e : Option String) : RouterSession :=
  { sessionId := w.store.newId, requestId := r, principalId := p, status := .waiting,
    enqueuedAt := w.outside.readings 0, displayEmail := e }

/-- What a call of `enqueue` comes to when it makes a session. -/
def joining (settings : Settings) (s : Store) (e : Request × Outside) : Option World :=
  match e.1 with
  | .enqueue p r email =>
    match exec (seek settings p r email) ⟨s,e.2⟩ with
    | (.ok none,w) => some w
    | _ => none
  | _ => none

section Joining

variable {settings : Settings} {s : Store} {e : Request × Outside} {w : World}

theorem joinQueue_sessions (p r : String) (email : Option String) (w : World) :
    (exec (joinQueue settings p r email) w).2.store.sessions =
      assignAll settings (w.store.sessions.put (newcomer w p r email)) (w.outside.readings 1) := by
  have hid : exec newIdLocked w = (.ok w.store.newId,⟨{ w.store with
      nextSequence := (exec newIdLocked w).2.store.nextSequence },w.outside⟩) := rfl
  simp only [joinQueue,exec_bind]
  rw [hid]
  simp only [exec_clock,exec_sessions,exec_setSessions,exec_assignWaitersLocked,exec_persistLocked]
  by_cases hwrite : w.outside.tick.tick.writes 0 = true
  · simp only [hwrite,if_true]
    split <;> rfl
  · simp only [hwrite]
    rfl

theorem newId_fresh (s : Store) {r : RouterSession} (hr : r ∈ s.sessions) : r.sessionId ≠ s.newId :=
  fun heq => Table.firstFree_not_mem sessionName_injective
    (s.sessions.rows.map RouterSession.sessionId) s.nextSequence
    (List.mem_map.mpr ⟨r,hr,heq⟩)

theorem seek_ends (p r : String) (email : Option String) (s : Store) (o : Outside) :
    Ensures (During o (On (Conducted settings .roster o s.sessions)))
      (fun _ => During o fun s' => Settled settings s'.sessions ∧ Request.bounded p r email)
      (exec (seek settings p r email) ⟨s,o⟩).1 (exec (seek settings p r email) ⟨s,o⟩).2 :=
  seek_turns p r email ⟨s,o⟩ ⟨Relation.ReflTransGen.refl,fun n => ⟨n,rfl⟩⟩

/-- A call in which nobody joins. -/
theorem step_not_joining (h : joining settings s e = none) :
    Orderly s.sessions (s.step settings e).sessions := by
  obtain ⟨request,o⟩ := e
  by_cases hjoins : request.Joins
  · cases request with
    | enqueue p r email =>
      have hends := @seek_ends settings p r email s o
      have hstep : (s.step settings (.enqueue p r email,o)).sessions =
          (exec (seek settings p r email) ⟨s,o⟩).2.store.sessions := by
        rw [Store.step,Request.perform,exec_discard,enqueue_eq,exec_bind]
        simp only [joining] at h
        rcases hseek : exec (seek settings p r email) ⟨s,o⟩ with ⟨x | (_ | current),w⟩
        · rfl
        · rw [hseek] at h
          cases h
        · rfl
      rw [hstep]
      have hconducted : Conducted settings .roster o s.sessions
          (exec (seek settings p r email) ⟨s,o⟩).2.store.sessions := by
        cases hresult : (exec (seek settings p r email) ⟨s,o⟩).1 with
        | error x =>
          rw [hresult] at hends
          exact hends.1
        | ok x =>
          rw [hresult] at hends
          exact hends.1.1
      exact hconducted.orderly id
    | _ => exact absurd hjoins id
  · exact (step_conducted settings s request o).orderly hjoins

/-- A call that makes a session. -/
structure Joined (settings : Settings) (s : Store) (e : Request × Outside) (w : World) : Prop where
  orderly : Orderly s.sessions w.store.sessions
  settled : Settled settings w.store.sessions
  reading : ∃ n, w.outside.readings 0 = e.2.readings n
  step : ∃ p r email, (s.step settings e).sessions =
    assignAll settings (w.store.sessions.put (newcomer w p r email)) (w.outside.readings 1)

theorem joined_of_joining (h : joining settings s e = some w) : Joined settings s e w := by
  obtain ⟨request,o⟩ := e
  cases request with
  | enqueue p r email =>
    have hends := @seek_ends settings p r email s o
    have hseek : exec (seek settings p r email) ⟨s,o⟩ = (.ok none,w) := by
      simp only [joining] at h
      split at h
      · next w' hseek => rwa [← Option.some.inj h]
      · cases h
    rw [hseek] at hends
    refine ⟨Conducted.orderly hends.1.1 id,hends.2.1.1,hends.2.2 0,p,r,email,?_⟩
    rw [Store.step,Request.perform,exec_discard,enqueue_eq,exec_bind,hseek]
    exact joinQueue_sessions p r email w
  | _ => cases h

end Joining

/-! ### The line -/

/-- The store, and who has been waiting ever since joining, in the order of the calls. -/
structure Line where
  store : Store
  waiting : List String

def Line.empty : Line := ⟨.empty,[]⟩

/-- The line, with the session that a call makes at its end. -/
def Line.called (settings : Settings) (g : Line) (e : Request × Outside) : List String :=
  g.waiting ++ ((joining settings g.store e).map fun w => w.store.newId).toList

def Line.next (settings : Settings) (g : Line) (e : Request × Outside) : Line :=
  let s' := g.store.step settings e
  ⟨s',(g.called settings e).filter fun id => holds s'.sessions id .waiting⟩

/-- Nobody is offered a slot while one who is before him in the line goes on waiting, and the places
in the queue are those in the line. -/
def Line.Fair (settings : Settings) (g : Line) (e : Request × Outside) : Prop :=
  let t := (g.store.step settings e).sessions
  (g.called settings e).Pairwise fun a b =>
    ¬(holds t b .offered = true ∧ holds t a .waiting = true) ∧
      (holds t a .waiting = true → holds t b .waiting = true →
        ∃ i j, position t a = some i ∧ position t b = some j ∧ i < j)

/-- The text of the id of a session that a call makes is not before that of one that waits since the
same reading of the clock. -/
def Line.TextOrder (settings : Settings) (g : Line) (e : Request × Outside) : Prop :=
  ∀ w ∈ joining settings g.store e, ∀ r ∈ queue w.store.sessions, r.sessionId ∈ g.waiting →
    r.enqueuedAt = w.outside.readings 0 → r.sessionId ≤ w.store.newId

instance (settings : Settings) (g : Line) (e : Request × Outside) :
    Decidable (g.TextOrder settings e) :=
  inferInstanceAs (Decidable (∀ w ∈ joining settings g.store e, ∀ r ∈ queue w.store.sessions,
    r.sessionId ∈ g.waiting → r.enqueuedAt = w.outside.readings 0 → r.sessionId ≤ w.store.newId))

/-- The clock of a later call has not gone back. -/
def Later (e e' : Request × Outside) : Prop := ∀ m n, e.2.readings m ≤ e'.2.readings n

/-- One is before the other in the queue. -/
def Precedes (t : SessionTable) (a b : String) : Prop :=
  ∃ r ∈ queue t, ∃ r' ∈ queue t, r.sessionId = a ∧ r'.sessionId = b ∧ a ≠ b ∧ r.before r'

structure Line.Sound (g : Line) : Prop where
  waits : ∀ id ∈ g.waiting, holds g.store.sessions id .waiting = true
  ordered : g.waiting.Pairwise (Precedes g.store.sessions)

/-- Whoever is in the line has joined before a clock's readings. -/
def Line.Before (g : Line) (o : Outside) : Prop :=
  ∀ r ∈ g.store.sessions, r.sessionId ∈ g.waiting → ∀ n, r.enqueuedAt ≤ o.readings n

section Pairs

variable {settings : Settings} {t t' : SessionTable} {a b : String} {r r' x : RouterSession}
  {now : Time}

/-- What is left of a pair of the line after a call. -/
structure PairKept (t' : SessionTable) (a b : String) : Prop where
  passed : ¬(holds t' b .offered = true ∧ holds t' a .waiting = true)
  before : holds t' a .waiting = true → holds t' b .waiting = true → Precedes t' a b

theorem mem_queue_of_holds (h : holds t a .waiting = true) : ∃ r ∈ queue t, r.sessionId = a := by
  obtain ⟨r,hr,hid,hwaiting⟩ := holds_iff.mp h
  exact ⟨r,mem_queue.mpr ⟨hr,hwaiting⟩,hid⟩

theorem kept_of_orderly (h : Orderly t t') (hpair : Precedes t a b) : PairKept t' a b := by
  obtain ⟨r,hr,r',hr',rfl,rfl,hne,hbefore⟩ := hpair
  obtain ⟨hr,hwaiting⟩ := mem_queue.mp hr
  obtain ⟨hr',hwaiting'⟩ := mem_queue.mp hr'
  constructor
  · rintro ⟨hoffered,hwaits⟩
    obtain ⟨y,hy,hid,hyoffered⟩ := holds_iff.mp hoffered
    obtain ⟨x,hx,hxid,hxwaiting⟩ := holds_iff.mp hwaits
    have hsame := h.kept x hx hxwaiting r hr hwaiting hxid.symm
    have hfirst := h.first r' hr' hwaiting' y hy hyoffered hid.symm x hx hxwaiting
    rw [hsame] at hfirst
    exact hne (RouterSession.sessionId_of_before hbefore hfirst)
  · intro hwaits hwaits'
    obtain ⟨x,hx,hxid⟩ := mem_queue_of_holds hwaits
    obtain ⟨y,hy,hyid⟩ := mem_queue_of_holds hwaits'
    obtain ⟨hxt,hxwaiting⟩ := mem_queue.mp hx
    obtain ⟨hyt,hywaiting⟩ := mem_queue.mp hy
    have hsame := h.kept x hxt hxwaiting r hr hwaiting hxid.symm
    have hsame' := h.kept y hyt hywaiting r' hr' hwaiting' hyid.symm
    exact ⟨x,hx,y,hy,hxid,hyid,hne,hsame ▸ hsame' ▸ hbefore⟩

theorem holds_put_of_ne {status : SessionStatus} (hne : a ≠ r.sessionId) :
    holds (t.put r) a status = holds t a status := by
  rw [holds,holds,Table.find_put_of_ne t hne]

theorem mem_queue_put (hr : r.status = .waiting) (hfresh : ∀ x ∈ t, x.sessionId ≠ r.sessionId) :
    x ∈ queue (t.put r) ↔ x = r ∨ x ∈ queue t := by
  rw [mem_queue,mem_queue,Table.mem_put]
  constructor
  · rintro ⟨rfl | ⟨hx,-⟩,hwaiting⟩
    · exact Or.inl rfl
    · exact Or.inr ⟨hx,hwaiting⟩
  · rintro (rfl | ⟨hx,hwaiting⟩)
    · exact ⟨Or.inl rfl,hr⟩
    · exact ⟨Or.inr ⟨hx,hfresh x hx⟩,hwaiting⟩

theorem Precedes.put (h : Precedes t a b) (hr : r.status = .waiting)
    (hfresh : ∀ x ∈ t, x.sessionId ≠ r.sessionId) : Precedes (t.put r) a b := by
  obtain ⟨x,hx,y,hy,hrest⟩ := h
  exact ⟨x,(mem_queue_put hr hfresh).mpr (Or.inr hx),y,(mem_queue_put hr hfresh).mpr (Or.inr hy),hrest⟩

theorem PairKept.put (h : PairKept t a b) (hr : r.status = .waiting)
    (hfresh : ∀ x ∈ t, x.sessionId ≠ r.sessionId) (ha : a ≠ r.sessionId) (hb : b ≠ r.sessionId) :
    PairKept (t.put r) a b := by
  constructor
  · rw [holds_put_of_ne ha,holds_put_of_ne hb]
    exact h.passed
  · rw [holds_put_of_ne ha,holds_put_of_ne hb]
    exact fun hwaits hwaits' => (h.before hwaits hwaits').put hr hfresh

/-- The places show the order. -/
theorem PairKept.fair (h : PairKept t a b) : ¬(holds t b .offered = true ∧ holds t a .waiting = true) ∧
    (holds t a .waiting = true → holds t b .waiting = true →
      ∃ i j, position t a = some i ∧ position t b = some j ∧ i < j) := by
  refine ⟨h.passed,fun hwaits hwaits' => ?_⟩
  obtain ⟨r,hr,r',hr',rfl,rfl,hne,hbefore⟩ := h.before hwaits hwaits'
  exact (position_lt_iff hr hr' hne).mpr hbefore

/-- Where somebody waits, whoever joins waits too. -/
theorem assignAll_put (hsettled : Settled settings t) (hqueue : queue t ≠ [])
    (hfresh : ∀ x ∈ t, x.sessionId ≠ r.sessionId) :
    assignAll settings (t.put r) now = t.put r := by
  have hfree : free settings t = [] := hsettled.resolve_left hqueue
  apply assignAll_of_none
  have hnone : free settings (t.put r) = [] := by
    rw [List.eq_nil_iff_forall_not_mem] at hfree ⊢
    intro slot hslot
    obtain ⟨hknown,hunoccupied⟩ := mem_free.mp hslot
    apply hfree slot
    refine mem_free.mpr ⟨hknown,fun hocc => hunoccupied ?_⟩
    obtain ⟨x,hx,hstatus,hslot⟩ := mem_occupied.mp hocc
    exact mem_occupied.mpr ⟨x,Table.mem_put.mpr (Or.inr ⟨hx,hfresh x hx⟩),hstatus,hslot⟩
  rw [assignable,hnone,List.zip_nil_right]
  rfl

/-- An assignment puts nobody into the queue. -/
theorem mem_queue_of_assignAll (hr : r ∈ queue (assignAll settings t now)) : r ∈ queue t := by
  obtain ⟨hr,hwaiting⟩ := mem_queue.mp hr
  refine mem_queue.mpr ⟨?_,hwaiting⟩
  have hinduct := (@assignAll_induct settings now (fun t' => r ∈ t' → r ∈ t) ?_ t id).1
  · exact hinduct hr
  · intro t' x records slot slots hqueue hfree ih hmem
    exact ih (mem_of_mem_put hwaiting (by simp [RouterSession.offer]) hmem)

end Pairs

section Steps

variable {settings : Settings} {g : Line} {e : Request × Outside} {w : World}

theorem called_none (h : joining settings g.store e = none) : g.called settings e = g.waiting := by
  simp [Line.called,h]

theorem called_some (h : joining settings g.store e = some w) :
    g.called settings e = g.waiting ++ [w.store.newId] := by
  simp [Line.called,h]

/-- Who is in the line is the same session as before the call that makes another one. -/
theorem eq_of_waiting (hg : g.Sound) (hw : Joined settings g.store e w) {r : RouterSession}
    (hr : r ∈ queue w.store.sessions) (hid : r.sessionId ∈ g.waiting) : r ∈ g.store.sessions := by
  obtain ⟨hr,hwaiting⟩ := mem_queue.mp hr
  obtain ⟨x,hx,hxid,hxwaiting⟩ := holds_iff.mp (hg.waits _ hid)
  rw [hw.orderly.kept r hr hwaiting x hx hxwaiting hxid]
  exact hx

theorem ne_newId (hg : g.Sound) (hw : Joined settings g.store e w) {id : String}
    (hid : id ∈ g.waiting) : id ≠ w.store.newId := by
  obtain ⟨r,hr,rfl,-⟩ := holds_iff.mp (hg.waits id hid)
  obtain ⟨x,hx,hxid⟩ := hw.orderly.ids r hr
  rw [← hxid]
  exact newId_fresh w.store hx

/-- A step keeps each pair of the line, the one who joins included. -/
theorem kept_called (hg : g.Sound) (hbefore : g.Before e.2) (htext : g.TextOrder settings e) :
    (g.called settings e).Pairwise (PairKept (g.store.step settings e).sessions) := by
  cases hjoining : joining settings g.store e with
  | none =>
    rw [called_none hjoining]
    exact hg.ordered.imp fun hpair => kept_of_orderly (step_not_joining hjoining) hpair
  | some w =>
    have hw := joined_of_joining hjoining
    obtain ⟨p,r,email,hstep⟩ := hw.step
    have hfresh : ∀ x ∈ w.store.sessions, x.sessionId ≠ (newcomer w p r email).sessionId :=
      fun x hx => newId_fresh w.store hx
    rw [called_some hjoining,hstep,List.pairwise_append]
    by_cases hqueue : queue w.store.sessions = []
    · -- nobody of the line waits any more
      have hgone : ∀ a ∈ g.waiting, holds (assignAll settings
          (w.store.sessions.put (newcomer w p r email)) (w.outside.readings 1)) a .waiting ≠ true := by
        intro a ha hwaits
        obtain ⟨x,hx,rfl⟩ := mem_queue_of_holds hwaits
        rcases (mem_queue_put rfl hfresh).mp (mem_queue_of_assignAll hx) with rfl | hmem
        · exact ne_newId hg hw ha rfl
        · rw [hqueue] at hmem
          cases hmem
      have hkept : ∀ a ∈ g.waiting, ∀ b, PairKept (assignAll settings
          (w.store.sessions.put (newcomer w p r email)) (w.outside.readings 1)) a b :=
        fun a ha b => ⟨fun h => hgone a ha h.2,fun h _ => absurd h (hgone a ha)⟩
      refine ⟨?_,List.pairwise_singleton _ _,fun a ha b _ => hkept a ha b⟩
      exact List.pairwise_of_forall_mem_list fun a ha b _ => hkept a ha b
    · rw [assignAll_put hw.settled hqueue hfresh]
      refine ⟨?_,List.pairwise_singleton _ _,?_⟩
      · apply List.Pairwise.imp_of_mem _ hg.ordered
        intro a b ha hb hpair
        exact (kept_of_orderly hw.orderly hpair).put rfl hfresh (ne_newId hg hw ha) (ne_newId hg hw hb)
      · intro a ha b hb
        rw [List.mem_singleton] at hb
        subst hb
        have hnewcomer : newcomer w p r email ∈ queue (w.store.sessions.put (newcomer w p r email)) :=
          (mem_queue_put rfl hfresh).mpr (Or.inl rfl)
        constructor
        · rintro ⟨hoffered,-⟩
          have hstatus := (holds_of_mem (mem_queue.mp hnewcomer).1).mp hoffered
          cases hstatus
        · intro hwaits _
          obtain ⟨x,hx,rfl⟩ := mem_queue_of_holds hwaits
          refine ⟨x,hx,_,hnewcomer,rfl,rfl,ne_newId hg hw ha,?_⟩
          rcases (mem_queue_put rfl hfresh).mp hx with rfl | hx
          · exact absurd rfl (ne_newId hg hw ha)
          · obtain ⟨n,hn⟩ := hw.reading
            have hle : x.enqueuedAt ≤ w.outside.readings 0 :=
              hn ▸ hbefore x (eq_of_waiting hg hw hx ha) ha n
            rcases hle.lt_or_eq with hlt | heq
            · exact Or.inl hlt
            · exact Or.inr ⟨heq,htext w hjoining x hx ha heq⟩

theorem sound_next (hkept : (g.called settings e).Pairwise (PairKept (g.store.step settings e).sessions)) :
    (g.next settings e).Sound where
  waits id hid := (List.mem_filter.mp hid).2
  ordered := by
    have hfiltered : (g.next settings e).waiting.Pairwise
        (PairKept (g.store.step settings e).sessions) := hkept.filter _
    apply List.Pairwise.imp_of_mem _ hfiltered
    intro a b ha hb hpair
    exact hpair.before (List.mem_filter.mp ha).2 (List.mem_filter.mp hb).2

/-- Whoever joins in a call has joined before the later ones. -/
theorem before_next {o : Outside} (hg : g.Sound) (hbefore : g.Before o)
    (hlater : ∀ m n, e.2.readings m ≤ o.readings n) : (g.next settings e).Before o := by
  intro r hr hid n
  obtain ⟨hcalled,hwaits⟩ := List.mem_filter.mp hid
  have hwaiting : r.status = .waiting := (holds_of_mem hr).mp hwaits
  have hr : r ∈ (g.store.step settings e).sessions := hr
  cases hjoining : joining settings g.store e with
  | none =>
    rw [called_none hjoining] at hcalled
    obtain ⟨x,hx,hxid,hxwaiting⟩ := holds_iff.mp (hg.waits _ hcalled)
    rw [(step_not_joining hjoining).kept r hr hwaiting x hx hxwaiting hxid]
    exact hbefore x hx (hxid ▸ hcalled) n
  | some w =>
    have hw := joined_of_joining hjoining
    obtain ⟨p,request,email,hstep⟩ := hw.step
    have hfresh : ∀ x ∈ w.store.sessions, x.sessionId ≠ (newcomer w p request email).sessionId :=
      fun x hx => newId_fresh w.store hx
    rw [hstep] at hr
    have hqueue := mem_queue_of_assignAll (mem_queue.mpr ⟨hr,hwaiting⟩)
    rcases (mem_queue_put rfl hfresh).mp hqueue with rfl | hqueue
    · obtain ⟨m,hm⟩ := hw.reading
      show w.outside.readings 0 ≤ _
      rw [hm]
      exact hlater m n
    · rw [called_some hjoining,List.mem_append,List.mem_singleton] at hcalled
      rcases hcalled with hcalled | hnew
      · exact hbefore r (eq_of_waiting hg hw hqueue hcalled) hcalled n
      · exact absurd hnew (newId_fresh w.store (mem_queue.mp hqueue).1)

/-- Where the texts are in another order, whoever joins gets the place of another. -/
theorem textOrder_of_fair (hg : g.Sound) (hfair : g.Fair settings e) : g.TextOrder settings e := by
  intro w hjoining x hx hid hnow
  have hw := joined_of_joining hjoining
  obtain ⟨p,r,email,hstep⟩ := hw.step
  have hfresh : ∀ x ∈ w.store.sessions, x.sessionId ≠ (newcomer w p r email).sessionId :=
    fun x hx => newId_fresh w.store hx
  have hqueue : queue w.store.sessions ≠ [] := List.ne_nil_of_mem hx
  unfold Line.Fair at hfair
  rw [called_some hjoining,hstep,assignAll_put hw.settled hqueue hfresh] at hfair
  have hpair := (List.pairwise_append.mp hfair).2.2 x.sessionId hid w.store.newId (by simp)
  have hnewcomer : newcomer w p r email ∈ queue (w.store.sessions.put (newcomer w p r email)) :=
    (mem_queue_put rfl hfresh).mpr (Or.inl rfl)
  have hmem : x ∈ queue (w.store.sessions.put (newcomer w p r email)) :=
    (mem_queue_put rfl hfresh).mpr (Or.inr hx)
  have hplaces := hpair.2 ((holds_of_mem (mem_queue.mp hmem).1).mpr (mem_queue.mp hmem).2)
    ((holds_of_mem (mem_queue.mp hnewcomer).1).mpr rfl)
  have hbefore := (position_lt_iff hmem hnewcomer (ne_newId hg hw hid)).mp hplaces
  rcases hbefore with hlt | ⟨-,hle⟩
  · exact absurd hlt (by simp [newcomer,hnow])
  · exact hle

end Steps

/-- The queue is first come, first served in every step of a run exactly if nobody joins at the
reading of one who waits with an id whose text comes later. -/
theorem served_iff (settings : Settings) (es : List (Request × Outside)) (hclock : es.Pairwise Later) :
    Runs.Each (Line.next settings) (Line.Fair settings) .empty es ↔
      Runs.Each (Line.next settings) (Line.TextOrder settings) .empty es := by
  have hrun : ∀ g : Line, g.Sound → (∀ e ∈ es, g.Before e.2) →
      (Runs.Each (Line.next settings) (Line.Fair settings) g es ↔
        Runs.Each (Line.next settings) (Line.TextOrder settings) g es) := by
    induction es with
    | nil => exact fun _ _ _ => Iff.rfl
    | cons e es ih =>
      intro g hg hbefore
      rw [List.pairwise_cons] at hclock
      have hhead := hbefore e (by simp)
      have htail : g.TextOrder settings e →
          (Runs.Each (Line.next settings) (Line.Fair settings) (g.next settings e) es ↔
            Runs.Each (Line.next settings) (Line.TextOrder settings) (g.next settings e) es) := by
        intro htext
        apply ih hclock.2 _ (sound_next (kept_called hg hhead htext))
        intro e' he'
        exact before_next hg (hbefore e' (by simp [he'])) (hclock.1 e' he')
      constructor
      · rintro ⟨hfair,hrest⟩
        have htext := textOrder_of_fair hg hfair
        exact ⟨htext,(htail htext).mp hrest⟩
      · rintro ⟨htext,hrest⟩
        exact ⟨(kept_called hg hhead htext).imp PairKept.fair,(htail htext).mpr hrest⟩
  apply hrun .empty ⟨by simp [Line.empty],by simp [Line.empty]⟩
  intro e _ r hr
  cases hr

theorem served_names :
    Runs.Each (Line.next oneSlot) (Line.Fair oneSlot) .empty
        [(.enqueue "alice" "r1" none,.still 0),(.enqueue "bob" "r2" none,.still 0)] ↔
      Runs.Each (Line.next oneSlot) (Line.TextOrder oneSlot) .empty
        [(.enqueue "alice" "r1" none,.still 0),(.enqueue "bob" "r2" none,.still 0)] :=
  served_iff oneSlot _ (by simp [Later,Outside.still])

/-- Ten principals join at one reading of the clock, and the first of them leaves the slot. -/
def crowd : List (Request × Outside) :=
  (["a","b","c","d","e","f","g","h","i","j"].map fun p => (.enqueue p "r" none,.still 0)) ++
    [(.leave "q-1",.still 1)]

/-- The tenth session is offered the slot, and the second one waits. -/
theorem tenth_served_first : crowd.Pairwise Later ∧ (∀ e ∈ crowd, Later e (.roster,.still 1)) ∧
    ¬Runs.Each (Line.next oneSlot) (Line.Fair oneSlot) .empty (crowd ++ [(.roster,.still 1)]) := by
  refine ⟨?_,?_,?_⟩
  · simp [crowd,Later,Outside.still]
  · simp [crowd,Later,Outside.still]
  · intro h
    have hfair := Runs.each_last crowd (.roster,.still 1) h
    have hline : List.Sublist ["q-2","q-10"]
        ((crowd.foldl (Line.next oneSlot) .empty).called oneSlot (.roster,.still 1)) := by
      decide +kernel
    have hpair := List.pairwise_iff_forall_sublist.mp hfair hline
    exact hpair.1 (by decide +kernel)

end RouterSessions
end CloudBrowser
