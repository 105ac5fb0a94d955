import Mathlib.Logic.Relation
import CloudBrowser.RouterSessions

/-! What the operations of the session store can do to it, one record or one expiry pass at
a time. Every operation is a sequence of these transitions, so that an invariant of the
transitions is an invariant of every run. -/
namespace CloudBrowser
namespace RouterSessions

open Stateful Keyed

inductive Transition (settings : Settings) : Store → Store → Prop
  | expire (s : Store) (now : Time) :
      Transition settings s (s.withSessions (expireAll s.sessions now))
  | offer (s : Store) (r : RouterSession) (slot : SlotDescriptor) (expiresAt : Time)
      (member : r ∈ s.sessions) (waiting : r.status = .waiting) (known : slot ∈ settings.slots)
      (unoccupied : some slot.slotId ∉ occupied s.sessions) :
      Transition settings s (s.withSessions (s.sessions.put (r.offer slot expiresAt)))
  | reserve (s : Store) (n : ℕ) (later : s.nextSequence ≤ n) :
      Transition settings s { s with nextSequence := n+1 }
  | join (s : Store) (r : RouterSession) (fresh : ∀ r' ∈ s.sessions, r'.sessionId ≠ r.sessionId)
      (named : ∃ n < s.nextSequence, r.sessionId = sessionName n)
      (waiting : r.status = .waiting) (noSlot : r.slotId = none) (noBinding : r.binding = none)
      (noTimers : r.offerExpiresAt = none ∧ r.sessionExpiresAt = none ∧ r.backoffUntil = none) :
      Transition settings s (s.withSessions (s.sessions.put r))
  | activate (s : Store) (r : RouterSession) (expiresAt : Time) (member : r ∈ s.sessions)
      (offered : r.status = .offered) :
      Transition settings s (s.withSessions (s.sessions.put (r.activate expiresAt)))
  | leave (s : Store) (r : RouterSession) (member : r ∈ s.sessions) :
      Transition settings s (s.withSessions (s.sessions.put r.leave))
  | backoff (s : Store) (r : RouterSession) (backoffUntil : Time) (member : r ∈ s.sessions) :
      Transition settings s (s.withSessions (s.sessions.put (r.backoff backoffUntil)))
  | renew (s : Store) (r : RouterSession) (expiresAt : Time) (member : r ∈ s.sessions)
      (active : r.status = .active) :
      Transition settings s (s.withSessions (s.sessions.put (r.renew expiresAt)))
  | persist (s : Store) : Transition settings s { s with file := some (document s) }

abbrev Reaches (settings : Settings) : Store → Store → Prop :=
  Relation.ReflTransGen (Transition settings)

theorem Reaches.invariant {settings : Settings} {I : Store → Prop} {s s' : Store}
    (h : Reaches settings s s') (hI : ∀ s s', I s → Transition settings s s' → I s') (hs : I s) :
    I s' := by
  induction h with
  | refl => exact hs
  | tail _ hstep ih => exact hI _ _ ih hstep

def readable (s : String) : Bool := Text.bounded String.length 256 s

/-- The request enqueues the record, under texts that pass validation. -/
structure Enqueues (request : Request) (r : RouterSession) : Prop where
  called : request = .enqueue r.principalId r.requestId r.displayEmail
  principalId : readable r.principalId
  requestId : readable r.requestId
  displayEmail : ∀ s ∈ r.displayEmail, readable s

/-- The operations that run `_expire_locked`. -/
def Request.polls : Request → Bool
  | .activate _ | .leave _ | .backoff _ => false
  | _ => true

/-- The same, with the call that makes the transition: what its request names, and the clock
readings it is given. -/
inductive Change (settings : Settings) (request : Request) (outside : Outside) :
    Store → Store → Prop
  | expire (s : Store) (n : ℕ) (polls : request.polls = true) :
      Change settings request outside s
        (s.withSessions (expireAll s.sessions (outside.readings n)))
  | offer (s : Store) (r : RouterSession) (slot : SlotDescriptor) (n : ℕ)
      (member : r ∈ s.sessions) (waiting : r.status = .waiting) (known : slot ∈ settings.slots)
      (unoccupied : some slot.slotId ∉ occupied s.sessions) :
      Change settings request outside s
        (s.withSessions (s.sessions.put (r.offer slot (outside.readings n+settings.offerTtl))))
  | reserve (s : Store) (n : ℕ) (later : s.nextSequence ≤ n) :
      Change settings request outside s { s with nextSequence := n+1 }
  | join (s : Store) (r : RouterSession) (bounded : Enqueues request r)
      (fresh : ∀ r' ∈ s.sessions, r'.sessionId ≠ r.sessionId)
      (named : ∃ n < s.nextSequence, r.sessionId = sessionName n)
      (alone : ∀ r' ∈ s.sessions, r'.principalId = r.principalId → ¬r'.status.live)
      (waiting : r.status = .waiting) (noSlot : r.slotId = none) (noBinding : r.binding = none)
      (noTimers : r.offerExpiresAt = none ∧ r.sessionExpiresAt = none ∧ r.backoffUntil = none) :
      Change settings request outside s (s.withSessions (s.sessions.put r))
  | activate (s : Store) (r : RouterSession) (n : ℕ) (called : request = .activate r.sessionId)
      (member : r ∈ s.sessions) (offered : r.status = .offered) :
      Change settings request outside s
        (s.withSessions (s.sessions.put (r.activate (outside.readings n+settings.sessionTtl))))
  | leave (s : Store) (r : RouterSession) (called : request = .leave r.sessionId)
      (member : r ∈ s.sessions) :
      Change settings request outside s (s.withSessions (s.sessions.put r.leave))
  | backoff (s : Store) (r : RouterSession) (n : ℕ) (called : request = .backoff r.sessionId)
      (member : r ∈ s.sessions) :
      Change settings request outside s
        (s.withSessions (s.sessions.put (r.backoff (outside.readings n+settings.backoffTtl))))
  | renew (s : Store) (r : RouterSession) (n : ℕ) (called : request = .renew r.principalId)
      (member : r ∈ s.sessions) (active : r.status = .active) :
      Change settings request outside s
        (s.withSessions (s.sessions.put (r.renew (outside.readings n+settings.sessionTtl))))
  | persist (s : Store) : Change settings request outside s { s with file := some (document s) }

abbrev Changes (settings : Settings) (request : Request) (outside : Outside) :
    Store → Store → Prop :=
  Relation.ReflTransGen (Change settings request outside)

theorem Changes.invariant {settings : Settings} {request : Request} {outside : Outside}
    {I : Store → Prop} {s s' : Store} (h : Changes settings request outside s s')
    (hI : ∀ s s', I s → Change settings request outside s s' → I s') (hs : I s) : I s' := by
  induction h with
  | refl => exact hs
  | tail _ hstep ih => exact hI _ _ ih hstep

theorem Change.transition {settings : Settings} {request : Request} {outside : Outside}
    {s s' : Store} (h : Change settings request outside s s') : Transition settings s s' := by
  cases h with
  | expire n hpolls => exact .expire s _
  | offer r slot n hmem hwaiting hknown hfree => exact .offer s r slot _ hmem hwaiting hknown hfree
  | reserve n hlater => exact .reserve s n hlater
  | join r hbounded hfresh hnamed halone hwaiting hslot hbinding htimers =>
    exact .join s r hfresh hnamed hwaiting hslot hbinding htimers
  | activate r n hcalled hmem hoffered => exact .activate s r _ hmem hoffered
  | leave r hcalled hmem => exact .leave s r hmem
  | backoff r n hcalled hmem => exact .backoff s r _ hmem
  | renew r n hcalled hmem hactive => exact .renew s r _ hmem hactive
  | persist => exact .persist s

theorem mem_occupied {t : SessionTable} {k : Option String} :
    k ∈ occupied t ↔ ∃ r ∈ t, r.status.occupies ∧ r.slotId = k := by
  simp [occupied,Table.mem_rows,and_assoc]

theorem mem_free {settings : Settings} {t : SessionTable} {slot : SlotDescriptor} :
    slot ∈ free settings t ↔ slot ∈ settings.slots ∧ some slot.slotId ∉ occupied t := by
  simp [free]

theorem mem_queue {t : SessionTable} {r : RouterSession} :
    r ∈ queue t ↔ r ∈ t ∧ r.status = .waiting := by
  simp [queue,Table.mem_rows]

theorem nodup_queue (t : SessionTable) : ((queue t).map RouterSession.sessionId).Nodup := by
  have hperm := List.perm_insertionSort RouterSession.before
    (t.rows.filter fun r => r.status = .waiting)
  apply (hperm.map RouterSession.sessionId).nodup_iff.mpr
  exact (List.filter_sublist.map RouterSession.sessionId).nodup t.distinct

theorem nodup_free (settings : Settings) (t : SessionTable) :
    ((free settings t).map SlotDescriptor.slotId).Nodup :=
  (List.filter_sublist.map SlotDescriptor.slotId).nodup settings.slotIds_nodup

theorem sessionName_injective : Function.Injective sessionName := by
  intro m n h
  have hlist := congrArg String.toList h
  have hdigits : Nat.toDigits 10 m = Nat.toDigits 10 n := by
    simpa [sessionName,Nat.toString_eq_ofList_toDigits] using hlist
  have hvalue := congrArg (Nat.ofDigitChars 10 · 0) hdigits
  simpa using hvalue

theorem map_fst_zip_sublist {α β : Type} (l : List α) (l' : List β) :
    ((l.zip l').map Prod.fst).Sublist l := by
  induction l generalizing l' with
  | nil => simp
  | cons x l ih =>
    cases l' with
    | nil => simp
    | cons y l' => exact (ih l').cons_cons x

theorem map_snd_zip_sublist {α β : Type} (l : List α) (l' : List β) :
    ((l.zip l').map Prod.snd).Sublist l' := by
  induction l generalizing l' with
  | nil => simp
  | cons x l ih =>
    cases l' with
    | nil => simp
    | cons y l' => exact (ih l').cons_cons y

/-- What holds along every single offer of a free slot to a waiting record holds when the
slots are offered in order: each goes to a record that has none, and to one only. -/
theorem offerAll_induct {settings : Settings} {expiresAt : Time} {P : SessionTable → Prop}
    (hP : ∀ t (r : RouterSession) (slot : SlotDescriptor), P t → r ∈ t → r.status = .waiting →
      slot ∈ settings.slots → some slot.slotId ∉ occupied t → P (t.put (r.offer slot expiresAt)))
    {t : SessionTable} (ht : P t) :
    P (offerAll t expiresAt ((queue t).zip (free settings t))) := by
  have hslots : (((queue t).zip (free settings t)).map fun p => p.2.slotId).Nodup := by
    have hsub := (map_snd_zip_sublist (queue t) (free settings t)).map SlotDescriptor.slotId
    rw [List.map_map] at hsub
    exact hsub.nodup (nodup_free settings t)
  have hids : (((queue t).zip (free settings t)).map fun p => p.1.sessionId).Nodup := by
    have hsub := (map_fst_zip_sublist (queue t) (free settings t)).map RouterSession.sessionId
    rw [List.map_map] at hsub
    exact hsub.nodup (nodup_queue t)
  have hpairs : ∀ p ∈ (queue t).zip (free settings t), p.1 ∈ t ∧ p.1.status = .waiting ∧
      p.2 ∈ settings.slots ∧ some p.2.slotId ∉ occupied t := by
    rintro ⟨r,slot⟩ hp
    obtain ⟨hq,hf⟩ := List.of_mem_zip hp
    obtain ⟨hmem,hwaiting⟩ := mem_queue.mp hq
    obtain ⟨hknown,hfree⟩ := mem_free.mp hf
    exact ⟨hmem,hwaiting,hknown,hfree⟩
  generalize (queue t).zip (free settings t) = pairs at hslots hids hpairs
  induction pairs generalizing t with
  | nil => exact ht
  | cons p pairs ih =>
    obtain ⟨hmem,hwaiting,hknown,hfree⟩ := hpairs p (by simp)
    simp only [List.map_cons,List.nodup_cons,List.mem_map,not_exists,not_and] at hslots hids
    apply ih (hP t p.1 p.2 ht hmem hwaiting hknown hfree) hslots.2 hids.2
    intro q hq
    obtain ⟨hqmem,hqwaiting,hqknown,hqfree⟩ := hpairs q (by simp [hq])
    refine ⟨?_,hqwaiting,hqknown,?_⟩
    · simp only [Table.mem_put]
      exact Or.inr ⟨hqmem,hids.1 q hq⟩
    · intro hocc
      obtain ⟨r,hr,hrocc,hrslot⟩ := mem_occupied.mp hocc
      simp only [Table.mem_put] at hr
      rcases hr with rfl | ⟨hr,-⟩
      · exact hslots.1 q hq (Option.some.inj hrslot).symm
      · exact hqfree (mem_occupied.mpr ⟨r,hr,hrocc,hrslot⟩)

/-- The store is in `P`, and the clock readings still to come are among those of `outside`. -/
def During (outside : Outside) (P : Store → Prop) (w : World) : Prop :=
  P w.store ∧ ∀ n, ∃ m, w.outside.readings n = outside.readings m

section Rules

variable {outside : Outside} {P R : Store → Prop} {α β : Type}
  {Q : Except RouterError α → World → Prop}

theorem triple_clock {f : Time → Operation α}
    (h : ∀ n, Triple (During outside P) (f (outside.readings n)) Q) :
    Triple (During outside P) (clock >>= f) Q := by
  rintro w ⟨hw,hreadings⟩
  obtain ⟨m,hm⟩ := hreadings 0
  have hrest := h m
  rw [← hm] at hrest
  exact hrest ⟨w.store,{ w.outside with readings := fun n => w.outside.readings (n+1) }⟩
    ⟨hw,fun n => hreadings (n+1)⟩

theorem triple_sessions {f : SessionTable → Operation α}
    (h : ∀ t, Triple (During outside fun s => P s ∧ s.sessions = t) (f t) Q) :
    Triple (During outside P) (sessions >>= f) Q :=
  fun w hw => h w.store.sessions w ⟨⟨hw.1,rfl⟩,hw.2⟩

theorem triple_setSessions {t : SessionTable} {f : Unit → Operation α}
    (hP : ∀ s, P s → R (s.withSessions t)) (h : Triple (During outside R) (f ()) Q) :
    Triple (During outside P) (setSessions t >>= f) Q :=
  fun w hw => h _ ⟨hP w.store hw.1,hw.2⟩

theorem triple_pre {m : Operation α} (hP : ∀ s, P s → R s) (h : Triple (During outside R) m Q) :
    Triple (During outside P) m Q :=
  h.conseq (fun w hw => ⟨hP w.store hw.1,hw.2⟩) fun _ _ hq => hq

theorem triple_pure {x : α} (h : ∀ s, P s → R s) :
    Triple (During outside P) (pure x : Operation α) fun _ => During outside R :=
  fun w hw => ⟨h w.store hw.1,hw.2⟩

theorem triple_throw {e : RouterError} (h : ∀ s, P s → R s) :
    Triple (During outside P) (throw e : Operation α) fun _ => During outside R :=
  fun w hw => ⟨h w.store hw.1,hw.2⟩

/-- An operation that ensures `B` of its answer, followed by one that uses it. -/
theorem triple_bind {m : Operation β} {B : β → Store → Prop} {f : β → Operation α}
    (hm : Triple (During outside P) m
      (Ensures (During outside R) fun x => During outside (B x)))
    (hf : ∀ x, Triple (During outside fun s => R s ∧ B x s) (f x) Q)
    (he : ∀ e w, During outside R w → Q (.error e) w) : Triple (During outside P) (m >>= f) Q :=
  Triple.bind hm (fun x w hw => hf x w ⟨⟨hw.1.1,hw.2.1⟩,hw.1.2⟩) he

/-- The state file is written, or it is not. -/
theorem keeps_persistLocked (h : ∀ s, P s → P { s with file := some (document s) }) :
    Keeps (During outside P) persistLocked := by
  rintro ⟨s,o⟩ ⟨hs,ho⟩
  have hfile := h s hs
  cases hw : o.writes 0 with
  | true => simpa [persistLocked,hw,exec_bind,During] using And.intro hfile ho
  | false => simpa [persistLocked,hw,exec_bind,During] using And.intro hs ho

theorem keeps_persistIf (h : ∀ s, P s → P { s with file := some (document s) }) (changed : Bool) :
    Keeps (During outside P) (persistIf changed) := by
  cases changed with
  | true => exact keeps_persistLocked h
  | false => exact fun _ h => h

/-- A record that is required is in the table. -/
theorem triple_requireLocked (sessionId : String) :
    Triple (During outside P) (requireLocked sessionId)
      (Ensures (During outside P) fun record =>
        During outside fun s => record ∈ s.sessions ∧ record.sessionId = sessionId) := by
  apply Triple.check_bind
  · intro _ _
    apply triple_sessions
    intro t
    split
    · rename_i record hfind
      rintro w ⟨⟨hP,rfl⟩,ho⟩
      exact ⟨⟨hP,ho⟩,Table.find_eq_some.mp hfind,ho⟩
    · exact fun w hw => ⟨hw.1.1,hw.2⟩
  · exact fun _ _ h => h

/-- The new id is free, and named by a number below the next one. -/
theorem triple_newIdLocked
    (h : ∀ s n, s.nextSequence ≤ n → P s → P { s with nextSequence := n+1 }) :
    Triple (During outside P) newIdLocked (Ensures (During outside P) fun id =>
      During outside fun s =>
        (∀ r ∈ s.sessions, r.sessionId ≠ id) ∧ ∃ n < s.nextSequence, id = sessionName n) := by
  rintro w ⟨hP,ho⟩
  refine ⟨⟨h w.store _ (Table.le_firstFree _ _ _ _) hP,ho⟩,⟨?_,_,Nat.lt_succ_self _,rfl⟩,ho⟩
  intro r hmem heq
  have hfree := Table.firstFree_not_mem sessionName_injective
    (w.store.sessions.rows.map RouterSession.sessionId) w.store.nextSequence
  exact hfree (List.mem_map.mpr ⟨r,hmem,heq⟩)

end Rules

section Simulation

variable {settings : Settings} {request : Request} {outside : Outside} {s₀ : Store}

/-- The store is reached, and its sessions are in `B`. -/
def ReachedWith (settings : Settings) (request : Request) (outside : Outside) (s₀ : Store)
    (B : SessionTable → Prop) (s : Store) : Prop :=
  Changes settings request outside s₀ s ∧ B s.sessions

theorem persistIf_triple (changed : Bool) (B : SessionTable → Prop) :
    Keeps (During outside (ReachedWith settings request outside s₀ B)) (persistIf changed) :=
  keeps_persistIf (fun s h => ⟨h.1.tail (.persist s),h.2⟩) changed

theorem persistLocked_keeps :
    Keeps (During outside (Changes settings request outside s₀)) persistLocked :=
  keeps_persistLocked fun s h => h.tail (.persist s)

theorem expireLocked_keeps (h : request.polls = true) :
    Keeps (During outside (Changes settings request outside s₀)) expireLocked := by
  apply triple_clock
  intro n
  apply triple_sessions
  intro t
  refine triple_setSessions (R:=Changes settings request outside s₀) ?_ ?_
  · rintro s ⟨hr,rfl⟩
    exact hr.tail (.expire s n h)
  · exact triple_pure fun _ h => h

theorem assignWaitersLocked_keeps :
    Keeps (During outside (Changes settings request outside s₀)) (assignWaitersLocked settings) := by
  apply triple_sessions
  intro t
  apply triple_clock
  intro n
  refine triple_setSessions (R:=Changes settings request outside s₀) ?_ ?_
  · rintro s ⟨hr,rfl⟩
    apply offerAll_induct (P:=fun t => Changes settings request outside s₀ (s.withSessions t)) _ hr
    intro t r slot ht hmem hwaiting hknown hfree
    exact ht.tail (.offer _ r slot n hmem hwaiting hknown hfree)
  · exact triple_pure fun _ h => h

/-- What `for_principal` answers: a live record of the principal, unless it has none. -/
def Found (principalId : String) (x : Option RouterSession) (s : Store) : Prop :=
  (∀ record ∈ x, record ∈ s.sessions ∧ record.principalId = principalId) ∧
    (x = none → ∀ r ∈ s.sessions, r.principalId = principalId → ¬r.status.live)

theorem found_argmin (principalId : String) (s : Store) : Found principalId
    ((s.sessions.rows.filter fun r => r.principalId = principalId && r.status.live).argmin fun r =>
      toLex (r.status.order,-r.enqueuedAt)) s := by
  constructor
  · intro record hrecord
    have hmem := List.argmin_mem hrecord
    simp only [List.mem_filter,Bool.and_eq_true,decide_eq_true_eq] at hmem
    exact ⟨hmem.1,hmem.2.1⟩
  · intro hnone r hr hprincipal hlive
    have hempty := List.argmin_eq_none.mp hnone
    have hmem : r ∈ s.sessions.rows.filter fun r => r.principalId = principalId && r.status.live := by
      rw [List.mem_filter]
      exact ⟨hr,by simp [hprincipal,hlive]⟩
    simp [hempty] at hmem

theorem forPrincipal_triple (h : request.polls = true) (principalId : String) :
    Triple (During outside (Changes settings request outside s₀))
      (forPrincipal settings principalId)
      (Ensures (During outside (Changes settings request outside s₀)) fun x =>
        During outside (Found principalId x)) := by
  apply Triple.check_bind
  · intro _ _
    refine Triple.bind (expireLocked_keeps h) (fun expired => ?_) fun _ _ h => h
    refine Triple.bind assignWaitersLocked_keeps (fun promoted => ?_) fun _ _ h => h
    apply triple_sessions
    intro t
    refine Triple.bind (persistIf_triple _ (· = t)) (fun _ => ?_) fun _ _ h => ⟨h.1.1,h.2⟩
    rintro w ⟨⟨hr,rfl⟩,ho⟩
    exact ⟨⟨hr,ho⟩,found_argmin principalId w.store,ho⟩
  · exact fun _ _ h => h

/-- The tail that most operations share: put a changed record back, then write the file. -/
theorem replace_keeps {record record' : RouterSession} {α : Type} {x : α}
    (h : ∀ s, record ∈ s.sessions →
      Change settings request outside s (s.withSessions (s.sessions.put record'))) :
    Triple (During outside fun s => Changes settings request outside s₀ s ∧ record ∈ s.sessions)
      (do
        let t ← sessions
        setSessions (t.put record')
        persistLocked
        return x) fun _ => During outside (Changes settings request outside s₀) := by
  apply triple_sessions
  intro t
  refine triple_setSessions (R:=Changes settings request outside s₀) ?_ ?_
  · rintro s ⟨⟨hr,hmem⟩,rfl⟩
    exact hr.tail (h s hmem)
  · exact Keeps.bind persistLocked_keeps fun _ => triple_pure fun _ h => h

theorem activate_keeps (sessionId : String) :
    Keeps (During outside (Changes settings (.activate sessionId) outside s₀))
      (activate settings sessionId) := by
  refine triple_bind (triple_requireLocked sessionId) (fun record => ?_) fun _ _ h => h
  split
  · exact triple_pure fun _ h => h.1
  split
  · exact triple_throw fun _ h => h.1
  rename_i hoffered
  by_cases hid : record.sessionId = sessionId
  · subst hid
    apply triple_clock
    intro n
    refine triple_pre (fun s h => ⟨h.1,h.2.1⟩) (replace_keeps fun s hmem => ?_)
    exact .activate s record n rfl hmem (not_not.mp hoffered)
  · exact fun w hw => absurd hw.1.2.2 hid

theorem leave_keeps (sessionId : String) :
    Keeps (During outside (Changes settings (.leave sessionId) outside s₀)) (leave sessionId) := by
  refine triple_bind (triple_requireLocked sessionId) (fun record => ?_) fun _ _ h => h
  by_cases hid : record.sessionId = sessionId
  · subst hid
    refine triple_pre (fun s h => ⟨h.1,h.2.1⟩) (replace_keeps fun s hmem => ?_)
    exact .leave s record rfl hmem
  · exact fun w hw => absurd hw.1.2.2 hid

theorem backoff_keeps (sessionId : String) :
    Keeps (During outside (Changes settings (.backoff sessionId) outside s₀))
      (backoff settings sessionId) := by
  refine triple_bind (triple_requireLocked sessionId) (fun record => ?_) fun _ _ h => h
  apply triple_clock
  intro n
  apply triple_sessions
  intro t
  refine triple_setSessions (R:=Changes settings (.backoff sessionId) outside s₀) ?_ ?_
  · rintro s ⟨⟨hr,hmem,hid⟩,rfl⟩
    exact hr.tail (.backoff s record n (by rw [hid]) hmem)
  · apply Keeps.bind assignWaitersLocked_keeps
    intro _
    exact Keeps.bind persistLocked_keeps fun _ => triple_pure fun _ h => h

theorem promoteNext_keeps :
    Keeps (During outside (Changes settings .promoteNext outside s₀)) (promoteNext settings) := by
  apply Keeps.bind (expireLocked_keeps rfl)
  intro _
  apply triple_sessions
  intro t
  split
  · rename_i record _ slot _ hqueue hfree
    obtain ⟨hmem,hwaiting⟩ := mem_queue.mp (hqueue ▸ List.mem_cons_self)
    obtain ⟨hknown,hunoccupied⟩ := mem_free.mp (hfree ▸ List.mem_cons_self)
    apply triple_clock
    intro n
    refine triple_setSessions (R:=Changes settings .promoteNext outside s₀) ?_ ?_
    · rintro s ⟨hr,rfl⟩
      exact hr.tail (.offer s record slot n hmem hwaiting hknown hunoccupied)
    · exact Keeps.bind persistLocked_keeps fun _ => triple_pure fun _ h => h
  · exact triple_pure fun _ h => h.1

theorem getSession_keeps (sessionId : String) :
    Keeps (During outside (Changes settings (.get sessionId) outside s₀))
      (getSession sessionId) := by
  apply Keeps.bind (expireLocked_keeps rfl)
  intro changed
  apply triple_sessions
  intro t
  refine Triple.bind (persistIf_triple changed (· = t)) (fun _ => ?_) fun e w h => ⟨h.1.1,h.2⟩
  exact triple_pure fun _ h => h.1

theorem renew_keeps (principalId : String) :
    Keeps (During outside (Changes settings (.renew principalId) outside s₀))
      (renew settings principalId) := by
  refine Triple.check_bind (fun _ _ => ?_) fun _ _ h => h
  refine triple_bind (forPrincipal_triple rfl principalId) (fun found => ?_) fun _ _ h => h
  split
  · exact triple_pure fun _ h => h.1
  · rename_i current
    split
    · exact triple_pure fun _ h => h.1
    rename_i hactive
    have hstatus : current.status = .active := by
      by_contra h
      exact hactive (Or.inl h)
    by_cases hprincipal : current.principalId = principalId
    · subst hprincipal
      apply triple_clock
      intro n
      refine triple_pre (fun s h => ⟨h.1,(h.2.1 current rfl).1⟩) (replace_keeps fun s hmem => ?_)
      exact .renew s current n rfl hmem hstatus
    · exact fun w hw => absurd (hw.1.2.1 current rfl).2 hprincipal

theorem roster_keeps :
    Keeps (During outside (Changes settings .roster outside s₀)) (roster settings) := by
  apply Keeps.bind (expireLocked_keeps rfl)
  intro changed
  apply Keeps.bind assignWaitersLocked_keeps
  intro promoted
  apply triple_sessions
  intro t
  refine Triple.bind (persistIf_triple _ (· = t)) (fun _ => ?_) fun e w h => ⟨h.1.1,h.2⟩
  exact triple_pure fun _ h => h.1

theorem readable_of_validateText {name value : String} {x : Unit}
    (h : validateText name value = .ok x) : readable value = true := by
  by_contra hvalue
  simp [validateText,readable] at h hvalue
  simp [hvalue] at h

theorem enqueue_keeps (principalId requestId : String) (displayEmail : Option String) :
    Keeps (During outside
        (Changes settings (.enqueue principalId requestId displayEmail) outside s₀))
      (enqueue settings principalId requestId displayEmail) := by
  refine Triple.check_bind (fun _ hprincipal => ?_) fun _ _ h => h
  refine Triple.check_bind (fun _ hrequest => ?_) fun _ _ h => h
  refine Triple.check_bind (fun _ hemail => ?_) fun _ _ h => h
  apply Keeps.bind (expireLocked_keeps rfl)
  intro _
  refine triple_bind (forPrincipal_triple rfl principalId) (fun found => ?_) fun _ _ h => h
  split
  · exact triple_pure fun _ h => h.1
  -- nobody else of this principal is in the table from here to the new record
  refine triple_pre (R:=ReachedWith settings _ outside s₀ fun t =>
    ∀ r ∈ t, r.principalId = principalId → ¬r.status.live) (fun _ h => ⟨h.1,h.2.2 rfl⟩) ?_
  refine triple_bind (triple_newIdLocked fun s n hn h => ⟨h.1.tail (.reserve s n hn),h.2⟩)
    (fun sessionId => ?_) fun _ _ h => ⟨h.1.1,h.2⟩
  apply triple_clock
  intro n
  apply triple_sessions
  intro t
  refine triple_setSessions
    (R:=Changes settings (.enqueue principalId requestId displayEmail) outside s₀) ?_ ?_
  · rintro s ⟨⟨⟨hr,halone⟩,hfresh,hnamed⟩,rfl⟩
    refine hr.tail (.join s _ ⟨rfl,?_,?_,?_⟩ hfresh hnamed halone rfl rfl rfl ⟨rfl,rfl,rfl⟩)
    · exact readable_of_validateText hprincipal
    · exact readable_of_validateText hrequest
    · rintro email rfl
      exact readable_of_validateText hemail
  apply Keeps.bind assignWaitersLocked_keeps
  intro _
  apply Keeps.bind persistLocked_keeps
  intro _
  apply triple_sessions
  intro t'
  split
  · exact triple_pure fun _ h => h.1
  · exact triple_throw fun _ h => h.1

theorem discard_keeps {α : Type} {m : Operation α}
    (h : Keeps (During outside (Changes settings request outside s₀)) m) :
    Keeps (During outside (Changes settings request outside s₀)) (discard m) :=
  Keeps.bind h fun _ => triple_pure fun _ h => h

theorem perform_keeps (request : Request) :
    Keeps (During outside (Changes settings request outside s₀)) (request.perform settings) := by
  cases request with
  | enqueue p r e => exact discard_keeps (enqueue_keeps p r e)
  | activate s => exact discard_keeps (activate_keeps s)
  | leave s => exact discard_keeps (leave_keeps s)
  | backoff s => exact discard_keeps (backoff_keeps s)
  | renew p => exact discard_keeps (renew_keeps p)
  | promoteNext => exact discard_keeps promoteNext_keeps
  | get s => exact discard_keeps (getSession_keeps s)
  | forPrincipal p => exact discard_keeps (forPrincipal_triple rfl p).keeps
  | roster => exact discard_keeps roster_keeps

/-- Whatever an operation answers, its effect on the store is a sequence of changes that the
call allows. -/
theorem step_changes (s : Store) (request : Request) (outside : Outside) :
    Changes settings request outside s (s.step settings (request,outside)) :=
  (perform_keeps request ⟨s,outside⟩ ⟨.refl,fun n => ⟨n,rfl⟩⟩).1

theorem step_reaches (s : Store) (e : Request × Outside) : Reaches settings s (s.step settings e) :=
  (step_changes s e.1 e.2).lift id fun _ _ h => h.transition

theorem run_reaches (s : Store) (es : List (Request × Outside)) :
    Reaches settings s (run settings s es) := by
  induction es generalizing s with
  | nil => exact .refl
  | cons e es ih => exact (step_reaches s e).trans (ih _)

end Simulation

end RouterSessions
end CloudBrowser
