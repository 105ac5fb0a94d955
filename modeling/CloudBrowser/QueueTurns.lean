import CloudBrowser.DiskMemory

/-! The order in which a call goes through the queue. First the clock ends what has lapsed; from
then on nobody comes back into the queue, and each offer goes to whoever is first in it. -/
namespace CloudBrowser
namespace RouterSessions

open Stateful Keyed

namespace RouterSession

theorem before_total (a b : RouterSession) : a.before b ∨ b.before a := by
  unfold before
  rcases lt_trichotomy a.enqueuedAt b.enqueuedAt with h | h | h
  · exact Or.inl (Or.inl h)
  · rcases String.le_total a.sessionId b.sessionId with hid | hid
    · exact Or.inl (Or.inr ⟨h,hid⟩)
    · exact Or.inr (Or.inr ⟨h.symm,hid⟩)
  · exact Or.inr (Or.inl h)

theorem before_trans {a b c : RouterSession} (h : a.before b) (h' : b.before c) : a.before c := by
  unfold before at *
  rcases h with h | ⟨h,hid⟩
  · rcases h' with h' | ⟨h',-⟩
    · exact Or.inl (h.trans h')
    · exact Or.inl (h' ▸ h)
  · rcases h' with h' | ⟨h',hid'⟩
    · exact Or.inl (h ▸ h')
    · exact Or.inr ⟨h.trans h',String.le_trans hid hid'⟩

instance : Std.Total before := ⟨before_total⟩

instance : IsTrans RouterSession before := ⟨fun _ _ _ => before_trans⟩

theorem sessionId_of_before {a b : RouterSession} (h : a.before b) (h' : b.before a) :
    a.sessionId = b.sessionId := by
  unfold before at *
  rcases h with h | ⟨h,hid⟩
  · rcases h' with h' | ⟨h',-⟩
    · exact absurd h' h.asymm
    · exact absurd h' h.ne'
  · rcases h' with h' | ⟨-,hid'⟩
    · exact absurd h h'.ne'
    · exact String.le_antisymm hid hid'

end RouterSession

section Queue

variable {settings : Settings} {t t' : SessionTable} {r r' x : RouterSession} {now : Time}

theorem sorted_queue (t : SessionTable) : (queue t).Pairwise RouterSession.before :=
  List.pairwise_insertionSort _ _

/-- Whoever is first in the queue is before everybody who waits. -/
theorem before_of_head (h : (queue t).head? = some r) (hx : x ∈ t) (hwaiting : x.status = .waiting) :
    r.before x := by
  obtain ⟨rest,hqueue⟩ := List.head?_eq_some_iff.mp h
  have hsorted := sorted_queue t
  have hmem := mem_queue.mpr ⟨hx,hwaiting⟩
  rw [hqueue] at hsorted hmem
  rcases List.mem_cons.mp hmem with rfl | hmem
  · exact (RouterSession.before_total x x).elim id id
  · exact (List.pairwise_cons.mp hsorted).1 x hmem

theorem filter_put {p : RouterSession → Bool} (hr : p r = false) :
    (t.put r).rows.filter p = (t.rows.filter p).filter fun x => x.sessionId ≠ r.sessionId := by
  show (Table.putRows RouterSession.sessionId t.rows r).filter p = _
  have hmap : ∀ rows : List RouterSession,
      (rows.map fun x => if x.sessionId = r.sessionId then r else x).filter p =
        (rows.filter p).filter fun x => x.sessionId ≠ r.sessionId := by
    intro rows
    induction rows with
    | nil => rfl
    | cons x rows ih =>
      by_cases hid : x.sessionId = r.sessionId
      · cases hp : p x <;> simpa [hid,hr,hp] using ih
      · cases hp : p x <;> simpa [hid,hp] using ih
  unfold Table.putRows
  split
  · exact hmap t.rows
  · next hnone =>
    push Not at hnone
    have hall : (t.rows.filter p).filter (fun x => x.sessionId ≠ r.sessionId) = t.rows.filter p := by
      apply List.filter_eq_self.mpr
      intro x hx
      simpa using hnone x (List.mem_filter.mp hx).1
    rw [hall]
    simp [hr]

/-- Once the first in the queue is in it no more, the next one is first. -/
theorem queue_put {records : List RouterSession} (hqueue : queue t = r::records)
    (hid : r'.sessionId = r.sessionId) (hstatus : r'.status ≠ .waiting) :
    queue (t.put r') = records := by
  have hnodup := nodup_queue t
  rw [hqueue,List.map_cons,List.nodup_cons] at hnodup
  have hrecords : (queue t).filter (fun x => x.sessionId ≠ r'.sessionId) = records := by
    have hself : ¬(r.sessionId ≠ r'.sessionId) := by simp [hid]
    rw [hqueue,List.filter_cons_of_neg (by simpa using hself)]
    apply List.filter_eq_self.mpr
    intro x hx
    have hne : x.sessionId ≠ r.sessionId := fun heq =>
      hnodup.1 (heq ▸ List.mem_map_of_mem hx)
    simpa [hid] using hne
  have hrows : (t.put r').rows.filter (fun x => x.status = .waiting) =
      (t.rows.filter fun x => x.status = .waiting).filter fun x => x.sessionId ≠ r'.sessionId :=
    filter_put (by simpa using hstatus)
  have hperm : (queue (t.put r')).Perm records := by
    rw [← hrecords,queue,hrows]
    exact (List.perm_insertionSort _ _).trans
      ((List.perm_insertionSort RouterSession.before _).filter _).symm
  have hsorted : records.Pairwise RouterSession.before := by
    have hall := sorted_queue t
    rw [hqueue] at hall
    exact hall.tail
  apply hperm.eq_of_pairwise _ (sorted_queue _) hsorted
  intro x y hx hy hxy hyx
  have hmem := (mem_queue.mp hx).1
  have hmem' := (mem_queue.mp (hperm.mem_iff.mpr hy)).1
  exact Table.eq_of_key hmem hmem' (RouterSession.sessionId_of_before hxy hyx)

theorem mem_occupied_offer {slot : SlotDescriptor} {k : Option String} (hmem : r ∈ t)
    (hwaiting : r.status = .waiting) :
    k ∈ occupied (t.put (r.offer slot now)) ↔ k = some slot.slotId ∨ k ∈ occupied t := by
  simp only [mem_occupied,Table.mem_put]
  constructor
  · rintro ⟨x,rfl | ⟨hx,-⟩,hocc,rfl⟩
    · exact Or.inl rfl
    · exact Or.inr ⟨x,hx,hocc,rfl⟩
  · rintro (rfl | ⟨x,hx,hocc,rfl⟩)
    · exact ⟨r.offer slot now,Or.inl rfl,rfl,rfl⟩
    · refine ⟨x,Or.inr ⟨hx,?_⟩,hocc,rfl⟩
      intro heq
      have hsame := Table.eq_of_key hx hmem heq
      rw [hsame,hwaiting] at hocc
      cases hocc

theorem free_put {slot : SlotDescriptor} {slots : List SlotDescriptor} (hmem : r ∈ t)
    (hwaiting : r.status = .waiting) (hfree : free settings t = slot::slots) :
    free settings (t.put (r.offer slot now)) = slots := by
  have hsplit : free settings (t.put (r.offer slot now)) =
      (free settings t).filter fun x => x.slotId ≠ slot.slotId := by
    unfold free
    rw [List.filter_filter]
    congr 1
    funext x
    simp only [mem_occupied_offer hmem hwaiting,Option.some.injEq,not_or,Bool.decide_and]
  have hnodup := nodup_free settings t
  rw [hfree,List.map_cons,List.nodup_cons] at hnodup
  rw [hsplit,hfree,List.filter_cons_of_neg (by simp)]
  apply List.filter_eq_self.mpr
  intro x hx
  have hne : x.slotId ≠ slot.slotId := fun heq => hnodup.1 (heq ▸ List.mem_map_of_mem hx)
  simpa using hne

/-- In an assignment each offer is of the first free slot to the first in the queue, until there is
no queue or no slot. -/
theorem assignAll_induct {P : SessionTable → Prop}
    (hP : ∀ t r records slot slots, queue t = r::records → free settings t = slot::slots → P t →
      P (t.put (r.offer slot (now+settings.offerTtl)))) (t : SessionTable) (ht : P t) :
    P (assignAll settings t now) ∧ (queue (assignAll settings t now) = [] ∨
      free settings (assignAll settings t now) = []) := by
  unfold assignAll
  generalize hrecords : queue t = records
  induction records generalizing t with
  | nil => exact ⟨ht,Or.inl hrecords⟩
  | cons r records ih =>
    cases hslots : free settings t with
    | nil =>
      rw [List.zip_nil_right]
      exact ⟨ht,Or.inr hslots⟩
    | cons slot slots =>
      have hmem := mem_queue.mp (hrecords ▸ List.mem_cons_self : r ∈ queue t)
      have hqueue := @queue_put t r (r.offer slot (now+settings.offerTtl)) records hrecords rfl
        (by simp [RouterSession.offer])
      have hfree := @free_put settings t r (now+settings.offerTtl) slot slots hmem.1 hmem.2 hslots
      have hrest := ih _ (hP t r records slot slots hrecords hslots ht) hqueue
      rw [hfree] at hrest
      exact hrest

end Queue

/-- What has lapsed at a reading of the clock is ended. -/
def Lapse (outside : Outside) (t t' : SessionTable) : Prop :=
  ∃ n, t' = expireAll t (outside.readings n)

/-- What a call does to the sessions after that. -/
inductive Turn (settings : Settings) (request : Request) (outside : Outside) :
    SessionTable → SessionTable → Prop
  | offer (t : SessionTable) (r : RouterSession) (slot : SlotDescriptor) (n : ℕ)
      (first : (queue t).head? = some r) (unoccupied : slot ∈ free settings t) :
      Turn settings request outside t
        (t.put (r.offer slot (outside.readings n+settings.offerTtl)))
  | join (t : SessionTable) (r : RouterSession) (n : ℕ) (bounded : Enqueues request r)
      (fresh : ∀ r' ∈ t, r'.sessionId ≠ r.sessionId) (waiting : r.status = .waiting)
      (now : r.enqueuedAt = outside.readings n) : Turn settings request outside t (t.put r)
  | activate (t : SessionTable) (r : RouterSession) (n : ℕ) (called : request = .activate r.sessionId)
      (member : r ∈ t) (offered : r.status = .offered) :
      Turn settings request outside t
        (t.put (r.activate (outside.readings n+settings.sessionTtl)))
  | leave (t : SessionTable) (r : RouterSession) (called : request = .leave r.sessionId)
      (member : r ∈ t) : Turn settings request outside t (t.put r.leave)
  | backoff (t : SessionTable) (r : RouterSession) (n : ℕ) (called : request = .backoff r.sessionId)
      (member : r ∈ t) :
      Turn settings request outside t
        (t.put (r.backoff (outside.readings n+settings.backoffTtl)))
  | renew (t : SessionTable) (r : RouterSession) (n : ℕ) (called : request = .renew r.principalId)
      (member : r ∈ t) (active : r.status = .active) :
      Turn settings request outside t (t.put (r.renew (outside.readings n+settings.sessionTtl)))

/-- First the lapses, and then the turns. -/
def Conducted (settings : Settings) (request : Request) (outside : Outside)
    (t t' : SessionTable) : Prop :=
  ∃ t₁, Relation.ReflTransGen (Lapse outside) t t₁ ∧
    Relation.ReflTransGen (Turn settings request outside) t₁ t'

/-- Nobody waits, or no slot is free. -/
def Settled (settings : Settings) (t : SessionTable) : Prop := queue t = [] ∨ free settings t = []

/-- A renewal neither takes a slot nor frees one. -/
theorem settled_renew {settings : Settings} {t : SessionTable} {r : RouterSession} {now : Time}
    (hmem : r ∈ t) (hactive : r.status = .active) (h : Settled settings t) :
    Settled settings (t.put (r.renew now)) := by
  have hqueue : queue (t.put (r.renew now)) = queue t := by
    have hrows : (t.put (r.renew now)).rows.filter (fun x => x.status = .waiting) =
        t.rows.filter fun x => x.status = .waiting := by
      rw [filter_put (by simp [RouterSession.renew,hactive])]
      apply List.filter_eq_self.mpr
      intro x hx
      obtain ⟨hx,hwaiting⟩ := List.mem_filter.mp hx
      have hne : x.sessionId ≠ r.sessionId := by
        intro heq
        have hsame := Table.eq_of_key hx hmem heq
        simp [hsame,hactive] at hwaiting
      exact decide_eq_true hne
    simp only [queue,hrows]
  have hoccupied : ∀ k, k ∈ occupied (t.put (r.renew now)) ↔ k ∈ occupied t := by
    intro k
    simp only [mem_occupied,Table.mem_put]
    constructor
    · rintro ⟨x,rfl | ⟨hx,-⟩,hocc,rfl⟩
      · exact ⟨r,hmem,hocc,rfl⟩
      · exact ⟨x,hx,hocc,rfl⟩
    · rintro ⟨x,hx,hocc,rfl⟩
      by_cases hid : x.sessionId = r.sessionId
      · have hsame := Table.eq_of_key hx hmem hid
        subst hsame
        exact ⟨x.renew now,Or.inl rfl,hocc,rfl⟩
      · exact ⟨x,Or.inr ⟨hx,hid⟩,hocc,rfl⟩
  have hfree : free settings (t.put (r.renew now)) = free settings t := by
    simp only [free,hoccupied]
  unfold Settled
  rw [hqueue,hfree]
  exact h

section Calls

variable {settings : Settings} {request : Request} {outside : Outside} {t₀ t t' : SessionTable}

theorem Conducted.of_lapses (h : Relation.ReflTransGen (Lapse outside) t t') :
    Conducted settings request outside t t' := ⟨t',h,.refl⟩

theorem Conducted.turn (h : Conducted settings request outside t₀ t)
    (hturn : Turn settings request outside t t') : Conducted settings request outside t₀ t' := by
  obtain ⟨t₁,hlapses,hturns⟩ := h
  exact ⟨t₁,hlapses,hturns.tail hturn⟩

/-- What a poll does, any call may do. -/
theorem Conducted.of_roster (h : Conducted settings .roster outside t t') :
    Conducted settings request outside t t' := by
  obtain ⟨t₁,hlapses,hturns⟩ := h
  refine ⟨t₁,hlapses,Relation.ReflTransGen.mono (fun t t' hturn => ?_) _ _ hturns⟩
  cases hturn with
  | offer r slot n hfirst hfree => exact .offer t r slot n hfirst hfree
  | join r n hbounded => cases hbounded.called
  | activate r n hcalled => cases hcalled
  | leave r hcalled => cases hcalled
  | backoff r n hcalled => cases hcalled
  | renew r n hcalled => cases hcalled

/-- The sessions are in `B`. -/
def On (B : SessionTable → Prop) (s : Store) : Prop := B s.sessions

theorem persistLocked_on (B : SessionTable → Prop) :
    Keeps (During outside (On B)) persistLocked :=
  keeps_persistLocked fun _ h => h

theorem persistIf_on (changed : Bool) (B : SessionTable → Prop) :
    Keeps (During outside (On B)) (persistIf changed) :=
  keeps_persistIf (fun _ h => h) changed

theorem expireLocked_lapses :
    Keeps (During outside (On (Relation.ReflTransGen (Lapse outside) t₀))) expireLocked := by
  apply triple_clock
  intro n
  apply triple_sessions
  intro t
  refine triple_setSessions (R:=On (Relation.ReflTransGen (Lapse outside) t₀)) ?_ ?_
  · rintro s ⟨hs,rfl⟩
    exact Relation.ReflTransGen.tail hs ⟨n,rfl⟩
  · exact triple_pure fun _ h => h

theorem assignWaitersLocked_turns :
    Triple (During outside (On (Conducted settings request outside t₀)))
      (assignWaitersLocked settings) fun _ => During outside
        (On fun t => Conducted settings request outside t₀ t ∧ Settled settings t) := by
  apply triple_sessions
  intro t
  apply triple_clock
  intro n
  refine triple_setSessions
    (R:=On fun t => Conducted settings request outside t₀ t ∧ Settled settings t) ?_ ?_
  · rintro s ⟨hs,rfl⟩
    apply assignAll_induct _ s.sessions hs
    intro t r records slot slots hqueue hfree ht
    exact ht.turn (.offer t r slot n (by simp [hqueue]) (by simp [hfree]))
  · exact triple_pure fun _ h => h

theorem assignWaitersLocked_lapses :
    Triple (During outside (On (Relation.ReflTransGen (Lapse outside) t₀)))
      (assignWaitersLocked settings) fun _ => During outside
        (On fun t => Conducted settings request outside t₀ t ∧ Settled settings t) :=
  assignWaitersLocked_turns.conseq (fun _ h => ⟨.of_lapses h.1,h.2⟩) fun _ _ h => h

/-- After a call of `for_principal` nobody waits while a slot is free. -/
theorem forPrincipal_turns (principalId : String) :
    Triple (During outside (On (Relation.ReflTransGen (Lapse outside) t₀)))
      (forPrincipal settings principalId)
      (Ensures (During outside (On (Conducted settings .roster outside t₀))) fun x =>
        During outside fun s => Settled settings s.sessions ∧ Found principalId x s) := by
  refine Triple.check_bind (fun _ _ => ?_) fun _ _ h => ⟨.of_lapses h.1,h.2⟩
  refine Triple.bind expireLocked_lapses (fun expired => ?_) fun _ _ h => ⟨.of_lapses h.1,h.2⟩
  refine Triple.bind assignWaitersLocked_lapses (fun promoted => ?_) fun _ _ h => ⟨h.1.1,h.2⟩
  apply triple_sessions
  intro t
  refine Triple.bind (persistIf_on _ fun t' => (Conducted settings .roster outside t₀ t' ∧
    Settled settings t') ∧ t' = t) (fun _ => ?_) fun _ _ h => ⟨h.1.1.1,h.2⟩
  rintro w ⟨⟨⟨hturns,hsettled⟩,rfl⟩,ho⟩
  exact ⟨⟨hturns,ho⟩,⟨hsettled,found_argmin principalId w.store⟩,ho⟩

/-- A record is put back changed, which is a turn, and the file is written. -/
theorem replace_turns {record record' : RouterSession} {α : Type} {x : α}
    (h : ∀ t, record ∈ t → Turn settings request outside t (t.put record')) :
    Triple (During outside (On fun t => Conducted settings request outside t₀ t ∧ record ∈ t))
      (do
        let t ← sessions
        setSessions (t.put record')
        persistLocked
        return x) fun _ => During outside (On (Conducted settings request outside t₀)) := by
  apply triple_sessions
  intro t
  refine triple_setSessions (R:=On (Conducted settings request outside t₀)) ?_ ?_
  · rintro s ⟨⟨hs,hmem⟩,rfl⟩
    exact hs.turn (h s.sessions hmem)
  · exact Keeps.bind (persistLocked_on _) fun _ => triple_pure fun _ h => h

theorem activate_turns (sessionId : String) :
    Keeps (During outside (On (Conducted settings (.activate sessionId) outside t₀)))
      (activate settings sessionId) := by
  refine triple_bind (triple_requireLocked sessionId) (fun record => ?_) fun _ _ h => h
  split
  · exact triple_pure fun _ h => h.1
  split
  · exact triple_throw fun _ h => h.1
  rename_i hoffered
  by_cases hid : record.sessionId = sessionId
  · subst hid
    apply triple_clock
    intro n
    refine triple_pre (fun s h => ⟨h.1,h.2.1⟩) (replace_turns fun t hmem => ?_)
    exact .activate t record n rfl hmem (not_not.mp hoffered)
  · exact fun w hw => absurd hw.1.2.2 hid

theorem leave_turns (sessionId : String) :
    Keeps (During outside (On (Conducted settings (.leave sessionId) outside t₀)))
      (leave sessionId) := by
  refine triple_bind (triple_requireLocked sessionId) (fun record => ?_) fun _ _ h => h
  by_cases hid : record.sessionId = sessionId
  · subst hid
    refine triple_pre (fun s h => ⟨h.1,h.2.1⟩) (replace_turns fun t hmem => ?_)
    exact .leave t record rfl hmem
  · exact fun w hw => absurd hw.1.2.2 hid

theorem backoff_turns (sessionId : String) :
    Triple (During outside (On (Conducted settings (.backoff sessionId) outside t₀)))
      (backoff settings sessionId)
      (Ensures (During outside (On (Conducted settings (.backoff sessionId) outside t₀))) fun _ =>
        During outside (On (Settled settings))) := by
  refine triple_bind (triple_requireLocked sessionId) (fun record => ?_) fun _ _ h => h
  apply triple_clock
  intro n
  apply triple_sessions
  intro t
  refine triple_setSessions
    (R:=On (Conducted settings (.backoff sessionId) outside t₀)) ?_ ?_
  · rintro s ⟨⟨hs,hmem,hid⟩,rfl⟩
    exact Conducted.turn hs (.backoff s.sessions record n (by rw [hid]) hmem)
  · refine Triple.bind assignWaitersLocked_turns (fun _ => ?_) fun _ _ h => ⟨h.1.1,h.2⟩
    refine Triple.bind (persistLocked_on _) (fun _ => ?_) fun _ _ h => ⟨h.1.1,h.2⟩
    exact fun w h => ⟨⟨h.1.1,h.2⟩,h.1.2,h.2⟩

theorem promoteNext_turns :
    Triple (During outside (On (Relation.ReflTransGen (Lapse outside) t₀))) (promoteNext settings)
      fun _ => During outside (On (Conducted settings .promoteNext outside t₀)) := by
  refine Triple.bind expireLocked_lapses (fun _ => ?_) fun _ _ h => ⟨.of_lapses h.1,h.2⟩
  apply triple_sessions
  intro t
  split
  · rename_i record _ slot _ hqueue hfree
    apply triple_clock
    intro n
    refine triple_setSessions (R:=On (Conducted settings .promoteNext outside t₀)) ?_ ?_
    · rintro s ⟨hs,rfl⟩
      exact (Conducted.of_lapses hs).turn
        (.offer s.sessions record slot n (by simp [hqueue]) (by simp [hfree]))
    · exact Keeps.bind (persistLocked_on _) fun _ => triple_pure fun _ h => h
  · exact triple_pure fun _ h => .of_lapses h.1

theorem getSession_turns (sessionId : String) :
    Triple (During outside (On (Relation.ReflTransGen (Lapse outside) t₀))) (getSession sessionId)
      fun _ => During outside (On (Conducted settings (.get sessionId) outside t₀)) := by
  refine Triple.bind expireLocked_lapses (fun changed => ?_) fun _ _ h => ⟨.of_lapses h.1,h.2⟩
  apply triple_sessions
  intro t
  refine Triple.bind (persistIf_on changed fun t' => Relation.ReflTransGen (Lapse outside) t₀ t' ∧
    t' = t) (fun _ => ?_) fun _ _ h => ⟨.of_lapses h.1.1,h.2⟩
  exact triple_pure fun _ h => .of_lapses h.1

theorem renew_turns (principalId : String) :
    Triple (During outside (On (Relation.ReflTransGen (Lapse outside) t₀)))
      (renew settings principalId)
      (Ensures (During outside (On (Conducted settings (.renew principalId) outside t₀))) fun _ =>
        During outside (On (Settled settings))) := by
  refine Triple.check_bind (fun _ _ => ?_) fun _ _ h => ⟨.of_lapses h.1,h.2⟩
  refine triple_bind (forPrincipal_turns principalId) (fun found => ?_) fun _ _ h =>
    ⟨h.1.of_roster,h.2⟩
  split
  · exact fun w h => ⟨⟨h.1.1.of_roster,h.2⟩,h.1.2.1,h.2⟩
  · rename_i current
    split
    · exact fun w h => ⟨⟨h.1.1.of_roster,h.2⟩,h.1.2.1,h.2⟩
    rename_i hactive
    have hstatus : current.status = .active := by
      by_contra h
      exact hactive (Or.inl h)
    by_cases hprincipal : current.principalId = principalId
    · subst hprincipal
      apply triple_clock
      intro n
      apply triple_sessions
      intro t
      refine triple_setSessions
        (R:=On fun t => Conducted settings (.renew current.principalId) outside t₀ t ∧
          Settled settings t) ?_ ?_
      · rintro s ⟨⟨hs,hsettled,hfound⟩,rfl⟩
        have hmem := (hfound.1 current rfl).1
        have hturns : Conducted settings (.renew current.principalId) outside t₀ s.sessions :=
          Conducted.of_roster hs
        exact ⟨hturns.turn (.renew s.sessions current n rfl hmem hstatus),
          settled_renew hmem hstatus hsettled⟩
      · refine Triple.bind (persistLocked_on _) (fun _ => ?_) fun _ _ h => ⟨h.1.1,h.2⟩
        exact fun w h => ⟨⟨h.1.1,h.2⟩,h.1.2,h.2⟩
    · exact fun w hw => absurd (hw.1.2.2.1 current rfl).2 hprincipal

theorem roster_turns :
    Triple (During outside (On (Relation.ReflTransGen (Lapse outside) t₀))) (roster settings)
      (Ensures (During outside (On (Conducted settings .roster outside t₀))) fun _ =>
        During outside (On (Settled settings))) := by
  refine Triple.bind expireLocked_lapses (fun changed => ?_) fun _ _ h => ⟨.of_lapses h.1,h.2⟩
  refine Triple.bind assignWaitersLocked_lapses (fun promoted => ?_) fun _ _ h => ⟨h.1.1,h.2⟩
  apply triple_sessions
  intro t
  refine Triple.bind (persistIf_on _ fun t' => (Conducted settings .roster outside t₀ t' ∧
    Settled settings t') ∧ t' = t) (fun _ => ?_) fun _ _ h => ⟨h.1.1.1,h.2⟩
  exact fun w h => ⟨⟨h.1.1.1,h.2⟩,h.1.1.2,h.2⟩

/-- What `enqueue` does before it makes a session. -/
def seek (settings : Settings) (principalId requestId : String) (displayEmail : Option String) :
    Operation (Option RouterSession) := do
  check (validateText "principal_id" principalId)
  check (validateText "request_id" requestId)
  check (displayEmail.elim (.ok ()) (validateText "display_email"))
  let _ ← expireLocked
  forPrincipal settings principalId

theorem enqueue_eq (settings : Settings) (principalId requestId : String)
    (displayEmail : Option String) : enqueue settings principalId requestId displayEmail = (do
      match ← seek settings principalId requestId displayEmail with
      | some current => return current
      | none => joinQueue settings principalId requestId displayEmail) := by
  simp only [enqueue,seek,bind_assoc]
  rfl

/-- The texts that a call of `enqueue` is made with. -/
def Request.bounded (p r : String) (e : Option String) : Prop :=
  readable p = true ∧ readable r = true ∧ ∀ s ∈ e, readable s = true

theorem seek_turns (principalId requestId : String) (displayEmail : Option String) :
    Triple (During outside (On (Relation.ReflTransGen (Lapse outside) t₀)))
      (seek settings principalId requestId displayEmail)
      (Ensures (During outside (On (Conducted settings .roster outside t₀))) fun _ =>
        During outside fun s =>
          Settled settings s.sessions ∧ Request.bounded principalId requestId displayEmail) := by
  refine Triple.check_bind (fun _ hprincipal => ?_) fun _ _ h => ⟨.of_lapses h.1,h.2⟩
  refine Triple.check_bind (fun _ hrequest => ?_) fun _ _ h => ⟨.of_lapses h.1,h.2⟩
  refine Triple.check_bind (fun _ hemail => ?_) fun _ _ h => ⟨.of_lapses h.1,h.2⟩
  have hbounded : Request.bounded principalId requestId displayEmail := by
    refine ⟨readable_of_validateText hprincipal,readable_of_validateText hrequest,?_⟩
    rintro email rfl
    exact readable_of_validateText hemail
  refine Triple.bind expireLocked_lapses (fun _ => ?_) fun _ _ h => ⟨.of_lapses h.1,h.2⟩
  refine (forPrincipal_turns principalId).conseq (fun _ h => h) ?_
  rintro (e | x) w h
  · exact h
  · exact ⟨h.1,⟨h.2.1.1,hbounded⟩,h.2.2⟩

theorem joinQueue_turns {principalId requestId : String} {displayEmail : Option String}
    (hbounded : Request.bounded principalId requestId displayEmail) :
    Triple (During outside
        (On (Conducted settings (.enqueue principalId requestId displayEmail) outside t₀)))
      (joinQueue settings principalId requestId displayEmail)
      (Ensures (During outside
          (On (Conducted settings (.enqueue principalId requestId displayEmail) outside t₀)))
        fun _ => During outside (On (Settled settings))) := by
  refine triple_bind (triple_newIdLocked fun _ _ _ h => h) (fun sessionId => ?_) fun _ _ h => h
  apply triple_clock
  intro n
  apply triple_sessions
  intro t
  refine triple_setSessions
    (R:=On (Conducted settings (.enqueue principalId requestId displayEmail) outside t₀)) ?_ ?_
  · rintro s ⟨⟨hs,hfresh,-⟩,rfl⟩
    obtain ⟨hprincipal,hrequest,hemail⟩ := hbounded
    exact Conducted.turn hs
      (.join s.sessions _ n ⟨rfl,hprincipal,hrequest,hemail⟩ hfresh rfl rfl)
  refine Triple.bind assignWaitersLocked_turns (fun _ => ?_) fun _ _ h => ⟨h.1.1,h.2⟩
  refine Triple.bind (persistLocked_on _) (fun _ => ?_) fun _ _ h => ⟨h.1.1,h.2⟩
  apply triple_sessions
  intro t'
  split
  · exact fun w h => ⟨⟨h.1.1.1,h.2⟩,h.1.1.2,h.2⟩
  · exact fun w h => ⟨h.1.1.1,h.2⟩

theorem enqueue_turns (principalId requestId : String) (displayEmail : Option String) :
    Triple (During outside (On (Relation.ReflTransGen (Lapse outside) t₀)))
      (enqueue settings principalId requestId displayEmail)
      (Ensures (During outside
          (On (Conducted settings (.enqueue principalId requestId displayEmail) outside t₀)))
        fun _ => During outside (On (Settled settings))) := by
  rw [enqueue_eq]
  refine triple_bind (seek_turns principalId requestId displayEmail) (fun found => ?_) fun _ _ h =>
    ⟨h.1.of_roster,h.2⟩
  split
  · exact fun w h => ⟨⟨h.1.1.of_roster,h.2⟩,h.1.2.1,h.2⟩
  · exact fun w h => joinQueue_turns h.1.2.2 w ⟨h.1.1.of_roster,h.2⟩

theorem discard_turns {α : Type} {m : Operation α} {I B : World → Prop} {P : World → Prop}
    (h : Triple P m (Ensures I fun _ => B)) : Triple P (discard m) (Ensures I fun _ => B) :=
  Triple.bind h (fun _ => fun _ hs => hs) fun _ _ h => h

end Calls

/-- The calls that assign the free slots before they return. -/
def Request.assigns : Request → Bool
  | .enqueue _ _ _ | .backoff _ | .renew _ | .forPrincipal _ | .roster => true
  | _ => false

section Outcomes

variable {settings : Settings} {request : Request} {outside : Outside} {t₀ : SessionTable}
  {α : Type} {m : Operation α} {P : World → Prop}

theorem idle_turns (hassigns : request.assigns = false)
    (h : Triple P m fun _ => During outside (On (Conducted settings request outside t₀))) :
    Triple P m (Ensures (During outside (On (Conducted settings request outside t₀))) fun _ =>
      During outside (On fun t => request.assigns = true → Settled settings t)) := by
  refine h.conseq (fun _ hw => hw) ?_
  rintro (e | x) w hw
  · exact hw
  · exact ⟨hw,fun htrue => absurd (hassigns.symm.trans htrue) (by simp),hw.2⟩

theorem assigns_turns
    (h : Triple P m (Ensures (During outside (On (Conducted settings request outside t₀))) fun _ =>
      During outside (On (Settled settings)))) :
    Triple P m (Ensures (During outside (On (Conducted settings request outside t₀))) fun _ =>
      During outside (On fun t => request.assigns = true → Settled settings t)) := by
  refine h.conseq (fun _ hw => hw) ?_
  rintro (e | x) w hw
  · exact hw
  · exact ⟨hw.1,fun _ => hw.2.1,hw.2.2⟩

end Outcomes

/-- What any call does: the lapses come first, and nobody waits for a free slot when a call that
assigns them returns. -/
theorem perform_turns (settings : Settings) (request : Request) (outside : Outside)
    (t₀ : SessionTable) :
    Triple (During outside (On (· = t₀))) (request.perform settings)
      (Ensures (During outside (On (Conducted settings request outside t₀))) fun _ =>
        During outside (On fun t => request.assigns = true → Settled settings t)) := by
  have hstart : ∀ w, During outside (On (· = t₀)) w →
      During outside (On (Relation.ReflTransGen (Lapse outside) t₀)) w := by
    rintro w ⟨hw,ho⟩
    have hsame : w.store.sessions = t₀ := hw
    refine ⟨?_,ho⟩
    show Relation.ReflTransGen (Lapse outside) t₀ w.store.sessions
    rw [hsame]
  have hbegin : ∀ request w, During outside (On (· = t₀)) w →
      During outside (On (Conducted settings request outside t₀)) w :=
    fun request w hw => ⟨.of_lapses (hstart w hw).1,hw.2⟩
  cases request with
  | enqueue p r e =>
    exact discard_turns (assigns_turns ((enqueue_turns p r e).conseq hstart fun _ _ h => h))
  | activate s =>
    exact discard_turns (idle_turns rfl ((activate_turns s).conseq (hbegin _) fun _ _ h => h))
  | leave s => exact discard_turns (idle_turns rfl ((leave_turns s).conseq (hbegin _) fun _ _ h => h))
  | backoff s =>
    exact discard_turns (assigns_turns ((backoff_turns s).conseq (hbegin _) fun _ _ h => h))
  | renew p => exact discard_turns (assigns_turns ((renew_turns p).conseq hstart fun _ _ h => h))
  | promoteNext =>
    exact discard_turns (idle_turns rfl (promoteNext_turns.conseq hstart fun _ _ h => h))
  | get s => exact discard_turns (idle_turns rfl ((getSession_turns s).conseq hstart fun _ _ h => h))
  | forPrincipal p =>
    refine discard_turns (assigns_turns ((forPrincipal_turns p).conseq hstart ?_))
    rintro (e | x) w h
    · exact ⟨h.1.of_roster,h.2⟩
    · exact ⟨⟨h.1.1.of_roster,h.1.2⟩,h.2.1.1,h.2.2⟩
  | roster => exact discard_turns (assigns_turns (roster_turns.conseq hstart fun _ _ h => h))

theorem step_conducted (settings : Settings) (s : Store) (request : Request) (outside : Outside) :
    Conducted settings request outside s.sessions (s.step settings (request,outside)).sessions := by
  have hends := perform_turns settings request outside s.sessions ⟨s,outside⟩ ⟨rfl,fun n => ⟨n,rfl⟩⟩
  exact hends.always.1

/-- Somebody waits while nobody holds one of the slots. -/
def Idles (settings : Settings) (t : SessionTable) : Prop :=
  (∃ r ∈ t, r.status = .waiting) ∧ ∃ slot ∈ settings.slots,
    ∀ r ∈ t, r.status = .offered ∨ r.status = .active → r.slotId ≠ some slot.slotId

theorem Settled.not_idles {settings : Settings} {t : SessionTable} (h : Settled settings t) :
    ¬Idles settings t := by
  rintro ⟨⟨r,hr,hwaiting⟩,slot,hknown,hheld⟩
  rcases h with hqueue | hfree
  · have hmem := mem_queue.mpr ⟨hr,hwaiting⟩
    rw [hqueue] at hmem
    cases hmem
  · have hunoccupied : some slot.slotId ∉ occupied t := by
      rintro hocc
      obtain ⟨x,hx,hstatus,hslot⟩ := mem_occupied.mp hocc
      apply hheld x hx _ hslot
      cases hs : x.status <;> simp [hs,SessionStatus.occupies] at hstatus ⊢
    have hmem := mem_free.mpr ⟨hknown,hunoccupied⟩
    rw [hfree] at hmem
    cases hmem

/-- No slot idles while somebody waits when a call that assigns slots has returned, and each offer
that the call has made went to the first in the queue. -/
theorem no_slot_idles (settings : Settings) (s : Store) (request : Request) (outside : Outside)
    (hassigns : request.assigns = true)
    (hreturns : (exec (request.perform settings) ⟨s,outside⟩).1.isOk = true) :
    ¬Idles settings (s.step settings (request,outside)).sessions ∧
      Conducted settings request outside s.sessions
        (s.step settings (request,outside)).sessions := by
  refine ⟨?_,step_conducted settings s request outside⟩
  have hends := perform_turns settings request outside s.sessions ⟨s,outside⟩ ⟨rfl,fun n => ⟨n,rfl⟩⟩
  cases hresult : (exec (request.perform settings) ⟨s,outside⟩).1 with
  | error e =>
    rw [hresult] at hreturns
    cases hreturns
  | ok x =>
    rw [hresult] at hends
    exact (hends.2.1 hassigns).not_idles

/-- Alice has been offered the only slot. -/
def aliceOffered : Store := Store.empty.step oneSlot (.enqueue "alice" "r1" none,.still 0)

theorem no_slot_idles_bob :
    ¬Idles oneSlot (aliceOffered.step oneSlot (.enqueue "bob" "r2" none,.still 1)).sessions ∧
      Conducted oneSlot (.enqueue "bob" "r2" none) (.still 1) aliceOffered.sessions
        (aliceOffered.step oneSlot (.enqueue "bob" "r2" none,.still 1)).sessions :=
  no_slot_idles oneSlot aliceOffered (.enqueue "bob" "r2" none) (.still 1) rfl (by decide +kernel)

end RouterSessions
end CloudBrowser
