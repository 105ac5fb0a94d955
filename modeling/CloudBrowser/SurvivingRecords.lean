import Mathlib.Data.List.Induction
import CloudBrowser.LiveSessions

/-! Which records of a state file are in the table after it is loaded, and when these are the best
record of each principal. -/
namespace CloudBrowser
namespace RouterSessions

open Stateful Keyed

/-- The record that stands under a name after the records, of which the last comes first. A record
counts unless one stands under its principal's name that is as good. -/
def standing : List RouterSession → String → Option RouterSession
  | [],_ => none
  | r::before,name =>
    if r.sessionId = name ∧
        ∀ c ∈ standing before r.principalId, r.survivorRank < c.survivorRank then some r
    else standing before name

/-- The record is the last of its session id that counts. -/
def Stays (records : List RouterSession) (r : RouterSession) : Prop :=
  standing records.reverse r.sessionId = some r

section Standing

variable {records before : List RouterSession} {r : RouterSession} {name : String}

theorem standing_sessionId (h : standing before name = some r) : r.sessionId = name := by
  induction before with
  | nil => cases h
  | cons x before ih =>
    rw [standing] at h
    split_ifs at h with hx
    · cases h
      exact hx.1
    · exact ih h

/-- The table that is filled from the records holds what stands. -/
theorem find_loadRecords (records : List RouterSession) (name : String) :
    (loadRecords records).find name = standing records.reverse name := by
  induction records using List.reverseRecOn generalizing name with
  | nil => rfl
  | append_singleton records r ih =>
    have hstep : loadRecords (records ++ [r]) = loadRecord (loadRecords records) r :=
      List.foldl_append
    rw [hstep,List.reverse_append,List.reverse_singleton,List.singleton_append,standing,loadRecord,
      ih r.principalId,← ih name]
    have hput : ((loadRecords records).put r).find name =
        if r.sessionId = name then some r else (loadRecords records).find name := by
      split_ifs with hname
      · rw [← hname]
        exact Table.find_put_self _ _
      · exact Table.find_put_of_ne _ fun h => hname h.symm
    cases standing records.reverse r.principalId with
    | none => simpa using hput
    | some c =>
      dsimp only
      by_cases hbetter : r.survivorRank < c.survivorRank
      · simpa [hbetter] using hput
      · simp [hbetter]

theorem mem_loadRecords_iff : r ∈ loadRecords records ↔ Stays records r := by
  rw [Stays,← find_loadRecords,Table.find_eq_some]
  simp

end Standing

/-! ### Expiry and assignment -/

/-- What a record that was loaded at some time may have become: it has expired, and may have been
offered a slot. -/
inductive Becomes (now later : Time) (r : RouterSession) : RouterSession → Prop
  | expired : Becomes now later r (r.expire now)
  | offered (slot : SlotDescriptor) (hwaiting : (r.expire now).status = .waiting) :
      Becomes now later r ((r.expire now).offer slot later)

section Becomes

variable {settings : Settings} {now later : Time} {t : SessionTable} {r r' : RouterSession}

theorem Becomes.sessionId (h : Becomes now later r r') : r'.sessionId = r.sessionId := by
  cases h with
  | expired => exact RouterSession.expire_sessionId now r
  | offered slot _ => exact RouterSession.expire_sessionId now r

theorem Becomes.principalId (h : Becomes now later r r') : r'.principalId = r.principalId := by
  cases h with
  | expired => exact expire_principalId now r
  | offered slot _ => exact expire_principalId now r

/-- A record that is live after loading was live in the file. -/
theorem Becomes.live (h : Becomes now later r r') (hlive : r'.status.live = true) :
    r.status.live = true := by
  cases h with
  | expired => exact live_of_expire now hlive
  | offered slot hwaiting =>
    apply live_of_expire now
    rw [hwaiting]
    rfl

/-- Each row of the table comes from one that was loaded, and each of these is there. -/
structure Stemming (now later : Time) (t t' : SessionTable) : Prop where
  source : ∀ r' ∈ t', ∃ r ∈ t, Becomes now later r r'
  kept : ∀ r ∈ t, ∃ r' ∈ t', Becomes now later r r'

theorem Becomes.offer (h : Becomes now later r r') (hwaiting : r'.status = .waiting)
    (slot : SlotDescriptor) : Becomes now later r (r'.offer slot later) := by
  cases h with
  | expired => exact .offered slot hwaiting
  | offered slot' _ => cases hwaiting

theorem stemming_expireAll (now later : Time) (t : SessionTable) :
    Stemming now later t (expireAll t now) where
  source r' hr' := by
    obtain ⟨r,hr,rfl⟩ := Table.mem_mapRows.mp hr'
    exact ⟨r,hr,.expired⟩
  kept r hr := ⟨_,Table.mem_mapRows.mpr ⟨r,hr,rfl⟩,.expired⟩

/-- An offer to a waiting record. -/
theorem Stemming.put {t' : SessionTable} (h : Stemming now later t t') (hr : r ∈ t')
    (hwaiting : r.status = .waiting) (slot : SlotDescriptor) :
    Stemming now later t (t'.put (r.offer slot later)) where
  source r' hr' := by
    rcases Table.mem_put.mp hr' with rfl | ⟨hr',-⟩
    · obtain ⟨r₀,hr₀,hbecomes⟩ := h.source r hr
      exact ⟨r₀,hr₀,hbecomes.offer hwaiting slot⟩
    · exact h.source r' hr'
  kept r₀ hr₀ := by
    obtain ⟨r',hr',hbecomes⟩ := h.kept r₀ hr₀
    by_cases hsame : r'.sessionId = r.sessionId
    · rw [Table.eq_of_key hr' hr hsame] at hbecomes
      exact ⟨_,Table.mem_put.mpr (.inl rfl),hbecomes.offer hwaiting slot⟩
    · exact ⟨r',Table.mem_put.mpr (.inr ⟨hr',hsame⟩),hbecomes⟩

theorem stemming_assignAll (settings : Settings) (now n : Time) (t : SessionTable) :
    Stemming now (n+settings.offerTtl) t (assignAll settings (expireAll t now) n) :=
  offerAll_induct (fun _ _ slot h hr hwaiting _ _ => h.put hr hwaiting slot)
    (stemming_expireAll now (n+settings.offerTtl) t)

/-- What is in the store after a document has been loaded. -/
theorem construct_decoded {file : Json} {outside : Outside} {records : List RouterSession} {n : ℕ}
    (hdecode : decodeDocument file = .ok (records,n)) :
    ∃ store, construct settings (some file) outside = .ok store ∧ store.sessions =
      assignAll settings (expireAll (loadRecords records) (outside.readings 0))
        (outside.readings 1) := by
  simp only [construct,load,exec_bind,exec_get,hdecode]
  exact ⟨_,rfl,rfl⟩

end Becomes

/-! ### The best records -/

/-- A live record of least rank among those of its principal. -/
structure Best (records : List RouterSession) (m : RouterSession) : Prop where
  mem : m ∈ records
  live : m.status.live = true
  least : ∀ d ∈ records, d.status.live = true → d.principalId = m.principalId →
    m.survivorRank ≤ d.survivorRank

/-- The records of one principal. -/
def recordsOf (records : List RouterSession) (principalId : String) : List RouterSession :=
  records.filter (·.principalId = principalId)

/-- What is claimed of the table after loading: of each principal with a live record it has a best
one and no other that is live, and none of a principal's sessions is lost to another principal. -/
structure KeepsBest (now later : Time) (records : List RouterSession) (t : SessionTable) :
    Prop where
  best : ∀ d ∈ records, d.status.live = true →
    ∃ m r, Best records m ∧ m.principalId = d.principalId ∧ r ∈ t ∧ Becomes now later m r ∧
      ∀ r' ∈ t, r'.status.live = true → r'.principalId = d.principalId → r' = r
  spared : ∀ d ∈ loadRecords (recordsOf records d.principalId),
    ∃ r ∈ t, r.sessionId = d.sessionId ∧ r.principalId = d.principalId

/-- Whenever the document is loaded. -/
def LoadsBest (settings : Settings) (file : Json) : Prop :=
  ∀ records n, decodeDocument file = .ok (records,n) → ∀ outside : Outside,
    ∃ store, construct settings (some file) outside = .ok store ∧
      KeepsBest (outside.readings 0) (outside.readings 1+settings.offerTtl) records store.sessions

/-- Of the live records of each principal exactly one stays, a best one, and the sessions that
stay of a principal's records alone are still that principal's among all records. -/
structure BestStays (records : List RouterSession) : Prop where
  best : ∀ d ∈ records, d.status.live = true →
    ∃ m, Best records m ∧ m.principalId = d.principalId ∧ Stays records m ∧
      ∀ r, Stays records r → r.status.live = true → r.principalId = d.principalId → r = m
  spared : ∀ d, Stays (recordsOf records d.principalId) d →
    ∃ r, Stays records r ∧ r.sessionId = d.sessionId ∧ r.principalId = d.principalId

section Best

variable {settings : Settings} {now later : Time} {records : List RouterSession}
  {t : SessionTable}

/-- What stays is what a later table stems from. -/
theorem BestStays.keepsBest (h : BestStays records)
    (hstem : Stemming now later (loadRecords records) t) : KeepsBest now later records t where
  best d hd hlive := by
    obtain ⟨m,hbest,hprincipal,hstays,honly⟩ := h.best d hd hlive
    obtain ⟨r,hr,hbecomes⟩ := hstem.kept m (mem_loadRecords_iff.mpr hstays)
    refine ⟨m,r,hbest,hprincipal,hr,hbecomes,?_⟩
    intro r' hr' hlive' hprincipal'
    obtain ⟨m',hm',hbecomes'⟩ := hstem.source r' hr'
    have hsame : m' = m := honly m' (mem_loadRecords_iff.mp hm') (hbecomes'.live hlive')
      (hbecomes'.principalId.symm.trans hprincipal')
    rw [hsame] at hbecomes'
    exact Table.eq_of_key hr' hr (hbecomes'.sessionId.trans hbecomes.sessionId.symm)
  spared d hd := by
    obtain ⟨r,hstays,hid,hprincipal⟩ := h.spared d (mem_loadRecords_iff.mp hd)
    obtain ⟨r',hr',hbecomes⟩ := hstem.kept r (mem_loadRecords_iff.mpr hstays)
    exact ⟨r',hr',hbecomes.sessionId.trans hid,hbecomes.principalId.trans hprincipal⟩

/-! Loaded before anything in the file lapses, the records are as they were. -/

/-- The times at which a record lapses. -/
def expiries (r : RouterSession) : List Time :=
  r.offerExpiresAt.toList ++ r.sessionExpiresAt.toList ++ r.backoffUntil.toList

theorem exists_early (times : List Time) : ∃ early : Time, ∀ x ∈ times, early < x := by
  induction times with
  | nil => exact ⟨0,nofun⟩
  | cons x times ih =>
    obtain ⟨early,hearly⟩ := ih
    refine ⟨min early (x-1),?_⟩
    intro y hy
    rcases List.mem_cons.mp hy with rfl | hy
    · exact (min_le_right _ _).trans_lt (sub_one_lt y)
    · exact (min_le_left _ _).trans_lt (hearly y hy)

/-- Nothing of the records lapses until after the time. -/
def Early (time : Time) (records : List RouterSession) : Prop :=
  ∀ r ∈ records, ∀ x ∈ expiries r, time < x

variable {m m' r : RouterSession}

theorem expire_early (h : Early later records) (hnow : now ≤ later) (hm : m ∈ records) :
    m.expire now = m := by
  have hnone : ∀ expiry : Option Time, (∀ x ∈ expiry, x ∈ expiries m) →
      expiry.any (· ≤ now) = false := by
    intro expiry hmem
    cases expiry with
    | none => rfl
    | some x =>
      have hlt := h m hm x (hmem x rfl)
      simpa using hnow.trans_lt hlt
  have hlapsed : m.lapsed now = false := by
    unfold RouterSession.lapsed
    split
    · exact hnone _ fun x hx => by simp [expiries,Option.mem_def.mp hx]
    · exact hnone _ fun x hx => by simp [expiries,Option.mem_def.mp hx]
    · exact hnone _ fun x hx => by simp [expiries,Option.mem_def.mp hx]
    · rfl
  rw [RouterSession.expire,if_neg (by simp [hlapsed])]

theorem Becomes.early (h : Early later records) (hnow : now ≤ later) (hm : m ∈ records)
    (hr : Becomes now later m r) :
    r = m ∨ m.status = .waiting ∧ ∃ slot, r = m.offer slot later := by
  have hsame := expire_early h hnow hm
  cases hr with
  | expired => exact .inl hsame
  | offered slot hwaiting =>
    rw [hsame] at hwaiting ⊢
    exact .inr ⟨hwaiting,slot,rfl⟩

/-- What two records may have become tells their rank. -/
theorem Becomes.alike (h : Early later records) (hnow : now ≤ later) (hm : m ∈ records)
    (hm' : m' ∈ records) (hr : Becomes now later m r) (hr' : Becomes now later m' r) :
    m.status = m'.status ∧ m.enqueuedAt = m'.enqueuedAt := by
  have hoffered : ∀ d ∈ records, d.offerExpiresAt ≠ some later := by
    intro d hd hexpires
    exact lt_irrefl _ (h d hd later (by simp [expiries,hexpires]))
  rcases hr.early h hnow hm with rfl | ⟨hwaiting,slot,rfl⟩
  · rcases hr'.early h hnow hm' with rfl | ⟨-,slot',hsame⟩
    · exact ⟨rfl,rfl⟩
    · exact absurd (congrArg RouterSession.offerExpiresAt hsame) (hoffered r hm)
  · rcases hr'.early h hnow hm' with hsame | ⟨hwaiting',slot',hsame⟩
    · exact absurd (congrArg RouterSession.offerExpiresAt hsame).symm (hoffered m' hm')
    · have htimes : (m.offer slot later).enqueuedAt = (m'.offer slot' later).enqueuedAt := by
        rw [hsame]
      exact ⟨hwaiting.trans hwaiting'.symm,htimes⟩

theorem Becomes.live_early (h : Early later records) (hnow : now ≤ later) (hm : m ∈ records)
    (hr : Becomes now later m r) (hlive : m.status.live = true) : r.status.live = true := by
  rcases hr.early h hnow hm with rfl | ⟨-,slot,rfl⟩
  · exact hlive
  · rfl

theorem Best.alike (h : Best records m) (hm' : m' ∈ records)
    (hprincipal : m'.principalId = m.principalId) (hstatus : m.status = m'.status)
    (henqueued : m.enqueuedAt = m'.enqueuedAt) : Best records m' where
  mem := hm'
  live := hstatus ▸ h.live
  least d hd hlive hd' := by
    have hle := h.least d hd hlive (hd'.trans hprincipal)
    rwa [RouterSession.survivorRank,hstatus,henqueued] at hle

theorem KeepsBest.bestStays (h : Early later records) (hnow : now ≤ later)
    (hstem : Stemming now later (loadRecords records) t) (hkeeps : KeepsBest now later records t) :
    BestStays records where
  best d hd hlive := by
    obtain ⟨m,r,hbest,hprincipal,hr,hbecomes,honly⟩ := hkeeps.best d hd hlive
    obtain ⟨m',hm',hbecomes'⟩ := hstem.source r hr
    have hrecords := mem_loadRecords hm'
    obtain ⟨hstatus,henqueued⟩ := hbecomes.alike h hnow hbest.mem hrecords hbecomes'
    have hsame : m'.principalId = m.principalId :=
      hbecomes'.principalId.symm.trans hbecomes.principalId
    refine ⟨m',hbest.alike hrecords hsame hstatus henqueued,hsame.trans hprincipal,
      mem_loadRecords_iff.mp hm',?_⟩
    intro e hstays hlive' hprincipal'
    have he := mem_loadRecords_iff.mpr hstays
    obtain ⟨r',hr',hbecomes''⟩ := hstem.kept e he
    have hone := honly r' hr' (hbecomes''.live_early h hnow (mem_loadRecords he) hlive')
      (hbecomes''.principalId.trans hprincipal')
    rw [hone] at hbecomes''
    exact Table.eq_of_key he hm' (hbecomes''.sessionId.symm.trans hbecomes'.sessionId)
  spared d hd := by
    obtain ⟨r,hr,hid,hprincipal⟩ := hkeeps.spared d (mem_loadRecords_iff.mpr hd)
    obtain ⟨m,hm,hbecomes⟩ := hstem.source r hr
    exact ⟨m,mem_loadRecords_iff.mp hm,hbecomes.sessionId.symm.trans hid,
      hbecomes.principalId.symm.trans hprincipal⟩

end Best

section Separate

variable {records before : List RouterSession} {r : RouterSession} {name : String}

theorem mem_of_standing (h : standing before name = some r) : r ∈ before := by
  induction before with
  | nil => cases h
  | cons x before ih =>
    rw [standing] at h
    split_ifs at h
    · cases h
      exact List.mem_cons_self
    · exact List.mem_cons_of_mem x (ih h)

theorem standing_separate (hnodup : (before.map RouterSession.sessionId).Nodup)
    (hseparate : ∀ r ∈ before, ∀ d ∈ before, r.sessionId ≠ d.principalId) (hr : r ∈ before) :
    standing before r.sessionId = some r := by
  induction before with
  | nil => cases hr
  | cons x before ih =>
    obtain ⟨hnew,hrest⟩ := List.nodup_cons.mp hnodup
    rw [standing]
    rcases List.mem_cons.mp hr with rfl | hr
    · have hcounts : ∀ c ∈ standing before r.principalId, r.survivorRank < c.survivorRank := by
        intro c hc
        exact absurd (standing_sessionId hc)
          (hseparate c (List.mem_cons_of_mem r (mem_of_standing hc)) r List.mem_cons_self)
      rw [if_pos ⟨rfl,hcounts⟩]
    · have hother : x.sessionId ≠ r.sessionId := fun h =>
        hnew (h ▸ List.mem_map_of_mem hr)
      rw [if_neg fun h => hother h.1]
      exact ih hrest (fun r hr d hd =>
        hseparate r (List.mem_cons_of_mem x hr) d (List.mem_cons_of_mem x hd)) hr

/-- Records of different session ids, none of which names a principal, all stay. -/
theorem stays_iff_mem (hnodup : (records.map RouterSession.sessionId).Nodup)
    (hseparate : ∀ r ∈ records, ∀ d ∈ records, r.sessionId ≠ d.principalId) :
    Stays records r ↔ r ∈ records := by
  constructor
  · intro h
    exact List.mem_reverse.mp (mem_of_standing h)
  · intro hr
    apply standing_separate _ _ (List.mem_reverse.mpr hr)
    · rw [List.map_reverse]
      exact List.nodup_reverse.mpr hnodup
    · simpa using hseparate

/-- Among such records, the best of each principal stays alone only where it is the only live
one. -/
theorem BestStays.live_unique (h : BestStays records)
    (hnodup : (records.map RouterSession.sessionId).Nodup)
    (hseparate : ∀ r ∈ records, ∀ d ∈ records, r.sessionId ≠ d.principalId) {d : RouterSession}
    (hr : r ∈ records) (hd : d ∈ records) (hlive : r.status.live = true)
    (hlive' : d.status.live = true) (hprincipal : r.principalId = d.principalId) : r = d := by
  obtain ⟨m,-,-,-,honly⟩ := h.best d hd hlive'
  have hstays : ∀ {e : RouterSession}, e ∈ records → Stays records e :=
    fun he => (stays_iff_mem hnodup hseparate).mpr he
  exact (honly r (hstays hr) hlive hprincipal).trans (honly d (hstays hd) hlive' rfl).symm

end Separate

/-- One principal's waiting and active session. -/
def twice : List RouterSession :=
  [{ sessionId := "q-1", requestId := "r-1", principalId := "alice", status := .waiting,
     enqueuedAt := 1 },
    { sessionId := "q-2", requestId := "r-2", principalId := "alice", status := .active,
      enqueuedAt := 2, slotId := some "slot-1" }]

/-- The state file that holds both. -/
def twiceFile : Json :=
  .obj [("next_sequence",.int 3),("sessions",.arr (twice.map RouterSession.encode)),
    ("version",.int 1)]

end RouterSessions
end CloudBrowser
