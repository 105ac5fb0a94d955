import CloudBrowser.IdempotentStore
import CloudBrowser.RelyGuarantee
import Mathlib.Tactic.NormNum

/-! What every interleaving of calls keeps of the idempotency store: a scope is reserved again
only after the retention of its last reservation, and everybody who is given a result for a
reservation is given the same one. -/
namespace CloudBrowser
namespace Idempotency

open Interleave

section Rows

variable {ops : Operations} {p : Row → Bool} {u : ℤ} {row : Row}

/-- The row, finalized as unknown. -/
def Row.forfeit (row : Row) (u : ℤ) : Row :=
  { row with progress := .complete "failed" (some "unknown_outcome") 0 u }

theorem shows_forfeit (row : Row) (u : ℤ) : (row.forfeit u).shows (unknownResult row.scope) :=
  ⟨rfl,u,rfl⟩

theorem mem_finalize : row ∈ ops.finalize p u ↔ (row ∈ ops ∧ (p row && row.isReserved) = false) ∨
    ∃ row' ∈ ops, (p row' && row'.isReserved) = true ∧ row = row'.forfeit u := by
  rw [Operations.finalize,Keyed.Table.mem_mapRows]
  constructor
  · rintro ⟨row',hrow',rfl⟩
    by_cases hp : (p row' && row'.isReserved) = true
    · rw [if_pos hp]
      exact .inr ⟨row',hrow',hp,rfl⟩
    · rw [if_neg hp]
      exact .inl ⟨hrow',by simpa using hp⟩
  · rintro (⟨hrow,hp⟩ | ⟨row',hrow',hp,rfl⟩)
    · exact ⟨row,hrow,by rw [if_neg (by simp [hp])]⟩
    · exact ⟨row',hrow',by rw [if_pos hp]; rfl⟩

/-- The row, completed with a result. -/
def Row.settled (row : Row) (r : BrokerResult) (u : ℤ) : Row :=
  { row with progress := .complete r.status r.errorCode r.durationMs u }

theorem mem_settle {scope : OperationScope} {token : String} {r : BrokerResult} :
    row ∈ ops.settle scope token r u ↔ (row ∈ ops ∧ row.owned scope token = false) ∨
      ∃ row' ∈ ops, row'.owned scope token = true ∧ row = row'.settled r u := by
  rw [Operations.settle,Keyed.Table.mem_mapRows]
  constructor
  · rintro ⟨row',hrow',rfl⟩
    by_cases hp : row'.owned scope token = true
    · rw [if_pos hp]
      exact .inr ⟨row',hrow',hp,rfl⟩
    · rw [if_neg hp]
      exact .inl ⟨hrow',by simpa using hp⟩
  · rintro (⟨hrow,hp⟩ | ⟨row',hrow',hp,rfl⟩)
    · exact ⟨row,hrow,by rw [if_neg (by simp [hp])]⟩
    · exact ⟨row',hrow',by rw [if_pos hp]; rfl⟩

theorem owned_iff {scope : OperationScope} {token : String} : row.owned scope token = true ↔
    row.scope = scope ∧ row.ownerToken = token ∧ row.isReserved = true := by
  simp [Row.owned,and_assoc]

end Rows

section Soundness

/-- What the record says of the table: every row, and everything that was answered, belongs to a
reservation that was acquired; the row of a reservation stays until its retention is over; and
whatever was answered for it is what its row shows. -/
structure Sound (s : State) : Prop where
  rowHeld : ∀ row ∈ s.operations, ∃ t, s.record.holder row.ownerToken = some (t,row.scope)
  outcomeHeld : ∀ o ∈ s.record.outcomes, ∃ t, s.record.holder o.token = some (t,o.scope)
  abandonedHeld : ∀ token ∈ s.record.abandoned, s.record.holder token ≠ none
  startedHeld : ∀ token ∈ s.record.started, s.record.holder token ≠ none
  heldWindow : ∀ token t scope, s.record.holder token = some (t,scope) →
    ∃ w ∈ s.record.windows scope, w.token = token
  closed : ∀ scope, ∀ w ∈ s.record.windows scope,
    (∃ row ∈ s.operations, row.scope = scope ∧ row.ownerToken = w.token) ∨
      ∃ u, (w.token,u) ∈ s.record.retired ∧ u ≤ s.clock
  spaced : ∀ scope, (s.record.windows scope).Pairwise fun later earlier =>
    ∃ u, (earlier.token,u) ∈ s.record.retired ∧ u ≤ later.opened
  startedOnce : s.record.started.Nodup
  shown : ∀ o ∈ s.record.outcomes, ∀ row ∈ s.operations, row.ownerToken = o.token → row.shows o.result
  agreed : ∀ o ∈ s.record.outcomes, ∀ o' ∈ s.record.outcomes, o.token = o'.token → o.result = o'.result
  abandonedShown : ∀ row ∈ s.operations, row.ownerToken ∈ s.record.abandoned →
    row.shows (unknownResult row.scope)
  abandonedResult : ∀ o ∈ s.record.outcomes, o.token ∈ s.record.abandoned →
    o.result = unknownResult o.scope
  completedShown : ∀ row ∈ s.operations, row.isReserved = true ∨ row.shows (unknownResult row.scope) ∨
    ∃ o ∈ s.record.completed, o.scope = row.scope ∧ o.token = row.ownerToken ∧ row.shows o.result
  justified : ∀ o ∈ s.record.outcomes, o.result = unknownResult o.scope ∨
    ∃ o' ∈ s.record.completed, o'.scope = o.scope ∧ o'.token = o.token ∧ o'.result = o.result

variable {s : State} {t : ℕ} {scope : OperationScope} {token : String} {r : BrokerResult}

/-- A token belongs to one row. -/
theorem Sound.row_unique (h : Sound s) {row row' : Row} (hrow : row ∈ s.operations)
    (hrow' : row' ∈ s.operations) (htoken : row.ownerToken = row'.ownerToken) : row = row' := by
  obtain ⟨t,ht⟩ := h.rowHeld row hrow
  obtain ⟨t',ht'⟩ := h.rowHeld row' hrow'
  rw [htoken,ht'] at ht
  have hscope : row'.scope = row.scope := (Prod.mk.inj (Option.some.inj ht)).2
  exact Keyed.Table.eq_of_key hrow hrow' hscope.symm

theorem Sound.boot (clock : ℤ) (monotonic : Time) : Sound ⟨.empty,clock,monotonic,.blank⟩ where
  rowHeld _ hrow := absurd hrow Keyed.Table.mem_empty
  outcomeHeld _ ho := by cases ho
  abandonedHeld _ h := by cases h
  startedHeld _ h := by cases h
  heldWindow _ _ _ h := by cases h
  closed _ _ h := by cases h
  spaced _ := List.Pairwise.nil
  startedOnce := List.nodup_nil
  shown _ h := by cases h
  agreed _ h := by cases h
  abandonedShown _ hrow := absurd hrow Keyed.Table.mem_empty
  abandonedResult _ h := by cases h
  completedShown _ hrow := absurd hrow Keyed.Table.mem_empty
  justified _ h := by cases h

theorem Sound.tick (h : Sound s) {wall : ℤ} (hwall : 0 ≤ wall) (m : Time) :
    Sound { s with clock := s.clock+wall, monotonic := m } :=
  { h with
    closed := by
      intro scope w hw
      rcases h.closed scope w hw with hrow | ⟨u,hu,hle⟩
      · exact .inl hrow
      · exact .inr ⟨u,hu,by show u ≤ s.clock+wall; omega⟩ }

theorem Sound.finalize (h : Sound s) (p : Row → Bool) (u : ℤ) : Sound (s.finalize p u) := by
  have hnew {token : String} (htoken : token ∈ (s.finalize p u).record.abandoned) :
      (∃ row ∈ s.operations, (p row && row.isReserved) = true ∧ row.ownerToken = token) ∨
        token ∈ s.record.abandoned := by
    simpa [State.finalize,Keyed.Table.mem_rows,and_assoc] using htoken
  refine { h with
    rowHeld := ?_, abandonedHeld := ?_, closed := ?_, shown := ?_, abandonedShown := ?_,
    abandonedResult := ?_, completedShown := ?_ }
  · intro row hrow
    rcases mem_finalize.mp hrow with ⟨hrow,-⟩ | ⟨row',hrow',-,rfl⟩
    · exact h.rowHeld row hrow
    · exact h.rowHeld row' hrow'
  · intro token htoken
    rcases hnew htoken with ⟨row,hrow,-,rfl⟩ | hold
    · obtain ⟨t,ht⟩ := h.rowHeld row hrow
      show s.record.holder row.ownerToken ≠ none
      simp [ht]
    · exact h.abandonedHeld token hold
  · intro scope w hw
    rcases h.closed scope w hw with ⟨row,hrow,hscope,htoken⟩ | hclosed
    · left
      by_cases hp : (p row && row.isReserved) = true
      · exact ⟨row.forfeit u,mem_finalize.mpr (.inr ⟨row,hrow,hp,rfl⟩),hscope,htoken⟩
      · exact ⟨row,mem_finalize.mpr (.inl ⟨hrow,by simpa using hp⟩),hscope,htoken⟩
    · exact .inr hclosed
  · intro o ho row hrow htoken
    rcases mem_finalize.mp hrow with ⟨hrow,-⟩ | ⟨row',hrow',hp,rfl⟩
    · exact h.shown o ho row hrow htoken
    · have hshows := h.shown o ho row' hrow' htoken
      simp only [Bool.and_eq_true] at hp
      exact absurd hshows (Row.not_shows hp.2)
  · intro row hrow habandoned
    rcases mem_finalize.mp hrow with ⟨hrow,hp⟩ | ⟨row',hrow',-,rfl⟩
    · rcases hnew habandoned with ⟨row',hrow',hp',htoken⟩ | hold
      · have hsame := h.row_unique hrow' hrow htoken
        rw [hsame,hp] at hp'
        cases hp'
      · exact h.abandonedShown row hrow hold
    · exact shows_forfeit row' u
  · intro o ho habandoned
    rcases hnew habandoned with ⟨row,hrow,hp,htoken⟩ | hold
    · have hshows := h.shown o ho row hrow htoken
      simp only [Bool.and_eq_true] at hp
      exact absurd hshows (Row.not_shows hp.2)
    · exact h.abandonedResult o ho hold
  · intro row hrow
    rcases mem_finalize.mp hrow with ⟨hrow,-⟩ | ⟨row',hrow',-,rfl⟩
    · exact h.completedShown row hrow
    · exact .inr (.inl (shows_forfeit row' u))

/-- Only rows that are retained no longer may be deleted. -/
theorem Sound.delete (h : Sound s) (p : Row → Bool)
    (hp : ∀ row ∈ s.operations, p row = true → ∃ u, row.retainedUntil = some u ∧ u ≤ s.clock) :
    Sound (s.delete p) := by
  have hkept {row : Row} (hrow : row ∈ (s.delete p).operations) : row ∈ s.operations :=
    (Keyed.Table.mem_keep.mp hrow).1
  have hretired {token : String} {u : ℤ} (hu : (token,u) ∈ s.record.retired) :
      (token,u) ∈ (s.delete p).record.retired := List.mem_append_right _ hu
  refine { h with
    rowHeld := fun row hrow => h.rowHeld row (hkept hrow), closed := ?_, spaced := ?_,
    shown := fun o ho row hrow => h.shown o ho row (hkept hrow),
    abandonedShown := fun row hrow => h.abandonedShown row (hkept hrow),
    completedShown := fun row hrow => h.completedShown row (hkept hrow) }
  · intro scope w hw
    rcases h.closed scope w hw with ⟨row,hrow,hscope,htoken⟩ | ⟨u,hu,hle⟩
    · by_cases hpr : p row = true
      · obtain ⟨u,hu,hle⟩ := hp row hrow hpr
        refine .inr ⟨u,List.mem_append_left _ ?_,hle⟩
        exact List.mem_filterMap.mpr ⟨row,List.mem_filter.mpr ⟨hrow,hpr⟩,by simp [hu,htoken]⟩
      · exact .inl ⟨row,Keyed.Table.mem_keep.mpr ⟨hrow,by simpa using hpr⟩,hscope,htoken⟩
    · exact .inr ⟨u,hretired hu,hle⟩
  · intro scope
    refine (h.spaced scope).imp fun ⟨u,hu,hle⟩ => ⟨u,hretired hu,hle⟩

/-- A new reservation: its scope has no row, and its token has never been used. -/
theorem Sound.insert (h : Sound s) (hscope : ∀ row ∈ s.operations, row.scope ≠ scope)
    (htoken : s.record.holder token = none) (lease : ℤ) : Sound (s.insert t scope token lease) := by
  have hheld {token' : String} {v : ℕ × OperationScope} (hv : s.record.holder token' = some v) :
      (s.insert t scope token lease).record.holder token' = some v := by
    have hne : token' ≠ token := by
      rintro rfl
      rw [htoken] at hv
      cases hv
    simp [State.insert,hne,hv]
  have hnone {token' : String} (hv : s.record.holder token' ≠ none) :
      (s.insert t scope token lease).record.holder token' ≠ none := by
    obtain ⟨v,hv⟩ := Option.ne_none_iff_exists'.mp hv
    rw [hheld hv]
    simp
  have hrows {row : Row} (hrow : row ∈ (s.insert t scope token lease).operations) :
      row = ⟨scope,token,.reserved lease⟩ ∨ row ∈ s.operations := by
    rcases Keyed.Table.mem_put.mp hrow with hrow | ⟨hrow,-⟩
    · exact .inl hrow
    · exact .inr hrow
  have hfresh {o : Outcome} (ho : o ∈ s.record.outcomes) : token ≠ o.token := by
    rintro rfl
    obtain ⟨t',ht'⟩ := h.outcomeHeld o ho
    rw [htoken] at ht'
    cases ht'
  refine { h with
    rowHeld := ?_, outcomeHeld := ?_, abandonedHeld := fun token' h' => hnone (h.abandonedHeld token' h'),
    startedHeld := fun token' h' => hnone (h.startedHeld token' h'), heldWindow := ?_, closed := ?_,
    spaced := ?_, shown := ?_, abandonedShown := ?_, completedShown := ?_ }
  · intro row hrow
    rcases hrows hrow with rfl | hrow
    · exact ⟨t,by simp [State.insert]⟩
    · obtain ⟨t',ht'⟩ := h.rowHeld row hrow
      exact ⟨t',hheld ht'⟩
  · intro o ho
    obtain ⟨t',ht'⟩ := h.outcomeHeld o ho
    exact ⟨t',hheld ht'⟩
  · intro token' t' scope' hv
    by_cases hne : token' = token
    · subst hne
      have hsame : (t,scope) = (t',scope') := by simpa [State.insert] using hv
      cases hsame
      exact ⟨⟨token',s.clock⟩,by simp [State.insert],rfl⟩
    · have hv' : s.record.holder token' = some (t',scope') := by simpa [State.insert,hne] using hv
      obtain ⟨w,hw,hwt⟩ := h.heldWindow token' t' scope' hv'
      refine ⟨w,?_,hwt⟩
      by_cases hs : scope' = scope
      · subst hs
        simp [State.insert,hw]
      · simp [State.insert,hs,hw]
  · intro scope' w hw
    have hnew : (⟨scope,token,.reserved lease⟩ : Row) ∈ (s.insert t scope token lease).operations :=
      Keyed.Table.mem_put.mpr (.inl rfl)
    have hold (hw : w ∈ s.record.windows scope') : (∃ row ∈ (s.insert t scope token lease).operations,
        row.scope = scope' ∧ row.ownerToken = w.token) ∨ ∃ u, (w.token,u) ∈ s.record.retired ∧
          u ≤ s.clock := by
      rcases h.closed scope' w hw with ⟨row,hrow,hrs,hrt⟩ | hclosed
      · exact .inl ⟨row,Keyed.Table.mem_put.mpr (.inr ⟨hrow,hscope row hrow⟩),hrs,hrt⟩
      · exact .inr hclosed
    by_cases hs : scope' = scope
    · subst hs
      have hw' : w = ⟨token,s.clock⟩ ∨ w ∈ s.record.windows scope' := by simpa [State.insert] using hw
      rcases hw' with rfl | hw'
      · exact .inl ⟨_,hnew,rfl,rfl⟩
      · exact hold hw'
    · have hw' : w ∈ s.record.windows scope' := by simpa [State.insert,hs] using hw
      exact hold hw'
  · intro scope'
    by_cases hs : scope' = scope
    · subst hs
      have hwindows : (s.insert t scope' token lease).record.windows scope' =
          ⟨token,s.clock⟩ :: s.record.windows scope' := by simp [State.insert]
      rw [hwindows]
      refine List.Pairwise.cons (fun w hw => ?_) (h.spaced scope')
      rcases h.closed scope' w hw with ⟨row,hrow,hrs,-⟩ | hclosed
      · exact absurd hrs (hscope row hrow)
      · exact hclosed
    · have hwindows : (s.insert t scope token lease).record.windows scope' = s.record.windows scope' := by
        simp [State.insert,hs]
      rw [hwindows]
      exact h.spaced scope'
  · intro o ho row hrow hrt
    rcases hrows hrow with rfl | hrow
    · exact absurd hrt (hfresh ho)
    · exact h.shown o ho row hrow hrt
  · intro row hrow habandoned
    rcases hrows hrow with rfl | hrow
    · exact absurd htoken (h.abandonedHeld token habandoned)
    · exact h.abandonedShown row hrow habandoned
  · intro row hrow
    rcases hrows hrow with rfl | hrow
    · exact .inl rfl
    · exact h.completedShown row hrow

theorem Sound.settle (h : Sound s) (hid : r.requestId = scope.requestId) (u : ℤ) :
    Sound (s.settle t scope token r u) := by
  have hcompleted {o : Outcome} (ho : o ∈ s.record.completed) :
      o ∈ (s.settle t scope token r u).record.completed := List.mem_cons_of_mem _ ho
  refine { h with
    rowHeld := ?_, closed := ?_, shown := ?_, abandonedShown := ?_, completedShown := ?_, justified := ?_ }
  · intro row hrow
    rcases mem_settle.mp hrow with ⟨hrow,-⟩ | ⟨row',hrow',-,rfl⟩
    · exact h.rowHeld row hrow
    · exact h.rowHeld row' hrow'
  · intro scope' w hw
    rcases h.closed scope' w hw with ⟨row,hrow,hscope,htoken⟩ | hclosed
    · left
      by_cases hp : row.owned scope token = true
      · exact ⟨row.settled r u,mem_settle.mpr (.inr ⟨row,hrow,hp,rfl⟩),hscope,htoken⟩
      · exact ⟨row,mem_settle.mpr (.inl ⟨hrow,by simpa using hp⟩),hscope,htoken⟩
    · exact .inr hclosed
  · intro o ho row hrow htoken
    rcases mem_settle.mp hrow with ⟨hrow,-⟩ | ⟨row',hrow',hp,rfl⟩
    · exact h.shown o ho row hrow htoken
    · have hshows := h.shown o ho row' hrow' htoken
      exact absurd hshows (Row.not_shows (owned_iff.mp hp).2.2)
  · intro row hrow habandoned
    rcases mem_settle.mp hrow with ⟨hrow,-⟩ | ⟨row',hrow',hp,rfl⟩
    · exact h.abandonedShown row hrow habandoned
    · have hshows := h.abandonedShown row' hrow' habandoned
      exact absurd hshows (Row.not_shows (owned_iff.mp hp).2.2)
  · intro row hrow
    rcases mem_settle.mp hrow with ⟨hrow,-⟩ | ⟨row',hrow',hp,rfl⟩
    · rcases h.completedShown row hrow with hres | hun | ⟨o,ho,hshown⟩
      · exact .inl hres
      · exact .inr (.inl hun)
      · exact .inr (.inr ⟨o,hcompleted ho,hshown⟩)
    · obtain ⟨hscope,htoken,-⟩ := owned_iff.mp hp
      refine .inr (.inr ⟨⟨t,scope,token,r⟩,List.mem_cons_self,hscope.symm,htoken.symm,?_,u,rfl⟩)
      show r.requestId = row'.scope.requestId
      rw [hscope]
      exact hid
  · intro o ho
    rcases h.justified o ho with hun | ⟨o',ho',hsame⟩
    · exact .inl hun
    · exact .inr ⟨o',hcompleted ho',hsame⟩

/-- An answer that a row of the scope shows. -/
theorem Sound.reply (h : Sound s) {row : Row} (hrow : row ∈ s.operations) (hscope : row.scope = scope)
    (htoken : row.ownerToken = token) (hshows : row.shows r) : Sound (s.reply t scope token r) := by
  have hcases {o : Outcome} (ho : o ∈ (s.reply t scope token r).record.outcomes) :
      o = ⟨t,scope,token,r⟩ ∨ o ∈ s.record.outcomes := List.mem_cons.mp ho
  refine { h with
    outcomeHeld := ?_, shown := ?_, agreed := ?_, abandonedResult := ?_, justified := ?_ }
  · intro o ho
    rcases hcases ho with rfl | ho
    · obtain ⟨t',ht'⟩ := h.rowHeld row hrow
      rw [htoken,hscope] at ht'
      exact ⟨t',ht'⟩
    · exact h.outcomeHeld o ho
  · intro o ho row' hrow' hrt
    rcases hcases ho with rfl | ho
    · have hsame := h.row_unique hrow' hrow (hrt.trans htoken.symm)
      rw [hsame]
      exact hshows
    · exact h.shown o ho row' hrow' hrt
  · intro o ho o' ho' hsame
    rcases hcases ho with rfl | ho
    · rcases hcases ho' with rfl | ho'
      · rfl
      · exact Row.shows_unique hshows (h.shown o' ho' row hrow (htoken.trans hsame))
    · rcases hcases ho' with rfl | ho'
      · exact Row.shows_unique (h.shown o ho row hrow (htoken.trans hsame.symm)) hshows
      · exact h.agreed o ho o' ho' hsame
  · intro o ho habandoned
    rcases hcases ho with rfl | ho
    · have hun := h.abandonedShown row hrow (by rw [htoken]; exact habandoned)
      rw [hscope] at hun
      exact Row.shows_unique hshows hun
    · exact h.abandonedResult o ho habandoned
  · intro o ho
    rcases hcases ho with rfl | ho
    · rcases h.completedShown row hrow with hres | hun | ⟨o',ho',hos,hot,hshown⟩
      · exact absurd hshows (Row.not_shows hres)
      · rw [hscope] at hun
        exact .inl (Row.shows_unique hshows hun)
      · exact .inr ⟨o',ho',hos.trans hscope,hot.trans htoken,Row.shows_unique hshown hshows⟩
    · exact h.justified o ho

end Soundness

section Steps

variable {store : Store} {s s' s'' : State} {t : ℕ} {scope : OperationScope} {token : String} {now : ℤ}

theorem Sound.makeRoom (h : Sound s) (hnow : now ≤ s.clock)
    (hscope : ∀ row ∈ s.operations, row.scope ≠ scope) (htoken : s.record.holder token = none) :
    Sound (s.makeRoom store t scope token now).2 := by
  have hswept : Sound ((s.finalize (Row.expired now) (now+store.retention)).delete (Row.over now)) := by
    refine (h.finalize _ _).delete _ fun row _ hover => ?_
    obtain ⟨u,hu,hle⟩ := (Option.any_eq_true _ _).mp hover
    have hle' : u ≤ now := by simpa using hle
    exact ⟨u,hu,by show u ≤ s.clock; omega⟩
  unfold State.makeRoom
  dsimp only
  split
  · exact hswept
  · refine hswept.insert (fun row hrow => ?_) htoken _
    rcases mem_finalize.mp (Keyed.Table.mem_keep.mp hrow).1 with ⟨hrow,-⟩ | ⟨row',hrow',-,rfl⟩
    · exact hscope row hrow
    · exact hscope row' hrow'

theorem Sound.reserve (h : Sound s) (hnow : now ≤ s.clock) (htoken : s.record.holder token = none) :
    Sound (s.reserve store t scope token now).2 := by
  unfold State.reserve
  cases hfind : s.operations.find scope with
  | none => exact h.makeRoom hnow (Keyed.Table.find_eq_none.mp hfind) htoken
  | some row =>
    obtain ⟨hrow,hscope⟩ := Keyed.Table.find_eq_some.mp hfind
    dsimp only
    cases hprogress : row.progress with
    | reserved lease =>
      by_cases hlive : now < lease
      · simp only [hlive,if_true]
        exact h
      · simp only [hlive,if_false]
        have hreserved : row.isReserved = true := by rw [Row.isReserved,hprogress]
        have hforfeit : row.forfeit (now+store.retention) ∈
            (s.finalize (·.scope = scope) (now+store.retention)).operations :=
          mem_finalize.mpr (.inr ⟨row,hrow,by simp [hscope,hreserved],rfl⟩)
        refine (h.finalize (·.scope = scope) (now+store.retention)).reply hforfeit hscope rfl ?_
        rw [← hscope]
        exact shows_forfeit row _
    | complete status errorCode durationMs retainedUntil =>
      by_cases hkept : now < retainedUntil
      · simp only [hkept,if_true]
        cases hr : rowResult scope row with
        | error e => exact h
        | ok r =>
          rw [← hscope] at hr
          exact h.reply hrow hscope rfl (shows_rowResult hr)
      · simp only [hkept,if_false]
        have huntil : row.retainedUntil = some retainedUntil := by rw [Row.retainedUntil,hprogress]
        have hdeleted := h.delete (fun row => row.scope = scope) (fun row' hrow' hp => by
          have hsame : row' = row :=
            Keyed.Table.eq_of_key hrow' hrow ((of_decide_eq_true hp).trans hscope.symm)
          rw [hsame]
          exact ⟨retainedUntil,huntil,by omega⟩)
        refine hdeleted.makeRoom hnow (fun row' hrow' => ?_) htoken
        simpa using (Keyed.Table.mem_keep.mp hrow').2

theorem Sound.complete (h : Sound s) {r : BrokerResult} (hid : r.requestId = scope.requestId) :
    Sound (s.complete store t scope token r now).2 := by
  unfold State.complete
  by_cases hany : s.operations.rows.any (Row.owned scope token) = true
  · rw [if_pos hany]
    obtain ⟨row,hrow,howned⟩ := List.any_eq_true.mp hany
    obtain ⟨hscope,htoken,-⟩ := owned_iff.mp howned
    have hsettled : row.settled r (now+store.retention) ∈
        (s.settle t scope token r (now+store.retention)).operations :=
      mem_settle.mpr (.inr ⟨row,hrow,howned,rfl⟩)
    refine (h.settle hid (now+store.retention)).reply hsettled hscope htoken ⟨?_,_,rfl⟩
    show r.requestId = row.scope.requestId
    rw [hscope]
    exact hid
  · rw [if_neg hany]
    exact h

/-- What a transaction leaves alone: the clock, the holders of tokens, the answers given. -/
structure Extends (s s' : State) : Prop where
  clock : s'.clock = s.clock
  holder : ∀ token v, s.record.holder token = some v → s'.record.holder token = some v
  started : s'.record.started = s.record.started
  outcomes : s.record.outcomes ⊆ s'.record.outcomes

theorem Extends.refl (s : State) : Extends s s := ⟨rfl,fun _ _ h => h,rfl,fun _ h => h⟩

theorem Extends.trans (h : Extends s s') (h' : Extends s' s'') : Extends s s'' :=
  ⟨h'.clock.trans h.clock,fun token v hv => h'.holder token v (h.holder token v hv),
    h'.started.trans h.started,fun _ ho => h'.outcomes (h.outcomes ho)⟩

theorem extends_finalize (s : State) (p : Row → Bool) (u : ℤ) : Extends s (s.finalize p u) :=
  ⟨rfl,fun _ _ h => h,rfl,fun _ h => h⟩

theorem extends_delete (s : State) (p : Row → Bool) : Extends s (s.delete p) :=
  ⟨rfl,fun _ _ h => h,rfl,fun _ h => h⟩

theorem extends_reply (s : State) (t : ℕ) (scope : OperationScope) (token : String)
    (r : BrokerResult) : Extends s (s.reply t scope token r) :=
  ⟨rfl,fun _ _ h => h,rfl,fun _ h => List.mem_cons_of_mem _ h⟩

theorem extends_insert (htoken : s.record.holder token = none) (lease : ℤ) :
    Extends s (s.insert t scope token lease) := by
  refine ⟨rfl,fun token' v hv => ?_,rfl,fun _ h => h⟩
  have hne : token' ≠ token := by
    rintro rfl
    rw [htoken] at hv
    cases hv
  simp [State.insert,hne,hv]

/-- What a reservation says of the state that it leaves. -/
def Reserved (t : ℕ) (scope : OperationScope) (res : Reservation) (s : State) : Prop :=
  (∀ r, res.result = some r → ∃ token, ⟨t,scope,token,r⟩ ∈ s.record.outcomes) ∧
  (res.acquired = true → s.record.holder res.ownerToken = some (t,scope) ∧
    res.ownerToken ∉ s.record.started)

theorem makeRoom_spec (htoken : s.record.holder token = none) (hstarted : token ∉ s.record.started) :
    Extends s (s.makeRoom store t scope token now).2 ∧
      ∀ res, (s.makeRoom store t scope token now).1 = .ok res →
        Reserved t scope res (s.makeRoom store t scope token now).2 := by
  have hswept := (extends_finalize s (Row.expired now) (now+store.retention)).trans
    (extends_delete _ (Row.over now))
  unfold State.makeRoom
  dsimp only
  split
  · exact ⟨hswept,nofun⟩
  · have htoken' : ((s.finalize (Row.expired now) (now+store.retention)).delete
        (Row.over now)).record.holder token = none := htoken
    refine ⟨hswept.trans (extends_insert htoken' _),fun res hres => ?_⟩
    cases hres
    refine ⟨nofun,fun _ => ⟨?_,hstarted⟩⟩
    simp [State.insert]

theorem reserve_spec (htoken : s.record.holder token = none) (hstarted : token ∉ s.record.started) :
    Extends s (s.reserve store t scope token now).2 ∧
      ∀ res, (s.reserve store t scope token now).1 = .ok res →
        Reserved t scope res (s.reserve store t scope token now).2 := by
  have hreply {r : BrokerResult} {s' : State} {token' : String}
      (res : Reservation) (h : (.ok { acquired := false, result := some r } :
        Except BrokerError Reservation) = .ok res) :
      Reserved t scope res (s'.reply t scope token' r) := by
    cases h
    refine ⟨fun r' hr' => ?_,nofun⟩
    cases hr'
    exact ⟨token',List.mem_cons_self⟩
  unfold State.reserve
  cases hfind : s.operations.find scope with
  | none => exact makeRoom_spec htoken hstarted
  | some row =>
    dsimp only
    cases row.progress with
    | reserved lease =>
      by_cases hlive : now < lease
      · simp only [hlive,if_true]
        refine ⟨.refl s,fun res hres => ?_⟩
        cases hres
        exact ⟨nofun,nofun⟩
      · simp only [hlive,if_false]
        exact ⟨(extends_finalize s _ _).trans (extends_reply _ _ _ _ _),hreply⟩
    | complete status errorCode durationMs retainedUntil =>
      by_cases hkept : now < retainedUntil
      · simp only [hkept,if_true]
        cases rowResult scope row with
        | error e => exact ⟨.refl s,nofun⟩
        | ok r => exact ⟨extends_reply _ _ _ _ _,hreply⟩
      · simp only [hkept,if_false]
        have hdeleted := extends_delete s fun row => decide (row.scope = scope)
        obtain ⟨hext,hres⟩ := @makeRoom_spec store (s.delete fun row => decide (row.scope = scope)) t
          scope token now htoken hstarted
        exact ⟨hdeleted.trans hext,hres⟩

theorem complete_spec {r : BrokerResult} : Extends s (s.complete store t scope token r now).2 ∧
    ((s.complete store t scope token r now).1 = .ok () →
      ⟨t,scope,token,r⟩ ∈ (s.complete store t scope token r now).2.record.outcomes) := by
  unfold State.complete
  split
  · exact ⟨⟨rfl,fun _ _ h => h,rfl,fun _ h => List.mem_cons_of_mem _ h⟩,fun _ => List.mem_cons_self⟩
  · exact ⟨.refl s,nofun⟩

end Steps

section Contracts

variable {store : Store} {s s' s'' : State} {t u : ℕ} {x : Choice} {scope : OperationScope}
  {token : String} {now : ℤ}

/-- What a step of call `t` does for the others. -/
structure Change (t : ℕ) (s s' : State) : Prop where
  clock : s.clock ≤ s'.clock
  holder : ∀ token v, s.record.holder token = some v → s'.record.holder token = some v
  started : ∀ token ∈ s'.record.started, token ∈ s.record.started ∨
    ∃ scope, s.record.holder token = some (t,scope)
  outcomes : s.record.outcomes ⊆ s'.record.outcomes

/-- What the others may do between two steps of call `t`: they start no operation for it. -/
structure Rely (t : ℕ) (s s' : State) : Prop where
  clock : s.clock ≤ s'.clock
  holder : ∀ token v, s.record.holder token = some v → s'.record.holder token = some v
  started : ∀ token scope, s.record.holder token = some (t,scope) → token ∉ s.record.started →
    token ∉ s'.record.started
  outcomes : s.record.outcomes ⊆ s'.record.outcomes

theorem Rely.refl (t : ℕ) (s : State) : Rely t s s :=
  ⟨Int.le_refl _,fun _ _ h => h,fun _ _ _ h => h,fun _ h => h⟩

theorem Rely.trans (h : Rely t s s') (h' : Rely t s' s'') : Rely t s s'' :=
  ⟨Int.le_trans h.clock h'.clock,fun token v hv => h'.holder token v (h.holder token v hv),
    fun token scope hv hn => h'.started token scope (h.holder token _ hv) (h.started token scope hv hn),
    fun _ ho => h'.outcomes (h.outcomes ho)⟩

theorem Change.rely (hne : u ≠ t) (h : Change u s s') : Rely t s s' := by
  refine ⟨h.clock,h.holder,fun token scope hv hn hs => ?_,h.outcomes⟩
  rcases h.started token hs with hs | ⟨scope',hv'⟩
  · exact hn hs
  · rw [hv] at hv'
    cases hv'
    exact hne rfl

theorem Extends.change (h : Extends s s') : Change t s s' :=
  ⟨Int.le_of_eq h.clock.symm,h.holder,fun token hs => .inl (by rw [← h.started]; exact hs),h.outcomes⟩

/-- What holds where a call performs an action: its clock reading is not of the future, and it
starts an operation once, for a reservation that it has acquired. -/
def Performs (t : ℕ) : Action → State → Prop
  | .reserve _ _ now, s => now ≤ s.clock
  | .complete scope _ r _ _, _ => r.requestId = scope.requestId
  | .startOperation scope token, s => s.record.holder token = some (t,scope) ∧
      token ∉ s.record.started
  | _, _ => True

theorem transact_cases {α : Type} {r : Except BrokerError α} {deadline : Option Time}
    {y : Except BrokerError α × State} (h : s.transact x deadline y = (r,s')) :
    (s' = s ∧ ∃ e, r = .error e) ∨ y = (r,s') := by
  unfold State.transact at h
  split at h
  · cases h
    exact .inl ⟨rfl,_,rfl⟩
  split at h
  · cases h
    exact .inl ⟨rfl,_,rfl⟩
  · exact .inr h

theorem Sound.unheld (h : Sound s) (htoken : s.record.holder token = none) :
    token ∉ s.record.started := fun hs => h.startedHeld token hs htoken

/-- Every step keeps the record sound. -/
theorem sound_exec {a : Action} {r : Except BrokerError (Answer a)} (h : Sound s)
    (hpre : Performs t a s) (hx : exec store t a x s = some (r,s')) : Sound s' := by
  cases a with
  | reserve scope deadline now =>
    simp only [exec] at hx
    split at hx
    · cases hx
    · rename_i hfresh
      have htoken : s.record.holder x.token = none := by simpa using hfresh
      rcases transact_cases (Option.some.inj hx) with ⟨rfl,-⟩ | hy
      · exact h
      · have hreserve : Sound (s.reserve store t scope x.token now).2 := h.reserve hpre htoken
        rw [hy] at hreserve
        exact hreserve
  | complete scope token result deadline now =>
    rcases transact_cases (Option.some.inj hx) with ⟨rfl,-⟩ | hy
    · exact h
    · have hcomplete : Sound (s.complete store t scope token result now).2 := h.complete hpre
      rw [hy] at hcomplete
      exact hcomplete
  | markUnknown scope token now =>
    rcases transact_cases (Option.some.inj hx) with ⟨rfl,-⟩ | hy
    · exact h
    · cases hy
      exact h.finalize _ _
  | startOperation scope token =>
    cases hx
    obtain ⟨hheld,hnew⟩ := hpre
    refine { h with startedHeld := fun token' h' => ?_, startedOnce := List.nodup_cons.mpr ⟨hnew,h.startedOnce⟩ }
    rcases List.mem_cons.mp h' with rfl | h'
    · show s.record.holder token' ≠ none
      simp [hheld]
    · exact h.startedHeld token' h'
  | deadline expiresAt =>
    simp only [exec] at hx
    split at hx
    all_goals cases hx
    all_goals exact h
  | _ =>
    cases hx
    exact h

theorem exec_change {a : Action} {r : Except BrokerError (Answer a)} (h : Sound s)
    (hpre : Performs t a s) (hx : exec store t a x s = some (r,s')) : Change t s s' := by
  cases a with
  | reserve scope deadline now =>
    simp only [exec] at hx
    split at hx
    · cases hx
    · rename_i hfresh
      have htoken : s.record.holder x.token = none := by simpa using hfresh
      rcases transact_cases (Option.some.inj hx) with ⟨rfl,-⟩ | hy
      · exact (Extends.refl s').change
      · have hext := (@reserve_spec store s t scope x.token now htoken (h.unheld htoken)).1
        rw [hy] at hext
        exact hext.change
  | complete scope token result deadline now =>
    rcases transact_cases (Option.some.inj hx) with ⟨rfl,-⟩ | hy
    · exact (Extends.refl s').change
    · have hext := (@complete_spec store s t scope token now result).1
      rw [hy] at hext
      exact hext.change
  | markUnknown scope token now =>
    rcases transact_cases (Option.some.inj hx) with ⟨rfl,-⟩ | hy
    · exact (Extends.refl s').change
    · cases hy
      exact (extends_finalize s _ _).change
  | startOperation scope token =>
    cases hx
    refine ⟨Int.le_refl _,fun _ _ h => h,fun token' h' => ?_,fun _ h => h⟩
    rcases List.mem_cons.mp h' with rfl | h'
    · exact .inr ⟨scope,hpre.1⟩
    · exact .inl h'
  | deadline expiresAt =>
    simp only [exec] at hx
    split at hx
    all_goals cases hx
    all_goals exact (Extends.refl s).change
  | _ =>
    cases hx
    exact (Extends.refl s).change

def contract (store : Store) (t : ℕ) : Contract Action Answer BrokerError State where
  step a r s s' := Sound s ∧ ∃ x, exec store t a x s = some (r,s')
  pre := Performs t
  rely := Rely t
  guar := Change t
  rely_refl := Rely.refl t
  rely_trans _ _ _ := Rely.trans

end Contracts

section Walk

variable {store : Store} {s s' : State} {t : ℕ} {x : Choice} {scope : OperationScope}
  {token : String} {P : State → Prop} {α : Type}

/-- The call was given the result for a reservation of the scope. -/
def Answered (t : ℕ) (scope : OperationScope) (r : BrokerResult) (s : State) : Prop :=
  ∃ token, ⟨t,scope,token,r⟩ ∈ s.record.outcomes

/-- The call has acquired the reservation, and not yet started the operation. -/
def Acquired (t : ℕ) (scope : OperationScope) (token : String) (s : State) : Prop :=
  s.record.holder token = some (t,scope) ∧ token ∉ s.record.started

theorem stable_true : (contract store t).Stable fun _ => True := fun _ _ _ _ => trivial

theorem stable_answered (r : BrokerResult) : (contract store t).Stable (Answered t scope r) :=
  fun _ _ ⟨token,h⟩ hr => ⟨token,hr.outcomes h⟩

theorem stable_acquired : (contract store t).Stable (Acquired t scope token) :=
  fun _ _ h hr => ⟨hr.holder token _ h.1,hr.started token scope h.1 h.2⟩

theorem stable_reserved (res : Reservation) : (contract store t).Stable (Reserved t scope res) := by
  intro s s' h hr
  refine ⟨fun r hres => ?_,fun hacquired => ?_⟩
  · obtain ⟨token,ho⟩ := h.1 r hres
    exact ⟨token,hr.outcomes ho⟩
  · obtain ⟨hheld,hnew⟩ := h.2 hacquired
    exact ⟨hr.holder _ _ hheld,hr.started _ scope hheld hnew⟩

theorem stable_past (now : ℤ) : (contract store t).Stable fun s => now ≤ s.clock :=
  fun _ _ h hr => Int.le_trans h hr.clock

theorem act_triple {a : Action} {Q : Except BrokerError (Answer a) → State → Prop}
    (hP : (contract store t).Stable P) (hpre : ∀ s, P s → Performs t a s)
    (h : ∀ s x r s', Sound s → P s → exec store t a x s = some (r,s') → Q r s')
    (hQ : ∀ r, (contract store t).Stable (Q r)) :
    (contract store t).Triple P (perform a) Q := by
  refine Contract.Triple.perform hP hpre (fun s r s' hs hstep => ?_) hQ
  obtain ⟨hsound,x,hx⟩ := hstep
  exact ⟨exec_change hsound (hpre s hs) hx,h s x r s' hsound hs hx⟩

/-- The actions that leave the state alone. -/
def Action.quiet : Action → Bool
  | .now => true
  | .monotonic => true
  | .deadline _ => true
  | .sleep _ => true
  | .endOperation _ => true
  | _ => false

theorem quiet_triple {a : Action} (ha : a.quiet = true) (hP : (contract store t).Stable P) :
    (contract store t).Triple P (perform a) (fun _ => P) := by
  refine act_triple hP (fun s _ => ?_) (fun s x r s' _ hs hx => ?_) fun _ => hP
  · cases a with
    | reserve => cases ha
    | complete => cases ha
    | startOperation => cases ha
    | _ => trivial
  · have hsame : s' = s := by
      cases a with
      | deadline expiresAt =>
        simp only [exec] at hx
        split at hx
        all_goals cases hx
        all_goals rfl
      | reserve => cases ha
      | complete => cases ha
      | markUnknown => cases ha
      | startOperation => cases ha
      | _ =>
        cases hx
        rfl
    rw [hsame]
    exact hs

theorem now_triple (hP : (contract store t).Stable P) :
    (contract store t).Triple P (perform .now)
      (Contract.Ends (fun now s => P s ∧ now ≤ s.clock) fun _ => P) := by
  refine act_triple hP (fun _ _ => trivial) (fun s x r s' _ hs hx => ?_)
    (Contract.stable_ends (fun now => Contract.stable_and hP (stable_past now)) fun _ => hP)
  cases hx
  exact ⟨hs,Int.le_refl _⟩

theorem deadline_triple (deadline : Option Time) (hP : (contract store t).Stable P) :
    (contract store t).Triple P (checkDeadline deadline) (fun _ => P) := by
  cases deadline with
  | none => exact Contract.Triple.ret (fun _ h => h) hP
  | some expiresAt =>
    refine Contract.Triple.bind (quiet_triple rfl hP) (fun _ => ?_) fun _ _ h => h
    exact Contract.Triple.ret (fun _ h => h) hP

theorem connect_triple (deadline : Option Time) (hP : (contract store t).Stable P) :
    (contract store t).Triple P (connect deadline) (fun _ => P) := by
  refine Contract.Triple.bind (deadline_triple deadline hP) (fun _ => ?_) fun _ _ h => h
  refine Contract.Triple.bind (deadline_triple deadline hP) (fun _ => ?_) fun _ _ h => h
  exact deadline_triple deadline hP

/-- A call that raises was given nothing. -/
theorem fail_triple {Q : α → State → Prop} (e : BrokerError) :
    (contract store t).Triple P (throw e : Call α) (Contract.Returns Q) :=
  Contract.Triple.raise (fun _ _ => trivial) fun _ _ _ _ => trivial

theorem asStore_triple {Q : α → State → Prop} (deadline : Option Time) (e : BrokerError) :
    (contract store t).Triple (fun _ => True) (asStore deadline e : Call α) (Contract.Returns Q) := by
  cases e with
  | sqlite =>
    exact Contract.Triple.bind (deadline_triple deadline stable_true) (fun _ => fail_triple _)
      fun _ _ _ => trivial
  | _ => exact fail_triple _

theorem reserve_triple (scope : OperationScope) (deadline : Option Time) :
    (contract store t).Triple (fun _ => True) (reserve scope deadline)
      (Contract.Returns fun res => Reserved t scope res) := by
  refine Contract.Triple.bind (deadline_triple deadline stable_true) (fun _ => ?_) fun _ _ _ => trivial
  refine Contract.Triple.ofExcept_bind stable_true (fun _ _ => ?_) fun _ _ _ _ => trivial
  refine Contract.Triple.bind (now_triple stable_true) (fun now => ?_) fun _ _ _ => trivial
  refine Contract.Triple.tryCatch (Q:=Contract.Returns fun res => Reserved t scope res) ?_
    (fun _ _ h => h) fun e => asStore_triple deadline e
  refine Contract.Triple.bind (connect_triple deadline (Contract.stable_and stable_true (stable_past now)))
    (fun _ => ?_) fun _ _ _ => trivial
  refine act_triple (Contract.stable_and stable_true (stable_past now)) (fun _ h => h.2)
    (fun s x r s' hsound hs hx => ?_) (Contract.stable_returns stable_reserved)
  simp only [exec] at hx
  split at hx
  · cases hx
  rename_i hfresh
  have htoken : s.record.holder x.token = none := by simpa using hfresh
  rcases transact_cases (Option.some.inj hx) with ⟨-,e,rfl⟩ | hy
  · trivial
  · cases r with
    | error e => trivial
    | ok res =>
      have hres := (@reserve_spec store s t scope x.token now htoken (hsound.unheld htoken)).2
      rw [hy] at hres
      exact hres res rfl

theorem complete_triple (scope : OperationScope) (token : String) (r : BrokerResult)
    (deadline : Option Time) :
    (contract store t).Triple (fun _ => True) (complete scope token r deadline)
      (Contract.Returns fun _ s => ⟨t,scope,token,r⟩ ∈ s.record.outcomes) := by
  have hstable : (contract store t).Stable fun s => ⟨t,scope,token,r⟩ ∈ s.record.outcomes :=
    fun _ _ h hr => hr.outcomes h
  refine Contract.Triple.bind (deadline_triple deadline stable_true) (fun _ => ?_) fun _ _ _ => trivial
  split
  · exact fail_triple _
  rename_i hid
  refine Contract.Triple.ofExcept_bind stable_true (fun _ _ => ?_) fun _ _ _ _ => trivial
  refine Contract.Triple.bind (quiet_triple rfl stable_true) (fun now => ?_) fun _ _ _ => trivial
  refine Contract.Triple.tryCatch
    (Q:=Contract.Returns fun _ s => ⟨t,scope,token,r⟩ ∈ s.record.outcomes) ?_
    (fun _ _ h => h) fun e => asStore_triple deadline e
  refine Contract.Triple.bind (connect_triple deadline stable_true) (fun _ => ?_) fun _ _ _ => trivial
  refine act_triple stable_true (fun _ _ => not_not.mp hid) (fun s x r' s' _ _ hx => ?_)
    (Contract.stable_returns fun _ => hstable)
  rcases transact_cases (Option.some.inj hx) with ⟨-,e,rfl⟩ | hy
  · trivial
  · cases r' with
    | error e => trivial
    | ok _ =>
      have hcomplete := (@complete_spec store s t scope token now r).2
      rw [hy] at hcomplete
      exact hcomplete rfl

theorem markUnknown_triple (scope : OperationScope) (token : String) :
    (contract store t).Triple (fun _ => True) (markUnknown scope token) (fun _ _ => True) := by
  refine Contract.Triple.ofExcept_bind stable_true (fun _ _ => ?_) fun _ _ _ _ => trivial
  refine Contract.Triple.bind (quiet_triple rfl stable_true) (fun now => ?_) fun _ _ _ => trivial
  exact act_triple stable_true (fun _ _ => trivial) (fun _ _ _ _ _ _ _ => trivial) fun _ => stable_true

theorem runOwned_triple (scope : OperationScope) (token : String) (deadline : Option Time) :
    (contract store t).Triple (Acquired t scope token) (runOwned scope token deadline)
      (Contract.Returns fun r => Answered t scope r) := by
  refine Contract.Triple.tryCatch (Q:=Contract.Returns fun r => Answered t scope r) ?_ (fun _ _ h => h)
    fun e => ?_
  · refine Contract.Triple.bind (deadline_triple deadline stable_acquired) (fun _ => ?_)
      fun _ _ _ => trivial
    refine Contract.Triple.bind (act_triple stable_acquired (fun _ h => h)
      (fun _ _ _ _ _ _ _ => trivial) fun _ => stable_true) (fun _ => ?_) fun _ _ _ => trivial
    refine Contract.Triple.bind (quiet_triple rfl stable_true) (fun r => ?_) fun _ _ _ => trivial
    refine Contract.Triple.bind (complete_triple scope token r deadline) (fun _ => ?_) fun _ _ _ => trivial
    exact Contract.Triple.ret (fun s h => ⟨token,h⟩) (stable_answered r)
  · refine Contract.Triple.bind (Q:=fun _ _ => True) ?_ (fun _ => fail_triple _) fun _ _ _ => trivial
    refine Contract.Triple.tryCatch (markUnknown_triple scope token) (fun _ _ _ => trivial) fun _ => ?_
    exact Contract.Triple.ret (fun _ _ => trivial) stable_true

theorem poll_triple (scope : OperationScope) (deadline : Option Time) (waitDeadline : Time)
    (rounds : ℕ) :
    (contract store t).Triple (fun _ => True) (poll store scope deadline waitDeadline rounds)
      (Contract.Returns fun r => Answered t scope r) := by
  induction rounds with
  | zero => exact fail_triple _
  | succ rounds ih =>
    refine Contract.Triple.bind (deadline_triple deadline stable_true) (fun _ => ?_) fun _ _ _ => trivial
    refine Contract.Triple.bind (quiet_triple rfl stable_true) (fun m => ?_) fun _ _ _ => trivial
    split
    · exact fail_triple _
    refine Contract.Triple.bind (reserve_triple scope deadline) (fun res => ?_) fun _ _ _ => trivial
    split
    · rename_i r hres
      exact Contract.Triple.ret (fun s h => h.1 r hres) (stable_answered r)
    split
    · rename_i hacquired
      exact (runOwned_triple scope res.ownerToken deadline).conseq (fun s h => h.2 hacquired)
        fun _ _ h => h
    · have hremaining : (contract store t).Triple (fun _ => True) (remaining deadline waitDeadline)
          (fun _ _ => True) := by
        unfold remaining
        split
        · refine Contract.Triple.bind (quiet_triple rfl stable_true) (fun m => ?_) fun _ _ _ => trivial
          exact Contract.Triple.ret (fun _ _ => trivial) stable_true
        · refine Contract.Triple.bind (quiet_triple rfl stable_true) (fun left => ?_) fun _ _ _ => trivial
          refine Contract.Triple.bind (quiet_triple rfl stable_true) (fun m => ?_) fun _ _ _ => trivial
          exact Contract.Triple.ret (fun _ _ => trivial) stable_true
      refine Contract.Triple.bind (hremaining.conseq (fun _ _ => trivial) fun _ _ h => h)
        (fun left => ?_) fun _ _ _ => trivial
      split
      · exact Contract.Triple.bind (deadline_triple deadline stable_true) (fun _ => fail_triple _)
          fun _ _ _ => trivial
      · exact Contract.Triple.bind (quiet_triple rfl stable_true) (fun _ => ih) fun _ _ _ => trivial

/-- What a task that has returned was given. -/
def Task.Gave (t : ℕ) (s : State) : Task → Returned → Prop
  | .execute scope _ _, .result r => Answered t scope r s
  | .reserve scope _, .reservation res => Reserved t scope res s
  | .complete scope token r _, .done => ⟨t,scope,token,r⟩ ∈ s.record.outcomes
  | _, _ => True

theorem task_triple (task : Task) :
    (contract store t).Triple (fun _ => True) (task.call store)
      (Contract.Returns fun r s => task.Gave t s r) := by
  cases task with
  | execute scope deadline rounds =>
    refine Contract.Triple.bind (Q:=Contract.Returns fun r => Answered t scope r) ?_ (fun r => ?_)
      fun _ _ _ => trivial
    · exact Contract.Triple.bind (quiet_triple rfl stable_true)
        (fun m => poll_triple scope deadline _ rounds) fun _ _ _ => trivial
    · exact Contract.Triple.ret (fun _ h => h) (stable_answered r)
  | reserve scope deadline =>
    refine Contract.Triple.bind (reserve_triple scope deadline) (fun res => ?_) fun _ _ _ => trivial
    exact Contract.Triple.ret (fun _ h => h) (stable_reserved res)
  | complete scope token r deadline =>
    refine Contract.Triple.bind (complete_triple scope token r deadline) (fun _ => ?_) fun _ _ _ => trivial
    exact Contract.Triple.ret (fun _ h => h) fun _ _ h hr => hr.outcomes h
  | release scope token =>
    refine Contract.Triple.bind (markUnknown_triple scope token) (fun _ => ?_) fun _ _ _ => trivial
    exact Contract.Triple.ret (fun _ _ => trivial) stable_true

end Walk

section Runs

variable (store : Store)

/-- A scope is reserved again only when the retention of its earlier reservations is over, an
operation is started once for a reservation, whatever a call returns it was given for a
reservation, all results given for one reservation are the same, and they are `unknown_outcome`
unless its owner completed it before anybody else finalized it. -/
structure Idempotent (tasks : ℕ → Task) (c : World) : Prop where
  spaced : ∀ scope, (c.shared.record.windows scope).Pairwise fun later earlier =>
    ∃ u, (earlier.token,u) ∈ c.shared.record.retired ∧ u ≤ later.opened
  startedOnce : c.shared.record.started.Nodup
  startedHeld : ∀ token ∈ c.shared.record.started, ∃ scope, ∃ w ∈ c.shared.record.windows scope,
    w.token = token
  gave : ∀ t r, c.calls t = .ret r → (tasks t).Gave t c.shared r
  held : ∀ o ∈ c.shared.record.outcomes, ∃ w ∈ c.shared.record.windows o.scope, w.token = o.token
  agreed : ∀ o ∈ c.shared.record.outcomes, ∀ o' ∈ c.shared.record.outcomes, o.token = o'.token →
    o.result = o'.result
  abandoned : ∀ o ∈ c.shared.record.outcomes, o.token ∈ c.shared.record.abandoned →
    o.result = unknownResult o.scope
  justified : ∀ o ∈ c.shared.record.outcomes, o.result = unknownResult o.scope ∨
    ∃ o' ∈ c.shared.record.completed, o'.scope = o.scope ∧ o'.token = o.token ∧ o'.result = o.result

theorem compatible : Compatible (α:=Returned) (machine store) (contract store)
    fun c _ => Sound c.shared where
  own _ _ x _ _ _ _ _ he hQ := ⟨hQ,x,he⟩
  others _ _ _ _ hne hg := hg.rely hne
  environment c v s hs _ t := by
    cases v with
    | tick wall m =>
      simp only [machine,environment] at hs
      split at hs
      · rename_i hpos
        cases hs
        exact ⟨by show c.shared.clock ≤ c.shared.clock+wall; omega,fun _ _ h => h,fun _ _ _ h => h,
          fun _ h => h⟩
      · cases hs

/-- Every call keeps its contract. -/
abbrev Contracted (tasks : ℕ → Task) (c : World) : Prop :=
  AllSafe (contract store) (fun t => Contract.Returns fun r s => (tasks t).Gave t s r) c

theorem sound_next {tasks : ℕ → Task} (c d : World) (e : Interleave.Event Choice Move)
    (h : Contracted store tasks c) (hs : Sound c.shared) (hn : (machine store).next c e = some d) :
    Sound d.shared := by
  cases e with
  | call t x =>
    obtain ⟨a,k,r,s,hk,he,rfl⟩ := Machine.next_call hn
    exact sound_exec hs (h.performs hk) he
  | environment v =>
    obtain ⟨s,he,rfl⟩ := Machine.next_environment hn
    cases v with
    | tick wall m =>
      simp only [machine,environment] at he
      split at he
      · rename_i hpos
        cases he
        exact hs.tick hpos.1 _
      · cases he

theorem contracted_throughout (tasks : ℕ → Task) (clock : ℤ) (monotonic : Time)
    (es : List (Interleave.Event Choice Move)) :
    (machine store).Throughout (fun c => Contracted store tasks c ∧ Sound c.shared)
      (World.boot store tasks clock monotonic) es := by
  refine Machine.throughout_of_step (Q:=fun _ _ => True) (fun c d e h _ hn => ?_) ⟨?_,?_⟩
    Machine.eachStep_true
  · exact ⟨allSafe_next (compatible store) c d e h.1 h.2 hn,sound_next store c d e h.1 h.2 hn⟩
  · exact fun t => task_triple (tasks t) _ trivial
  · exact Sound.boot clock monotonic

variable {store}

theorem Contracted.idempotent {tasks : ℕ → Task} {c : World} (h : Contracted store tasks c)
    (hs : Sound c.shared) : Idempotent tasks c where
  spaced := hs.spaced
  startedOnce := hs.startedOnce
  startedHeld token htoken := by
    obtain ⟨v,hv⟩ := Option.ne_none_iff_exists'.mp (hs.startedHeld token htoken)
    exact ⟨v.2,hs.heldWindow token v.1 v.2 hv⟩
  gave t r hr := h.returned hr
  held o ho := by
    obtain ⟨t,ht⟩ := hs.outcomeHeld o ho
    exact hs.heldWindow o.token t o.scope ht
  agreed := hs.agreed
  abandoned := hs.abandonedResult
  justified := hs.justified

/-- However calls interleave, under whatever clocks that do not go back. -/
theorem idempotent_throughout (store : Store) (tasks : ℕ → Task) (clock : ℤ) (monotonic : Time)
    (es : List (Interleave.Event Choice Move)) :
    (machine store).Throughout (Idempotent tasks) (World.boot store tasks clock monotonic) es :=
  (contracted_throughout store tasks clock monotonic es).mono fun _ h =>
    Contracted.idempotent h.1 h.2

end Runs

section LateCompletion

def defaultStore : Store where
  waitTimeout_pos := by norm_num
  pollInterval_pos := by norm_num
  reservationLease_pos := by decide
  retention_pos := by decide
  maxRecords_pos := by decide

def aliceScope : OperationScope :=
  ⟨"deployment","broker","credential.login","profile","alice","browser","generation","site","tab",
    "request"⟩

def authenticated : BrokerResult where
  requestId := "request"
  status := "authenticated"
  status_known := authenticated_known
  durationMs_nonneg := durationMs_default
  errorCode_bounded := errorCode_default

def reservedRow : Row := ⟨aliceScope,"a",.reserved 60⟩

/-- A login is reserved and its operation started, and its lease runs out. -/
def outlastedLease : List (Interleave.Event Choice Move) :=
  [.call 0 {},.call 0 {},.call 0 {},.call 0 { token := "a" },.call 0 {},.environment (.tick 100 1)]

/-- The operation returns, and the login is completed. -/
def lateCompletion : List (Interleave.Event Choice Move) :=
  [.call 0 { outcome := .ok authenticated },.call 0 {},.call 0 {}]

def lateWorld : World := World.boot defaultStore (fun _ => .execute aliceScope none 1) 0 0

/-- The lease of a reservation has expired, and yet the reservation gets another result than
`unknown_outcome`. -/
def completesLate (c d : World) : Bool :=
  c.shared.operations.rows = [reservedRow] && 60 ≤ c.shared.clock &&
    d.shared.record.outcomes = [⟨0,aliceScope,"a",authenticated⟩]

/-- An expired reservation that nobody has looked at is still completed by its owner. -/
theorem late_completion_counts : ¬∀ (store : Store) (tasks : ℕ → Task) (clock : ℤ) (monotonic : Time)
    (es es' : List (Interleave.Event Choice Move)) (c d : World) (row : Row) (lease : ℤ),
    (machine store).run (World.boot store tasks clock monotonic) es = some c →
    row ∈ c.shared.operations → row.progress = .reserved lease → lease ≤ c.shared.clock →
    (machine store).run c es' = some d →
    ∀ o ∈ d.shared.record.outcomes, o.token = row.ownerToken → o.result = unknownResult row.scope := by
  intro h
  have hrun : ((machine defaultStore).run lateWorld outlastedLease).any (fun c =>
      ((machine defaultStore).run c lateCompletion).any (completesLate c)) = true := by
    decide +kernel
  obtain ⟨c,hc,hc'⟩ := (Option.any_eq_true _ _).mp hrun
  obtain ⟨d,hd,hlate⟩ := (Option.any_eq_true _ _).mp hc'
  simp only [completesLate,Bool.and_eq_true,decide_eq_true_eq] at hlate
  obtain ⟨⟨hrows,hclock⟩,houtcomes⟩ := hlate
  have hrow : reservedRow ∈ c.shared.operations := by
    rw [← Keyed.Table.mem_rows,hrows]
    exact List.mem_singleton_self _
  have hunknown := h defaultStore _ 0 0 outlastedLease lateCompletion c d reservedRow 60 hc hrow rfl
    hclock hd ⟨0,aliceScope,"a",authenticated⟩ (by rw [houtcomes]; exact List.mem_singleton_self _) rfl
  exact absurd hunknown (by decide)

end LateCompletion
end Idempotency
end CloudBrowser
