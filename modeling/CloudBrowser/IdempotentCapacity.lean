import CloudBrowser.IdempotentRuns

/-! How many rows the idempotency store keeps, and which of them a transaction may touch: the
table never outgrows its bound, no live row makes room for another, and a reservation is
finalized by its owner only. -/
namespace CloudBrowser
namespace Idempotency

open Interleave

section Rows

variable {ops : Operations} {row : Row} {now : ℤ}

/-- An unexpired reservation, or a result that is still retained. -/
def Row.live (now : ℤ) (row : Row) : Bool :=
  match row.progress with
  | .reserved leaseExpiresAt => now < leaseExpiresAt
  | .complete _ _ _ retainedUntil => now < retainedUntil

theorem Row.not_expired (h : row.live now = true) : row.expired now = false := by
  simp only [Row.live,Row.expired] at h ⊢
  split
  · rename_i lease hprogress
    simpa [hprogress] using h
  · rfl

theorem Row.not_over (h : row.live now = true) : row.over now = false := by
  simp only [Row.live,Row.over,Row.retainedUntil] at h ⊢
  split
  · rfl
  · rename_i retainedUntil hprogress
    simpa [hprogress] using h

theorem finalize_length (ops : Operations) (p : Row → Bool) (u : ℤ) :
    (ops.finalize p u).rows.length = ops.rows.length := List.length_map _

theorem settle_length (ops : Operations) (scope : OperationScope) (token : String)
    (r : BrokerResult) (u : ℤ) : (ops.settle scope token r u).rows.length = ops.rows.length :=
  List.length_map _

theorem keep_length (ops : Operations) (p : Row → Bool) :
    (ops.keep p).rows.length ≤ ops.rows.length := List.length_filter_le _ _

theorem put_length (ops : Operations) (row : Row) :
    (ops.put row).rows.length ≤ ops.rows.length+1 := by
  by_cases h : ∃ r ∈ ops, r.scope = row.scope
  · obtain ⟨r,hr,hscope⟩ := h
    have hlength := Keyed.Table.length_put_of_mem hr hscope
    omega
  · have hfresh : ∀ r ∈ ops, r.scope ≠ row.scope := fun r hr hscope => h ⟨r,hr,hscope⟩
    rw [Keyed.Table.put_rows_of_fresh hfresh,List.length_append]
    simp

/-- A rewriting that changes no row. -/
theorem mapRows_eq_self {f : Row → Row} {hf : ∀ row, (f row).scope = row.scope}
    (h : ∀ row ∈ ops, f row = row) : ops.mapRows f hf = ops := by
  refine Keyed.Table.ext ?_
  have hrows : ops.rows.map f = ops.rows.map id := List.map_congr_left h
  rwa [List.map_id] at hrows

theorem finalize_eq_self {p : Row → Bool} (h : ∀ row ∈ ops, (p row && row.isReserved) = false)
    (u : ℤ) : ops.finalize p u = ops :=
  mapRows_eq_self fun row hrow => by simp [h row hrow]

end Rows

section Transactions

variable {store : Store} {s s' s'' : State} {t : ℕ} {scope : OperationScope} {token : String} {now : ℤ}

/-- Every row that is live at `now` is left as it was. -/
def KeepsLive (now : ℤ) (s s' : State) : Prop :=
  ∀ row ∈ s.operations, row.live now = true → row ∈ s'.operations

theorem KeepsLive.refl (now : ℤ) (s : State) : KeepsLive now s s := fun _ h _ => h

theorem KeepsLive.trans (h : KeepsLive now s s') (h' : KeepsLive now s' s'') :
    KeepsLive now s s'' := fun row hrow hlive => h' row (h row hrow hlive) hlive

theorem finalize_keepsLive {p : Row → Bool} {u : ℤ}
    (hp : ∀ row ∈ s.operations, row.live now = true → p row = false) :
    KeepsLive now s (s.finalize p u) := by
  intro row hrow hlive
  have hnot : (p row && row.isReserved) = false := by simp [hp row hrow hlive]
  exact mem_finalize.mpr (.inl ⟨hrow,hnot⟩)

theorem delete_keepsLive {p : Row → Bool}
    (hp : ∀ row ∈ s.operations, row.live now = true → p row = false) :
    KeepsLive now s (s.delete p) := by
  intro row hrow hlive
  exact Keyed.Table.mem_keep.mpr ⟨hrow,by simp [hp row hrow hlive]⟩

/-- What `makeRoom` sweeps away is expired, whether it then inserts or refuses. -/
theorem makeRoom_keepsLive (hscope : ∀ row ∈ s.operations, row.scope ≠ scope) :
    KeepsLive now s (s.makeRoom store t scope token now).2 := by
  have hfinalize : KeepsLive now s (s.finalize (Row.expired now) (now+store.retention)) :=
    finalize_keepsLive fun _ _ hlive => Row.not_expired hlive
  have hswept := hfinalize.trans (@delete_keepsLive _ now (Row.over now) fun _ _ hlive =>
    Row.not_over hlive)
  unfold State.makeRoom
  dsimp only
  split
  · exact hswept
  · intro row hrow hlive
    exact Keyed.Table.mem_put.mpr (.inr ⟨hswept row hrow hlive,hscope row hrow⟩)

theorem makeRoom_length (h : s.operations.rows.length ≤ store.maxRecords) :
    (s.makeRoom store t scope token now).2.operations.rows.length ≤ store.maxRecords := by
  unfold State.makeRoom
  dsimp only
  split
  · have hfinalize := finalize_length s.operations (Row.expired now) (now+store.retention)
    have hkeep := keep_length (s.operations.finalize (Row.expired now) (now+store.retention))
      fun row => !Row.over now row
    simp only [State.delete,State.finalize]
    omega
  · rename_i hroom
    have hput := put_length ((s.finalize (Row.expired now) (now+store.retention)).delete
      (Row.over now)).operations ⟨scope,token,.reserved (now+store.reservationLease)⟩
    simp only [State.insert]
    omega

theorem reserve_keepsLive : KeepsLive now s (s.reserve store t scope token now).2 := by
  unfold State.reserve
  cases hfind : s.operations.find scope with
  | none => exact makeRoom_keepsLive (Keyed.Table.find_eq_none.mp hfind)
  | some row =>
    obtain ⟨hrow,hscope⟩ := Keyed.Table.find_eq_some.mp hfind
    have hsame {row' : Row} (hrow' : row' ∈ s.operations) (hscope' : row'.scope = scope) :
        row' = row := Keyed.Table.eq_of_key hrow' hrow (hscope'.trans hscope.symm)
    dsimp only
    cases hprogress : row.progress with
    | reserved lease =>
      by_cases hlease : now < lease
      · simp only [hlease,if_true]
        exact .refl now s
      · simp only [hlease,if_false]
        refine finalize_keepsLive fun row' hrow' hlive => ?_
        refine decide_eq_false fun hscope' => ?_
        rw [hsame hrow' hscope'] at hlive
        simp [Row.live,hprogress,hlease] at hlive
    | complete status errorCode durationMs retainedUntil =>
      by_cases hkept : now < retainedUntil
      · simp only [hkept,if_true]
        cases rowResult scope row with
        | error e => exact .refl now s
        | ok r => exact .refl now s
      · simp only [hkept,if_false]
        have hdelete : KeepsLive now s (s.delete (·.scope = scope)) := by
          refine delete_keepsLive fun row' hrow' hlive => ?_
          refine decide_eq_false fun hscope' => ?_
          rw [hsame hrow' hscope'] at hlive
          simp [Row.live,hprogress,hkept] at hlive
        refine hdelete.trans (makeRoom_keepsLive fun row' hrow' => ?_)
        simpa using (Keyed.Table.mem_keep.mp hrow').2

theorem reserve_length (h : s.operations.rows.length ≤ store.maxRecords) :
    (s.reserve store t scope token now).2.operations.rows.length ≤ store.maxRecords := by
  unfold State.reserve
  cases s.operations.find scope with
  | none => exact makeRoom_length h
  | some row =>
    dsimp only
    cases row.progress with
    | reserved lease =>
      by_cases hlease : now < lease
      · simp only [hlease,if_true]
        exact h
      · simp only [hlease,if_false]
        have hlength := finalize_length s.operations (·.scope = scope) (now+store.retention)
        simp only [State.reply,State.finalize]
        omega
    | complete status errorCode durationMs retainedUntil =>
      by_cases hkept : now < retainedUntil
      · simp only [hkept,if_true]
        cases rowResult scope row with
        | error e => exact h
        | ok r => exact h
      · simp only [hkept,if_false]
        have hlength := keep_length s.operations fun row => !decide (row.scope = scope)
        exact makeRoom_length (Nat.le_trans hlength h)

/-- Whoever does not own the reservation of a scope completes and releases nothing. -/
theorem complete_unowned {r : BrokerResult}
    (h : ∀ row ∈ s.operations, row.owned scope token = false) :
    (s.complete store t scope token r now).2.operations = s.operations := by
  have hnone : ¬s.operations.rows.any (Row.owned scope token) = true := by
    rw [List.any_eq_true]
    rintro ⟨row,hrow,howned⟩
    rw [h row hrow] at howned
    cases howned
  rw [State.complete,if_neg hnone]

theorem complete_length {r : BrokerResult} :
    (s.complete store t scope token r now).2.operations.rows.length = s.operations.rows.length := by
  unfold State.complete
  split
  · exact settle_length s.operations scope token r _
  · rfl

theorem markUnknown_unowned (h : ∀ row ∈ s.operations, row.owned scope token = false) :
    (s.markUnknown store scope token now).operations = s.operations :=
  finalize_eq_self (fun row hrow => by simp [h row hrow]) _

end Transactions

section Steps

variable {store : Store} {s s' : State} {t : ℕ} {x : Choice}

/-- What a step may do to the table: a reservation, granted or refused, spares the rows that
are live at its reading of the clock, which is none of the future; a completion and a release
touch a reservation of their owner only; nothing else writes. -/
def Action.Lawful : Action → State → State → Prop
  | .reserve _ _ reading, s, s' => reading ≤ s.clock ∧ KeepsLive reading s s'
  | .complete scope token _ _ _, s, s' =>
    (∀ row ∈ s.operations, row.owned scope token = false) → s'.operations = s.operations
  | .markUnknown scope token _, s, s' =>
    (∀ row ∈ s.operations, row.owned scope token = false) → s'.operations = s.operations
  | _, s, s' => s'.operations = s.operations

theorem exec_lawful {a : Action} {r : Except BrokerError (Answer a)} (hpre : Performs t a s)
    (hx : exec store t a x s = some (r,s')) : a.Lawful s s' := by
  cases a with
  | reserve scope deadline now =>
    refine ⟨hpre,?_⟩
    simp only [exec] at hx
    split at hx
    · cases hx
    · rcases transact_cases (Option.some.inj hx) with ⟨rfl,-⟩ | hy
      · exact .refl now s'
      · have hkeeps := @reserve_keepsLive store s t scope x.token now
        rwa [hy] at hkeeps
  | complete scope token result deadline now =>
    intro hunowned
    rcases transact_cases (Option.some.inj hx) with ⟨rfl,-⟩ | hy
    · rfl
    · have hsame := @complete_unowned store s t scope token now result hunowned
      rwa [hy] at hsame
  | markUnknown scope token now =>
    intro hunowned
    rcases transact_cases (Option.some.inj hx) with ⟨rfl,-⟩ | hy
    · rfl
    · cases hy
      exact markUnknown_unowned hunowned
  | deadline expiresAt =>
    simp only [exec] at hx
    split at hx
    all_goals cases hx
    all_goals rfl
  | _ =>
    cases hx
    rfl

theorem exec_length {a : Action} {r : Except BrokerError (Answer a)}
    (h : s.operations.rows.length ≤ store.maxRecords)
    (hx : exec store t a x s = some (r,s')) : s'.operations.rows.length ≤ store.maxRecords := by
  cases a with
  | reserve scope deadline now =>
    simp only [exec] at hx
    split at hx
    · cases hx
    · rcases transact_cases (Option.some.inj hx) with ⟨rfl,-⟩ | hy
      · exact h
      · have hlength := @reserve_length store s t scope x.token now h
        rwa [hy] at hlength
  | complete scope token result deadline now =>
    rcases transact_cases (Option.some.inj hx) with ⟨rfl,-⟩ | hy
    · exact h
    · have hlength := @complete_length store s t scope token now result
      rw [hy] at hlength
      exact Nat.le_trans (Nat.le_of_eq hlength) h
  | markUnknown scope token now =>
    rcases transact_cases (Option.some.inj hx) with ⟨rfl,-⟩ | hy
    · exact h
    · cases hy
      have hlength := finalize_length s.operations (Row.owned scope token) (now+store.retention)
      simp only [State.markUnknown,State.finalize]
      omega
  | deadline expiresAt =>
    simp only [exec] at hx
    split at hx
    all_goals cases hx
    all_goals exact h
  | _ =>
    cases hx
    exact h

end Steps

section Runs

/-- The table is within its bound, and whatever step is taken next, by whichever call, is lawful. -/
structure WithinCapacity (store : Store) (c : World) : Prop where
  bounded : c.shared.operations.rows.length ≤ store.maxRecords
  lawful : ∀ t x a k r s, c.calls t = .act a k → exec store t a x c.shared = some (r,s) →
    a.Lawful c.shared s

variable {store : Store}

theorem bounded_next (c d : World) (e : Interleave.Event Choice Move)
    (h : c.shared.operations.rows.length ≤ store.maxRecords) (hn : (machine store).next c e = some d) :
    d.shared.operations.rows.length ≤ store.maxRecords := by
  cases e with
  | call t x =>
    obtain ⟨a,k,r,s,-,he,rfl⟩ := Machine.next_call hn
    exact exec_length h he
  | environment v =>
    obtain ⟨s,he,rfl⟩ := Machine.next_environment hn
    cases v with
    | tick wall m =>
      simp only [machine,environment] at he
      split at he
      · cases he
        exact h
      · cases he

/-- However calls interleave, with whatever arguments, under clocks that do not go back. -/
theorem withinCapacity_throughout (store : Store) (tasks : ℕ → Task) (clock : ℤ) (monotonic : Time)
    (es : List (Interleave.Event Choice Move)) :
    (machine store).Throughout (WithinCapacity store) (World.boot store tasks clock monotonic) es := by
  have hbounded : (machine store).Throughout (fun c => c.shared.operations.rows.length ≤
      store.maxRecords) (World.boot store tasks clock monotonic) es :=
    Machine.throughout_of_step (Q:=fun _ _ => True) (fun c d e h _ hn => bounded_next c d e h hn)
      (Nat.zero_le _) Machine.eachStep_true
  have hcontracted := contracted_throughout store tasks clock monotonic es
  refine (hcontracted.and hbounded).mono fun c ⟨⟨hsafe,_⟩,hlength⟩ => ⟨hlength,?_⟩
  intro t x a k r s hk hx
  exact exec_lawful (hsafe.performs hk) hx

end Runs
end Idempotency
end CloudBrowser
