import CloudBrowser.AuthorizationGate

/-! A grant is invalidated for the session leg it stores, as long as no rotation of it was
stored between the checkout and the invalidation of a fetch. -/
namespace CloudBrowser
namespace CredentialFetcher

open Interleave GrantCustody VaultItems

section Justification

variable {ρ : Type} (broker : Broker)

/-- An invalidation by the step erases only rows whose stored session leg the vault refused. -/
def Justified (c : World ρ) : Interleave.Event (Choice ρ) Move → Prop
  | .call t _ => ∀ lease db, (c.calls t).upcoming = some (.invalidate lease) →
      c.shared.tables t = some db → ∀ row ∈ db.grants,
        GrantRow.leased lease.grantId lease.scope lease.epoch row = true →
          ∃ token ∈ c.shared.record.refused, sessionToken broker row = .ok token
  | .environment _ => True

/-- Where a call without a transaction is about to invalidate a grant, the stored session leg
is still the one that the call checked out. -/
def LegKept (c : World ρ) : Interleave.Event (Choice ρ) Move → Prop
  | .call t _ => ∀ lease, (c.calls t).upcoming = some (.invalidate lease) →
      c.shared.writer = none → Opens broker lease lease.refreshToken c.shared.committed
  | .environment _ => True

/-- The lease of an invalidation. -/
def Action.invalidated : Action → Option GrantLease
  | .invalidate lease => some lease
  | _ => none

theorem invalidated_eq_some {o : Option Action} {lease : GrantLease} :
    o.bind Action.invalidated = some lease ↔ o = some (.invalidate lease) := by
  constructor
  · intro h
    obtain ⟨a,rfl,ha⟩ := Option.bind_eq_some_iff.mp h
    cases a with
    | invalidate lease' => rw [Option.some.inj ha]
    | _ => cases ha
  · rintro rfl
    rfl

instance (c : World ρ) (e : Interleave.Event (Choice ρ) Move) : Decidable (LegKept broker c e) :=
  match e with
  | .environment _ => isTrue trivial
  | .call t _ => decidable_of_iff (∀ lease ∈ (c.calls t).upcoming.bind Action.invalidated,
      c.shared.writer.isNone → Opens broker lease lease.refreshToken c.shared.committed)
    ⟨fun h lease hl hw => h lease (invalidated_eq_some.mpr hl) (by simp [hw]),
      fun h lease hl hw => h lease (invalidated_eq_some.mp hl) (by simpa using hw)⟩

variable {broker} {decryptItem : List (String × Json) → String → Bytes → Except CustodyError CredentialMaterial}

theorem justified_of_kept {c : World ρ} {e : Interleave.Event (Choice ρ) Move}
    (h : Contracted broker c) (hkept : LegKept broker c e) : Justified broker c e := by
  cases e with
  | environment v => trivial
  | call t x =>
    intro lease db hup hdb row hrow hleased
    obtain ⟨k,hk⟩ := Program.upcoming_eq_some hup
    obtain ⟨hrefused,hopens⟩ := h.performs hk
    refine ⟨lease.refreshToken,hrefused,?_⟩
    cases hw : c.shared.writer with
    | none =>
      have hcommitted : db = c.shared.committed := by simpa [State.tables,hw] using hdb.symm
      rw [hcommitted] at hrow
      exact hkept lease hup hw row hrow hleased
    | some w =>
      obtain ⟨u,work⟩ := w
      have hwork : u = t ∧ work = db := by simpa [State.tables,hw] using hdb
      obtain ⟨rfl,rfl⟩ := hwork
      exact hopens work hw row hrow hleased

/-- Under its write lock a call never invalidates a grant for another leg than the stored one;
a call without the lock does so only after a rotation was stored behind its back. -/
theorem justified_run (broker : Broker) (tasks : ℕ → Task)
    (es : List (Interleave.Event (Choice ρ) Move))
    (h : (machine broker).EachStep (LegKept broker) (World.boot decryptItem tasks) es) :
    (machine broker).EachStep (Justified broker) (World.boot decryptItem tasks) es :=
  h.imp (contracted_throughout broker tasks es) fun _ _ hc hkept => justified_of_kept hc.1 hkept

end Justification

section Overlap

/-- The vault accepts a refresh token if it is the latest of its session, and hands out tokens
that are not in use. -/
def singleUse {ρ : Type} (c : World ρ) : Interleave.Event (Choice ρ) Move → Bool
  | .environment _ => true
  | .call t x =>
    match (c.calls t).upcoming, x.response with
    | some (.postToken lease), .ok response =>
      if lease.refreshToken ∈ c.shared.accepted then
        response.status = 200 && !response.refuses &&
          (response.minted.all fun token => token ∉ c.shared.accepted)
      else response.status = 400 || response.status = 401
    | some (.getSync _ _), .ok response => response.status ≠ 401
    | _, _ => true

def aliceTasks : ℕ → Task := fun _ => .fetch (grantRef aliceId.toGrantId) none

def aliceLogin : List (String × Json) → String → Bytes → Except CustodyError CredentialMaterial :=
  fun _ _ _ => .ok ⟨"alice","secret"⟩

def aliceWorld : World Unit := World.boot aliceLogin aliceTasks

def answered (status : ℕ) (fields : List (String × Json)) : Choice Unit :=
  { response := .ok ⟨status,some (.obj fields)⟩ }

def rotatedAnswer : Choice Unit :=
  answered 200 [("access_token",.str "access"),("refresh_token",.str "B")]

/-- Two fetches check out the same leg. The first has it rotated and stores the new one; the
second is then refused, and is about to erase the row that holds the new leg. -/
def overlap : List (Interleave.Event (Choice Unit) Move) :=
  [.environment (.openSession [65]),.environment (.administer aliceProvision.1 5),
    .call 0 {},.call 1 {},.call 0 {},.call 0 rotatedAnswer,.call 0 {},.call 0 {},
    .call 0 (answered 200 []),.call 0 {},.call 0 {},.call 1 {},.call 1 (answered 400 [])]

/-- Call 1 is about to erase a row whose leg is the new one, which the vault never refused. -/
def erasesNew (c : World Unit) : Bool :=
  match (c.calls 1).upcoming with
  | some (.invalidate lease) => c.shared.writer.isNone && c.shared.record.refused = [[65]] &&
      c.shared.committed.grants.rows.any fun row =>
        GrantRow.leased lease.grantId lease.scope lease.epoch row &&
          sessionToken plainBroker row = .ok [66]
  | _ => false

theorem Justified.keeps_new {c : World Unit} {x : Choice Unit} (h : Justified plainBroker c (.call 1 x)) :
    erasesNew c = false := by
  by_contra hnew
  rw [Bool.not_eq_false,erasesNew] at hnew
  split at hnew
  · rename_i lease hup
    simp only [Bool.and_eq_true,Option.isNone_iff_eq_none,decide_eq_true_eq,List.any_eq_true] at hnew
    obtain ⟨⟨hw,hrefused⟩,row,hrow,hleased,htoken⟩ := hnew
    obtain ⟨token,hmem,hopen⟩ := h lease c.shared.committed hup (by simp [State.tables,hw]) row hrow hleased
    rw [hrefused,List.mem_singleton] at hmem
    rw [htoken,hmem] at hopen
    exact absurd hopen (by decide)
  · cases hnew

/-- Against a vault that refuses only superseded tokens, a grant is erased with a good one. -/
theorem overlap_breaks : ¬∀ (broker : Broker) (decryptItem : List (String × Json) → String → Bytes →
      Except CustodyError CredentialMaterial) (tasks : ℕ → Task)
    (es : List (Interleave.Event (Choice Unit) Move)),
    (machine broker).EachStep (fun c e => singleUse c e = true) (World.boot decryptItem tasks) es →
      (machine broker).EachStep (Justified broker) (World.boot decryptItem tasks) es := by
  intro h
  have hvault : (machine plainBroker).checkSteps singleUse aliceWorld (overlap ++ [.call 1 {}]) = true := by
    decide +kernel
  have hrun : ((machine plainBroker).run aliceWorld overlap).any erasesNew = true := by
    decide +kernel
  have hjustified := h plainBroker aliceLogin aliceTasks _ (Machine.eachStep_of_check hvault)
  obtain ⟨c,hc,hnew⟩ := (Option.any_eq_true _ _).mp hrun
  rw [(Machine.eachStep_last hjustified hc).keeps_new] at hnew
  cases hnew

/-- A refused fetch that nothing overlaps. -/
def alone : List (Interleave.Event (Choice Unit) Move) :=
  [.environment (.administer aliceProvision.1 5),.call 0 {},.call 0 {},.call 0 (answered 400 []),
    .call 0 {},.call 0 {}]

theorem justified_alone : (machine plainBroker).EachStep (Justified plainBroker) aliceWorld alone := by
  have hkept : (machine plainBroker).checkSteps (fun c e => decide (LegKept plainBroker c e))
      aliceWorld alone = true := by decide +kernel
  refine justified_run plainBroker aliceTasks alone ?_
  exact Machine.eachStep_decide hkept

end Overlap
end CredentialFetcher
end CloudBrowser
