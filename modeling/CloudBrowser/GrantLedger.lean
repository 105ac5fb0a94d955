import CloudBrowser.GrantCustody

/-! The laws of the custody tables over arbitrary histories of requests: rows, epochs, stale
references and the audit trail. -/
namespace CloudBrowser
namespace GrantCustody

open Stateful Keyed

/-- A request to the store. Leases may be as stale as they like. -/
inductive Request
  | provision (scope : GrantScope) (itemRef : String) (vaultKey refreshToken : Bytes)
      (operatorId : String) (draw : Draw)
  | revoke (scope : GrantScope) (operatorId : String)
  | status (scope : GrantScope) (operatorId : String)
  | rotate (lease : GrantLease) (refreshToken iv : Bytes)
  | invalidate (lease : GrantLease)

def Request.perform (broker : Broker) (now : ℕ) : Request → Operation Unit
  | .provision scope i v t o d => discard (GrantCustody.provision broker scope i v t o d now)
  | .revoke scope o => discard (GrantCustody.revoke scope o now)
  | .status scope o => discard (GrantCustody.status scope o now)
  | .rotate lease t iv => rotateRefreshToken broker lease t iv now
  | .invalidate lease => GrantCustody.invalidate lease now

/-- A request, and the time at which it is made. -/
abbrev Event := Request × ℕ

def Database.step (broker : Broker) (db : Database) (e : Event) : Database :=
  (exec (e.1.perform broker e.2) db).2

def run (broker : Broker) (es : List Event) : Database := es.foldl (Database.step broker) .initial

/-- The grant id that a request draws. -/
def Request.drawn : Request → Option FreshId
  | .provision _ _ _ _ _ d => some d.grantId
  | _ => none

/-- No grant id is drawn twice. -/
def FreshIds (es : List Event) : Prop := (es.filterMap fun e => e.1.drawn).Nodup

instance (es : List Event) : Decidable (FreshIds es) := inferInstanceAs (Decidable (List.Nodup _))

def epochOf (db : Database) (scope : GrantScope) : ℕ := ((db.ofScope scope).map (·.epoch)).getD 0

/-- What a request can do to the tables. -/
inductive Effect (broker : Broker) (now : ℕ) : Request → Database → Database → Prop
  | refused (r : Request) (db : Database) : Effect broker now r db db
  | provisioned (scope : GrantScope) (i : String) (v t : Bytes) (o : String) (d : Draw)
      (db db' : Database) (legs : Legs) (epoch : ℕ) (full : legs.full = true)
      (ok : db.provision scope d.grantId.toGrantId legs o now = .ok (db',epoch)) :
      Effect broker now (.provision scope i v t o d) db db'
  | revoked (scope : GrantScope) (o : String) (db : Database) :
      Effect broker now (.revoke scope o) db (db.revoke scope o now).1
  | statusRead (scope : GrantScope) (o : String) (db : Database) :
      Effect broker now (.status scope o) db (db.status scope o now).1
  | rotated (lease : GrantLease) (t iv : Bytes) (db db' : Database) (session : Envelope)
      (ok : db.rotate lease.grantId lease.scope lease.epoch session now = .ok db') :
      Effect broker now (.rotate lease t iv) db db'
  | invalidated (lease : GrantLease) (db : Database) : Effect broker now (.invalidate lease) db
      (db.invalidate lease.grantId lease.scope lease.epoch now)

section Effects

variable {broker : Broker} {now : ℕ}

theorem stored_full (e : Envelope) : (Leg.stored e).full = true := rfl

theorem wrappedLegs_full {grantId : GrantId} {scope : GrantScope} {k v t : Bytes} {i : String}
    {ivs : LegName → Bytes} {legs : Legs}
    (h : wrappedLegs broker grantId scope k v t i ivs = .ok legs) : legs.full = true := by
  unfold wrappedLegs at h
  simp only [bind,Except.bind] at h
  repeat' split at h
  all_goals cases h
  rfl

abbrev From (db : Database) (db' : Database) : Prop := db' = db

theorem From.refused {db db' : Database} (h : From db db') (r : Request) :
    Effect broker now r db db' := by
  subst h
  exact .refused r _

theorem provision_spec (scope : GrantScope) (i : String) (v t : Bytes) (o : String) (d : Draw)
    (db : Database) : Triple (From db) (provision broker scope i v t o d now) fun r db' =>
      match r with
      | .ok grant => ∃ legs : Legs, legs.full = true ∧ grant.grantRef = grantRef d.grantId.toGrantId ∧
          db.provision scope d.grantId.toGrantId legs o now = .ok (db',grant.epoch)
      | .error _ => db' = db := by
  refine Triple.check_bind (fun _ _ => ?_) fun _ _ hs => hs
  refine Triple.check_bind (fun _ _ => ?_) fun _ _ hs => hs
  refine Triple.check_bind (fun _ _ => ?_) fun _ _ hs => hs
  refine Triple.check_bind (fun _ _ => ?_) fun _ _ hs => hs
  refine Triple.check_bind (fun legs hlegs => ?_) fun _ _ hs => hs
  refine Triple.get_bind fun db₀ => ?_
  refine Triple.check_bind ?_ fun _ _ hs => hs.1
  rintro ⟨db',epoch⟩ hok
  rintro _ ⟨rfl,rfl⟩
  exact ⟨legs,wrappedLegs_full hlegs,rfl,hok⟩

theorem revoke_spec (scope : GrantScope) (o : String) (db : Database) :
    Triple (From db) (revoke scope o now) fun r db' =>
      match r with
      | .ok revoked => db.revoke scope o now = (db',revoked)
      | .error _ => db' = db := by
  refine Triple.check_bind (fun _ _ => ?_) fun _ _ hs => hs
  rintro _ rfl
  rfl

theorem status_effect (scope : GrantScope) (o : String) (db : Database) :
    Triple (From db) (status scope o now)
      fun _ db' => Effect broker now (.status scope o) db db' := by
  refine Triple.check_bind (fun _ _ => ?_) fun e s hs => From.refused hs _
  rintro _ rfl
  exact .statusRead scope o _

theorem rotate_effect (lease : GrantLease) (t iv : Bytes) (db : Database) :
    Triple (From db) (rotateRefreshToken broker lease t iv now)
      fun _ db' => Effect broker now (.rotate lease t iv) db db' := by
  have refused (e : CustodyError) (s : Database) (hs : From db s) :
      Effect broker now (.rotate lease t iv) db s := hs.refused _
  refine Triple.check_bind (fun _ _ => ?_) refused
  refine Triple.check_bind (fun session _ => ?_) refused
  refine Triple.get_bind fun db₀ => ?_
  refine Triple.check_bind ?_ fun e s hs => refused e s hs.1
  intro db' hok
  rintro _ ⟨rfl,rfl⟩
  exact .rotated lease t iv _ db' session hok

theorem discard_triple {α : Type} {P : Database → Prop} {Q : Database → Prop} {m : Operation α}
    (h : Triple P m fun _ => Q) : Triple P (discard m) fun _ => Q :=
  Triple.bind h (fun _ => Triple.pure fun _ hs => hs) fun _ _ hs => hs

theorem step_effect (db : Database) (e : Event) : Effect broker e.2 e.1 db (db.step broker e) := by
  obtain ⟨r,now⟩ := e
  cases r with
  | provision scope i v t o d =>
    apply discard_triple ((provision_spec scope i v t o d db).conseq (fun _ h => h) _) db rfl
    rintro (e | grant) db' h
    · exact From.refused h _
    · obtain ⟨legs,hfull,-,hok⟩ := h
      exact .provisioned scope i v t o d _ db' legs grant.epoch hfull hok
  | revoke scope o =>
    apply discard_triple ((revoke_spec scope o db).conseq (fun _ h => h) _) db rfl
    rintro (e | revoked) db' h
    · exact From.refused h _
    · have heffect : Effect broker now (.revoke scope o) db (db.revoke scope o now).1 :=
        .revoked scope o db
      rwa [h] at heffect
  | status scope o => exact discard_triple (status_effect scope o db) db rfl
  | rotate lease t iv => exact rotate_effect lease t iv db db rfl
  | invalidate lease => exact .invalidated lease db

/-- Every row has all of its wrapped legs, or is inactive and has none; a grant id names at
most one row. -/
structure Sound (db : Database) : Prop where
  full : ∀ r ∈ db.grants, r.active = true → r.legs.full = true
  erased : ∀ r ∈ db.grants, r.active = false → r.legs = .erased
  ids : ∀ r ∈ db.grants, ∀ r' ∈ db.grants, r.grantId = r'.grantId → r = r'

theorem sound_initial : Sound .initial where
  full _ hr := absurd hr Table.mem_empty
  erased _ hr := absurd hr Table.mem_empty
  ids _ hr := absurd hr Table.mem_empty

theorem Sound.audited {db : Database} (h : Sound db) (row : AuditRow) : Sound (db.audited row) :=
  ⟨h.full,h.erased,h.ids⟩

/-- An update keeps the tables sound when it leaves its rows sound. -/
theorem Sound.update {db : Database} (h : Sound db) (p : GrantRow → Bool) (u : RowUpdate)
    (hfull : ∀ r ∈ db.grants, p r → (u.apply r).active = true → (u.apply r).legs.full = true)
    (herased : ∀ r ∈ db.grants, p r → (u.apply r).active = false → (u.apply r).legs = .erased) :
    Sound (db.update p u) := by
  constructor
  · intro r hr hactive
    obtain ⟨r',hr',rfl⟩ := Database.mem_update.mp hr
    unfold RowUpdate.applyWhere at hactive ⊢
    split
    · rename_i hp
      rw [if_pos hp] at hactive
      exact hfull r' hr' hp hactive
    · rename_i hp
      rw [if_neg hp] at hactive
      exact h.full r' hr' hactive
  · intro r hr hactive
    obtain ⟨r',hr',rfl⟩ := Database.mem_update.mp hr
    unfold RowUpdate.applyWhere at hactive ⊢
    split
    · rename_i hp
      rw [if_pos hp] at hactive
      exact herased r' hr' hp hactive
    · rename_i hp
      rw [if_neg hp] at hactive
      exact h.erased r' hr' hactive
  · intro r hr r₁ hr₁ heq
    obtain ⟨r',hr',rfl⟩ := Database.mem_update.mp hr
    obtain ⟨r₁',hr₁',rfl⟩ := Database.mem_update.mp hr₁
    rw [RowUpdate.applyWhere_grantId,RowUpdate.applyWhere_grantId] at heq
    rw [h.ids r' hr' r₁' hr₁' heq]

theorem Sound.erase {db : Database} (h : Sound db) (p : GrantRow → Bool) (epoch now : ℕ) :
    Sound (db.update p (.erase epoch now)) := by
  apply h.update
  · intro r _ _ ha
    simp [RowUpdate.erase,GrantRow.erase] at ha
  · exact fun _ _ _ _ => rfl

theorem provision_ok {db db' : Database} {scope : GrantScope} {id : GrantId} {legs : Legs}
    {o : String} {epoch : ℕ} (h : db.provision scope id legs o now = .ok (db',epoch)) :
    (∀ r ∈ db.grants, r.grantId = id → r.scope = scope) ∧ epoch = epochOf db scope + 1 ∧
    ∃ row, row.grantId = id ∧ row.scope = scope ∧ row.epoch = epoch ∧ row.active = true ∧
      row.legs = legs ∧ db'.grants = db.grants.put row ∧
      db'.audit = db.audit ++ [⟨"grant_provisioned",o,id.value,epoch,"usable",now⟩] := by
  simp only [Database.provision] at h
  split at h
  · cases h
  · rename_i hkey
    simp only [Except.ok.injEq,Prod.mk.injEq] at h
    obtain ⟨rfl,rfl⟩ := h
    refine ⟨?_,rfl,_,rfl,rfl,rfl,rfl,rfl,rfl,rfl⟩
    intro r hr hid
    by_contra hscope
    exact hkey (List.any_eq_true.mpr ⟨r,hr,by simp [hid,hscope]⟩)

theorem sound_effect {r : Request} {db db' : Database} (h : Sound db)
    (he : Effect broker now r db db') : Sound db' := by
  cases he with
  | refused => exact h
  | provisioned scope i v t o d _ _ legs epoch hfull hok =>
    obtain ⟨hkey,-,row,hid,hscope,-,hactive,hlegs,hgrants,-⟩ := provision_ok hok
    constructor
    · intro r hr hr'
      rw [hgrants,Table.mem_put] at hr
      rcases hr with rfl | ⟨hr,-⟩
      · rw [hlegs]
        exact hfull
      · exact h.full r hr hr'
    · intro r hr hr'
      rw [hgrants,Table.mem_put] at hr
      rcases hr with rfl | ⟨hr,-⟩
      · rw [hactive] at hr'
        cases hr'
      · exact h.erased r hr hr'
    · intro r hr r' hr' heq
      rw [hgrants,Table.mem_put] at hr hr'
      rcases hr with rfl | ⟨hr,hrs⟩
      · rcases hr' with rfl | ⟨hr',hrs'⟩
        · rfl
        · exact absurd ((hkey r' hr' (heq.symm.trans hid)).trans hscope.symm) hrs'
      · rcases hr' with rfl | ⟨hr',hrs'⟩
        · exact absurd ((hkey r hr (heq.trans hid)).trans hscope.symm) hrs
        · exact h.ids r hr r' hr' heq
  | revoked scope o =>
    unfold Database.revoke
    split
    · exact h
    split
    · exact (h.erase _ _ _).audited _
    · exact h.audited _
  | statusRead scope o => exact h.audited _
  | rotated lease t iv _ _ session hok =>
    unfold Database.rotate at hok
    split at hok
    · cases hok
    cases hok
    apply Sound.audited
    apply h.update
    · intro r hr hp ha
      have hfull := h.full r hr ha
      simp only [Legs.full,Bool.and_eq_true] at hfull
      simp [RowUpdate.rotate,GrantRow.rotate,Legs.full,hfull,stored_full]
    · intro r hr hp ha
      simp only [GrantRow.leased,Bool.and_eq_true] at hp
      have hactive : r.active = false := ha
      rw [hp.2] at hactive
      cases hactive
  | invalidated lease =>
    unfold Database.invalidate
    split
    · exact (h.erase _ _ _).audited _
    · exact h.erase _ _ _

theorem sound_run (broker : Broker) (es : List Event) : Sound (run broker es) := by
  have hfold (es : List Event) (db : Database) (h : Sound db) :
      Sound (es.foldl (Database.step broker) db) := by
    induction es generalizing db with
    | nil => exact h
    | cons e es ih => exact ih _ (sound_effect h (step_effect db e))
  exact hfold es _ sound_initial

theorem run_append (broker : Broker) (es es' : List Event) :
    run broker (es ++ es') = es'.foldl (Database.step broker) (run broker es) :=
  List.foldl_append

section Epochs

theorem ofScope_of_put {db db' : Database} {row : GrantRow} (h : db'.grants = db.grants.put row) :
    db'.ofScope row.scope = some row ∧ ∀ scope ≠ row.scope, db'.ofScope scope = db.ofScope scope := by
  constructor
  · rw [Database.ofScope,h]
    exact Table.find_put_self _ _
  · intro scope hne
    rw [Database.ofScope,h]
    exact Table.find_put_of_ne _ hne

theorem epochOf_of_some {db : Database} {scope : GrantScope} {r : GrantRow}
    (h : db.ofScope scope = some r) : epochOf db scope = r.epoch := by
  simp [epochOf,h]

theorem epochOf_update_le (db : Database) (p : GrantRow → Bool) (u : RowUpdate)
    (hepoch : ∀ r, p r → r.epoch ≤ (u.apply r).epoch) (scope : GrantScope) :
    epochOf db scope ≤ epochOf (db.update p u) scope := by
  cases h : db.ofScope scope with
  | none => simp [epochOf,h]
  | some r =>
    by_cases hp : p r
    · simpa [epochOf,h,hp,RowUpdate.applyWhere] using hepoch r hp
    · simp [epochOf,h,hp,RowUpdate.applyWhere]

theorem epochOf_update_lt {db : Database} {p : GrantRow → Bool} {u : RowUpdate} {scope : GrantScope}
    {r : GrantRow} (hr : db.ofScope scope = some r) (hp : p r = true)
    (hepoch : r.epoch < (u.apply r).epoch) :
    epochOf db scope < epochOf (db.update p u) scope := by
  simpa [epochOf,hr,hp,RowUpdate.applyWhere] using hepoch

theorem epochOf_audited (db : Database) (row : AuditRow) (scope : GrantScope) :
    epochOf (db.audited row) scope = epochOf db scope := rfl

/-- The lease is of a grant that is active in the lease's epoch. -/
def Live (lease : GrantLease) (db : Database) : Prop :=
  ∃ row ∈ db.grants, GrantRow.leased lease.grantId lease.scope lease.epoch row = true

theorem leased_iff {id : GrantId} {scope : GrantScope} {epoch : ℕ} {r : GrantRow} :
    GrantRow.leased id scope epoch r = true ↔
      r.grantId = id ∧ r.scope = scope ∧ r.epoch = epoch ∧ r.active = true := by
  simp [GrantRow.leased,and_assoc]

/-- The requests that end a grant of the scope or start a new one: a provision, a revocation
of an active grant, an invalidation of a live lease. -/
def Moves (broker : Broker) (db : Database) (e : Event) (scope : GrantScope) : Prop :=
  match e.1 with
  | .provision s i v t o d =>
    s = scope ∧ ∃ grant, (exec (provision broker s i v t o d e.2) db).1 = .ok grant
  | .revoke s o => s = scope ∧ (exec (revoke s o e.2) db).1 = .ok true
  | .invalidate lease => lease.scope = scope ∧ Live lease db
  | _ => False

theorem epochOf_effect_le {r : Request} {db db' : Database} (he : Effect broker now r db db')
    (scope : GrantScope) : epochOf db scope ≤ epochOf db' scope := by
  cases he with
  | refused => exact Nat.le_refl _
  | provisioned s i v t o d _ _ legs epoch hfull hok =>
    obtain ⟨-,hepoch,row,-,hscope,hrow,-,-,hgrants,-⟩ := provision_ok hok
    obtain ⟨hself,hother⟩ := ofScope_of_put hgrants
    by_cases hs : scope = row.scope
    · rw [hs,epochOf_of_some hself,hrow,hepoch,hscope]
      exact Nat.le_succ _
    · simp [epochOf,hother scope hs]
  | revoked s o =>
    unfold Database.revoke
    split
    · exact Nat.le_refl _
    split
    · refine epochOf_update_le db _ _ (fun r hr => ?_) scope
      simp only [Bool.and_eq_true,decide_eq_true_eq] at hr
      simp [RowUpdate.erase,GrantRow.erase,hr.1.2]
    · exact Nat.le_refl _
  | statusRead s o => exact Nat.le_refl _
  | rotated lease t iv _ _ session hok =>
    unfold Database.rotate at hok
    split at hok
    · cases hok
    cases hok
    exact epochOf_update_le db _ _ (fun _ _ => Nat.le_refl _) scope
  | invalidated lease =>
    have hle := epochOf_update_le db (GrantRow.leased lease.grantId lease.scope lease.epoch)
      (.erase (lease.epoch+1) now) (fun r hr => by
        simp [RowUpdate.erase,GrantRow.erase,(leased_iff.mp hr).2.2.1]) scope
    unfold Database.invalidate
    split <;> exact hle

theorem provision_moved {db : Database} {s : GrantScope} {i : String} {v t : Bytes} {o : String}
    {d : Draw} {grant : ProvisionedGrant}
    (h : (exec (provision broker s i v t o d now) db).1 = .ok grant) :
    grant.grantRef = grantRef d.grantId.toGrantId ∧ ∃ legs : Legs, legs.full = true ∧
      db.provision s d.grantId.toGrantId legs o now =
        .ok (db.step broker (.provision s i v t o d,now),grant.epoch) := by
  have hspec := @provision_spec broker now s i v t o d db db rfl
  rw [h] at hspec
  obtain ⟨legs,hfull,href,hok⟩ := hspec
  refine ⟨href,legs,hfull,?_⟩
  rw [hok,Database.step]
  simp only [Request.perform,exec_discard]

theorem revoke_moved {db : Database} {s : GrantScope} {o : String} {revoked : Bool}
    (h : (exec (revoke s o now) db).1 = .ok revoked) :
    db.revoke s o now = (db.step broker (.revoke s o,now),revoked) := by
  have hspec := @revoke_spec now s o db db rfl
  rw [h] at hspec
  rw [hspec,Database.step]
  simp only [Request.perform,exec_discard]

/-- A revocation that found an active grant erased its row and moved its epoch. -/
theorem revoke_true {db db' : Database} {s : GrantScope} {o : String}
    (h : db.revoke s o now = (db',true)) : ∃ row, db.ofScope s = some row ∧ row.active = true ∧
      db' = (db.update (fun r => r.grantId = row.grantId && r.epoch = row.epoch && r.active)
        (.erase (row.epoch+1) now)).audited
          ⟨"grant_revoked",o,row.grantId.value,row.epoch+1,"revoked",now⟩ := by
  unfold Database.revoke at h
  split at h
  · simp at h
  · rename_i row hrow
    split at h
    · rename_i hactive
      exact ⟨row,hrow,hactive,(Prod.mk.inj h).1.symm⟩
    · simp at h

/-- An invalidation through a live lease erased its row and moved its epoch. -/
theorem Live.invalidate {lease : GrantLease} {db : Database} (h : Live lease db) :
    ∃ row, db.ofScope lease.scope = some row ∧
      GrantRow.leased lease.grantId lease.scope lease.epoch row = true ∧
      db.invalidate lease.grantId lease.scope lease.epoch now =
        (db.update (GrantRow.leased lease.grantId lease.scope lease.epoch)
          (.erase (lease.epoch+1) now)).audited
            ⟨"grant_invalidated","broker",lease.grantId.value,lease.epoch+1,"refresh_rejected",now⟩ := by
  obtain ⟨row,hmem,hrow⟩ := h
  have hscope := (leased_iff.mp hrow).2.1
  refine ⟨row,Database.ofScope_eq_some.mpr ⟨hmem,hscope⟩,hrow,?_⟩
  have hle : db.rowcount (GrantRow.leased lease.grantId lease.scope lease.epoch) ≤ 1 :=
    db.grants.countP_le_one fun r _ r' _ hr hr' =>
      (leased_iff.mp hr).2.1.trans (leased_iff.mp hr').2.1.symm
  have hpos : 0 < db.rowcount (GrantRow.leased lease.grantId lease.scope lease.epoch) :=
    List.countP_pos_iff.mpr ⟨row,hmem,hrow⟩
  have hone : db.rowcount (GrantRow.leased lease.grantId lease.scope lease.epoch) = 1 := by omega
  rw [Database.invalidate,if_pos hone]

theorem epochOf_step_lt {db : Database} {e : Event} {scope : GrantScope}
    (hm : Moves broker db e scope) : epochOf db scope < epochOf (db.step broker e) scope := by
  obtain ⟨r,now⟩ := e
  cases r with
  | provision s i v t o d =>
    obtain ⟨rfl,grant,hgrant⟩ := hm
    obtain ⟨-,legs,-,hok⟩ := provision_moved hgrant
    obtain ⟨-,hepoch,row,-,hscope,hrow,-,-,hgrants,-⟩ := provision_ok hok
    have hself := (ofScope_of_put hgrants).1
    rw [hscope] at hself
    rw [epochOf_of_some hself,hrow,hepoch]
    exact Nat.lt_succ_self _
  | revoke s o =>
    obtain ⟨rfl,hok⟩ := hm
    obtain ⟨row,hrow,hactive,hdb⟩ := revoke_true (@revoke_moved broker _ _ _ _ _ hok)
    rw [hdb,epochOf_audited]
    exact epochOf_update_lt hrow (by simp [hactive]) (Nat.lt_succ_self _)
  | invalidate lease =>
    obtain ⟨rfl,hlive⟩ := hm
    obtain ⟨row,hrow,hleased,hdb⟩ := @Live.invalidate now _ _ hlive
    show _ < epochOf (db.invalidate _ _ _ now) _
    rw [hdb,epochOf_audited]
    have hepoch := (leased_iff.mp hleased).2.2.1
    exact epochOf_update_lt hrow hleased (by simp [RowUpdate.erase,GrantRow.erase,hepoch])
  | status s o => cases hm
  | rotate lease t iv => cases hm

/-- What an update makes of the row of a scope, if it moves the epochs of the rows it ends. -/
theorem succeeds_update {db : Database} {p : GrantRow → Bool} {u : RowUpdate} {scope : GrantScope}
    {row : GrantRow} (hrow : db.ofScope scope = some row) (hu : ∀ r, p r = true →
      r.epoch < (u.apply r).epoch ∨ ((u.apply r).epoch = r.epoch ∧ (u.apply r).active = r.active)) :
    ∃ row', (db.update p u).ofScope scope = some row' ∧ (row.epoch < row'.epoch ∨
      (row'.grantId = row.grantId ∧ row'.epoch = row.epoch ∧ row'.active = row.active)) := by
  refine ⟨u.applyWhere p row,by simp [hrow],?_⟩
  rw [RowUpdate.applyWhere_grantId]
  by_cases hp : p row = true
  · simp only [RowUpdate.applyWhere,hp,if_true]
    rcases hu row hp with hlt | hsame
    · exact .inl hlt
    · exact .inr ⟨trivial,hsame⟩
  · simp [RowUpdate.applyWhere,hp]

/-- The row of a scope keeps its grant and whether it is active, or its epoch grows. -/
theorem succeeds_effect {r : Request} {db db' : Database} (he : Effect broker now r db db')
    {scope : GrantScope} {row : GrantRow} (hrow : db.ofScope scope = some row) :
    ∃ row', db'.ofScope scope = some row' ∧ (row.epoch < row'.epoch ∨
      (row'.grantId = row.grantId ∧ row'.epoch = row.epoch ∧ row'.active = row.active)) := by
  cases he with
  | refused => exact ⟨row,hrow,.inr ⟨rfl,rfl,rfl⟩⟩
  | provisioned s i v t o d _ _ legs epoch hfull hok =>
    obtain ⟨-,hepoch,new,-,hscope,hnew,-,-,hgrants,-⟩ := provision_ok hok
    obtain ⟨hself,hother⟩ := ofScope_of_put hgrants
    by_cases hs : scope = new.scope
    · refine ⟨new,hs ▸ hself,.inl ?_⟩
      rw [hnew,hepoch,← hscope,← hs,epochOf_of_some hrow]
      exact Nat.lt_succ_self _
    · exact ⟨row,(hother scope hs).trans hrow,.inr ⟨rfl,rfl,rfl⟩⟩
  | revoked s o =>
    unfold Database.revoke
    split
    · exact ⟨row,hrow,.inr ⟨rfl,rfl,rfl⟩⟩
    split
    · refine succeeds_update hrow fun r hr => .inl ?_
      simp only [Bool.and_eq_true,decide_eq_true_eq] at hr
      simp [RowUpdate.erase,GrantRow.erase,hr.1.2]
    · exact ⟨row,hrow,.inr ⟨rfl,rfl,rfl⟩⟩
  | statusRead s o => exact ⟨row,hrow,.inr ⟨rfl,rfl,rfl⟩⟩
  | rotated lease t iv _ _ session hok =>
    unfold Database.rotate at hok
    split at hok
    · cases hok
    · cases hok
      exact succeeds_update hrow fun r _ => .inr ⟨rfl,rfl⟩
  | invalidated lease =>
    have hupdate := @succeeds_update _ (GrantRow.leased lease.grantId lease.scope lease.epoch)
      (.erase (lease.epoch+1) now) _ _ hrow fun r hr => .inl (by
        simp [RowUpdate.erase,GrantRow.erase,(leased_iff.mp hr).2.2.1])
    unfold Database.invalidate
    split <;> exact hupdate

end Epochs

section Audit

/-- A change of the rows is a change of one row, and appends one audit row with the epoch
that this row now has. -/
def Audited (db db' : Database) : Prop :=
  db'.grants ≠ db.grants → ∃ row entry, db'.ofScope row.scope = some row ∧
    db'.audit = db.audit ++ [entry] ∧ entry.grantId = row.grantId.value ∧ entry.epoch = row.epoch ∧
    ∀ scope ≠ row.scope, db'.ofScope scope = db.ofScope scope

theorem update_other {db : Database} {p : GrantRow → Bool} (u : RowUpdate) {scope : GrantScope}
    (h : ∀ r ∈ db.grants, p r → r.scope = scope) :
    ∀ s ≠ scope, (db.update p u).ofScope s = db.ofScope s := by
  intro s hs
  rw [Database.update_ofScope]
  cases hr : db.ofScope s with
  | none => rfl
  | some r =>
    obtain ⟨hmem,hscope⟩ := Database.ofScope_eq_some.mp hr
    have hp : ¬p r = true := fun hp => hs (hscope.symm.trans (h r hmem hp))
    simp [RowUpdate.applyWhere,hp]

/-- The update of one row of the scope, with an audit row about it. -/
theorem audited_update {db : Database} {p : GrantRow → Bool} {u : RowUpdate} {row : GrantRow}
    {entry : AuditRow} (hrow : db.ofScope row.scope = some row) (hp : p row = true)
    (honly : ∀ r ∈ db.grants, p r → r.scope = row.scope)
    (hid : entry.grantId = row.grantId.value) (hepoch : entry.epoch = (u.apply row).epoch) :
    Audited db ((db.update p u).audited entry) := by
  intro _
  refine ⟨u.apply row,entry,?_,rfl,by rw [hid,u.grantId],hepoch,?_⟩
  · rw [u.scope,Database.audited_ofScope,Database.update_ofScope,hrow]
    simp [RowUpdate.applyWhere,hp]
  · rw [u.scope]
    exact update_other u honly

theorem update_none {db : Database} {p : GrantRow → Bool} (u : RowUpdate)
    (h : ∀ r ∈ db.grants, ¬p r = true) : (db.update p u).grants = db.grants := by
  apply Table.ext
  show db.grants.rows.map _ = db.grants.rows
  conv_rhs => rw [← List.map_id db.grants.rows]
  apply List.map_congr_left
  intro r hr
  simp [RowUpdate.applyWhere,h r hr]

theorem audited_effect {r : Request} {db db' : Database} (h : Sound db)
    (he : Effect broker now r db db') : Audited db db' := by
  cases he with
  | refused => exact fun hne => absurd rfl hne
  | provisioned s i v t o d _ _ legs epoch hfull hok =>
    obtain ⟨-,-,row,hid,hscope,hrow,-,-,hgrants,haudit⟩ := provision_ok hok
    obtain ⟨hself,hother⟩ := ofScope_of_put hgrants
    exact fun _ => ⟨row,_,hself,haudit,by rw [hid],hrow.symm,hother⟩
  | revoked s o =>
    unfold Database.revoke
    split
    · exact fun hne => absurd rfl hne
    · rename_i row hrow
      obtain ⟨hmem,rfl⟩ := Database.ofScope_eq_some.mp hrow
      split
      · rename_i hactive
        refine audited_update hrow (by simp [hactive]) (fun r hr hp => ?_) rfl rfl
        simp only [Bool.and_eq_true,decide_eq_true_eq] at hp
        rw [h.ids r hr row hmem hp.1.1]
      · exact fun hne => absurd rfl hne
  | statusRead s o => exact fun hne => absurd rfl hne
  | rotated lease t iv _ _ session hok =>
    unfold Database.rotate at hok
    split at hok
    · cases hok
    · rename_i hcount
      cases hok
      have hpos : 0 < db.rowcount (GrantRow.leased lease.grantId lease.scope lease.epoch) := by omega
      obtain ⟨row,hmem,hp⟩ := List.countP_pos_iff.mp hpos
      obtain ⟨hid,hscope,hepoch,-⟩ := leased_iff.mp hp
      have hrow : db.ofScope row.scope = some row := Database.ofScope_eq_some.mpr ⟨hmem,rfl⟩
      refine audited_update hrow hp (fun r hr hr' => ?_) (by rw [hid]) hepoch.symm
      exact (leased_iff.mp hr').2.1.trans hscope.symm
  | invalidated lease =>
    by_cases hlive : Live lease db
    · obtain ⟨row,hrow,hp,hdb⟩ := @Live.invalidate now _ _ hlive
      obtain ⟨hid,hscope,hepoch,-⟩ := leased_iff.mp hp
      rw [hdb]
      rw [← hscope] at hrow
      refine audited_update hrow hp (fun r hr hr' => ?_) (by rw [hid]) rfl
      exact (leased_iff.mp hr').2.1.trans hscope.symm
    · intro hne
      have hnone : ∀ r ∈ db.grants,
          ¬GrantRow.leased lease.grantId lease.scope lease.epoch r = true :=
        fun r hr hp => hlive ⟨r,hr,hp⟩
      have hgrants : (db.invalidate lease.grantId lease.scope lease.epoch now).grants = db.grants := by
        unfold Database.invalidate
        split <;> exact update_none _ hnone
      exact absurd hgrants hne

end Audit

section StaleReferences

/-- The grant id has been used for no other scope. -/
def Bound (id : GrantId) (scope : GrantScope) (db : Database) : Prop :=
  ∀ r ∈ db.grants, r.grantId = id → r.scope = scope

/-- No active row has the grant id. -/
def Dead (id : GrantId) (db : Database) : Prop := ∀ r ∈ db.grants, r.grantId = id → r.active = false

/-- A property of the rows of one grant id that every update but `provision` keeps. -/
theorem rows_effect {r : Request} {db db' : Database} {id : GrantId} {A : GrantRow → Prop}
    (he : Effect broker now r db db') (hid : ∀ d, r.drawn = some d → d.toGrantId ≠ id)
    (herase : ∀ r epoch, A r → A (r.erase epoch now))
    (hrotate : ∀ lease t iv, r = .rotate lease t iv → lease.grantId = id →
      ∀ r e, A r → A (r.rotate e now))
    (h : ∀ r ∈ db.grants, r.grantId = id → A r) : ∀ r ∈ db'.grants, r.grantId = id → A r := by
  have hupdate (p : GrantRow → Bool) (u : RowUpdate)
      (hA : ∀ r, r.grantId = id → p r = true → A r → A (u.apply r)) :
      ∀ r ∈ (db.update p u).grants, r.grantId = id → A r := by
    intro r hr hrid
    obtain ⟨r',hr',rfl⟩ := Database.mem_update.mp hr
    rw [RowUpdate.applyWhere_grantId] at hrid
    unfold RowUpdate.applyWhere
    split
    · rename_i hp
      exact hA r' hrid hp (h r' hr' hrid)
    · exact h r' hr' hrid
  cases he with
  | refused => exact h
  | provisioned s i v t o d _ _ legs epoch hfull hok =>
    obtain ⟨-,-,row,hrid,-,-,-,-,hgrants,-⟩ := provision_ok hok
    intro r hr hrid'
    rw [hgrants,Table.mem_put] at hr
    rcases hr with rfl | ⟨hr,-⟩
    · exact absurd (hrid.symm.trans hrid') (hid d.grantId rfl)
    · exact h r hr hrid'
  | revoked s o =>
    unfold Database.revoke
    split
    · exact h
    split
    · exact hupdate _ _ fun r _ _ => herase r _
    · exact h
  | statusRead s o => exact h
  | rotated lease t iv _ _ session hok =>
    unfold Database.rotate at hok
    split at hok
    · cases hok
    · cases hok
      refine hupdate _ _ fun r hrid hp => hrotate lease t iv rfl ?_ r session
      exact (leased_iff.mp hp).1.symm.trans hrid
  | invalidated lease =>
    unfold Database.invalidate
    split <;> exact hupdate _ _ fun r _ _ => herase r _

theorem bound_effect {r : Request} {db db' : Database} {id : GrantId} {scope : GrantScope}
    (he : Effect broker now r db db') (hid : ∀ d, r.drawn = some d → d.toGrantId ≠ id)
    (h : Bound id scope db) : Bound id scope db' :=
  rows_effect he hid (fun _ _ h => h) (fun _ _ _ _ _ _ _ h => h) h

theorem dead_effect {r : Request} {db db' : Database} {id : GrantId}
    (he : Effect broker now r db db') (hid : ∀ d, r.drawn = some d → d.toGrantId ≠ id)
    (h : Dead id db) : Dead id db' :=
  rows_effect he hid (fun _ _ _ => rfl) (fun _ _ _ _ _ _ _ h => h) h

/-- The requests of a history do not draw the grant id. -/
def Spares (id : GrantId) (es : List Event) : Prop :=
  ∀ e ∈ es, ∀ d, e.1.drawn = some d → d.toGrantId ≠ id

theorem spared_fold {I : Database → Prop} {id : GrantId} {es : List Event} (hes : Spares id es)
    (hstep : ∀ (db : Database) (e : Event), (∀ d, e.1.drawn = some d → d.toGrantId ≠ id) → I db →
      I (db.step broker e)) (db : Database) (h : I db) :
    I (es.foldl (Database.step broker) db) := by
  induction es generalizing db with
  | nil => exact h
  | cons e es ih =>
    have he := hstep db e (hes e (by simp)) h
    exact ih (fun e he => hes e (by simp [he])) _ he

/-- What moves the scope of a grant leaves no active row with the grant's id. -/
theorem dead_of_moves {db : Database} {e : Event} {id : GrantId} {scope : GrantScope}
    (hb : Bound id scope db) (hid : ∀ d, e.1.drawn = some d → d.toGrantId ≠ id)
    (hm : Moves broker db e scope) : Dead id (db.step broker e) := by
  obtain ⟨r,now⟩ := e
  cases r with
  | provision s i v t o d =>
    obtain ⟨rfl,grant,hgrant⟩ := hm
    obtain ⟨-,legs,-,hok⟩ := provision_moved hgrant
    obtain ⟨-,-,row,hrid,hscope,-,-,-,hgrants,-⟩ := provision_ok hok
    intro r hr hrid'
    rw [hgrants,Table.mem_put] at hr
    rcases hr with rfl | ⟨hr,hne⟩
    · exact absurd (hrid.symm.trans hrid') (hid d.grantId rfl)
    · exact absurd ((hb r hr hrid').trans hscope.symm) hne
  | revoke s o =>
    obtain ⟨rfl,hok⟩ := hm
    obtain ⟨row,hrow,hactive,hdb⟩ := revoke_true (@revoke_moved broker _ _ _ _ _ hok)
    obtain ⟨hmem,hscope⟩ := Database.ofScope_eq_some.mp hrow
    rw [hdb]
    intro r hr hrid
    obtain ⟨r',hr',rfl⟩ := Database.mem_update.mp hr
    rw [RowUpdate.applyWhere_grantId] at hrid
    have hsame : r' = row := Table.eq_of_key hr' hmem ((hb r' hr' hrid).trans hscope.symm)
    subst hsame
    simp [RowUpdate.applyWhere,hactive,RowUpdate.erase,GrantRow.erase]
  | invalidate lease =>
    obtain ⟨rfl,hlive⟩ := hm
    obtain ⟨row,hrow,hleased,hdb⟩ := @Live.invalidate now _ _ hlive
    obtain ⟨hmem,hscope⟩ := Database.ofScope_eq_some.mp hrow
    show Dead id (db.invalidate _ _ _ now)
    rw [hdb]
    intro r hr hrid
    obtain ⟨r',hr',rfl⟩ := Database.mem_update.mp hr
    rw [RowUpdate.applyWhere_grantId] at hrid
    have hsame : r' = row := Table.eq_of_key hr' hmem ((hb r' hr' hrid).trans hscope.symm)
    subst hsame
    simp [RowUpdate.applyWhere,hleased,RowUpdate.erase,GrantRow.erase]
  | status s o => cases hm
  | rotate lease t iv => cases hm

theorem checkout_dead {db : Database} {id : GrantId} (h : Dead id db)
    (hlen : id.value.toList.length ≤ 96) : db.checkout broker (grantRef id) = .error .grantRevoked := by
  have hparse := parseGrantRef_grantRef id hlen
  simp only [Database.checkout,hparse,bind,Except.bind]
  cases hrow : db.ofGrant id with
  | none => rfl
  | some row =>
    have hmem : row ∈ db.grants := List.mem_of_find?_eq_some hrow
    have hid : row.grantId = id := by simpa using List.find?_some hrow
    simp only [h row hmem hid]
    rfl

/-- The request provisions the scope and hands out the reference. -/
def HandsOut (broker : Broker) (db : Database) (e : Event) (scope : GrantScope) (ref : String) : Prop :=
  match e.1 with
  | .provision s i v t o d => s = scope ∧
      ∃ epoch, (exec (provision broker s i v t o d e.2) db).1 = .ok ⟨ref,epoch⟩
  | _ => False

/-- A provision leaves its grant id to its scope alone. -/
theorem bound_of_handsOut {db : Database} {e : Event} {scope : GrantScope} {ref : String}
    (h : HandsOut broker db e scope ref) : ∃ d, e.1.drawn = some d ∧
      ref = grantRef d.toGrantId ∧ Bound d.toGrantId scope (db.step broker e) := by
  obtain ⟨r,now⟩ := e
  cases r with
  | provision s i v t o d =>
    obtain ⟨rfl,epoch,hgrant⟩ := h
    obtain ⟨href,legs,-,hok⟩ := provision_moved hgrant
    obtain ⟨hkey,-,row,-,hscope,-,-,-,hgrants,-⟩ := provision_ok hok
    refine ⟨d.grantId,rfl,href,?_⟩
    intro r hr hid
    rw [hgrants,Table.mem_put] at hr
    rcases hr with rfl | ⟨hr,-⟩
    · exact hscope
    · exact hkey r hr hid
  | revoke s o => cases h
  | status s o => cases h
  | rotate lease t iv => cases h
  | invalidate lease => cases h

theorem freshId_ext {d d' : FreshId} (h : d.toGrantId = d'.toGrantId) : d = d' := by
  cases d
  cases d'
  simpa using h

/-- In a history that draws no id twice, nothing else draws the id of a provision. -/
theorem FreshIds.spares {es es' : List Event} {e : Event} {d : FreshId}
    (h : FreshIds (es ++ e::es')) (hd : e.1.drawn = some d) : Spares d.toGrantId es' := by
  rw [FreshIds,List.filterMap_append,List.filterMap_cons_some (f:=fun e : Event => e.1.drawn) hd] at h
  have hrest := (List.nodup_cons.mp (List.nodup_append.mp h).2.1).1
  intro e' he' d' hd' heq
  have hsame : d' = d := freshId_ext heq
  subst hsame
  exact hrest (List.mem_filterMap.mpr ⟨e',he',hd'⟩)

theorem stale_ref (broker : Broker) {es₁ es₂ es₃ : List Event} {e₁ e₂ : Event} {scope : GrantScope}
    {ref : String} (hfresh : FreshIds (es₁ ++ e₁::(es₂ ++ e₂::es₃)))
    (h₁ : HandsOut broker (run broker es₁) e₁ scope ref)
    (h₂ : Moves broker (run broker (es₁ ++ e₁::es₂)) e₂ scope) :
    (run broker (es₁ ++ e₁::(es₂ ++ e₂::es₃))).checkout broker ref = .error .grantRevoked := by
  obtain ⟨d,hd,rfl,hbound⟩ := bound_of_handsOut h₁
  have hspares := hfresh.spares hd
  have hspared₂ : Spares d.toGrantId es₂ := fun e he => hspares e (by simp [he])
  have hspared₃ : Spares d.toGrantId es₃ := fun e he => hspares e (by simp [he])
  have hbound₂ : Bound d.toGrantId scope (run broker (es₁ ++ e₁::es₂)) := by
    rw [run_append]
    exact @spared_fold broker _ _ _ hspared₂
      (fun db e he h => bound_effect (step_effect db e) he h) _ hbound
  have hdead := dead_of_moves hbound₂ (hspares e₂ (by simp)) h₂
  have hlast : Dead d.toGrantId (run broker (es₁ ++ e₁::(es₂ ++ e₂::es₃))) := by
    have hsplit : es₁ ++ e₁::(es₂ ++ e₂::es₃) = (es₁ ++ e₁::es₂) ++ e₂::es₃ := by simp
    rw [hsplit,run_append]
    exact @spared_fold broker _ _ _ hspared₃
      (fun db e he h => dead_effect (step_effect db e) he h) _ hdead
  apply checkout_dead hlast
  rw [d.length_eq]
  decide

end StaleReferences

/-- The laws of the custody tables in the state that a history of requests reaches: its
rows, what one more request does to epochs and audit trail, and the stale references. -/
structure Lawful (broker : Broker) (es : List Event) : Prop where
  scopes : ∀ r ∈ (run broker es).grants, ∀ r' ∈ (run broker es).grants, r.scope = r'.scope → r = r'
  active : ∀ r ∈ (run broker es).grants, r.active = true ↔ r.legs.full = true
  inactive : ∀ r ∈ (run broker es).grants, r.active = false → r.legs = .erased
  epochs : ∀ e scope, epochOf (run broker es) scope ≤ epochOf ((run broker es).step broker e) scope
  moves : ∀ e scope, Moves broker (run broker es) e scope →
    epochOf (run broker es) scope < epochOf ((run broker es).step broker e) scope
  audited : ∀ e, Audited (run broker es) ((run broker es).step broker e)
  stale : ∀ es₁ e₁ es₂ e₂ es₃ scope ref, es = es₁ ++ e₁::(es₂ ++ e₂::es₃) →
    HandsOut broker (run broker es₁) e₁ scope ref →
    Moves broker (run broker (es₁ ++ e₁::es₂)) e₂ scope →
    (run broker es).checkout broker ref = .error .grantRevoked

theorem lawful_run (broker : Broker) (es : List Event) (hfresh : FreshIds es) : Lawful broker es where
  scopes _ hr _ hr' h := Table.eq_of_key hr hr' h
  active r hr := by
    constructor
    · exact (sound_run broker es).full r hr
    · intro hfull
      by_contra hactive
      rw [(sound_run broker es).erased r hr (by simpa using hactive)] at hfull
      cases hfull
  inactive r hr := (sound_run broker es).erased r hr
  epochs e scope := epochOf_effect_le (step_effect _ e) scope
  moves _ _ hm := epochOf_step_lt hm
  audited e := audited_effect (sound_run broker es) (step_effect _ e)
  stale es₁ e₁ es₂ e₂ es₃ scope ref hes h₁ h₂ := by
    subst hes
    exact stale_ref broker hfresh h₁ h₂

section Histories

/-- A cipher that seals nothing, to run the store on. -/
def plainGcm : AesGcm where
  seals _ _ plaintext _ := (plaintext,List.replicate 16 0)
  opens _ _ ciphertext _ _ := some ciphertext

def plainBroker : Broker := ⟨List.replicate 32 0,plainGcm,rfl⟩

def aliceScope : GrantScope := ⟨"profile-alice","alice","site","tab","browser","generation",by decide⟩

def aliceId : FreshId where
  value := "0123456789abcdef0123456789abcdef"
  ascii := by decide
  length_pos := by decide
  length_le := by decide
  length_eq := by decide

def aliceDraw : Draw := ⟨aliceId,List.replicate 32 0,fun _ => List.replicate 12 1⟩

def aliceProvision : Event :=
  (.provision aliceScope "item" (List.replicate 64 7) [65] "operator" aliceDraw,5)

/-- A lease that outlived the revocation of its grant. -/
def staleLease : GrantLease :=
  ⟨aliceId.toGrantId,1,aliceScope,"item",List.replicate 32 0,List.replicate 64 7,[65]⟩

def revokedHistory : List Event := [aliceProvision,(.revoke aliceScope "operator",6)]

theorem lawful_revokedHistory : Lawful plainBroker revokedHistory :=
  lawful_run plainBroker revokedHistory (by decide)

/-- An invalidation through a lease of an ended epoch moves nothing. -/
theorem stale_invalidate_keeps : ¬∀ (broker : Broker) (es : List Event) (lease : GrantLease) (now : ℕ),
    FreshIds es → epochOf (run broker es) lease.scope <
      epochOf ((run broker es).step broker (.invalidate lease,now)) lease.scope := by
  intro h
  have hlt := h plainBroker revokedHistory staleLease 7 (by decide)
  have heq : epochOf (run plainBroker revokedHistory) aliceScope = 2 ∧
      epochOf ((run plainBroker revokedHistory).step plainBroker (.invalidate staleLease,7))
        aliceScope = 2 := by decide
  rw [show staleLease.scope = aliceScope from rfl,heq.1,heq.2] at hlt
  omega

end Histories

end Effects
end GrantCustody
end CloudBrowser
