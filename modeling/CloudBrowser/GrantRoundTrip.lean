import Mathlib.Data.List.Induction
import CloudBrowser.TokenRotation
import CloudBrowser.AssociatedData

/-! What is provisioned under a grant reference is what a checkout gives, whatever rotations come
between, and a wrapped leg opens as no other. -/
namespace CloudBrowser
namespace GrantCustody

open Stateful Keyed CredentialFetcher

/-- What the crypto library promises of associated data: what it sealed with one opens with no
other. -/
def Authentic (gcm : AesGcm) : Prop :=
  ∀ key iv plaintext aad key' aad', aad ≠ aad' →
    gcm.opens key' iv (gcm.seals key iv plaintext aad).1 (gcm.seals key iv plaintext aad).2 aad' =
      none

section Legs

variable {gcm : AesGcm} {key iv plaintext aad : Bytes} {e : Envelope}

theorem wrap_eq_ok : wrap gcm iv plaintext key aad = .ok e ↔
    plaintext ≠ [] ∧ (key.length = 16 ∨ key.length = 32) ∧ 1 ≤ iv.length ∧ iv.length ≤ 255 ∧
      e = ⟨iv,(gcm.seals key iv plaintext aad).1,(gcm.seals key iv plaintext aad).2⟩ := by
  unfold wrap aesGcmEncrypt
  split_ifs with hempty hkey hiv
  · simp [hempty]
  · have hlen : ¬(key.length = 16 ∨ key.length = 32) := by omega
    simp [hlen,bind,Except.bind]
  · have hlen : ¬(1 ≤ iv.length ∧ iv.length ≤ 255) := by omega
    constructor
    · intro h
      cases h
    · rintro ⟨-,-,hfirst,hlast,-⟩
      exact absurd ⟨hfirst,hlast⟩ hlen
  · have hproper : key.length = 16 ∨ key.length = 32 := by omega
    have hfirst : 1 ≤ iv.length := by omega
    have hlast : iv.length ≤ 255 := by omega
    constructor
    · intro h
      cases h
      exact ⟨hempty,hproper,hfirst,hlast,rfl⟩
    · rintro ⟨-,-,-,-,rfl⟩
      rfl

/-- What was wrapped unwraps to what it was. -/
theorem unwrap_wrap (hgcm : RoundTrips gcm) (h : wrap gcm iv plaintext key aad = .ok e) :
    unwrap gcm key e aad = .ok plaintext := by
  obtain ⟨-,hkey,hfirst,-,rfl⟩ := wrap_eq_ok.mp h
  have hiv : iv ≠ [] := List.ne_nil_of_length_pos hfirst
  have hlen : ¬(key.length ≠ 16 ∧ key.length ≠ 32) := by omega
  rw [unwrap,if_neg hiv,aesGcmDecrypt,if_neg hlen,if_neg (by simp [hgcm.tag _ _ _ _ hkey]),
    hgcm.opens _ _ _ _ hkey]

/-- A wrapped leg unwraps under no other associated data. -/
theorem unwrap_other (hgcm : Authentic gcm) (h : wrap gcm iv plaintext key aad = .ok e)
    {key' aad' plaintext' : Bytes} (hother : aad ≠ aad') :
    unwrap gcm key' e aad' ≠ .ok plaintext' := by
  obtain ⟨-,-,-,-,rfl⟩ := wrap_eq_ok.mp h
  unfold unwrap aesGcmDecrypt
  rw [hgcm key iv plaintext aad key' aad' hother]
  split_ifs <;> nofun

end Legs

/-! ### What a grant holds -/

variable {broker : Broker} {db db' : Database} {lease : GrantLease} {e : Event} {now : ℕ}

/-- The lease is what opening the legs of its grant gives. -/
def Holds (broker : Broker) (lease : GrantLease) (db : Database) : Prop :=
  ∃ row ∈ db.grants, GrantRow.leased lease.grantId lease.scope lease.epoch row = true ∧
    openLegs broker row = .ok lease

theorem openLegs_lease {row : GrantRow} (h : openLegs broker row = .ok lease) :
    lease.grantId = row.grantId ∧ lease.scope = row.scope ∧ lease.epoch = row.epoch := by
  unfold openLegs at h
  obtain ⟨key,-,h⟩ := bind_ok h
  obtain ⟨vaultKey,-,h⟩ := bind_ok h
  obtain ⟨token,-,h⟩ := bind_ok h
  obtain ⟨text,-,h⟩ := bind_ok h
  dsimp only at h
  split at h
  · obtain ⟨item,-,h⟩ := bind_ok h
    obtain ⟨_,-,h⟩ := bind_ok h
    obtain ⟨_,-,h⟩ := bind_ok h
    obtain ⟨_,-,h⟩ := bind_ok h
    cases h
    exact ⟨rfl,rfl,rfl⟩
  · cases h

/-- What a grant holds is what its checkout gives. -/
theorem Holds.checkout (h : Holds broker lease db) (hsound : Sound db)
    (hlen : lease.grantId.value.toList.length ≤ 96) :
    db.checkout broker (grantRef lease.grantId) = .ok lease := by
  obtain ⟨row,hrow,hleased,hopens⟩ := h
  obtain ⟨hid,-,-,hactive⟩ := leased_iff.mp hleased
  have hfound : db.ofGrant lease.grantId = some row := hid ▸ ofGrant_eq_some hsound hrow
  rw [Database.checkout,parseGrantRef_grantRef lease.grantId hlen]
  simp only [bind,Except.bind,hfound,hactive,if_true,hopens]

theorem holds_of_checkout {ref : String} (h : db.checkout broker ref = .ok lease) :
    Holds broker lease db := by
  obtain ⟨id,-,h⟩ := bind_ok h
  cases hrow : db.ofGrant id with
  | none =>
    rw [hrow] at h
    cases h
  | some row =>
    rw [hrow] at h
    dsimp only at h
    split_ifs at h with hactive
    obtain ⟨hid,hscope,hepoch⟩ := openLegs_lease h
    exact ⟨row,List.mem_of_find?_eq_some hrow,
      leased_iff.mpr ⟨hid.symm,hscope.symm,hepoch.symm,hactive⟩,h⟩

theorem Holds.epochOf (h : Holds broker lease db) : epochOf db lease.scope = lease.epoch := by
  obtain ⟨row,hrow,hleased,-⟩ := h
  obtain ⟨-,hscope,hepoch,-⟩ := leased_iff.mp hleased
  rw [epochOf_of_some (Database.ofScope_eq_some.mpr ⟨hrow,hscope⟩),hepoch]

/-- A scope has one grant, and that one key. -/
theorem Holds.kUser_eq {other : GrantLease} (h : Holds broker lease db)
    (hother : Holds broker other db) (hscope : other.scope = lease.scope) :
    other.kUser = lease.kUser := by
  obtain ⟨row,hrow,hleased,hopens⟩ := h
  obtain ⟨row',hrow',hleased',hopens'⟩ := hother
  have hsame : row' = row := Table.eq_of_key hrow' hrow
    ((leased_iff.mp hleased').2.1.trans (hscope.trans (leased_iff.mp hleased).2.1.symm))
  rw [hsame] at hopens'
  cases hopens'.symm.trans hopens
  rfl

/-! ### The provision -/

/-- What it takes for a provision to return. -/
theorem provision_eq_ok {scope : GrantScope} {i : String} {v t : Bytes} {o : String} {d : Draw}
    {grant : ProvisionedGrant} : exec (provision broker scope i v t o d now) db = (.ok grant,db') ↔
      validateItemRef i = .ok () ∧ validateVaultKey v = .ok () ∧ validateRefreshToken t = .ok () ∧
        validateText "operator_id" o = .ok () ∧ ∃ legs epoch,
          wrappedLegs broker d.grantId.toGrantId scope d.kUser v t i d.ivs = .ok legs ∧
            db.provision scope d.grantId.toGrantId legs o now = .ok (db',epoch) ∧
              grant = ⟨grantRef d.grantId.toGrantId,epoch⟩ := by
  have hcheck : ∀ {α : Type} {r : Except CustodyError α} {x : α} {s s' : Database},
      exec (check r) s = (.ok x,s') ↔ r = .ok x ∧ s = s' := by
    intro α r x s s'
    rw [exec_check,Prod.mk.injEq]
  unfold provision
  constructor
  · intro h
    obtain ⟨⟨⟩,_,hi',h⟩ := exec_bind_eq_ok.mp h
    obtain ⟨⟨⟩,_,hv',h⟩ := exec_bind_eq_ok.mp h
    obtain ⟨⟨⟩,_,ht',h⟩ := exec_bind_eq_ok.mp h
    obtain ⟨⟨⟩,_,ho',h⟩ := exec_bind_eq_ok.mp h
    obtain ⟨legs,_,hlegs',h⟩ := exec_bind_eq_ok.mp h
    obtain ⟨found,_,hget,h⟩ := exec_bind_eq_ok.mp h
    obtain ⟨⟨stored,epoch⟩,_,hok',h⟩ := exec_bind_eq_ok.mp h
    obtain ⟨_,_,hset,h⟩ := exec_bind_eq_ok.mp h
    obtain ⟨hi,rfl⟩ := hcheck.mp hi'
    obtain ⟨hv,rfl⟩ := hcheck.mp hv'
    obtain ⟨ht,rfl⟩ := hcheck.mp ht'
    obtain ⟨ho,rfl⟩ := hcheck.mp ho'
    obtain ⟨hlegs,rfl⟩ := hcheck.mp hlegs'
    cases hget
    obtain ⟨hok,rfl⟩ := hcheck.mp hok'
    cases hset
    cases h
    exact ⟨hi,hv,ht,ho,legs,epoch,hlegs,hok,rfl⟩
  · rintro ⟨hi,hv,ht,ho,legs,epoch,hlegs,hok,rfl⟩
    refine exec_bind_eq_ok.mpr ⟨(),db,hcheck.mpr ⟨hi,rfl⟩,?_⟩
    refine exec_bind_eq_ok.mpr ⟨(),db,hcheck.mpr ⟨hv,rfl⟩,?_⟩
    refine exec_bind_eq_ok.mpr ⟨(),db,hcheck.mpr ⟨ht,rfl⟩,?_⟩
    refine exec_bind_eq_ok.mpr ⟨(),db,hcheck.mpr ⟨ho,rfl⟩,?_⟩
    refine exec_bind_eq_ok.mpr ⟨legs,db,hcheck.mpr ⟨hlegs,rfl⟩,?_⟩
    refine exec_bind_eq_ok.mpr ⟨db,db,rfl,?_⟩
    exact exec_bind_eq_ok.mpr ⟨(db',epoch),db,hcheck.mpr ⟨hok,rfl⟩,rfl⟩

/-- The legs that were wrapped are what opening them gives. -/
theorem openLegs_wrapped (hgcm : RoundTrips broker.gcm) {row : GrantRow} {k v t : Bytes}
    {i : String} {ivs : LegName → Bytes} (hi : validateItemRef i = .ok ())
    (hv : validateVaultKey v = .ok ()) (ht : validateRefreshToken t = .ok ())
    (hlegs : wrappedLegs broker row.grantId row.scope k v t i ivs = .ok row.legs) :
    openLegs broker row = .ok ⟨row.grantId,row.epoch,row.scope,i,k,v,t⟩ := by
  unfold wrappedLegs at hlegs
  obtain ⟨ek,hk,hlegs⟩ := bind_ok hlegs
  obtain ⟨ev,hvault,hlegs⟩ := bind_ok hlegs
  obtain ⟨es,hsession,hlegs⟩ := bind_ok hlegs
  obtain ⟨ei,hitem,hlegs⟩ := bind_ok hlegs
  have hstored : (⟨.stored ek,.stored ev,.stored es,.stored ei⟩ : Legs) = row.legs :=
    Except.ok.inj hlegs
  have hopened : ∀ {e : Envelope} {key plaintext aad : Bytes},
      unwrap broker.gcm key e aad = .ok plaintext →
        asMaterial ((Leg.stored e).envelope >>= fun e => unwrap broker.gcm key e aad) =
          .ok plaintext := fun h => asMaterial_ok.mpr h
  have hok : ∀ {α β : Type} (x : α) (f : α → Except CustodyError β), (Except.ok x >>= f) = f x :=
    fun _ _ => rfl
  unfold openLegs
  rw [← hstored]
  simp only [hopened (unwrap_wrap hgcm hk),hopened (unwrap_wrap hgcm hvault),
    hopened (unwrap_wrap hgcm hsession),hopened (unwrap_wrap hgcm hitem),hok,
    Text.decodeUtf8_encodeUtf8,pure_bind,hi,hv,ht]
  rfl

/-- A provision that returns leaves a grant that holds what was provisioned. -/
theorem holds_provision (hgcm : RoundTrips broker.gcm) {scope : GrantScope} {i : String}
    {v t : Bytes} {o : String} {d : Draw} {grant : ProvisionedGrant}
    (h : (exec (provision broker scope i v t o d now) db).1 = .ok grant) :
    grant.grantRef = grantRef d.grantId.toGrantId ∧
      Holds broker ⟨d.grantId.toGrantId,grant.epoch,scope,i,d.kUser,v,t⟩
        (db.step broker (.provision scope i v t o d,now)) := by
  rcases hx : exec (provision broker scope i v t o d now) db with ⟨r,stored⟩
  rw [hx] at h
  dsimp only at h
  rw [h] at hx
  have hstep : db.step broker (.provision scope i v t o d,now) = stored := by
    simp only [Database.step,Request.perform,exec_discard,hx]
  obtain ⟨hi,hv,ht,-,legs,epoch,hlegs,hok,rfl⟩ := provision_eq_ok.mp hx
  obtain ⟨-,-,row,hid,hscope,hepoch,hactive,hrow,hgrants,-⟩ := provision_ok hok
  refine ⟨rfl,row,?_,leased_iff.mpr ⟨hid,hscope,hepoch,hactive⟩,?_⟩
  · rw [hstep,hgrants]
    exact Table.mem_put.mpr (.inl rfl)
  · rw [← hrow,← hid,← hscope] at hlegs
    rw [openLegs_wrapped hgcm hi hv ht hlegs,hid,hscope,hepoch]

/-! ### Later requests -/

/-- The refresh token of a grant after an event: a rotation that returns stores its own. -/
def rotatedTo (broker : Broker) (id : GrantId) (token : Bytes) (db : Database) (e : Event) :
    Bytes :=
  match e.1 with
  | .rotate other t iv =>
    if other.grantId = id then
      match (exec (rotateRefreshToken broker other t iv e.2) db).1 with
      | .ok _ => t
      | .error _ => token
    else token
  | _ => token

theorem Holds.same_grants (h : Holds broker lease db) (hsame : db'.grants = db.grants) :
    Holds broker lease db' := by
  obtain ⟨row,hrow,hheld⟩ := h
  exact ⟨row,hsame ▸ hrow,hheld⟩

/-- An update that does not meet the row of the grant. -/
theorem Holds.update (h : Holds broker lease db) {p : GrantRow → Bool} (u : RowUpdate)
    (hmiss : ∀ row ∈ db.grants, GrantRow.leased lease.grantId lease.scope lease.epoch row = true →
      ¬p row = true) : Holds broker lease (db.update p u) := by
  obtain ⟨row,hrow,hleased,hopens⟩ := h
  refine ⟨row,Database.mem_update.mpr ⟨row,hrow,?_⟩,hleased,hopens⟩
  rw [RowUpdate.applyWhere,if_neg (hmiss row hrow hleased)]

/-- A request that raises leaves the tables, and a rotation that returns has rewrapped a leg. -/
theorem rotate_spec (other : GrantLease) (t iv : Bytes) (db : Database) :
    Triple (From db) (rotateRefreshToken broker other t iv now) fun r db' =>
      match r with
      | .ok _ => validRefreshToken t = true ∧ ∃ session,
          wrap broker.gcm iv t other.kUser (aad other.grantId other.scope .session) = .ok session ∧
            db.rotate other.grantId other.scope other.epoch session now = .ok db'
      | .error _ => db' = db := by
  refine Triple.check_bind (fun _ hvalid => ?_) fun _ _ hs => hs
  refine Triple.check_bind (fun session hwrap => ?_) fun _ _ hs => hs
  refine Triple.get_bind fun db₀ => ?_
  refine Triple.check_bind ?_ fun _ _ hs => hs.1
  rintro db' hok
  rintro _ ⟨rfl,rfl⟩
  refine ⟨?_,session,hwrap,hok⟩
  unfold validateRefreshToken at hvalid
  split_ifs at hvalid with ht
  exact ht

/-- The session leg alone is another after a rotation. -/
theorem openLegs_rotate (hgcm : RoundTrips broker.gcm) {row : GrantRow} {t iv : Bytes}
    {session : Envelope} (hvalid : validRefreshToken t = true)
    (hwrap : wrap broker.gcm iv t lease.kUser (aad row.grantId row.scope .session) = .ok session)
    (h : openLegs broker row = .ok lease) :
    openLegs broker (row.rotate session now) = .ok { lease with refreshToken := t } := by
  have hok : ∀ {α β : Type} (x : α) (f : α → Except CustodyError β), (Except.ok x >>= f) = f x :=
    fun _ _ => rfl
  have ht : validateRefreshToken t = .ok () := by rw [validateRefreshToken,if_pos hvalid]
  unfold openLegs at h
  obtain ⟨key,hkey,h⟩ := bind_ok h
  obtain ⟨vaultKey,hvault,h⟩ := bind_ok h
  obtain ⟨token,-,h⟩ := bind_ok h
  obtain ⟨text,htext,h⟩ := bind_ok h
  dsimp only at h
  cases hitem : Text.decodeUtf8 text with
  | none =>
    rw [hitem] at h
    cases h
  | some item =>
    rw [hitem] at h
    dsimp only at h
    obtain ⟨_,⟨⟩,h⟩ := bind_ok h
    obtain ⟨⟨⟩,hv,h⟩ := bind_ok h
    obtain ⟨_,-,h⟩ := bind_ok h
    obtain ⟨⟨⟩,hi,h⟩ := bind_ok h
    cases h
    have hsession : asMaterial ((Leg.stored session).envelope >>= fun e =>
        unwrap broker.gcm key e (aad row.grantId row.scope .session)) = .ok t :=
      asMaterial_ok.mpr (unwrap_wrap hgcm hwrap)
    unfold openLegs GrantRow.rotate
    simp only [hkey,hok,hvault,hsession,htext,hitem,pure_bind,hv,ht,hi]
    rfl

/-- The rotation of a grant whose key the lease has. -/
theorem Holds.rotate (hgcm : RoundTrips broker.gcm) (hsound : Sound db)
    (h : Holds broker lease db) {other : GrantLease} {t iv : Bytes}
    (hkey : other.grantId = lease.grantId → other.scope = lease.scope → other.epoch = lease.epoch →
      other.kUser = lease.kUser) :
    Holds broker { lease with refreshToken := (rotatedTo broker lease.grantId lease.refreshToken db
      (.rotate other t iv,now)) } (db.step broker (.rotate other t iv,now)) := by
  have hspec := @rotate_spec broker now other t iv db db rfl
  rcases hx : exec (rotateRefreshToken broker other t iv now) db with ⟨e | _,stored⟩
  all_goals
    rw [hx] at hspec
    have hstep : db.step broker (.rotate other t iv,now) = stored := congrArg Prod.snd hx
    simp only [rotatedTo,hx,hstep]
  · cases hspec
    rw [ite_self]
    exact h
  · obtain ⟨hvalid,session,hwrap,hok⟩ := hspec
    unfold Database.rotate at hok
    split_ifs at hok with hcount
    cases hok
    apply Holds.same_grants _ rfl
    obtain ⟨row,hrow,hleased,hopens⟩ := h
    obtain ⟨hid,hscope,hepoch,hactive⟩ := leased_iff.mp hleased
    split_ifs with hsame
    · have hpos : 0 < db.rowcount (GrantRow.leased other.grantId other.scope other.epoch) := by
        omega
      obtain ⟨row',hrow',hleased'⟩ := List.countP_pos_iff.mp hpos
      obtain ⟨hid',hscope',hepoch',-⟩ := leased_iff.mp hleased'
      have hrows : row' = row :=
        hsound.ids row' hrow' row hrow (hid'.trans (hsame.trans hid.symm))
      rw [hrows] at hleased' hscope' hepoch'
      have hkeys := hkey hsame (hscope'.symm.trans hscope) (hepoch'.symm.trans hepoch)
      rw [hkeys,hsame,← hid,← hscope'] at hwrap
      refine ⟨row.rotate session now,Database.mem_update.mpr ⟨row,hrow,?_⟩,
        leased_iff.mpr ⟨hid,hscope,hepoch,hactive⟩,openLegs_rotate hgcm hvalid hwrap hopens⟩
      rw [RowUpdate.applyWhere,if_pos hleased']
      rfl
    · refine Holds.update ⟨row,hrow,hleased,hopens⟩ _ ?_
      intro row' _ hleased' hother
      exact hsame ((leased_iff.mp hother).1.symm.trans (leased_iff.mp hleased').1)

theorem Holds.provision_other (h : Holds broker lease db) {scope : GrantScope} {i : String}
    {v t : Bytes} {o : String} {d : Draw}
    (hmoves : ¬Moves broker db (.provision scope i v t o d,now) lease.scope) :
    Holds broker lease (db.step broker (.provision scope i v t o d,now)) := by
  have hspec := @provision_spec broker now scope i v t o d db db rfl
  rcases hx : exec (provision broker scope i v t o d now) db with ⟨e | grant,stored⟩
  all_goals
    rw [hx] at hspec
    have hstep : db.step broker (.provision scope i v t o d,now) = stored := by
      simp only [Database.step,Request.perform,exec_discard,hx]
    rw [hstep]
  · cases hspec
    exact h
  · obtain ⟨legs,-,-,hok⟩ := hspec
    obtain ⟨-,-,row,-,hscope,-,-,-,hgrants,-⟩ := provision_ok hok
    obtain ⟨row',hrow',hleased',hopens'⟩ := h
    refine ⟨row',?_,hleased',hopens'⟩
    rw [hgrants]
    refine Table.mem_put.mpr (.inr ⟨hrow',?_⟩)
    intro hsame
    exact hmoves ⟨hscope.symm.trans (hsame.symm.trans (leased_iff.mp hleased').2.1),grant,
      congrArg Prod.fst hx⟩

theorem Holds.revoke_other (h : Holds broker lease db) (hsound : Sound db) {scope : GrantScope}
    {o : String} (hmoves : ¬Moves broker db (.revoke scope o,now) lease.scope) :
    Holds broker lease (db.step broker (.revoke scope o,now)) := by
  have hspec := @revoke_spec now scope o db db rfl
  rcases hx : exec (revoke scope o now) db with ⟨e | revoked,stored⟩
  all_goals
    rw [hx] at hspec
    have hstep : db.step broker (.revoke scope o,now) = stored := by
      simp only [Database.step,Request.perform,exec_discard,hx]
    rw [hstep]
  · cases hspec
    exact h
  · cases revoked with
    | false =>
      apply h.same_grants
      have hrevoke : (db.revoke scope o now).1.grants = stored.grants := by rw [hspec]
      rw [← hrevoke]
      unfold Database.revoke at hspec ⊢
      split
      · rfl
      · rename_i row hrow
        rw [hrow] at hspec
        dsimp only at hspec
        split_ifs at hspec ⊢ with hactive
        · cases hspec
        · rfl
    | true =>
      obtain ⟨row,hrow,hactive,rfl⟩ := revoke_true hspec
      apply Holds.same_grants _ rfl
      refine h.update _ ?_
      intro row' hrow' hleased' hp
      simp only [Bool.and_eq_true,decide_eq_true_eq] at hp
      obtain ⟨hmem,hscope⟩ := Database.ofScope_eq_some.mp hrow
      rw [hsound.ids row' hrow' row hmem hp.1.1] at hleased'
      exact hmoves ⟨hscope.symm.trans (leased_iff.mp hleased').2.1,congrArg Prod.fst hx⟩

theorem Holds.invalidate_other (h : Holds broker lease db) {other : GrantLease}
    (hmoves : ¬Moves broker db (.invalidate other,now) lease.scope) :
    Holds broker lease (db.step broker (.invalidate other,now)) := by
  have hupdate : Holds broker lease (db.update
      (GrantRow.leased other.grantId other.scope other.epoch) (.erase (other.epoch+1) now)) := by
    refine h.update _ ?_
    intro row hrow hleased hother
    exact hmoves ⟨(leased_iff.mp hother).2.1.symm.trans (leased_iff.mp hleased).2.1,row,hrow,hother⟩
  show Holds broker lease (db.invalidate other.grantId other.scope other.epoch now)
  unfold Database.invalidate
  split
  · exact hupdate.same_grants rfl
  · exact hupdate

/-- An event that does not end the grant leaves what it holds, up to a rotation of its token. -/
theorem Holds.step (hgcm : RoundTrips broker.gcm) (hsound : Sound db) (h : Holds broker lease db)
    (hmoves : ¬Moves broker db e lease.scope)
    (hkey : ∀ other t iv, e.1 = .rotate other t iv → other.scope = lease.scope →
      other.epoch = lease.epoch → other.kUser = lease.kUser) :
    Holds broker { lease with refreshToken :=
      (rotatedTo broker lease.grantId lease.refreshToken db e) } (db.step broker e) := by
  obtain ⟨r,now⟩ := e
  cases r with
  | provision scope i v t o d => exact h.provision_other hmoves
  | revoke scope o => exact h.revoke_other hsound hmoves
  | status scope o =>
    apply h.same_grants
    have heffect := @step_effect broker db (.status scope o,now)
    generalize db.step broker (.status scope o,now) = db' at heffect
    cases heffect with
    | refused => rfl
    | statusRead => rfl
  | rotate other t iv =>
    exact h.rotate hgcm hsound fun _ hscope hepoch => hkey other t iv rfl hscope hepoch
  | invalidate other => exact h.invalidate_other hmoves

/-! ### Histories -/

/-- The refresh token of a grant after the events, from the tables on. -/
def lastToken (broker : Broker) (id : GrantId) (token : Bytes) (db : Database) :
    List Event → Bytes
  | [] => token
  | e::es => lastToken broker id (rotatedTo broker id token db e) (db.step broker e) es

theorem lastToken_snoc (id : GrantId) (token : Bytes) (es : List Event) :
    lastToken broker id token db (es ++ [e]) = rotatedTo broker id
      (lastToken broker id token db es) (es.foldl (Database.step broker) db) e := by
  induction es generalizing token db with
  | nil => rfl
  | cons e' es ih => exact ih _

/-- The leases that a history rotates through were checked out before. -/
def Leased (broker : Broker) (es : List Event) : Prop :=
  ∀ before lease t iv n after, es = before ++ (.rotate lease t iv,n)::after →
    ∃ es₀ ref, es₀ <+: before ∧ (run broker es₀).checkout broker ref = .ok lease

/-- No event of the history, after the events before it, ends the grant of the scope. -/
def Lasts (broker : Broker) (scope : GrantScope) (before es : List Event) : Prop :=
  ∀ es₀ e after, es = es₀ ++ e::after → ¬Moves broker (run broker (before ++ es₀)) e scope

theorem epochOf_run_le (scope : GrantScope) (es es' : List Event) :
    epochOf (run broker es) scope ≤ epochOf (run broker (es ++ es')) scope := by
  induction es' using List.reverseRecOn with
  | nil => rw [List.append_nil]
  | append_singleton es' e ih =>
    rw [← List.append_assoc,run_append broker (es ++ es')]
    exact ih.trans (epochOf_effect_le (step_effect _ _) scope)

/-- A lease of the grant that was checked out in the history has the grant's key. -/
theorem kUser_of_prefix {before es es₀ : List Event} {other : GrantLease} {ref : String}
    (hnew : ∀ es₀, es₀ <+: before → es₀ ≠ before →
      epochOf (run broker es₀) lease.scope < lease.epoch)
    (hheld : ∀ es₀, es₀ <+: es → ∃ token,
      Holds broker { lease with refreshToken := token } (run broker (before ++ es₀)))
    (hes₀ : es₀ <+: before ++ es) (hout : (run broker es₀).checkout broker ref = .ok other)
    (hscope : other.scope = lease.scope) (hepoch : other.epoch = lease.epoch) :
    other.kUser = lease.kUser := by
  have hother := holds_of_checkout hout
  have hlater : ∀ es₁, es₀ = before ++ es₁ → other.kUser = lease.kUser := by
    rintro es₁ rfl
    obtain ⟨token,hsame⟩ := hheld es₁ ((List.prefix_append_right_inj before).mp hes₀)
    exact hsame.kUser_eq hother hscope
  rcases List.prefix_or_prefix_of_prefix hes₀ (List.prefix_append before es) with hle | ⟨es₁,hle⟩
  · by_cases hsame : es₀ = before
    · exact hlater [] (hsame.trans (List.append_nil before).symm)
    · have hlt := hnew es₀ hle hsame
      rw [← hscope,hother.epochOf,hepoch] at hlt
      exact absurd hlt (lt_irrefl _)
  · exact hlater es₁ hle.symm

/-- What a grant holds after a history that does not end it. -/
theorem holds_run (hgcm : RoundTrips broker.gcm) {before es : List Event}
    (hstart : Holds broker lease (run broker before))
    (hnew : ∀ es₀, es₀ <+: before → es₀ ≠ before →
      epochOf (run broker es₀) lease.scope < lease.epoch)
    (hleased : Leased broker (before ++ es)) (hlasts : Lasts broker lease.scope before es)
    (es₀ : List Event) : es₀ <+: es → ∀ es₁, es₁ <+: es₀ →
      Holds broker { lease with refreshToken :=
        (lastToken broker lease.grantId lease.refreshToken (run broker before) es₁) }
        (run broker (before ++ es₁)) := by
  induction es₀ using List.reverseRecOn with
  | nil =>
    intro _ es₁ hes₁
    rw [List.prefix_nil.mp hes₁,List.append_nil]
    exact hstart
  | append_singleton es₀ e ih =>
    rintro ⟨after,hafter⟩ es₁ hes₁
    have hbefore : es₀ <+: es := ⟨e::after,by simpa using hafter⟩
    have hheld := ih hbefore
    rcases List.prefix_concat_iff.mp hes₁ with rfl | hes₁
    · have hsplit : es = es₀ ++ e::after := by simpa using hafter.symm
      rw [lastToken_snoc,← run_append,← List.append_assoc,run_append broker (before ++ es₀)]
      apply (hheld es₀ (List.prefix_refl _)).step hgcm (sound_run broker _) (hlasts _ _ _ hsplit)
      intro other t iv hrotate hscope hepoch
      obtain ⟨r,n⟩ := e
      cases hrotate
      obtain ⟨es₂,ref,hes₂,hout⟩ := hleased (before ++ es₀) other t iv n after (by simp [hsplit])
      exact kUser_of_prefix hnew (fun es₁ hes₁ => ⟨_,hheld es₁ hes₁⟩) hes₂ hout hscope hepoch
    · exact hheld es₁ hes₁

/-- The legs of sound arguments are wrapped. -/
theorem wrappedLegs_ok {id : GrantId} {scope : GrantScope} {k v t : Bytes} {i : String}
    {ivs : LegName → Bytes} (hi : validateItemRef i = .ok ()) (hv : validateVaultKey v = .ok ())
    (ht : validateRefreshToken t = .ok ()) (hk : k.length = 32)
    (hivs : ∀ leg, (ivs leg).length = 12) :
    ∃ legs, wrappedLegs broker id scope k v t i ivs = .ok legs := by
  have hwrap : ∀ {key plaintext aad : Bytes} (leg : LegName), key.length = 32 → plaintext ≠ [] →
      ∃ e, wrap broker.gcm (ivs leg) plaintext key aad = .ok e := by
    intro key plaintext aad leg hkey hplaintext
    have hiv := hivs leg
    exact ⟨_,wrap_eq_ok.mpr ⟨hplaintext,.inr hkey,by omega,by omega,rfl⟩⟩
  have hitem : Text.encodeUtf8 i ≠ [] := by
    intro hnil
    have hdecoded := Text.decodeUtf8_encodeUtf8 i
    rw [hnil] at hdecoded
    cases hdecoded
    cases hi
  have htoken : t ≠ [] := by
    rintro rfl
    cases ht
  have hvault : v ≠ [] := by
    rintro rfl
    cases hv
  have huser : k ≠ [] := by
    rintro rfl
    cases hk
  obtain ⟨ek,hek⟩ := hwrap .kUser broker.kek_length huser
  obtain ⟨ev,hev⟩ := hwrap .vaultKey hk hvault
  obtain ⟨es,hes⟩ := hwrap .session hk htoken
  obtain ⟨ei,hei⟩ := hwrap .itemRef hk hitem
  unfold wrappedLegs
  rw [hek,hev,hes,hei]
  exact ⟨_,rfl⟩

/-- A provision of sound arguments returns, unless its id is taken by another scope. -/
theorem provision_returns {scope : GrantScope} {i : String} {v t : Bytes} {o : String} {d : Draw}
    (hi : validateItemRef i = .ok ()) (hv : validateVaultKey v = .ok ())
    (ht : validateRefreshToken t = .ok ()) (ho : validateText "operator_id" o = .ok ())
    (hk : d.kUser.length = 32) (hivs : ∀ leg, (d.ivs leg).length = 12)
    (hid : ∀ r ∈ db.grants, r.grantId = d.grantId.toGrantId → r.scope = scope) :
    ∃ grant, (exec (provision broker scope i v t o d now) db).1 = .ok grant := by
  obtain ⟨legs,hlegs⟩ := @wrappedLegs_ok broker d.grantId.toGrantId scope _ _ _ _ _ hi hv ht hk hivs
  have hfree : ¬(db.grants.rows.any fun r =>
      r.grantId = d.grantId.toGrantId && r.scope ≠ scope) = true := by
    simp only [List.any_eq_true,Bool.and_eq_true,decide_eq_true_eq]
    rintro ⟨r,hr,hrid,hscope⟩
    exact hscope (hid r hr hrid)
  obtain ⟨db',epoch,hok⟩ : ∃ db' epoch,
      db.provision scope d.grantId.toGrantId legs o now = .ok (db',epoch) := by
    simp only [Database.provision,if_neg hfree]
    exact ⟨_,_,rfl⟩
  exact ⟨_,congrArg Prod.fst (provision_eq_ok.mpr ⟨hi,hv,ht,ho,legs,epoch,hlegs,hok,rfl⟩)⟩

/-- The key of a lease can seal. -/
theorem openLegs_key {row : GrantRow} (h : openLegs broker row = .ok lease) :
    lease.kUser.length = 16 ∨ lease.kUser.length = 32 := by
  unfold openLegs at h
  obtain ⟨key,-,h⟩ := bind_ok h
  obtain ⟨vaultKey,hvault,h⟩ := bind_ok h
  obtain ⟨token,-,h⟩ := bind_ok h
  obtain ⟨text,-,h⟩ := bind_ok h
  obtain ⟨e,-,hopened⟩ := bind_ok (asMaterial_ok.mp hvault)
  dsimp only at h
  split at h
  · obtain ⟨item,-,h⟩ := bind_ok h
    obtain ⟨_,-,h⟩ := bind_ok h
    obtain ⟨_,-,h⟩ := bind_ok h
    obtain ⟨_,-,h⟩ := bind_ok h
    cases h
    exact unwrap_key hopened
  · cases h

/-- A rotation through a lease that has been checked out returns. -/
theorem rotate_returns {ref : String} {t iv : Bytes} (h : db.checkout broker ref = .ok lease)
    (ht : validateRefreshToken t = .ok ()) (hiv : iv.length = 12) :
    (exec (rotateRefreshToken broker lease t iv now) db).1 = .ok () := by
  obtain ⟨row,hrow,hleased,hopens⟩ := holds_of_checkout h
  have hvalid : validRefreshToken t = true := by
    unfold validateRefreshToken at ht
    split_ifs at ht with hvalid
    exact hvalid
  have hempty : t ≠ [] := by
    rintro rfl
    cases ht
  have hwrap := (@wrap_eq_ok broker.gcm lease.kUser iv t
    (aad lease.grantId lease.scope .session) _).mpr
      ⟨hempty,openLegs_key hopens,by omega,by omega,rfl⟩
  have hle : db.rowcount (GrantRow.leased lease.grantId lease.scope lease.epoch) ≤ 1 :=
    db.grants.countP_le_one fun r _ r' _ hr hr' =>
      (leased_iff.mp hr).2.1.trans (leased_iff.mp hr').2.1.symm
  have hpos : 0 < db.rowcount (GrantRow.leased lease.grantId lease.scope lease.epoch) :=
    List.countP_pos_iff.mpr ⟨row,hrow,hleased⟩
  have hone : ¬db.rowcount (GrantRow.leased lease.grantId lease.scope lease.epoch) ≠ 1 := by omega
  rw [rotate_exec hvalid hwrap]
  simp only [Database.rotate,if_neg hone]

/-- What is claimed of the custody: a grant gives back what was provisioned and last rotated, its
reference names it, and its legs open as no others. -/
structure RoundTrip (broker : Broker) : Prop where
  provisions : ∀ db scope i v t o d now, validateItemRef i = .ok () → validateVaultKey v = .ok () →
    validateRefreshToken t = .ok () → validateText "operator_id" o = .ok () →
    d.kUser.length = 32 → (∀ leg, (d.ivs leg).length = 12) →
    (∀ r ∈ db.grants, r.grantId = d.grantId.toGrantId → r.scope = scope) →
    ∃ grant, (exec (provision broker scope i v t o d now) db).1 = .ok grant
  rotates : ∀ db lease ref t iv now, Database.checkout broker db ref = .ok lease →
    validateRefreshToken t = .ok () → iv.length = 12 →
    (exec (rotateRefreshToken broker lease t iv now) db).1 = .ok ()
  gives : ∀ before e es scope i v t o d now grant, e = (.provision scope i v t o d,now) →
    (exec (provision broker scope i v t o d now) (run broker before)).1 = .ok grant →
    Leased broker (before ++ [e] ++ es) → Lasts broker scope (before ++ [e]) es →
    ∃ lease, (run broker (before ++ [e] ++ es)).checkout broker grant.grantRef = .ok lease ∧
      lease.itemRef = i ∧ lease.vaultKey = v ∧ lease.refreshToken =
        lastToken broker d.grantId.toGrantId t (run broker (before ++ [e])) es
  names : ∀ id : GrantId, id.value.toList.length ≤ 96 → parseGrantRef (grantRef id) = .ok id
  apart : ∀ (id id' : GrantId) (scope scope' : GrantScope) (leg leg' : LegName)
    (iv plaintext key key' plaintext' : Bytes) (e : Envelope),
    (id,scope,leg) ≠ (id',scope',leg') →
    wrap broker.gcm iv plaintext key (aad id scope leg) = .ok e →
    unwrap broker.gcm key' e (aad id' scope' leg') ≠ .ok plaintext'

theorem round_trip (broker : Broker) (hgcm : RoundTrips broker.gcm)
    (hauthentic : Authentic broker.gcm) : RoundTrip broker where
  provisions db scope i v t o d now hi hv ht ho hk hivs hid :=
    provision_returns hi hv ht ho hk hivs hid
  rotates db lease ref t iv now h ht hiv := rotate_returns h ht hiv
  gives before e es scope i v t o d now grant he hgrant hleased hlasts := by
    obtain ⟨href,hholds⟩ := holds_provision hgcm hgrant
    have hrun : run broker (before ++ [e]) =
        (run broker before).step broker (.provision scope i v t o d,now) := by
      rw [run_append,he]
      rfl
    rw [← hrun] at hholds
    have hmoves : Moves broker (run broker before) (.provision scope i v t o d,now) scope :=
      ⟨rfl,grant,hgrant⟩
    have hnew : ∀ es₀, es₀ <+: before ++ [e] → es₀ ≠ before ++ [e] →
        epochOf (run broker es₀) scope < grant.epoch := by
      intro es₀ hes₀ hne
      rcases List.prefix_concat_iff.mp hes₀ with hsame | ⟨rest,rfl⟩
      · exact absurd hsame hne
      · have hlt := epochOf_step_lt hmoves
        rw [← hrun,hholds.epochOf] at hlt
        exact (epochOf_run_le scope es₀ rest).trans_lt hlt
    have hlast := holds_run hgcm hholds hnew hleased hlasts es (List.prefix_refl es) es
      (List.prefix_refl es)
    have hlength := d.grantId.length_eq
    rw [href]
    exact ⟨_,hlast.checkout (sound_run broker _) (by dsimp only; omega),rfl,rfl,rfl⟩
  names := parseGrantRef_grantRef
  apart id id' scope scope' leg leg' iv plaintext key key' plaintext' e hother hwrap := by
    apply unwrap_other hauthentic hwrap
    intro hsame
    obtain ⟨rfl,rfl,rfl⟩ := aad_injective hsame
    exact hother rfl

/-- A sealing that carries its associated data along. -/
def boundGcm : AesGcm where
  seals _ _ plaintext aad :=
    (List.replicate plaintext.length 0 ++ 1::(plaintext ++ aad),List.replicate 16 0)
  opens _ _ ciphertext _ aad :=
    let n := (ciphertext.takeWhile (· = 0)).length
    let rest := ciphertext.drop (n+1)
    if rest.drop n = aad then some (rest.take n) else none

theorem boundGcm_opens (key key' iv plaintext aad aad' : Bytes) :
    boundGcm.opens key' iv (boundGcm.seals key iv plaintext aad).1
      (boundGcm.seals key iv plaintext aad).2 aad' =
        if aad = aad' then some plaintext else none := by
  have hzeros : ((List.replicate plaintext.length (0 : UInt8) ++ 1::(plaintext ++ aad)).takeWhile
      (· = 0)).length = plaintext.length := by
    rw [List.takeWhile_append_of_pos (by simp)]
    simp
  have hrest : (List.replicate plaintext.length (0 : UInt8) ++ 1::(plaintext ++ aad)).drop
      (plaintext.length+1) = plaintext ++ aad := by
    rw [← List.drop_drop,List.drop_left' (by simp)]
    rfl
  simp only [boundGcm,hzeros,hrest,List.drop_left,List.take_left]

theorem roundTrips_boundGcm : RoundTrips boundGcm where
  tag _ _ _ _ _ := rfl
  opens key iv plaintext aad _ := by rw [boundGcm_opens,if_pos rfl]

theorem authentic_boundGcm : Authentic boundGcm := by
  intro key iv plaintext aad key' aad' hother
  rw [boundGcm_opens,if_neg hother]

def boundBroker : Broker := ⟨List.replicate 32 0,boundGcm,plainBroker.kek_length⟩

theorem round_trip_bound : RoundTrip boundBroker :=
  round_trip boundBroker roundTrips_boundGcm authentic_boundGcm

end GrantCustody
end CloudBrowser
