import CloudBrowser.IdentityLinks
import CloudBrowser.Runs

/-! What holds of the identity links over every interleaving of the calls of the store. -/
namespace CloudBrowser
namespace IdentityLinks

/-- A call that returned a principal for a key. -/
def Returned.Resolves (x : Returned) (key : IdentityLinkKey) (principal : String) : Prop :=
  (∃ groups, x.call = .resolve key groups) ∧ x.answer = .principal (some principal)

/-- A call that revoked a key. -/
def Returned.Revokes (x : Returned) (key : IdentityLinkKey) : Prop :=
  x.call = .revoke key ∧ x.answer = .revoked true

/-- What the calls that have returned have in common. -/
structure Lawful (log : List Returned) : Prop where
  stable : ∀ x ∈ log, ∀ y ∈ log, ∀ key p p', x.Resolves key p → y.Resolves key p' → p = p'
  injective : ∀ x ∈ log, ∀ y ∈ log, ∀ key key' p, x.Resolves key p → y.Resolves key' p → key = key'
  revoked : ∀ (i : ℕ) x, log[i]? = some x → ∀ key, x.Revokes key →
    ∀ y ∈ log, i < y.began → ∀ p, ¬y.Resolves key p
  grouped : ∀ x ∈ log, ∀ key groups p, x.call = .resolve key groups →
    x.answer = .principal (some p) → "PMOC_Users" ∈ groups

/-- Every link is still there, the same one, and revoked if it was. -/
def Keeps (links links' : Links) : Prop :=
  ∀ r ∈ links, ∃ r' ∈ links', r'.key = r.key ∧ r'.pmoUserId = r.pmoUserId ∧
    r'.createdAt = r.createdAt ∧ (r.revokedAt.isSome → r'.revokedAt = r.revokedAt)

theorem Keeps.refl (links : Links) : Keeps links links :=
  fun r hr => ⟨r,hr,rfl,rfl,rfl,fun _ => rfl⟩

theorem keeps_revoke (links : Links) (key : IdentityLinkKey) (now : Time) :
    Keeps links (links.revoke key now) := by
  intro r hr
  refine ⟨Links.revokeRow key now r,Links.mem_revoke.mpr ⟨r,hr,rfl⟩,by simp,by simp,?_,?_⟩
  · unfold Links.revokeRow
    split_ifs <;> rfl
  · intro hrevoked
    unfold Links.revokeRow
    split_ifs with h
    · simp [h.2] at hrevoked
    · rfl

theorem keeps_withRow (s : Service) (row : IdentityLink) : Keeps s.links (s.withRow row).links := by
  unfold Service.withRow
  cases hinsert : s.links.insert row with
  | none => exact Keeps.refl _
  | some links =>
    intro r hr
    exact ⟨r,(Links.mem_insert hinsert).mpr (Or.inr hr),rfl,rfl,rfl,fun _ => rfl⟩

/-- What stands behind the answer of a call that began after `began` others had returned. -/
def Backed (links : Links) (log : List Returned) (began : ℕ) : Call → Answer → Prop
  | .resolve key groups, .principal (some p) => "PMOC_Users" ∈ groups ∧
      (∃ r ∈ links, r.key = key ∧ r.pmoUserId = p) ∧
      ∀ (i : ℕ) x, i < began → log[i]? = some x → ¬x.Revokes key
  | .revoke key, .revoked true => ∃ r ∈ links, r.key = key ∧ r.revokedAt.isSome
  | _, _ => True

/-- What is known of a call under way. -/
def Sound (s : Service) (t : ℕ) (r : Running) : Prop :=
  r.began ≤ s.log.length ∧
  match r.phase, r.call with
  | .entered, _ => True
  | .done answer, call => Backed s.links s.log r.began call answer
  | .inserted row, .resolve key groups => s.writer = some t ∧ "PMOC_Users" ∈ groups ∧
      row.key = key ∧ (s.links.insert row).isSome
  | _, .resolve _ groups => s.writer = some t ∧ "PMOC_Users" ∈ groups
  | _, _ => False

structure Inv (s : Service) : Prop where
  calls : ∀ t r, s.calls t = some r → Sound s t r
  log : ∀ x ∈ s.log, x.began ≤ s.log.length ∧ Backed s.links s.log x.began x.call x.answer

theorem backed_mono {links links' : Links} {log rest : List Returned} {began : ℕ} {call : Call}
    {answer : Answer} (h : Backed links log began call answer) (hbegan : began ≤ log.length)
    (hlinks : Keeps links links') : Backed links' (log ++ rest) began call answer := by
  unfold Backed at h ⊢
  split
  · obtain ⟨hgroup,⟨r,hr,hkey,hid⟩,hnone⟩ := h
    obtain ⟨r',hr',hkey',hid',-⟩ := hlinks r hr
    refine ⟨hgroup,⟨r',hr',hkey'.trans hkey,hid'.trans hid⟩,?_⟩
    intro i x hi hx
    rw [List.getElem?_append_left (by omega)] at hx
    exact hnone i x hi hx
  · obtain ⟨r,hr,hkey,hrevoked⟩ := h
    obtain ⟨r',hr',hkey',-,-,hsame⟩ := hlinks r hr
    exact ⟨r',hr',hkey'.trans hkey,by rw [hsame hrevoked]; exact hrevoked⟩
  · trivial

theorem inTransaction_writer {s : Service} {t : ℕ} {r : Running} (h : Sound s t r)
    (htransaction : r.phase.inTransaction = true) : s.writer = some t := by
  obtain ⟨-,h⟩ := h
  cases hphase : r.phase <;> cases hcall : r.call <;> simp_all [Phase.inTransaction]

/-- A call that is in no transaction is not troubled by what another one does. -/
theorem sound_mono {s s' : Service} {t : ℕ} {r : Running} {rest : List Returned} (h : Sound s t r)
    (hlog : s'.log = s.log ++ rest) (hlinks : Keeps s.links s'.links)
    (hsame : r.phase.inTransaction = true → s'.writer = s.writer ∧ s'.links = s.links) :
    Sound s' t r := by
  obtain ⟨hbegan,hphase⟩ := h
  obtain ⟨call,began,phase⟩ := r
  refine ⟨by rw [hlog,List.length_append]; omega,?_⟩
  cases phase with
  | entered => trivial
  | done answer =>
    rw [hlog]
    exact backed_mono hphase hbegan hlinks
  | selecting =>
    obtain ⟨hwriter,-⟩ := hsame rfl
    cases call <;> simp_all
  | missing =>
    obtain ⟨hwriter,-⟩ := hsame rfl
    cases call <;> simp_all
  | inserted row =>
    obtain ⟨hwriter,hlinks'⟩ := hsame rfl
    cases call <;> simp_all

/-- One call goes on while the others stand still. -/
theorem inv_move {s : Service} {t : ℕ} {r : Running} {phase : Phase} (h : Inv s) (s' : Service)
    (hcalls : s'.calls = s.calls) (hlog : s'.log = s.log) (hlinks : Keeps s.links s'.links)
    (hfree : s.writer = none ∨ s.writer = some t ∨ s'.writer = s.writer ∧ s'.links = s.links)
    (hsound : Sound s' t { r with phase := phase }) : Inv (s'.move t r phase) := by
  constructor
  · intro t' r' hr'
    by_cases ht : t' = t
    · have hsame : some { r with phase := phase } = some r' := by
        rw [← hr',ht]
        simp [Service.move,Service.put]
      rw [ht,← Option.some.inj hsame]
      exact hsound
    · have hold : s.calls t' = some r' := by
        rw [← hcalls]
        simpa [Service.move,Service.put,Function.update_of_ne ht] using hr'
      apply sound_mono (h.calls t' r' hold) (hlog.trans (List.append_nil _).symm) hlinks
      intro htransaction
      have hwriter := inTransaction_writer (h.calls t' r' hold) htransaction
      rcases hfree with hnone | hown | hsame
      · simp [hnone] at hwriter
      · rw [hown] at hwriter
        exact absurd (Option.some.inj hwriter).symm ht
      · exact hsame
  · intro x hx
    have hold : x ∈ s.log := by rwa [← hlog]
    obtain ⟨hbegan,hbacked⟩ := h.log x hold
    have hmono : Backed s'.links (s.log ++ []) x.began x.call x.answer :=
      backed_mono hbacked hbegan hlinks
    rw [List.append_nil] at hmono
    show x.began ≤ s'.log.length ∧ Backed s'.links s'.log x.began x.call x.answer
    rw [hlog]
    exact ⟨hbegan,hmono⟩

/-- A key that some call has revoked is revoked in the table. -/
theorem revoked_of_log {s : Service} (h : Inv s) {i : ℕ} {x : Returned} (hx : s.log[i]? = some x)
    {key : IdentityLinkKey} (hrevokes : x.Revokes key) :
    ∃ r ∈ s.links, r.key = key ∧ r.revokedAt.isSome := by
  obtain ⟨-,hbacked⟩ := h.log x (List.mem_of_getElem? hx)
  rw [hrevokes.1,hrevokes.2] at hbacked
  exact hbacked

/-- A key whose row is missing, or not revoked, has been revoked by no call. -/
theorem not_revokes {s : Service} (h : Inv s) {key : IdentityLinkKey}
    (hnone : ∀ r ∈ s.links, r.key = key → r.revokedAt = none) {i : ℕ} {x : Returned}
    (hx : s.log[i]? = some x) : ¬x.Revokes key := by
  intro hrevokes
  obtain ⟨r,hr,hkey,hrevoked⟩ := revoked_of_log h hx hrevokes
  simp [hnone r hr hkey] at hrevoked

theorem free_of_insert {links : Links} {row : IdentityLink} (h : (links.insert row).isSome) :
    ∀ r ∈ links, r.key ≠ row.key := by
  intro r hr
  unfold Links.insert at h
  split_ifs at h with hfree
  · exact (hfree r hr).1
  · simp at h

variable {s : Service} {t : ℕ} {r : Running} {key : IdentityLinkKey} {groups : List String}

theorem inv_same_links (h : Inv s) (s' : Service) {phase : Phase}
    (hcalls : s'.calls = s.calls) (hlog : s'.log = s.log) (hlinks : s'.links = s.links)
    (hfree : s.writer = none ∨ s.writer = some t ∨ s'.writer = s.writer)
    (hsound : Sound s' t { r with phase := phase }) : Inv (s'.move t r phase) := by
  apply inv_move h s' hcalls hlog (by rw [hlinks]; exact Keeps.refl _) ?_ hsound
  rcases hfree with hnone | hown | hwriter
  · exact Or.inl hnone
  · exact Or.inr (Or.inl hown)
  · exact Or.inr (Or.inr ⟨hwriter,hlinks⟩)

theorem inv_beginResolve (h : Inv s) (hbegan : r.began ≤ s.log.length)
    (hcall : r.call = .resolve key groups) : Inv (s.beginResolve t r key groups) := by
  unfold Service.beginResolve
  split_ifs with hvalid hgroup hwriter
  · apply inv_same_links h { s with writer := some t } rfl rfl rfl (Or.inl hwriter)
    simpa [Sound,hcall,hbegan] using hgroup
  · exact h
  · apply inv_same_links h s rfl rfl rfl (Or.inr (Or.inr rfl))
    simp [Sound,Backed,hcall,hbegan]
  · apply inv_same_links h s rfl rfl rfl (Or.inr (Or.inr rfl))
    simp [Sound,Backed,hcall,hbegan]

theorem inv_select (h : Inv s) (hbegan : r.began ≤ s.log.length)
    (hcall : r.call = .resolve key groups) (hwriter : s.writer = some t)
    (hgroup : "PMOC_Users" ∈ groups) : Inv (s.select t r key) := by
  unfold Service.select
  split
  case h_1 row hfind =>
    obtain ⟨hrow,hkey⟩ := Links.find_eq_some.mp hfind
    apply inv_same_links h { s with writer := none } rfl rfl rfl (Or.inr (Or.inl hwriter))
    refine ⟨hbegan,?_⟩
    cases hrevoked : row.revokedAt with
    | some at_ => simp [Backed,hcall]
    | none =>
      have hnone : ∀ r ∈ s.links, r.key = key → r.revokedAt = none := by
        intro r hr hrkey
        have hsame := Links.find_eq_some.mpr ⟨hr,hrkey⟩
        rw [hfind] at hsame
        rw [← Option.some.inj hsame,hrevoked]
      simp only [hcall,Option.isSome_none,Bool.false_eq_true,if_false]
      exact ⟨hgroup,⟨row,hrow,hkey,rfl⟩,fun i x _ hx => not_revokes h hnone hx⟩
  case h_2 hfind =>
    apply inv_same_links h s rfl rfl rfl (Or.inr (Or.inr rfl))
    simp [Sound,hcall,hbegan,hwriter,hgroup]

theorem inv_insertRow (h : Inv s) (hbegan : r.began ≤ s.log.length)
    (hcall : r.call = .resolve key groups) (hwriter : s.writer = some t)
    (hgroup : "PMOC_Users" ∈ groups) (token : String) (now : Time) :
    Inv (s.insertRow t r key token now) := by
  unfold Service.insertRow
  split_ifs with hinsert
  · apply inv_same_links h s rfl rfl rfl (Or.inr (Or.inr rfl))
    simp [Sound,hcall,hbegan,hwriter,hgroup,hinsert]
  · apply inv_same_links h { s with writer := none } rfl rfl rfl (Or.inr (Or.inl hwriter))
    simp [Sound,Backed,hcall,hbegan]

/-- The row of a call is put into the table as its transaction ends. -/
theorem inv_withRow (h : Inv s) {row : IdentityLink} {answer : Answer} (hwriter : s.writer = some t)
    (hbegan : r.began ≤ s.log.length)
    (hbacked : Backed (s.withRow row).links s.log r.began r.call answer) :
    Inv ((s.withRow row).finish t r answer) := by
  apply inv_move h { s.withRow row with writer := none } rfl rfl (keeps_withRow s row)
    (Or.inr (Or.inl hwriter))
  exact ⟨hbegan,hbacked⟩

theorem inv_commit (h : Inv s) {row : IdentityLink} (hbegan : r.began ≤ s.log.length)
    (hcall : r.call = .resolve key groups) (hwriter : s.writer = some t)
    (hgroup : "PMOC_Users" ∈ groups) (hkey : row.key = key) (hinsert : (s.links.insert row).isSome) :
    Inv ((s.withRow row).finish t r (.principal (some row.pmoUserId))) := by
  apply inv_withRow h hwriter hbegan
  obtain ⟨links,hlinks⟩ := Option.isSome_iff_exists.mp hinsert
  rw [hcall]
  refine ⟨hgroup,⟨row,?_,hkey,rfl⟩,?_⟩
  · simpa [Service.withRow,hlinks] using (Links.mem_insert hlinks).mpr (Or.inl rfl)
  · intro i x _ hx
    apply not_revokes h _ hx
    intro r hr hrkey
    exact absurd (hrkey.trans hkey.symm) (free_of_insert hinsert r hr)

/-- The row that the update of a key changes is revoked afterwards. -/
theorem revoked_of_revocable {links : Links} {now : Time} (h : links.revocable key = true) :
    ∃ r ∈ links.revoke key now, r.key = key ∧ r.revokedAt.isSome := by
  unfold Links.revocable at h
  cases hfind : links.find key with
  | none => simp [hfind] at h
  | some row =>
    obtain ⟨hrow,hkey⟩ := Links.find_eq_some.mp hfind
    refine ⟨Links.revokeRow key now row,Links.mem_revoke.mpr ⟨row,hrow,rfl⟩,by simpa using hkey,?_⟩
    simp [hfind] at h
    simp [Links.revokeRow,hkey,h]

theorem inv_update (h : Inv s) (hbegan : r.began ≤ s.log.length) (hcall : r.call = .revoke key)
    (now : Time) : Inv (s.update t r key now) := by
  unfold Service.update
  split_ifs with hvalid hwriter
  · apply inv_move h { s with links := s.links.revoke key now } rfl rfl
      (keeps_revoke s.links key now) (Or.inl hwriter)
    refine ⟨hbegan,?_⟩
    rw [hcall]
    cases hdone : s.links.revocable key with
    | true => exact revoked_of_revocable hdone
    | false => trivial
  · exact h
  · apply inv_same_links h s rfl rfl rfl (Or.inr (Or.inr rfl))
    simp [Sound,Backed,hcall,hbegan]

theorem backed_raised (links : Links) (log : List Returned) (began : ℕ) (call : Call) :
    Backed links log began call .raised := by
  cases call <;> trivial

theorem inv_fail (h : Inv s) (hr : Sound s t r) (effective : Bool) (now : Time) :
    Inv (s.fail t r effective now) := by
  have hbegan := hr.1
  have hraised : ∀ links, Backed links s.log r.began r.call .raised :=
    fun links => backed_raised links s.log r.began r.call
  have hstay : Inv (s.move t r (.done .raised)) :=
    inv_same_links h s rfl rfl rfl (Or.inr (Or.inr rfl)) ⟨hbegan,hraised _⟩
  have hend (hin : r.phase.inTransaction = true) : Inv (s.finish t r .raised) :=
    inv_same_links h { s with writer := none } rfl rfl rfl
      (Or.inr (Or.inl (inTransaction_writer hr hin))) ⟨hbegan,hraised _⟩
  unfold Service.fail
  split
  case h_1 key _ _ =>
    split_ifs with hwriter
    · exact inv_move h { s with links := s.links.revoke key now } rfl rfl
        (keeps_revoke s.links key now) (Or.inl hwriter.2) ⟨hbegan,hraised _⟩
    · exact hstay
  case h_2 => exact hstay
  case h_3 hphase =>
    have hin : r.phase.inTransaction = true := by rw [hphase]; rfl
    split_ifs
    · exact inv_withRow h (inTransaction_writer hr hin) hbegan (hraised _)
    · exact hend hin
  case h_4 hphase => exact hend (by rw [hphase]; rfl)
  case h_5 hphase => exact hend (by rw [hphase]; rfl)
  case h_6 => exact h

theorem inv_answer (h : Inv s) {answer : Answer} (hr : Sound s t r) (hphase : r.phase = .done answer) :
    Inv (s.answer t r answer) := by
  obtain ⟨hbegan,hbacked⟩ := hr
  rw [hphase] at hbacked
  have hkeeps : Keeps s.links (s.answer t r answer).links := Keeps.refl _
  constructor
  · intro t' r' hr'
    by_cases ht : t' = t
    · simp [Service.answer,Service.put,ht] at hr'
    · have hold : s.calls t' = some r' := by
        simpa [Service.answer,Service.put,Function.update_of_ne ht] using hr'
      exact sound_mono (h.calls t' r' hold) rfl hkeeps fun _ => ⟨rfl,rfl⟩
  · intro x hx
    have hlength : (s.answer t r answer).log.length = s.log.length + 1 := by
      simp [Service.answer,Service.put]
    rcases List.mem_append.mp hx with hold | hnew
    · obtain ⟨hlog,hlogged⟩ := h.log x hold
      exact ⟨by omega,backed_mono hlogged hlog hkeeps⟩
    · rw [List.mem_singleton.mp hnew]
      exact ⟨by rw [hlength]; exact Nat.le_succ_of_le hbegan,backed_mono hbacked hbegan hkeeps⟩

theorem inv_execute (h : Inv s) (hr : Sound s t r) (x : Statement) : Inv (s.execute t r x) := by
  have hbegan := hr.1
  have hphase := hr.2
  unfold Service.execute
  split
  case h_1 hcall => exact inv_beginResolve h hbegan hcall
  case h_2 hin hcall =>
    rw [hin,hcall] at hphase
    exact inv_select h hbegan hcall hphase.1 hphase.2
  case h_3 hin hcall =>
    rw [hin,hcall] at hphase
    exact inv_insertRow h hbegan hcall hphase.1 hphase.2 _ _
  case h_4 hin hcall =>
    rw [hin,hcall] at hphase
    obtain ⟨hwriter,hgroup,hkey,hinsert⟩ := hphase
    exact inv_commit h hbegan hcall hwriter hgroup hkey hinsert
  case h_5 hcall => exact inv_update h hbegan hcall _
  case h_6 _ hin => exact inv_answer h hr hin
  case h_7 => exact inv_fail h hr _ _
  case h_8 => exact h

theorem inv_next (s : Service) (e : Event) (h : Inv s) : Inv (s.next e) := by
  cases e with
  | call t c =>
    simp only [Service.next]
    split_ifs
    · constructor
      · intro t' r' hr'
        by_cases ht : t' = t
        · have hsame : some ⟨c,s.log.length,.entered⟩ = some r' := by
            rw [← hr',ht]
            simp [Service.put]
          rw [← Option.some.inj hsame]
          exact ⟨Nat.le_refl _,trivial⟩
        · have hold : s.calls t' = some r' := by
            simpa [Service.put,Function.update_of_ne ht] using hr'
          exact h.calls t' r' hold
      · exact h.log
    · exact h
  | statement t x =>
    simp only [Service.next]
    split
    case h_1 => exact h
    case h_2 r hr => exact inv_execute h (h.calls t r hr) x
  | crash =>
    constructor
    · intro t r hr
      simp [Service.next] at hr
    · exact h.log

theorem keeps_execute (x : Statement) : Keeps s.links (s.execute t r x).links := by
  unfold Service.execute
  split
  case h_1 =>
    unfold Service.beginResolve
    split_ifs <;> exact Keeps.refl _
  case h_2 =>
    unfold Service.select
    split <;> exact Keeps.refl _
  case h_3 =>
    unfold Service.insertRow
    split_ifs <;> exact Keeps.refl _
  case h_4 row _ _ _ _ => exact keeps_withRow s row
  case h_5 =>
    unfold Service.update
    split_ifs
    · exact keeps_revoke s.links _ _
    · exact Keeps.refl _
    · exact Keeps.refl _
  case h_6 => exact Keeps.refl _
  case h_7 =>
    unfold Service.fail
    split <;> try split_ifs
    all_goals first
      | exact Keeps.refl _
      | exact keeps_revoke s.links _ _
      | exact keeps_withRow s _
  case h_8 => exact Keeps.refl _

/-- No event drops, renames or revives a link. -/
theorem keeps_next (s : Service) (e : Event) : Keeps s.links (s.next e).links := by
  cases e with
  | call t c =>
    simp only [Service.next]
    split_ifs <;> exact Keeps.refl _
  | statement t x =>
    simp only [Service.next]
    split
    case h_1 => exact Keeps.refl _
    case h_2 => exact keeps_execute x
  | crash => exact Keeps.refl _

theorem backed_of_resolves (h : Inv s) {x : Returned} (hx : x ∈ s.log) {p : String}
    (hresolves : x.Resolves key p) : (∃ r ∈ s.links, r.key = key ∧ r.pmoUserId = p) ∧
      ∀ (i : ℕ) y, i < x.began → s.log[i]? = some y → ¬y.Revokes key := by
  obtain ⟨⟨groups,hcall⟩,hanswer⟩ := hresolves
  obtain ⟨-,hbacked⟩ := h.log x hx
  rw [hcall,hanswer] at hbacked
  exact hbacked.2

theorem lawful_of_inv (h : Inv s) : Lawful s.log where
  stable := by
    intro x hx y hy key p p' hxp hyp
    obtain ⟨⟨r,hr,hkey,hid⟩,-⟩ := backed_of_resolves h hx hxp
    obtain ⟨⟨r',hr',hkey',hid'⟩,-⟩ := backed_of_resolves h hy hyp
    have hfind := Links.find_eq_some.mpr ⟨hr,hkey⟩
    rw [Links.find_eq_some.mpr ⟨hr',hkey'⟩] at hfind
    rw [← hid,← hid',Option.some.inj hfind]
  injective := by
    intro x hx y hy key key' p hxp hyp
    obtain ⟨⟨r,hr,hkey,hid⟩,-⟩ := backed_of_resolves h hx hxp
    obtain ⟨⟨r',hr',hkey',hid'⟩,-⟩ := backed_of_resolves h hy hyp
    rw [← hkey,← hkey',Links.eq_of_pmoUserId hr hr' (hid.trans hid'.symm)]
  revoked := by
    intro i x hx key hrevokes y hy hbegan p hresolves
    exact (backed_of_resolves h hy hresolves).2 i x hbegan hx hrevokes
  grouped := by
    intro x hx key groups p hcall hanswer
    obtain ⟨-,hbacked⟩ := h.log x hx
    rw [hcall,hanswer] at hbacked
    exact hbacked.1

/-- Over every run of the service, from any table: a key has one principal, and a principal one
key; a key that was revoked resolves no more; and no link is dropped, changed or revived. -/
theorem links_permanent (links : Links) (es : List Event) :
    Runs.Always Service.next (fun s => Lawful s.log) { links := links } es ∧
    Runs.Each Service.next (fun s e => Keeps s.links (s.next e).links) { links := links } es := by
  have hstart : Inv { links := links } := by
    constructor
    · intro t r hr
      simp at hr
    · simp
  have halways : Runs.Always Service.next Inv { links := links } es :=
    Runs.always_invariant hstart inv_next
  constructor
  · exact halways.mono fun s hs => lawful_of_inv hs
  · exact halways.each fun s e _ => keeps_next s e

end IdentityLinks
end CloudBrowser
