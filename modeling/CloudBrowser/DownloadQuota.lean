import CloudBrowser.DownloadRuns
import CloudBrowser.Runs

/-! The quota of a principal, under uploads whose steps come in any order among each other and among
the other requests. -/
namespace CloudBrowser
namespace Storage
namespace DownloadStore

open CloudFiles
open Directories
open Runs

inductive Event
  | call (i : ℕ) (m : Move)
  | read (name : String)
  | list
  | purge (older : ℚ)
  | quarantine (name : String) (reads : List (Except StoreError Bytes)) (now : ℤ)
  deriving DecidableEq

/-- A read or a listing changes nothing. -/
def State.next (store : DownloadStore) (p : String) (s : State) : Event → State
  | .call i m => s.move store p i m
  | .read _ => s
  | .list => s
  | .purge older => { s with disk := (store.purge p older s.disk).2 }
  | .quarantine name reads now => { s with disk := (store.quarantine p name reads now s.disk).2 }

/-- The bytes that a call is about to publish, its check of the quota behind it. -/
def Phase.reserved : Phase → ℕ
  | .checked f => f.copied.length
  | _ => 0

def State.reserved (s : State) : ℕ := (s.calls.map Phase.reserved).sum

/-- What a call is about to check the quota for. -/
def checking : Phase → Move → Option Staged
  | .staged f,.check => some f
  | _,_ => none

/-- An upload that passes the check of the quota would pass it too if the uploads that have passed
it before and are not published yet were counted. -/
def State.LeavesRoom (store : DownloadStore) (p : String) (s : State) (i : ℕ) (m : Move) : Prop :=
  ∀ phase ∈ s.calls[i]?, ∀ f ∈ checking phase m, ∀ usage ∈ (store.usageBytes p s.disk).toOption,
    usage+f.copied.length ≤ store.quotaBytes →
      usage+s.reserved+f.copied.length ≤ store.quotaBytes

instance (store : DownloadStore) (p : String) (s : State) (i : ℕ) (m : Move) :
    Decidable (s.LeavesRoom store p i m) :=
  inferInstanceAs (Decidable (∀ phase ∈ s.calls[i]?, ∀ f ∈ checking phase m,
    ∀ usage ∈ (store.usageBytes p s.disk).toOption, usage+f.copied.length ≤ store.quotaBytes →
      usage+s.reserved+f.copied.length ≤ store.quotaBytes))

/-- The condition on an event: a drawn name is not in use, and a check leaves room for the others. -/
def State.Admits (store : DownloadStore) (p : String) (s : State) : Event → Prop
  | .call i m => s.DrawsFresh i m ∧ s.LeavesRoom store p i m
  | _ => True

instance (store : DownloadStore) (p : String) (s : State) (e : Event) :
    Decidable (s.Admits store p e) := by
  cases e <;> unfold State.Admits <;> infer_instance

def WithinQuota (store : DownloadStore) (p : String) (disk : Disk) : Prop :=
  ∃ usage, store.usageBytes p disk = .ok usage ∧ usage ≤ store.quotaBytes

variable {store : DownloadStore} {p : String} {s : State} {disk : Disk} {f : Staged} {d : Folder Node}

/-- The usage, and with it what is about to come, stays within the quota. -/
structure State.Bounded (store : DownloadStore) (p : String) (s : State) : Prop where
  sound : s.Sound store p
  room : ∃ usage, store.usageBytes p s.disk = .ok usage ∧ usage+s.reserved ≤ store.quotaBytes

theorem usageBytes_eq_ok {usage : ℕ} : store.usageBytes p disk = .ok usage ↔
    isPrincipal p = true ∧ store.Safe p disk ∧ store.stored p disk = usage := by
  rw [usageBytes_eq]
  by_cases hp : isPrincipal p = false
  · simp [hp]
  · by_cases hsafe : store.Safe p disk
    · simp [hp,hsafe]
    · simp [hp,hsafe]

theorem reserved_set {i : ℕ} {phase : Phase} (new : Phase) (h : s.calls[i]? = some phase) :
    ((s.calls.set i new).map Phase.reserved).sum+phase.reserved = s.reserved+new.reserved := by
  unfold State.reserved
  generalize s.calls = calls at h
  induction calls generalizing i with
  | nil => simp at h
  | cons c calls ih =>
    cases i with
    | zero =>
      have hphase : c = phase := by simpa using h
      simp only [List.set_cons_zero,List.map_cons,List.sum_cons,hphase]
      omega
    | succ i =>
      have hrest := ih (i:=i) (by simpa using h)
      simp only [List.set_cons_succ,List.map_cons,List.sum_cons]
      omega

/-- A rename makes the usage no larger than by what it publishes. -/
theorem stored_rename (hphase : (Phase.checked f).Sound store p disk) :
    store.stored p (store.rename p f disk).2 ≤ store.stored p disk+f.copied.length := by
  obtain ⟨d,hd,howns⟩ := hphase.1.owns
  rcases rename_cases hd howns with ⟨-,hrename⟩ | ⟨-,hrename⟩
  · rw [hrename]
    exact Nat.le_add_right _ _
  · obtain ⟨mtime,hcontent⟩ := howns.content
    have hne : f.temp ≠ f.final := (hphase.1.hidden.ne hphase.1.final).symm
    have htotal := Directory.total_rename (w:=retrievable) howns.lookup hne
    have hweight : retrievable f.final (d.node f.inode) = f.copied.length := by
      rw [hcontent,retrievable,hphase.1.final]
      simp
    rw [hweight,weight_hidden hphase.1.hidden] at htotal
    rw [hrename]
    unfold stored
    rw [Disk.subarea_setSub_self (by simp [hd]),hd]
    simp only [Option.elim_some,Disk.area_setSub,Folder.toDirectory_rename]
    omega

/-- Only a check that is passed reserves anything. -/
theorem reserved_move (store : DownloadStore) (p : String) (disk : Disk) (phase : Phase) (m : Move) :
    (store.move p m phase disk).1.reserved ≤ phase.reserved ∨
      ∃ f, checking phase m = some f ∧
        (store.move p m phase disk).1.reserved = f.copied.length ∧
        ∃ usage, store.usageBytes p disk = .ok usage ∧
          usage+f.copied.length ≤ store.quotaBytes := by
  cases phase <;> cases m
  case idle.start name =>
    rcases store.start_phase p disk name with ⟨e,heq⟩ | ⟨final,heq⟩ <;>
      simp [move,heq,Phase.reserved]
  case named.openTemp final token fault now =>
    rcases store.openTemp_phase p disk final token fault now with heq | ⟨f,heq⟩ <;>
      simp [move,heq,Phase.reserved]
  case staging.copy f r now =>
    rcases store.copy_phase p disk f r now with ⟨e,heq⟩ | heq | ⟨f',heq⟩ <;>
      simp [move,heq,Phase.reserved]
  case staged.check f =>
    rcases store.check_phase p disk f with ⟨e,heq⟩ | ⟨heq,husage⟩
    · simp [move,heq,Phase.reserved]
    · exact Or.inr ⟨f,rfl,by simp [move,heq,Phase.reserved],husage⟩
  case checked.rename f =>
    rcases store.rename_phase p disk f with heq | heq <;>
      simp [move,heq,Phase.reserved]
  case renamed.stat f =>
    rcases store.stat_phase p disk f with heq | ⟨receipt,heq,-⟩ <;>
      simp [move,heq,Phase.reserved]
  case receipted.index f receipt fault now =>
    rcases store.index_phase p disk f receipt fault now with ⟨e,heq⟩ | heq <;>
      simp [move,heq,Phase.reserved]
  case closing.unlinkTemp temp copied result => simp [move,Phase.reserved]
  all_goals exact Or.inl (Nat.le_refl _)

theorem bounded_call {i : ℕ} {m : Move} (h : s.Bounded store p) (hfresh : s.DrawsFresh i m)
    (hroom : s.LeavesRoom store p i m) : (s.move store p i m).Bounded store p := by
  have hsound := State.sound_move h.sound hfresh
  obtain ⟨usage,husage,hbound⟩ := h.room
  refine ⟨hsound,?_⟩
  cases hi : s.calls[i]? with
  | none =>
    rw [State.move_of_none hi]
    exact ⟨usage,husage,hbound⟩
  | some phase =>
    rw [State.move_of_some hi]
    have hphase := h.sound.calls i phase hi
    have hspec := move_spec hphase m
    have hset := reserved_set (store.move p m phase s.disk).1 hi
    by_cases hrename : ∃ f, phase = .checked f ∧ m = .rename
    · obtain ⟨f,rfl,rfl⟩ := hrename
      obtain ⟨hp,-,hstored⟩ := usageBytes_eq_ok.mp husage
      have hsafe := hspec.safe.mpr hphase.2.1
      refine ⟨_,usageBytes_eq_ok.mpr ⟨hp,hsafe,rfl⟩,?_⟩
      have hle := stored_rename hphase
      have hnew : (store.rename p f s.disk).1.reserved = 0 := by
        rcases store.rename_phase p s.disk f with heq | heq <;>
          rw [heq] <;> rfl
      simp only [move,State.reserved] at hset ⊢
      rw [hnew] at hset
      simp only [Phase.reserved] at hset
      unfold State.reserved at hbound
      omega
    · have hsame := hspec.same fun f hphase hm => hrename ⟨f,hphase,hm⟩
      refine ⟨usage,hsame.usageBytes.trans husage,?_⟩
      show usage+((s.calls.set i _).map Phase.reserved).sum ≤ _
      rcases store.reserved_move p s.disk phase m with hle | ⟨f,hf,hnew,hpassed⟩
      · omega
      · obtain ⟨usage',husage',hfits⟩ := hpassed
        have hsame' : usage' = usage := Except.ok.inj (husage'.symm.trans husage)
        have hmore := hroom phase hi f hf usage (by rw [husage]; rfl) (by omega)
        omega

/-- No purge takes a directory or a hidden file away. -/
theorem expired_file {older : ℚ} {f : Folder Node} {name : String} (h : name ∈ expired older f) :
    validateName name ≠ none ∧ f.find name ≠ some .directory := by
  unfold expired at h
  have hold := (List.mem_filter.mp h).2
  cases hname : validateName name with
  | none => simp [hname] at hold
  | some safe =>
    refine ⟨by simp,?_⟩
    intro hfind
    simp [hname,hfind] at hold

theorem Owns.unlinkAll {names : List String} (h : Owns d f) (hnames : f.temp ∉ names) :
    Owns (d.unlinkAll names) f := by
  refine ⟨?_,?_,?_⟩
  · rw [Folder.lookup_unlinkAll hnames]
    exact h.lookup
  · intro name hname
    exact h.only name (Folder.lookup_of_unlinkAll hname)
  · rw [Folder.node_unlinkAll]
    exact h.content

theorem purge_refused (older : ℚ) (h : ¬(isPrincipal p = true ∧ store.Safe p disk)) :
    (store.purge p older disk).2 = disk := by
  unfold purge
  rw [storageDirs_eq]
  by_cases hp : isPrincipal p = false
  · rw [if_pos hp]
  · rw [if_neg hp,if_neg fun hsafe => h ⟨by simpa using hp,hsafe⟩]

/-- What a purge does to the disk: of the files of the release before it leaves those whose
namesakes it takes away. -/
theorem purge_served (older : ℚ) (hp : isPrincipal p = true) (hsafe : store.Safe p disk) :
    ∃ canonical prior,
      canonical = ((disk.subarea (store.ownerKey p) entriesDir).map (expired older)).getD [] ∧
      prior = (((disk.area p).map (expired older)).getD []).filter (· ∉ canonical) ∧
      (∀ name ∈ canonical, validateName name ≠ none) ∧
      (∀ name ∈ prior, validateName name ≠ none ∧ (disk.own p).find name ≠ some .directory) ∧
      (store.purge p older disk).2 =
        (disk.setSub (store.ownerKey p) entriesDir
          ((disk.sub (store.ownerKey p,entriesDir)).unlinkAll canonical)).setOwn p
            ((disk.own p).unlinkAll prior) := by
  refine ⟨_,_,rfl,rfl,?_,?_,?_⟩
  · intro name hname
    cases hsub : disk.subarea (store.ownerKey p) entriesDir with
    | none => simp [hsub] at hname
    | some g =>
      simp only [hsub,Option.map_some,Option.getD_some] at hname
      exact (expired_file hname).1
  · intro name hname
    have hname := (List.mem_filter.mp hname).1
    cases harea : disk.area p with
    | none => simp [harea] at hname
    | some g =>
      simp only [harea,Option.map_some,Option.getD_some] at hname
      rw [(Disk.area_eq_some.mp harea).2]
      exact expired_file hname
  · unfold purge
    rw [storageDirs_eq,if_neg (by simp [hp]),if_pos hsafe]
    rfl

/-- The two directories with files after a purge. -/
theorem purge_dirs {disk' : Disk} {canonical prior : List String} (hsafe : store.Safe p disk)
    (hprior : ∀ name ∈ prior, validateName name ≠ none ∧
      (disk.own p).find name ≠ some .directory)
    (hdisk' : disk' = (disk.setSub (store.ownerKey p) entriesDir
      ((disk.sub (store.ownerKey p,entriesDir)).unlinkAll canonical)).setOwn p
        ((disk.own p).unlinkAll prior)) :
    store.Safe p disk' ∧
      disk'.subarea (store.ownerKey p) entriesDir =
        (disk.subarea (store.ownerKey p) entriesDir).map (Folder.unlinkAll · canonical) ∧
      disk'.area p = (disk.area p).map (Folder.unlinkAll · prior) := by
  have hentries : isSafe (disk.child (store.ownerKey p) entriesDir) = true := by
    simp only [Safe,List.all_cons,Bool.and_eq_true] at hsafe
    exact hsafe.2.1
  have hchild : disk'.child (store.ownerKey p) entriesDir = disk.child (store.ownerKey p) entriesDir := by
    rw [hdisk']
    unfold Disk.child at hentries ⊢
    by_cases hkey : store.ownerKey p = p
    · simp only [Disk.root_setOwn,Disk.root_setSub,Disk.own_setOwn,Disk.own_setSub,hkey,
        Function.update_self] at hentries ⊢
      split_ifs at hentries ⊢
      · by_cases hmem : entriesDir ∈ prior
        · have hnone : (disk.own p).find entriesDir = none := by
            have hfile := (hprior entriesDir hmem).2
            revert hentries hfile
            cases (disk.own p).find entriesDir with
            | none => simp
            | some n => cases n <;> simp [isSafe]
          rw [hnone]
          exact Folder.find_unlinkAll_of_none hnone
        · exact Folder.find_unlinkAll hmem
      · rfl
    · simp [hkey]
  refine ⟨?_,?_,?_⟩
  · simp only [Safe,hchild]
    rw [hdisk']
    exact hsafe
  · unfold Disk.subarea
    rw [hchild]
    split_ifs
    · rw [hdisk']
      simp
    · rfl
  · unfold Disk.area
    rw [hdisk']
    simp only [Disk.root_setOwn,Disk.root_setSub,Disk.own_setOwn,Function.update_self]
    split_ifs <;> rfl

theorem bounded_purge (h : s.Bounded store p) (older : ℚ) :
    (s.next store p (.purge older)).Bounded store p := by
  show State.Bounded store p { s with disk := (store.purge p older s.disk).2 }
  obtain ⟨usage,husage,hbound⟩ := h.room
  obtain ⟨hp,hsafe,hstored⟩ := usageBytes_eq_ok.mp husage
  obtain ⟨canonical,prior,-,-,hcanonical,hprior,hdisk'⟩ := purge_served older hp hsafe
  obtain ⟨hsafe',hsub,harea⟩ := purge_dirs hsafe hprior hdisk'
  refine ⟨⟨?_,h.sound.apart⟩,_,usageBytes_eq_ok.mpr ⟨hp,hsafe',rfl⟩,?_⟩
  · intro i phase hphase
    apply (h.sound.calls i phase hphase).mono
    · exact ⟨fun _ => hsafe,fun _ => hsafe'⟩
    · intro f _ hheld
      obtain ⟨d,hd,howns⟩ := hheld.owns
      have htemp : f.temp ∉ canonical := fun hmem => hcanonical f.temp hmem hheld.hidden.1
      exact ⟨⟨_,by rw [hsub,hd]; rfl,howns.unlinkAll htemp⟩,hheld.hidden,hheld.final,hheld.size⟩
  · have hle : ∀ (a : Option (Folder Node)) (names : List String),
        ((a.map (Folder.unlinkAll · names)).elim 0 fun f => f.total retrievable) ≤
          a.elim 0 fun f => f.total retrievable := by
      intro a names
      cases a with
      | none => exact Nat.le_refl _
      | some f => exact Folder.total_unlinkAll retrievable
    have hentries := hle (s.disk.subarea (store.ownerKey p) entriesDir) canonical
    have hprior := hle (s.disk.area p) prior
    show store.stored p (store.purge p older s.disk).2+s.reserved ≤ _
    unfold stored at hstored ⊢
    rw [hsub,harea]
    omega

theorem leaves_quarantine (store : DownloadStore) (p : String) (disk : Disk)
    (temp : Option String) (name : String) (reads : List (Except StoreError Bytes)) (now : ℤ) :
    store.Leaves p temp disk (store.quarantine p name reads now disk).2 := by
  have hset : ∀ (disk : Disk) (d : Folder Node), store.Leaves p temp disk
      (disk.setSub (store.ownerKey p) quarantineDir d) := by
    intro disk d
    have hsub : (disk.setSub (store.ownerKey p) quarantineDir d).subarea (store.ownerKey p) entriesDir =
        disk.subarea (store.ownerKey p) entriesDir :=
      Disk.subarea_setSub_of_ne (by simp [entriesDir,quarantineDir])
    refine .of_subarea ⟨Iff.rfl,?_,.refl _⟩ fun d hd => by rw [hsub,hd]
    rw [hsub]
    exact .refl _
  unfold quarantine
  cases hname : validateName name with
  | none => exact .refl _ _
  | some safe =>
    dsimp only
    by_cases hp : isPrincipal p = false
    · rw [if_pos hp]
      exact .refl _ _
    · by_cases hkey : isSafe (disk.root.find (store.ownerKey p)) = false
      · rw [if_neg hp,if_pos hkey]
        exact .refl _ _
      · rw [if_neg hp,if_neg hkey]
        split_ifs
        · exact leaves_mkdirTop temp
        · have hmade := leaves_mkdirs (p:=p) temp quarantineDir (by simpa using hkey)
          split
          · exact hmade
          · split_ifs
            · exact hmade
            · split
              · exact hmade
              · exact hmade.trans (hset _ _)

theorem bounded_quarantine (h : s.Bounded store p) (name : String)
    (reads : List (Except StoreError Bytes)) (now : ℤ) :
    (s.next store p (.quarantine name reads now)).Bounded store p := by
  have hleaves := store.leaves_quarantine p s.disk none name reads now
  obtain ⟨usage,husage,hbound⟩ := h.room
  refine ⟨⟨?_,h.sound.apart⟩,usage,hleaves.same.usageBytes.trans husage,hbound⟩
  intro i phase hphase
  apply (h.sound.calls i phase hphase).mono hleaves.same.safe
  intro f _ hheld
  exact hleaves.held f hheld (by simp)

/-- The quota is never exceeded in a run of uploads, reads, purges and quarantines in which every
check of the quota that is passed leaves room for the uploads past theirs, and in which no two calls
that are under way draw one temporary name. -/
theorem quota_kept {es : List Event} (hidle : ∀ phase ∈ s.calls, phase = .idle)
    (hstart : WithinQuota store p s.disk)
    (hadmits : Each (State.next store p) (State.Admits store p) s es) :
    Always (State.next store p) (fun s => WithinQuota store p s.disk) s es := by
  have hbounded : s.Bounded store p := by
    obtain ⟨usage,husage,hle⟩ := hstart
    refine ⟨State.sound_idle hidle,usage,husage,?_⟩
    have hzero : s.reserved = 0 := by
      apply List.sum_eq_zero
      intro n hn
      obtain ⟨phase,hphase,rfl⟩ := List.mem_map.mp hn
      rw [hidle phase hphase]
      rfl
    omega
  have hstep : ∀ (s : State) (e : Event), s.Bounded store p → s.Admits store p e →
      (s.next store p e).Bounded store p := by
    intro s e h hadmits
    cases e with
    | call i m => exact bounded_call h hadmits.1 hadmits.2
    | read name => exact h
    | list => exact h
    | purge older => exact bounded_purge h older
    | quarantine name reads now => exact bounded_quarantine h name reads now
  apply (always_of_each (P:=State.Bounded store p) hbounded hstep hadmits).mono
  intro s h
  obtain ⟨usage,husage,hle⟩ := h.room
  exact ⟨usage,husage,by omega⟩

def uploadMoves (i : ℕ) (name : String) (content : Bytes) : List Event :=
  [.start name,.openTemp 0 false 0,.copy (.ok content) 0,.copy (.ok []) 0].map (.call i)

/-- Two uploads check the quota before either of them is published. -/
def crossing : List Event := uploadMoves 0 "a" [1,2,3] ++ uploadMoves 1 "b" [4,5,6] ++
  [.call 0 .check,.call 1 .check,.call 0 .rename,.call 1 .rename]

theorem crossing_usage : small.usageBytes "alice"
    (crossing.foldl (State.next small "alice") twoCalls).disk = .ok 6 := by
  decide +kernel

/-- Both pass, and the usage comes to more than the quota. -/
theorem quota_exceeded : (∀ phase ∈ twoCalls.calls, phase = .idle) ∧
    WithinQuota small "alice" twoCalls.disk ∧
      ¬Always (State.next small "alice") (fun s => WithinQuota small "alice" s.disk) twoCalls
        crossing := by
  refine ⟨by decide,⟨0,by decide +kernel,by decide⟩,?_⟩
  intro halways
  obtain ⟨usage,husage,hle⟩ := halways.last
  rw [crossing_usage] at husage
  cases husage
  revert hle
  decide

/-- The second upload checks the quota after the first is published, and is refused. -/
theorem quota_kept_apart : Always (State.next small "alice")
    (fun s => WithinQuota small "alice" s.disk) twoCalls
      (uploadMoves 0 "a" [1,2,3] ++ [.call 0 .check,.call 0 .rename,.purge 0] ++
        uploadMoves 1 "b" [4,5,6] ++ [.call 1 .check,.call 1 .unlinkTemp,.read "a"]) :=
  quota_kept (by decide) ⟨0,by decide +kernel,by decide⟩ (by decide +kernel)

end DownloadStore
end Storage
end CloudBrowser
