import CloudBrowser.DownloadRuns
import CloudBrowser.Runs

/-! Whether what has been published can be read for as long as nothing is taken away, under calls
of `ingest` in any order of their steps. -/
namespace CloudBrowser
namespace Storage
namespace DownloadStore

open CloudFiles
open Directories
open Runs

/-- The name and the content that a call has published. -/
def Phase.published : Phase → Option (String × Bytes)
  | .renamed f => some (f.final,f.copied)
  | .receipted f receipt => some (receipt.name,f.copied)
  | .closing _ copied (.ok receipt) => some (receipt.name,copied)
  | .returned copied (.ok receipt) => some (receipt.name,copied)
  | _ => none

/-- What a call is about to give its final name. -/
def taking : Phase → Move → Option Staged
  | .checked f,.rename => some f
  | _,_ => none

/-- A rename takes a name under which nothing is found, or the same that the call has copied. -/
def State.TakesFree (store : DownloadStore) (p : String) (s : State) (i : ℕ) (m : Move) : Prop :=
  ∀ phase ∈ s.calls[i]?, ∀ f ∈ taking phase m,
    ∀ content ∈ (store.read p f.final s.disk).toOption.join, content = f.copied

instance (store : DownloadStore) (p : String) (s : State) (i : ℕ) (m : Move) :
    Decidable (s.TakesFree store p i m) :=
  inferInstanceAs (Decidable (∀ phase ∈ s.calls[i]?, ∀ f ∈ taking phase m,
    ∀ content ∈ (store.read p f.final s.disk).toOption.join, content = f.copied))

def State.step (store : DownloadStore) (p : String) (s : State) (e : ℕ × Move) : State :=
  s.move store p e.1 e.2

/-- Every name leads to the content it has led to. -/
def Kept (store : DownloadStore) (p : String) (disk disk' : Disk) : Prop :=
  ∀ name content, store.read p name disk = .ok (some content) →
    store.read p name disk' = .ok (some content)

/-- What a call has published is read back under the name that it has returned. -/
def State.ReadBack (store : DownloadStore) (p : String) (s : State) : Prop :=
  ∀ phase ∈ s.calls, ∀ copied receipt, phase = .returned copied (.ok receipt) →
    store.read p receipt.name s.disk = .ok (some copied)

variable {store : DownloadStore} {p : String} {s : State} {disk : Disk} {f : Staged} {d : Folder Node}

/-- After its rename the file of a call is found under the final name. -/
theorem found_renamed (hd : disk.subarea (store.ownerKey p) entriesDir = some d) (howns : Owns d f)
    (hsize : f.copied.length ≤ store.maxFileBytes) :
    store.found p (disk.setSub (store.ownerKey p) entriesDir (d.rename f.temp f.final)) f.final =
      some f.copied := by
  obtain ⟨mtime,hcontent⟩ := howns.content
  have hfind : (d.rename f.temp f.final).find f.final = some (.file f.copied mtime) := by
    rw [← hcontent]
    exact Directory.find_rename_target howns.lookup
  unfold found
  rw [Disk.subarea_setSub_self (by simp [hd]),Option.bind_some,regular,hfind]
  simp [hsize]

theorem found_rename_of_ne {raw safe : String} (hd : disk.subarea (store.ownerKey p) entriesDir = some d)
    (hhidden : Hidden f.temp) (hsafe : validateName raw = some safe) (hne : safe ≠ f.final) :
    store.found p (disk.setSub (store.ownerKey p) entriesDir (d.rename f.temp f.final)) safe =
      store.found p disk safe := by
  have hfind : (d.rename f.temp f.final).find safe = d.find safe :=
    Directory.find_rename_of_ne (hhidden.ne hsafe) hne
  unfold found
  rw [Disk.subarea_setSub_self (by simp [hd]),hd,Option.bind_some,Option.bind_some,
    Alike.regular_congr hfind]
  rfl

theorem kept_rename (hphase : (Phase.checked f).Sound store p disk)
    (hfree : ∀ content ∈ (store.read p f.final disk).toOption.join, content = f.copied) :
    store.Kept p disk (store.rename p f disk).2 := by
  obtain ⟨d,hd,howns⟩ := hphase.1.owns
  rcases rename_cases hd howns with ⟨-,hrename⟩ | ⟨-,hrename⟩
  · rw [hrename]
    exact fun name content hread => hread
  · rw [hrename]
    intro name content hread
    obtain ⟨safe,hname,hp,hsafe,hfound⟩ := read_eq_some.mp hread
    apply read_eq_some.mpr
    refine ⟨safe,hname,hp,hsafe,?_⟩
    by_cases hfinal : safe = f.final
    · have hsame : content = f.copied := by
        apply hfree
        rw [read_eq_some.mpr ⟨f.final,hphase.1.final,hp,hsafe,hfinal ▸ hfound⟩]
        rfl
      rw [hfinal,hsame]
      exact found_renamed hd howns hphase.1.size
    · rw [found_rename_of_ne hd hphase.1.hidden hname hfinal]
      exact hfound

/-- A call publishes with its rename. -/
theorem published_move {phase : Phase} {m : Move} {x : String × Bytes}
    (h : (store.move p m phase disk).1.published = some x) : phase.published = some x ∨
      ∃ f, phase = .checked f ∧ m = .rename ∧ x = (f.final,f.copied) ∧
        (store.rename p f disk).1 = .renamed f := by
  cases phase <;> cases m
  case idle.start name =>
    rcases store.start_phase p disk name with ⟨e,heq⟩ | ⟨final,heq⟩ <;>
      simp [move,heq,Phase.published] at h
  case named.openTemp final token fault now =>
    rcases store.openTemp_phase p disk final token fault now with heq | ⟨f,heq⟩ <;>
      simp [move,heq,Phase.published] at h
  case staging.copy f r now =>
    rcases store.copy_phase p disk f r now with ⟨e,heq⟩ | heq | ⟨f',heq⟩ <;>
      simp [move,heq,Phase.published] at h
  case staged.check f =>
    rcases store.check_phase p disk f with ⟨e,heq⟩ | ⟨heq,-⟩ <;>
      simp [move,heq,Phase.published] at h
  case checked.rename f =>
    rcases store.rename_phase p disk f with heq | heq
    · simp [move,heq,Phase.published] at h
    · simp only [move,heq] at h
      exact Or.inr ⟨f,rfl,rfl,(Option.some.inj h).symm,heq⟩
  case renamed.stat f =>
    left
    rcases store.stat_phase p disk f with heq | ⟨receipt,heq,hname⟩
    · simp [move,heq,Phase.published] at h
    · simpa [move,heq,Phase.published,hname] using h
  case receipted.index f receipt fault now =>
    left
    rcases store.index_phase p disk f receipt fault now with ⟨e,heq⟩ | heq
    · simp [move,heq,Phase.published] at h
    · simpa [move,heq,Phase.published] using h
  case closing.unlinkTemp temp copied result =>
    left
    cases result <;> exact h
  all_goals exact Or.inl h

/-- What each call has published is read back. -/
def State.Readable (store : DownloadStore) (p : String) (s : State) : Prop :=
  ∀ phase ∈ s.calls, ∀ x ∈ phase.published, store.read p x.1 s.disk = .ok (some x.2)

theorem kept_move {i : ℕ} {m : Move} (h : s.Sound store p) (hfree : s.TakesFree store p i m) :
    store.Kept p s.disk (s.move store p i m).disk := by
  cases hi : s.calls[i]? with
  | none =>
    rw [State.move_of_none hi]
    exact fun name content hread => hread
  | some phase =>
    rw [State.move_of_some hi]
    have hsound := h.calls i phase hi
    have hspec := move_spec hsound m
    have hfree := hfree phase hi
    by_cases hrename : ∃ f, phase = .checked f ∧ m = .rename
    · obtain ⟨f,rfl,rfl⟩ := hrename
      exact kept_rename hsound (hfree f rfl)
    · have hsame := hspec.same fun f hphase hm => hrename ⟨f,hphase,hm⟩
      intro name content hread
      rw [hsame.read name]
      exact hread

theorem readable_move {i : ℕ} {m : Move} (h : s.Sound store p) (hfree : s.TakesFree store p i m)
    (hreadable : s.Readable store p) : (s.move store p i m).Readable store p := by
  have hkept := kept_move h hfree
  cases hi : s.calls[i]? with
  | none =>
    rw [State.move_of_none hi]
    exact hreadable
  | some phase =>
    rw [State.move_of_some hi] at hkept ⊢
    intro phase' hphase' x hx
    obtain ⟨j,hj⟩ := List.getElem?_of_mem hphase'
    rcases calls_set hi hj with ⟨-,rfl⟩ | ⟨-,hold⟩
    · rcases published_move hx with hbefore | ⟨f,rfl,rfl,rfl,hrename⟩
      · exact hkept _ _ (hreadable phase (List.mem_of_getElem? hi) x hbefore)
      · have hsound := h.calls i _ hi
        obtain ⟨d,hd,howns⟩ := hsound.1.owns
        rcases rename_cases hd howns with ⟨-,heq⟩ | ⟨-,heq⟩
        · rw [heq] at hrename
          cases hrename
        · show store.read p f.final (store.rename p f s.disk).2 = _
          rw [heq]
          exact read_eq_some.mpr ⟨f.final,hsound.1.final,hsound.2.2,hsound.2.1,
            found_renamed hd howns hsound.1.size⟩
    · exact hkept _ _ (hreadable phase' (List.mem_of_getElem? hold) x hx)

/-- No publication is lost, in any run of calls each of whose renames takes a name under which
nothing is found, and in which no two calls that are under way draw one temporary name: no step
changes or hides what can be read, and what a call has published is read back under the name that
it has returned. -/
theorem publications_kept {es : List (ℕ × Move)} (hidle : ∀ phase ∈ s.calls, phase = .idle)
    (hgood : Each (State.step store p)
      (fun s e => s.DrawsFresh e.1 e.2 ∧ s.TakesFree store p e.1 e.2) s es) :
    Each (State.step store p) (fun s e => store.Kept p s.disk (s.step store p e).disk) s es ∧
      Always (State.step store p) (State.ReadBack store p) s es := by
  have hstart : s.Sound store p ∧ s.Readable store p := by
    refine ⟨State.sound_idle hidle,?_⟩
    intro phase hphase x hx
    rw [hidle phase hphase] at hx
    cases hx
  have hstep : ∀ (s : State) (e : ℕ × Move), s.Sound store p ∧ s.Readable store p →
      s.DrawsFresh e.1 e.2 ∧ s.TakesFree store p e.1 e.2 →
        (s.step store p e).Sound store p ∧ (s.step store p e).Readable store p :=
    fun s e h hgood => ⟨State.sound_move h.1 hgood.1,readable_move h.1 hgood.2 h.2⟩
  constructor
  · apply (each_from_invariant (P:=fun s => s.Sound store p ∧ s.Readable store p) hstart hstep hgood).imp
    intro s e h
    exact kept_move h.1.1 h.2.2
  · apply (always_of_each (P:=fun s => s.Sound store p ∧ s.Readable store p) hstart hstep hgood).mono
    intro s h phase hphase copied receipt hreturned
    exact h.2 phase hphase (receipt.name,copied) (by simp [hreturned,Phase.published])

/-- The moves of one call, after it has its name. -/
def stagedMoves (i : ℕ) (content : Bytes) : List (ℕ × Move) :=
  [.openTemp (UInt64.ofNat i) false 0,.copy (.ok content) 0,.copy (.ok []) 0,.check,.rename,.stat,
    .index false 0,.unlinkTemp].map fun m => (i,m)

/-- Two calls choose one name before either of them has taken it. -/
def race : List (ℕ × Move) := [(0,.start "a"),(1,.start "a")] ++ stagedMoves 0 [1] ++ stagedMoves 1 [2]

theorem race_calls : (race.foldl (State.step small "alice") twoCalls).calls =
    [.returned [1] (.ok ⟨"a",1,0,small.sha256 [1],"alice"⟩),
      .returned [2] (.ok ⟨"a",1,0,small.sha256 [2],"alice"⟩)] := by
  decide +kernel

theorem race_read : small.read "alice" "a" (race.foldl (State.step small "alice") twoCalls).disk =
    .ok (some [2]) := by
  decide +kernel

/-- Both calls return the name, and the first content is gone. -/
theorem publication_lost : (∀ phase ∈ twoCalls.calls, phase = .idle) ∧
    ¬(Each (State.step small "alice")
        (fun s e => small.Kept "alice" s.disk (s.step small "alice" e).disk) twoCalls race ∧
      Always (State.step small "alice") (State.ReadBack small "alice") twoCalls race) := by
  refine ⟨by decide,?_⟩
  rintro ⟨-,hback⟩
  have hlast := hback.last
  have hmem : Phase.returned [1] (.ok ⟨"a",1,0,small.sha256 [1],"alice"⟩) ∈
      (race.foldl (State.step small "alice") twoCalls).calls := by
    rw [race_calls]
    simp
  have hread := hlast _ hmem [1] _ rfl
  rw [race_read] at hread
  cases hread

/-- One call after the other. -/
theorem publications_kept_apart : Always (State.step small "alice") (State.ReadBack small "alice")
    twoCalls ((0,.start "a") :: stagedMoves 0 [1] ++ (1,.start "a") :: stagedMoves 1 [2]) :=
  (publications_kept (by decide) (by decide +kernel)).2

end DownloadStore
end Storage
end CloudBrowser
