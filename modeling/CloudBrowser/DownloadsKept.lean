import CloudBrowser.DownloadWatcher
import CloudBrowser.Runs

/-! What the watcher of the download directory takes away from it, against a browser that works in
the directory at the same time. -/
namespace CloudBrowser
namespace Downloads

open CloudFiles
open Directories

/-- A submission that reported success. -/
@[ext] structure Submission where
  event : BrowserDownloadCompleted
  body : Bytes
  deriving DecidableEq

/-- The directory and the watcher, with the submissions that succeeded, and the names and contents
that the watcher has removed. -/
structure World where
  dir : Directory Node
  watcher : BrowserDownloadWatcher
  accepted : List Submission := []
  removed : List (String × Bytes) := []

inductive Step
  | watcher (m : Move)
  | browser (m : BrowserMove)
  deriving DecidableEq, Repr

namespace World

def record (s : World) : Option Effect → World
  | some (.accepted event body) => { s with accepted := s.accepted ++ [⟨event,body⟩] }
  | some (.removed name content) => { s with removed := s.removed ++ [(name,content)] }
  | _ => s

def next (s : World) : Step → World
  | .watcher m =>
    let r := step s.dir s.watcher m
    { s with watcher := r.1, dir := r.2.1 }.record r.2.2
  | .browser m => { s with dir := m.apply s.dir }

/-- What is gone through the watcher was submitted as it was, all of it, with success. -/
def Lossless (s : World) : Prop :=
  ∀ r ∈ s.removed, ∃ x ∈ s.accepted,
    x.event.sourceName = r.1 ∧ x.body = r.2 ∧ x.event.size = r.2.length

instance (s : World) : Decidable s.Lossless :=
  inferInstanceAs (Decidable (∀ r ∈ s.removed, ∃ x ∈ s.accepted, _))

end World

/-- Whether the directory `d'` has another file than `d` at a path, or, after the size check, the
file there another content. -/
def Disturbs (d d' : Directory Node) (held : String × ℕ × Bool) : Prop :=
  ¬(d'.lookup held.1 = none ∨ d'.lookup held.1 = d.lookup held.1 ∧
    (held.2.2 = true → d'.node held.2.1 = d.node held.2.1))

instance (d d' : Directory Node) (held : String × ℕ × Bool) : Decidable (Disturbs d d' held) := by
  unfold Disturbs
  infer_instance

/-- A world, and whether the browser has disturbed the file that the watcher holds since it was
opened. -/
structure Observed where
  world : World
  touched : Bool := false

def disturbs (d : Directory Node) (held : String × ℕ × Bool) : Step → Bool
  | .browser m => decide (Disturbs d (m.apply d) held)
  | .watcher _ => false

def Observed.next (o : Observed) (e : Step) : Observed where
  world := o.world.next e
  touched :=
    match o.world.watcher.phase.held with
    | none => false
    | some held => o.touched || disturbs o.world.dir held e

/-- How far a submission agrees with the node that it reads. -/
def Phase.Agrees (n : Node) : Phase → Prop
  | .sending event done _ => ∃ c, n = .file c ∧ event.size = c.length ∧ done <+: c
  | .sent event body _ => n = .file body ∧ event.size = body.length
  | .consuming event body _ => n = .file body ∧ event.size = body.length
  | _ => True

/-- The path leads nowhere, or to the opened file, which the submission agrees with so far. -/
def Phase.Intact (d : Directory Node) (p : Phase) : Prop :=
  ∀ held ∈ p.held, d.lookup held.1 = none ∨
    d.lookup held.1 = some held.2.1 ∧ p.Agrees (d.node held.2.1)

/-- Before the size check there is nothing yet to agree with. -/
theorem agrees_of_unchecked {p : Phase} {name : String} {descriptor : ℕ} {n n' : Node}
    (hheld : p.held = some (name,descriptor,false)) (h : p.Agrees n) : p.Agrees n' := by
  cases p <;> simp_all [Phase.held,Phase.Agrees]

theorem intact_of_not_disturbs {d d' : Directory Node} {p : Phase} (h : p.Intact d)
    (hquiet : ∀ held ∈ p.held, ¬Disturbs d d' held) : p.Intact d' := by
  intro held hheld
  have hleft := not_not.mp (hquiet held hheld)
  by_cases hgone : d'.lookup held.1 = none
  · exact Or.inl hgone
  · have hsame := hleft.resolve_left hgone
    have hthere : d.lookup held.1 ≠ none := by rwa [hsame.1] at hgone
    have hagrees := (h held hheld).resolve_left hthere
    right
    constructor
    · rw [hsame.1]
      exact hagrees.1
    · cases hchecked : held.2.2 with
      | true =>
        rw [hsame.2 hchecked]
        exact hagrees.2
      | false =>
        have hunchecked : p.held = some (held.1,held.2.1,false) := by
          rw [← hchecked]
          exact hheld
        exact agrees_of_unchecked hunchecked hagrees.2

/-- What a chunk adds is still a start of the content, and no chunk comes only at its end. -/
theorem chunkAt_of_file {d : Directory Node} {source n : ℕ} {c done : Bytes}
    (hfile : d.node source = .file c) (hdone : done <+: c) :
    (chunkAt d source done.length n = [] → done = c) ∧
      done ++ chunkAt d source done.length n <+: c := by
  have htake : done = c.take done.length := List.prefix_iff_eq_take.mp hdone
  have hchunk : chunkAt d source done.length n = (c.drop done.length).take (min (n+1) chunkBytes) := by
    simp [chunkAt,hfile]
  rw [hchunk]
  constructor
  · intro hnone
    have hpos : min (n+1) chunkBytes ≠ 0 := by simp [chunkBytes]
    have hdrop : c.drop done.length = [] := by
      simpa only [List.take_eq_nil_iff,hpos,false_or] using hnone
    have hend : c.length ≤ done.length := by simpa using hdrop
    rw [htake,List.take_of_length_le hend]
  · have hsplit := List.take_add (l:=c) (i:=done.length) (j:=min (n+1) chunkBytes)
    rw [← htake] at hsplit
    rw [← hsplit]
    exact List.take_prefix _ _

theorem intact_of_free {d : Directory Node} {p : Phase} (h : p.held = none) : p.Intact d := by
  intro held hheld
  rw [h] at hheld
  cases hheld

section Watcher

variable {d : Directory Node} {w : BrowserDownloadWatcher} {m : Move}

theorem removed_of_step {name : String} {content : Bytes}
    (heffect : (step d w m).2.2 = some (.removed name content)) :
    m = .unlink ∧ ∃ event body rest, w.phase = .consuming event body rest ∧
      name = event.sourceName ∧ d.find name = some (.file content) := by
  have h := step_outcome d w m
  generalize step d w m = r at h heffect
  cases h with
  | unlinked event body rest hphase hmove =>
    simp only [unlinkPath] at heffect
    split at heffect <;> cases heffect
    exact ⟨hmove,event,body,rest,hphase,rfl,‹_›⟩
  | _ => cases heffect

/-- A watcher comes to take a file away only by an answer that accepts the submission. -/
theorem consuming_of_step {event : BrowserDownloadCompleted} {body : Bytes} {rest : List String}
    (hnext : (step d w m).1.phase = .consuming event body rest) :
    (step d w m).2.2 = some (.accepted event body) ∨ w.phase = .consuming event body rest := by
  have h := step_outcome d w m
  generalize step d w m = r at h hnext ⊢
  cases h with
  | same => exact Or.inr hnext
  | free p hheld hbinding =>
    have hp : p = .consuming event body rest := hnext
    simp [hp,Phase.held] at hheld
  | accepted event' body' rest' hphase =>
    cases hnext
    exact Or.inl rfl
  | _ => cases hnext

/-- The watcher's own steps keep what it holds intact. -/
theorem intact_step (hintact : w.phase.Intact d) :
    (step d w m).1.phase.Intact (step d w m).2.1 := by
  have h := step_outcome d w m
  generalize step d w m = r at h ⊢
  cases h with
  | same => exact hintact
  | free p hheld hbinding => exact intact_of_free hheld
  | bound name binding rest hconfig => exact intact_of_free rfl
  | unlinked event body rest hphase hmove => exact intact_of_free rfl
  | opened name binding descriptor rest hphase hlookup =>
    intro held hheld
    cases hheld
    exact Or.inr ⟨hlookup,trivial⟩
  | posted headers event content rest hphase hfile hsize =>
    rw [hphase] at hintact
    intro held hheld
    cases hheld
    apply (hintact _ rfl).imp_right
    intro hthere
    exact ⟨hthere.1,content,hfile,hsize,List.nil_prefix⟩
  | more event done n rest hphase =>
    rw [hphase] at hintact
    intro held hheld
    cases hheld
    apply (hintact _ rfl).imp_right
    intro hthere
    obtain ⟨hlookup,c,hfile,hsize,hdone⟩ := hthere
    exact ⟨hlookup,c,hfile,hsize,(chunkAt_of_file hfile hdone).2⟩
  | ended event done n rest hphase hend =>
    rw [hphase] at hintact
    intro held hheld
    cases hheld
    apply (hintact _ rfl).imp_right
    intro hthere
    obtain ⟨hlookup,c,hfile,hsize,hdone⟩ := hthere
    have hall : done = c := (chunkAt_of_file hfile hdone).1 hend
    have hbody : done.take event.size = c := by simp [hall,hsize]
    rw [hbody]
    exact ⟨hlookup,hfile,hsize⟩
  | accepted event body rest hphase =>
    rw [hphase] at hintact
    intro held hheld
    cases hheld
    exact hintact _ rfl

end Watcher

namespace World

variable {s : World} {e : Option Effect}

@[simp] theorem watcher_record : (s.record e).watcher = s.watcher := by
  unfold record
  split <;> rfl

@[simp] theorem dir_record : (s.record e).dir = s.dir := by
  unfold record
  split <;> rfl

theorem mem_accepted_record {x : Submission} : x ∈ (s.record e).accepted ↔
    x ∈ s.accepted ∨ e = some (.accepted x.event x.body) := by
  unfold record
  split
  · simp [eq_comm (a:=x),Submission.ext_iff]
  · simp
  · simp_all

theorem mem_removed_record {r : String × Bytes} : r ∈ (s.record e).removed ↔
    r ∈ s.removed ∨ e = some (.removed r.1 r.2) := by
  unfold record
  split
  · simp
  · simp [eq_comm (a:=r),Prod.ext_iff]
  · simp_all

end World

/-- The invariant: nothing is lost so far; what the watcher holds is intact unless it was touched;
and what it is about to take away was accepted. -/
structure Kept (o : Observed) : Prop where
  lossless : o.world.Lossless
  intact : o.touched = false → o.world.watcher.phase.Intact o.world.dir
  accepted : ∀ event body rest, o.world.watcher.phase = .consuming event body rest →
    ⟨event,body⟩ ∈ o.world.accepted

/-- When the watcher unlinks, the file it holds is untouched. -/
def Untouched (o : Observed) (e : Step) : Prop := e = .watcher .unlink → o.touched = false

instance (o : Observed) (e : Step) : Decidable (Untouched o e) :=
  inferInstanceAs (Decidable (_ → _))

theorem kept_browser {o : Observed} (ho : Kept o) (m : BrowserMove) : Kept (o.next (.browser m)) where
  lossless := ho.lossless
  accepted := ho.accepted
  intact := by
    intro huntouched
    have hheld : ∀ held ∈ o.world.watcher.phase.held,
        o.touched = false ∧ ¬Disturbs o.world.dir (m.apply o.world.dir) held := by
      intro held hheld
      have hphase : o.world.watcher.phase.held = some held := hheld
      simpa [Observed.next,hphase,disturbs] using huntouched
    cases hphase : o.world.watcher.phase.held with
    | none => exact intact_of_free hphase
    | some held =>
      have hintact := ho.intact (hheld held hphase).1
      exact intact_of_not_disturbs hintact fun held' hheld' => (hheld held' hheld').2

theorem kept_watcher {o : Observed} (ho : Kept o) (m : Move)
    (huntouched : Untouched o (.watcher m)) : Kept (o.next (.watcher m)) where
  lossless := by
    intro r hr
    rcases World.mem_removed_record.mp hr with hr | hr
    · obtain ⟨x,hx,hsame⟩ := ho.lossless r hr
      exact ⟨x,World.mem_accepted_record.mpr (Or.inl hx),hsame⟩
    · obtain ⟨rfl,event,body,rest,hphase,hname,hfind⟩ := removed_of_step hr
      have hintact := ho.intact (huntouched rfl)
      rw [hphase] at hintact
      obtain ⟨inode,hlookup,hnode⟩ := Directory.find_eq_some.mp hfind
      rw [hname] at hlookup
      have hthere : o.world.dir.lookup event.sourceName ≠ none := by simp [hlookup]
      obtain ⟨hheld,hfile,hsize⟩ := (hintact _ rfl).resolve_left hthere
      have hinode : inode = event.source := by
        rw [hlookup] at hheld
        exact Option.some.inj hheld
      have hcontent : body = r.2 := by
        rw [hinode,hfile] at hnode
        exact Node.file.inj hnode
      have haccepted := ho.accepted event body rest hphase
      exact ⟨_,World.mem_accepted_record.mpr (Or.inl haccepted),hname.symm,hcontent,hcontent ▸ hsize⟩
  accepted := by
    intro event body rest hphase
    have hstep : (step o.world.dir o.world.watcher m).1.phase = .consuming event body rest := by
      simpa [Observed.next,World.next] using hphase
    apply World.mem_accepted_record.mpr
    rcases consuming_of_step hstep with he | hold
    · exact Or.inr he
    · exact Or.inl (ho.accepted event body rest hold)
  intact := by
    intro hnext
    have hintact : o.world.watcher.phase.Intact o.world.dir := by
      cases hheld : o.world.watcher.phase.held with
      | none => exact intact_of_free hheld
      | some held =>
        apply ho.intact
        simpa [Observed.next,hheld,disturbs] using hnext
    simpa [Observed.next,World.next] using intact_step (m:=m) hintact

theorem kept_next (o : Observed) (e : Step) (ho : Kept o) (h : Untouched o e) :
    Kept (o.next e) := by
  cases e with
  | watcher m => exact kept_watcher ho m h
  | browser m => exact kept_browser ho m

/-- A watcher that begins in a directory. -/
def start (d : Directory Node) (config : DownloadWatchConfig) (client : IngestClient) : Observed where
  world := { dir := d, watcher := { config := config, client := client } }

/-- In a run in which no file that the watcher unlinks was touched since it was opened, nothing
is lost. -/
theorem nothing_lost (d : Directory Node) (config : DownloadWatchConfig) (client : IngestClient)
    (es : List Step) (h : Runs.Each Observed.next Untouched (start d config client) es) :
    Runs.Always Observed.next (fun o => o.world.Lossless) (start d config client) es := by
  have hstart : Kept (start d config client) :=
    ⟨by simp [World.Lossless,start],fun _ => intact_of_free rfl,by simp [start]⟩
  exact (Runs.always_of_each hstart kept_next h).mono fun o ho => ho.lossless

theorem principal_alice : isPrincipal "alice" = true := by decide

def aliceConfig : DownloadWatchConfig where
  binding := ⟨"alice","profile-a","browser-a","generation-a","",principal_alice,by decide⟩
  maxBytes_pos := by decide

def receiver : IngestClient :=
  ⟨"http://ingest:8080","0123456789abcdef",by decide +kernel,by decide +kernel⟩

def emptyDirectory : Directory Node := ⟨.empty,fun _ => .directory,0⟩

/-- A download of one byte is taken up to the last read, then `late` happens, and it is submitted
and unlinked. -/
def download (late : List Step) : List Step :=
  [.browser (.create "report" (.file [1])),.watcher .scan,.watcher .look,.watcher .look,
    .watcher (.bind "1"),.watcher .openFile,.watcher .fstat,.watcher (.read 0),.watcher (.read 0)] ++
    late ++ [.watcher .respond,.watcher .unlink]

theorem nothing_lost_report : Runs.Always Observed.next (fun o => o.world.Lossless)
    (start emptyDirectory aliceConfig receiver)
    (download [.browser (.create "notes" (.file [2]))]) :=
  nothing_lost _ _ _ _ (by decide +kernel)

/-- What the browser appends after the last read is gone. -/
theorem late_bytes_lost : ¬∀ (d : Directory Node) (config : DownloadWatchConfig)
    (client : IngestClient) (es : List Step),
    Runs.Always Observed.next (fun o => o.world.Lossless) (start d config client) es := by
  intro h
  have hlate := (h emptyDirectory aliceConfig receiver
    (download [.browser (.write 0 [1,2])])).last
  exact absurd hlate (by decide +kernel)

/-- So is a file that is renamed over the submitted one. -/
example : ¬((download [.browser (.create "later" (.file [3])),.browser (.rename "later" "report")]).foldl
    Observed.next (start emptyDirectory aliceConfig receiver)).world.Lossless := by decide +kernel

end Downloads
end CloudBrowser
