import CloudBrowser.KeyedTable
import CloudBrowser.Text
import Mathlib.Logic.Function.Basic

/-! The identity-link store: its table, and the calls of its service in steps of one SQL statement
each, which run at the same time over connections of their own. -/
namespace CloudBrowser
namespace IdentityLinks

structure IdentityLinkKey where
  namespace_ : String
  issuerOrRealm : String
  externalId : String
  deriving DecidableEq, Repr

/-- `_validate_key`. -/
def IdentityLinkKey.valid (key : IdentityLinkKey) : Bool :=
  ["oidc","tinyauth-local"].contains key.namespace_ &&
    [key.issuerOrRealm,key.externalId].all (Text.bounded Text.utf8Length 256)

structure IdentityLink where
  key : IdentityLinkKey
  pmoUserId : String
  createdAt : Time
  revokedAt : Option Time := none
  deriving DecidableEq

/-- The rows of `identity_links`: one for a key, by the primary key, and one for a principal. -/
structure Links where
  table : Keyed.Table IdentityLink.key
  unique : (table.rows.map IdentityLink.pmoUserId).Nodup

namespace Links

variable (links : Links)

instance : Membership IdentityLink Links := ⟨fun links r => r ∈ links.table⟩

def find (key : IdentityLinkKey) : Option IdentityLink := links.table.find key

/-- An `INSERT`, which violates a constraint where the key or the principal has a row. -/
def insert (row : IdentityLink) : Option Links :=
  if hfree : ∀ r ∈ links.table.rows, r.key ≠ row.key ∧ r.pmoUserId ≠ row.pmoUserId then
    some {
      table := links.table.put row
      unique := by
        have hrows := Keyed.Table.put_rows_of_fresh (t:=links.table) fun r hr => (hfree r hr).1
        rw [hrows,List.map_append]
        apply List.Nodup.append links.unique (List.nodup_singleton _)
        intro p hp hrow
        obtain ⟨r,hr,rfl⟩ := List.mem_map.mp hp
        exact (hfree r hr).2 (by simpa using hrow) }
  else none

def revokeRow (key : IdentityLinkKey) (now : Time) (r : IdentityLink) : IdentityLink :=
  if r.key = key ∧ r.revokedAt = none then { r with revokedAt := some now } else r

@[simp] theorem key_revokeRow (key : IdentityLinkKey) (now : Time) (r : IdentityLink) :
    (revokeRow key now r).key = r.key := by
  unfold revokeRow
  split_ifs <;> rfl

@[simp] theorem pmoUserId_revokeRow (key : IdentityLinkKey) (now : Time) (r : IdentityLink) :
    (revokeRow key now r).pmoUserId = r.pmoUserId := by
  unfold revokeRow
  split_ifs <;> rfl

/-- The `UPDATE` of `revoke`. -/
def revoke (key : IdentityLinkKey) (now : Time) : Links where
  table := links.table.mapRows (revokeRow key now) (key_revokeRow key now)
  unique := by
    have hids : IdentityLink.pmoUserId ∘ revokeRow key now = IdentityLink.pmoUserId := by
      funext r
      simp
    rw [Keyed.Table.mapRows,List.map_map,hids]
    exact links.unique

/-- The `UPDATE` changes a row. -/
def revocable (key : IdentityLinkKey) : Bool :=
  (links.find key).any fun r => r.revokedAt.isNone

variable {links} {row r : IdentityLink}

theorem mem_insert {links' : Links} (h : links.insert row = some links') :
    r ∈ links' ↔ r = row ∨ r ∈ links := by
  unfold insert at h
  split_ifs at h with hfree
  cases h
  show r ∈ links.table.put row ↔ _
  rw [Keyed.Table.mem_put]
  apply or_congr Iff.rfl
  constructor
  · exact And.left
  · intro hr
    exact ⟨hr,(hfree r hr).1⟩

theorem mem_revoke {key : IdentityLinkKey} {now : Time} :
    r ∈ links.revoke key now ↔ ∃ r' ∈ links, revokeRow key now r' = r := by
  show r ∈ links.table.mapRows (revokeRow key now) (key_revokeRow key now) ↔ _
  exact Keyed.Table.mem_mapRows

theorem find_eq_some {key : IdentityLinkKey} : links.find key = some r ↔ r ∈ links ∧ r.key = key :=
  Keyed.Table.find_eq_some

/-- A principal has one row. -/
theorem eq_of_pmoUserId {r' : IdentityLink} (hr : r ∈ links) (hr' : r' ∈ links)
    (h : r.pmoUserId = r'.pmoUserId) : r = r' :=
  List.inj_on_of_nodup_map links.unique hr hr' h

end Links

inductive Call
  | resolve (key : IdentityLinkKey) (groups : List String)
  | revoke (key : IdentityLinkKey)
  deriving DecidableEq

/-- What a call returns: a principal or none, whether it revoked; or it raises. -/
inductive Answer
  | principal (id : Option String)
  | revoked (done : Bool)
  | raised
  deriving DecidableEq

/-- Where a call stands; from `selecting` on it is in a transaction. -/
inductive Phase
  | entered
  | selecting
  | missing
  | inserted (row : IdentityLink)
  | done (answer : Answer)
  deriving DecidableEq

def Phase.inTransaction : Phase → Bool
  | .selecting | .missing | .inserted _ => true
  | _ => false

/-- A call under way, and how many calls had returned when it began. -/
structure Running where
  call : Call
  began : ℕ
  phase : Phase := .entered

/-- A call that has returned. -/
structure Returned where
  call : Call
  began : ℕ
  answer : Answer
  deriving DecidableEq

/-- The committed rows, the call that holds the write lock of the database, the calls under way,
and those that have returned, in this order. -/
structure Service where
  links : Links
  writer : Option ℕ := none
  calls : ℕ → Option Running := fun _ => none
  log : List Returned := []

/-- The statements of the calls, with the token and the time that they take. A failing commit, or
update, may have taken effect. -/
inductive Statement
  | begin
  | select
  | insert (token : String) (now : Time)
  | commit
  | update (now : Time)
  | fail (effective : Bool) (now : Time)
  | answer
  deriving DecidableEq

inductive Event
  | call (t : ℕ) (c : Call)
  | statement (t : ℕ) (x : Statement)
  | crash
  deriving DecidableEq

namespace Service

variable (s : Service)

def put (t : ℕ) (r : Option Running) : Service := { s with calls := Function.update s.calls t r }

/-- The call goes on in another phase. -/
def move (t : ℕ) (r : Running) (phase : Phase) : Service := s.put t (some { r with phase := phase })

/-- The transaction of a call ends, and the call with it. -/
def finish (t : ℕ) (r : Running) (answer : Answer) : Service :=
  { s with writer := none }.move t r (.done answer)

/-- `resolve` up to the beginning of its transaction. -/
def beginResolve (t : ℕ) (r : Running) (key : IdentityLinkKey) (groups : List String) : Service :=
  if ¬key.valid then s.move t r (.done .raised)
  else if "PMOC_Users" ∉ groups then s.move t r (.done (.principal none))
  else if s.writer = none then { s with writer := some t }.move t r .selecting
  else s

def select (t : ℕ) (r : Running) (key : IdentityLinkKey) : Service :=
  match s.links.find key with
  | some row => s.finish t r (.principal (if row.revokedAt.isSome then none else some row.pmoUserId))
  | none => s.move t r .missing

def insertRow (t : ℕ) (r : Running) (key : IdentityLinkKey) (token : String) (now : Time) : Service :=
  if (s.links.insert ⟨key,"pmo-" ++ token,now,none⟩).isSome then
    s.move t r (.inserted ⟨key,"pmo-" ++ token,now,none⟩)
  else s.finish t r .raised

def withRow (row : IdentityLink) : Service := { s with links := (s.links.insert row).getD s.links }

/-- `revoke`, whose update is a transaction of its own. -/
def update (t : ℕ) (r : Running) (key : IdentityLinkKey) (now : Time) : Service :=
  if ¬key.valid then s.move t r (.done .raised)
  else if s.writer = none then
    { s with links := s.links.revoke key now }.move t r (.done (.revoked (s.links.revocable key)))
  else s

/-- A statement fails: the transaction is rolled back, if there is one, and the call raises. -/
def fail (t : ℕ) (r : Running) (effective : Bool) (now : Time) : Service :=
  match r.phase, r.call with
  | .entered, .revoke key =>
    if effective ∧ s.writer = none then
      { s with links := s.links.revoke key now }.move t r (.done .raised)
    else s.move t r (.done .raised)
  | .entered, _ => s.move t r (.done .raised)
  | .inserted row, _ => if effective then (s.withRow row).finish t r .raised else s.finish t r .raised
  | .selecting, _ => s.finish t r .raised
  | .missing, _ => s.finish t r .raised
  | .done _, _ => s

def answer (t : ℕ) (r : Running) (answer : Answer) : Service :=
  ({ s with log := s.log ++ [(⟨r.call,r.began,answer⟩ : Returned)] } : Service).put t none

/-- One statement of a call; one that does not come next changes nothing. -/
def execute (t : ℕ) (r : Running) (x : Statement) : Service :=
  match r.phase, r.call, x with
  | .entered, .resolve key groups, .begin => s.beginResolve t r key groups
  | .selecting, .resolve key _, .select => s.select t r key
  | .missing, .resolve key _, .insert token now => s.insertRow t r key token now
  | .inserted row, .resolve _ _, .commit =>
    (s.withRow row).finish t r (.principal (some row.pmoUserId))
  | .entered, .revoke key, .update now => s.update t r key now
  | .done answer, _, .answer => s.answer t r answer
  | _, _, .fail effective now => s.fail t r effective now
  | _, _, _ => s

def next (s : Service) : Event → Service
  | .call t c => if s.calls t = none then s.put t (some ⟨c,s.log.length,.entered⟩) else s
  | .statement t x =>
    match s.calls t with
    | none => s
    | some r => s.execute t r x
  | .crash => { s with writer := none, calls := fun _ => none }

end Service
end IdentityLinks
end CloudBrowser
