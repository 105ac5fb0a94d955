import CloudBrowser.LoginRoute
import CloudBrowser.Stateful
import Mathlib.Algebra.Group.Int.Defs

/-! The durable nonce store: one `consume` with its immediate transaction, whichever of its
statements fails, and what any sequence of calls leaves of the table. -/
namespace CloudBrowser
namespace NonceStore

open Stateful
open LoginRoute (NonceKey NonceRow Nonces)

inductive NonceError
  | valueError (message : String)
  | overflow
  | deadlineExceeded
  | full
  | sqlite
  | unavailable
  deriving DecidableEq, Repr

section Data

structure Store where
  maxRecords : ℕ := 100000
  maxRecords_pos : 0 < maxRecords

/-- The arguments of a `consume`. -/
structure Query where
  deployment : String
  audience : String
  nonce : String
  expiresAt : ℤ
  now : ℤ
  deadline : Option Time := none
  deriving DecidableEq, Repr

def Query.key (q : Query) : NonceKey := ⟨q.deployment,q.audience,q.nonce⟩

def Query.row (q : Query) : NonceRow := ⟨q.key,q.expiresAt⟩

/-- The table as it is committed, and what an open transaction has made of it. -/
structure Database where
  committed : Nonces
  working : Option Nonces := none

def Database.rows (s : Database) : Nonces := s.working.getD s.committed

def Database.begin' (s : Database) : Database := { s with working := some s.committed }

def Database.commit (s : Database) : Database := ⟨s.rows,none⟩

def Database.rollback (s : Database) : Database := { s with working := none }

def Database.prune (now : ℤ) (s : Database) : Database :=
  { s with working := some (s.rows.keep fun row => now < row.expiresAt) }

def Database.insert (row : NonceRow) (s : Database) : Database :=
  { s with working := some (s.rows.put row) }

inductive Statement
  | connect | busyTimeout | synchronous | begin' | prune | select | count | insert | commit | rollback
  deriving DecidableEq, Repr

/-- Where the deadline is checked. -/
inductive Check
  | entry | connecting | configuring | configured | begun | failed
  deriving DecidableEq, Repr

/-- What a call meets: the monotonic clock, and the statements that SQLite raises at. -/
structure Conditions where
  monotonic : Check → Time := fun _ => 0
  fails : Statement → Bool := fun _ => false

end Data

section Calls

abbrev Op (α : Type) := Stateful.Op NonceError Database α

/-- `_validate_text`. -/
def validateText (value name : String) : Except NonceError Unit :=
  if Text.bounded Text.utf8Length 256 value then .ok ()
  else .error (.valueError (name ++ " is invalid"))

/-- A parameter of a statement; SQLite has integers of 64 bits. -/
def bindInteger (n : ℤ) : Except NonceError Unit :=
  if -2^63 ≤ n ∧ n < 2^63 then .ok () else .error .overflow

variable (store : Store) (q : Query) (w : Conditions)

/-- `deadline.check`. -/
def checkDeadline (c : Check) : Except NonceError Unit :=
  if q.deadline.any (· ≤ w.monotonic c) then .error .deadlineExceeded else .ok ()

def execute (statement : Statement) (f : Database → Database) : Op Unit :=
  if w.fails statement then throw .sqlite else modify f

def fetch {α : Type} (statement : Statement) (f : Nonces → α) : Op α :=
  if w.fails statement then throw .sqlite else do return f (← get).rows

/-- `_connect`. -/
def connect : Op Unit := do
  check (checkDeadline q w .connecting)
  execute w .connect id
  check (checkDeadline q w .configuring)
  execute w .busyTimeout id
  check (checkDeadline q w .configured)
  execute w .synchronous id

/-- What `consume` does inside its `try`. -/
def transaction : Op Bool := do
  check (checkDeadline q w .entry)
  connect q w
  execute w .begin' .begin'
  check (checkDeadline q w .begun)
  check (bindInteger q.now)
  execute w .prune (.prune q.now)
  let existing ← fetch w .select fun rows => rows.find q.key
  if existing.isSome then do
    execute w .rollback .rollback
    return false
  else do
    let count ← fetch w .count fun rows => rows.rows.length
    if store.maxRecords ≤ count then do
      execute w .rollback .rollback
      throw .full
    else do
      check (bindInteger q.expiresAt)
      execute w .insert (.insert q.row)
      execute w .commit .commit
      return true

/-- The handler of SQLite's errors; a `ROLLBACK` that fails is passed over. -/
def handler : NonceError → Op Bool
  | .sqlite => do
    check (checkDeadline q w .failed)
    tryCatch (execute w .rollback .rollback) fun _ => pure ()
    throw .unavailable
  | e => throw e

def consume : Op Bool := do
  check (validateText q.deployment "deployment")
  check (validateText q.audience "audience")
  check (validateText q.nonce "nonce")
  if q.expiresAt ≤ q.now then throw (.valueError "cannot consume an expired nonce")
  else
    -- the connection is closed, and with it what is open of the transaction is gone
    ensuring (tryCatch (transaction store q w) (handler q w)) (modify .rollback)

end Calls

section Transaction

variable {store : Store} {q : Query} {w : Conditions} {table table' : Nonces} {α β : Type}
  {P P' : Database → Prop} {Q : Except NonceError α → Database → Prop} {statement : Statement}

/-- The table without what has expired at the query's reading of the clock. -/
def Query.kept (q : Query) (table : Nonces) : Nonces := table.keep fun row => q.now < row.expiresAt

/-- The query is accepted: nothing live has its key, there is room, and its row is added to
what is still live. -/
structure Accepted (store : Store) (q : Query) (table table' : Nonces) : Prop where
  fresh : ∀ row ∈ table, row.key = q.key → row.expiresAt ≤ q.now
  room : (q.kept table).rows.length < store.maxRecords
  added : table' = (q.kept table).put q.row

/-- Only a call that is accepted commits anything. -/
def Settles (store : Store) (q : Query) (table : Nonces) : Except NonceError Bool → Database → Prop
  | .ok true, s => Accepted store q table s.committed
  | _, s => s.committed = table

/-- An error commits nothing of what the transaction has done. -/
theorem settles_error {working : Option Nonces} {e : NonceError} (s : Database)
    (h : s = ⟨table,working⟩) : Settles store q table (.error e) s := congrArg Database.committed h

theorem execute_bind {f : Database → Database} {next : Unit → Op α} (hP : ∀ s, P s → P' (f s))
    (h : Triple P' (next ()) Q) (he : ∀ s, P s → Q (.error .sqlite) s) :
    Triple P (execute w statement f >>= next) Q := by
  intro s hs
  unfold execute
  split
  · exact he s hs
  · exact h (f s) (hP s hs)

theorem fetch_bind {f : Nonces → β} {next : β → Op α}
    (h : ∀ x, Triple (fun s => P s ∧ f s.rows = x) (next x) Q)
    (he : ∀ s, P s → Q (.error .sqlite) s) : Triple P (fetch w statement f >>= next) Q := by
  intro s hs
  unfold fetch
  split
  · exact he s hs
  · exact h (f s.rows) s ⟨hs,rfl⟩

theorem execute_id (s₀ : Database) : Triple (· = s₀) (execute w statement id) fun _ s => s = s₀ := by
  intro s hs
  unfold execute
  split
  · exact hs
  · exact hs

theorem connect_triple (s₀ : Database) : Triple (· = s₀) (connect q w) fun _ s => s = s₀ := by
  refine Triple.check_bind (fun _ _ => ?_) fun _ _ hs => hs
  refine Triple.bind (execute_id s₀) (fun _ => ?_) fun _ _ hs => hs
  refine Triple.check_bind (fun _ _ => ?_) fun _ _ hs => hs
  refine Triple.bind (execute_id s₀) (fun _ => ?_) fun _ _ hs => hs
  exact Triple.check_bind (fun _ _ => execute_id s₀) fun _ _ hs => hs

/-- The end of the transaction, once the pruned table has been counted. -/
theorem insert_triple (hfresh : ∀ row ∈ table, row.key = q.key → row.expiresAt ≤ q.now)
    (hroom : (q.kept table).rows.length < store.maxRecords) :
    Triple (· = ⟨table,some (q.kept table)⟩) (do
      check (bindInteger q.expiresAt)
      execute w .insert (.insert q.row)
      execute w .commit .commit
      return true) (Settles store q table) := by
  refine Triple.check_bind (fun _ _ => ?_) fun _ => settles_error
  refine @execute_bind w Bool (· = ⟨table,some (q.kept table)⟩)
    (· = ⟨table,some ((q.kept table).put q.row)⟩) _ .insert _ _ (by rintro _ rfl; rfl) ?_ settles_error
  refine @execute_bind w Bool (· = ⟨table,some ((q.kept table).put q.row)⟩)
    (· = ⟨(q.kept table).put q.row,none⟩) _ .commit _ _ (by rintro _ rfl; rfl) ?_ settles_error
  refine Triple.pure ?_
  rintro _ rfl
  exact ⟨hfresh,hroom,rfl⟩

/-- Every way out of the transaction, save its last, leaves what is committed alone. -/
theorem transaction_triple (store : Store) (q : Query) (w : Conditions) (table : Nonces) :
    Triple (· = ⟨table,none⟩) (transaction store q w) (Settles store q table) := by
  refine Triple.check_bind (fun _ _ => ?_) fun _ => settles_error
  refine Triple.bind (connect_triple _) (fun _ => ?_) fun _ => settles_error
  refine @execute_bind w Bool (· = ⟨table,none⟩) (· = ⟨table,some table⟩) _ .begin' _ _
    (by rintro _ rfl; rfl) ?_ settles_error
  refine Triple.check_bind (fun _ _ => ?_) fun _ => settles_error
  refine Triple.check_bind (fun _ _ => ?_) fun _ => settles_error
  refine @execute_bind w Bool (· = ⟨table,some table⟩) (· = ⟨table,some (q.kept table)⟩) _ .prune _ _
    (by rintro _ rfl; rfl) ?_ settles_error
  refine fetch_bind (fun existing => ?_) settles_error
  split
  · refine @execute_bind w Bool _ (·.committed = table) _ .rollback _ _
      (by rintro _ ⟨rfl,-⟩; rfl) (Triple.pure fun _ hs => hs) fun _ hs => settles_error _ hs.1
  · rename_i hnone
    refine fetch_bind (fun count => ?_) fun _ hs => settles_error _ hs.1
    split
    · refine @execute_bind w Bool _ (·.committed = table) _ .rollback _ _
        (by rintro _ ⟨⟨rfl,-⟩,-⟩; rfl) (Triple.throw fun _ hs => hs)
        fun _ hs => settles_error _ hs.1.1
    · rename_i hroom
      rintro s ⟨⟨rfl,rfl⟩,rfl⟩
      refine insert_triple (fun row hrow hkey => ?_) (Nat.not_le.mp hroom) _ rfl
      by_contra hlate
      have hlive : row ∈ q.kept table :=
        Keyed.Table.mem_keep.mpr ⟨hrow,decide_eq_true (Int.not_le.mp hlate)⟩
      have hfind : (q.kept table).find q.key = some row := Keyed.Table.find_eq_some.mpr ⟨hlive,hkey⟩
      have hsome : ((q.kept table).find q.key).isSome = true := by rw [hfind]; rfl
      exact hnone hsome

theorem handler_triple (e : NonceError) :
    Triple (·.committed = table) (handler q w e) (Settles store q table) := by
  cases e with
  | sqlite =>
    refine Triple.check_bind (fun _ _ => ?_) fun _ _ hs => hs
    have hrollback : Triple (·.committed = table) (execute w .rollback .rollback)
        fun _ s => s.committed = table := by
      intro s hs
      unfold execute
      split
      · exact hs
      · exact hs
    have hpassed : Triple (·.committed = table) (tryCatch (execute w .rollback .rollback) fun _ => pure ())
        fun _ s => s.committed = table :=
      Triple.tryCatch hrollback (fun _ _ hs => hs) fun _ => Triple.pure fun _ hs => hs
    exact Triple.bind hpassed (fun _ => Triple.throw fun _ hs => hs) fun _ _ hs => hs
  | _ => exact Triple.throw fun _ hs => hs

theorem consume_triple (store : Store) (q : Query) (w : Conditions) (table : Nonces) :
    Triple (· = ⟨table,none⟩) (consume store q w) (Settles store q table) := by
  refine Triple.check_bind (fun _ _ => ?_) fun _ => settles_error
  refine Triple.check_bind (fun _ _ => ?_) fun _ => settles_error
  refine Triple.check_bind (fun _ _ => ?_) fun _ => settles_error
  split
  · exact Triple.throw settles_error
  · refine Triple.ensuring (Triple.tryCatch (transaction_triple store q w table)
      (fun _ _ hs => hs) fun e => handler_triple e) fun r s hs => ⟨rfl,?_⟩
    rcases r with e | (_ | _)
    · exact hs
    · exact hs
    · exact hs

end Transaction

section LoginRoute

open LoginRoute (State nonceKey)

variable {server : LoginRoute.Server} {s : State} {t : ℕ}

/-- The query that the login route makes for a capability. -/
def queryOf (c : Capability.CredentialCapability) (now : ℤ) : Query :=
  ⟨c.toClaims.deployment,c.toClaims.audience,c.toClaims.nonce,c.expiresAt,now,none⟩

/-- The nonce step of the login route is the transaction, where nothing of it fails. -/
theorem transaction_login (c : Capability.CredentialCapability) (now : ℤ)
    (hnow : bindInteger now = .ok ()) (hexpires : bindInteger c.expiresAt = .ok ()) :
    (exec (transaction ⟨server.maxRecords,server.maxRecords_pos⟩ (queryOf c now) {})
      ⟨s.nonces,none⟩).2.committed = (s.consume server t c now).2.nonces := by
  have hchecked : ∀ stage, checkDeadline (queryOf c now) {} stage = .ok () := fun _ => rfl
  have hexecute : ∀ (statement : Statement) (f : Database → Database) (s : Database),
      exec (execute {} statement f) s = (.ok (),f s) := fun _ _ _ => rfl
  have hfetch : ∀ {α : Type} (statement : Statement) (f : Nonces → α) (s : Database),
      exec (fetch {} statement f) s = (.ok (f s.rows),s) := fun _ _ _ => rfl
  have hnow' : bindInteger (queryOf c now).now = .ok () := hnow
  have hexpires' : bindInteger (queryOf c now).expiresAt = .ok () := hexpires
  have hpruned : (Database.prune (queryOf c now).now (Database.begin' ⟨s.nonces,none⟩)).rows =
      s.nonces.keep fun row => now < row.expiresAt := rfl
  simp only [transaction,connect,exec_bind,hchecked,hexecute,hfetch,hnow',exec_check,id_eq,hpruned]
  unfold State.consume
  dsimp only
  by_cases hfound : ((s.nonces.keep fun row => now < row.expiresAt).find
      (nonceKey c.toClaims)).isSome = true
  · have hfound' : ((s.nonces.keep fun row => now < row.expiresAt).find
      (queryOf c now).key).isSome = true := hfound
    simp only [hfound,hfound',if_true,exec_bind,hexecute,exec_pure]
    rfl
  · have hfound' : ¬((s.nonces.keep fun row => now < row.expiresAt).find
      (queryOf c now).key).isSome = true := hfound
    simp only [hfound,hfound',Bool.false_eq_true,if_false,exec_bind,hfetch,hpruned]
    by_cases hroom : server.maxRecords ≤ (s.nonces.keep fun row => now < row.expiresAt).rows.length
    · simp only [hroom,if_true,exec_bind,hexecute,exec_throw]
      rfl
    · simp only [hroom,if_false,exec_bind,hexecute,hexpires',exec_check,exec_pure]
      rfl

end LoginRoute

section Runs

variable {store : Store} {table table' : Nonces} {calls : List (Query × Conditions)}

/-- A call, the table that it found, how it ended, and the table that it left. -/
structure Entry where
  query : Query
  before : Nonces
  outcome : Except NonceError Bool
  after : Nonces

/-- What calls come to that are made one after the other. -/
def history (store : Store) : Nonces → List (Query × Conditions) → List Entry
  | _, [] => []
  | table, (q,w)::calls =>
    let left := exec (consume store q w) ⟨table,none⟩
    ⟨q,table,left.1,left.2.committed⟩ :: history store left.2.committed calls

/-- What one call does to the table. -/
inductive Entry.Settled (store : Store) (e : Entry) : Prop
  | accepted (outcome : e.outcome = .ok true) (accepted : Accepted store e.query e.before e.after)
  | unchanged (outcome : e.outcome ≠ .ok true) (after : e.after = e.before)

theorem settled_consume (store : Store) (q : Query) (w : Conditions) (table : Nonces) :
    Entry.Settled store ⟨q,table,(exec (consume store q w) ⟨table,none⟩).1,
      (exec (consume store q w) ⟨table,none⟩).2.committed⟩ := by
  have hsettles := consume_triple store q w table ⟨table,none⟩ rfl
  rcases hr : (exec (consume store q w) ⟨table,none⟩).1 with e | accepted
  · rw [hr] at hsettles
    exact .unchanged nofun hsettles
  · rw [hr] at hsettles
    cases accepted
    · exact .unchanged nofun hsettles
    · exact .accepted rfl hsettles

theorem settled_history (store : Store) (table : Nonces) (calls : List (Query × Conditions)) :
    ∀ e ∈ history store table calls, e.Settled store := by
  induction calls generalizing table with
  | nil => simp [history]
  | cons c calls ih =>
    intro e he
    rcases List.mem_cons.mp he with rfl | he
    · exact settled_consume store c.1 c.2 table
    · exact ih _ e he

/-- The queries of a history are those of its calls. -/
theorem query_history (store : Store) (table : Nonces) (calls : List (Query × Conditions)) :
    (history store table calls).map (·.query) = calls.map (·.1) := by
  induction calls generalizing table with
  | nil => rfl
  | cons c calls ih =>
    rw [history,List.map_cons,List.map_cons,ih]

theorem Accepted.length {q : Query} (h : Accepted store q table table') :
    table'.rows.length ≤ store.maxRecords := by
  have hfresh : ∀ row ∈ q.kept table, row.key ≠ q.row.key := by
    intro row hrow hkey
    obtain ⟨hrow,hlive⟩ := Keyed.Table.mem_keep.mp hrow
    have hexpired := h.fresh row hrow hkey
    have hlive' : q.now < row.expiresAt := of_decide_eq_true hlive
    omega
  have hroom := h.room
  rw [h.added,Keyed.Table.put_rows_of_fresh hfresh,List.length_append]
  simp only [List.length_cons,List.length_nil]
  omega

/-- No call removes a row that is live at its own reading of the clock. -/
theorem Entry.Settled.spared {e : Entry} (h : e.Settled store) {row : NonceRow}
    (hrow : row ∈ e.before) (hlive : e.query.now < row.expiresAt) : row ∈ e.after := by
  cases h with
  | unchanged _ hafter =>
    rw [hafter]
    exact hrow
  | accepted _ haccepted =>
    rw [haccepted.added]
    refine Keyed.Table.mem_put.mpr (.inr ⟨Keyed.Table.mem_keep.mpr ⟨hrow,by simpa using hlive⟩,?_⟩)
    intro hkey
    have hexpired := haccepted.fresh row hrow hkey
    omega

theorem bounded_history (h : table.rows.length ≤ store.maxRecords) :
    ∀ e ∈ history store table calls, e.after.rows.length ≤ store.maxRecords := by
  induction calls generalizing table with
  | nil => simp [history]
  | cons c calls ih =>
    have hafter : (exec (consume store c.1 c.2) ⟨table,none⟩).2.committed.rows.length ≤
        store.maxRecords := by
      cases settled_consume store c.1 c.2 table with
      | accepted _ haccepted => exact haccepted.length
      | unchanged _ hsame =>
        simp only at hsame
        rwa [hsame]
    intro e he
    rcases List.mem_cons.mp he with rfl | he
    · exact hafter
    · exact ih hafter e he

/-- While clock readings do not go back, the key of a row is accepted again only once the row
has expired. -/
theorem expired_of_accepted (hmono : calls.Pairwise fun c c' => c.1.now ≤ c'.1.now) {row : NonceRow}
    (hrow : row ∈ table) : ∀ e ∈ history store table calls, e.outcome = .ok true →
      e.query.key = row.key → row.expiresAt ≤ e.query.now := by
  induction calls generalizing table with
  | nil => simp [history]
  | cons c calls ih =>
    obtain ⟨hfirst,hmono⟩ := List.pairwise_cons.mp hmono
    have hsettled := settled_consume store c.1 c.2 table
    intro e he haccepted hkey
    rcases List.mem_cons.mp he with rfl | he
    · cases hsettled with
      | accepted _ hsettled => exact hsettled.fresh row hrow hkey.symm
      | unchanged hne _ => exact absurd haccepted hne
    · by_cases hlive : c.1.now < row.expiresAt
      · exact ih hmono (hsettled.spared hrow hlive) e he haccepted hkey
      · have hquery : e.query ∈ calls.map (·.1) := by
          rw [← query_history store _ calls]
          exact List.mem_map_of_mem he
        obtain ⟨c',hc',hsame⟩ := List.mem_map.mp hquery
        have hlater := hfirst c' hc'
        rw [hsame] at hlater
        omega

/-- What a history of the store comes to: the table never outgrows its bound, a call that answers
no or finds the table full leaves it as it was, no call removes what is live for it, and while
clock readings do not go back, a nonce is accepted once until its row expires. -/
structure Law (store : Store) (entries : List Entry) : Prop where
  bounded : ∀ e ∈ entries, e.after.rows.length ≤ store.maxRecords
  refused : ∀ e ∈ entries, e.outcome = .ok false ∨ e.outcome = .error .full → e.after = e.before
  spared : ∀ e ∈ entries, ∀ row ∈ e.before, e.query.now < row.expiresAt → row ∈ e.after
  once : entries.Pairwise (fun e e' => e.query.now ≤ e'.query.now) → entries.Pairwise fun e e' =>
    e.outcome = .ok true → e'.outcome = .ok true → e.query.key = e'.query.key →
      e.query.expiresAt ≤ e'.query.now

theorem once_history (hmono : calls.Pairwise fun c c' => c.1.now ≤ c'.1.now) :
    (history store table calls).Pairwise fun e e' => e.outcome = .ok true →
      e'.outcome = .ok true → e.query.key = e'.query.key → e.query.expiresAt ≤ e'.query.now := by
  induction calls generalizing table with
  | nil => exact List.Pairwise.nil
  | cons c calls ih =>
    have hmono' := (List.pairwise_cons.mp hmono).2
    refine List.Pairwise.cons (fun e' he' haccepted haccepted' hkey => ?_) (ih hmono')
    cases settled_consume store c.1 c.2 table with
    | unchanged hne _ => exact absurd haccepted hne
    | accepted _ hsettled =>
      have hrow : c.1.row ∈ (exec (consume store c.1 c.2) ⟨table,none⟩).2.committed := by
        have hadded := hsettled.added
        simp only at hadded
        rw [hadded]
        exact Keyed.Table.mem_put.mpr (.inl rfl)
      exact expired_of_accepted hmono' hrow e' he' haccepted' hkey.symm

theorem law_history (store : Store) (calls : List (Query × Conditions)) :
    Law store (history store .empty calls) where
  bounded := bounded_history (Nat.zero_le _)
  refused e he houtcome := by
    cases settled_history store .empty calls e he with
    | unchanged _ hafter => exact hafter
    | accepted haccepted _ =>
      rw [haccepted] at houtcome
      simp at houtcome
  spared e he row := (settled_history store .empty calls e he).spared
  once hmono := by
    have hcalls : calls.Pairwise fun c c' => c.1.now ≤ c'.1.now := by
      have hqueries : ((history store .empty calls).map (·.query)).Pairwise fun q q' =>
          q.now ≤ q'.now := List.pairwise_map.mpr hmono
      rw [query_history] at hqueries
      exact (List.pairwise_map (f:=fun c : Query × Conditions => c.1)).mp hqueries
    exact once_history hcalls

end Runs
end NonceStore
end CloudBrowser
