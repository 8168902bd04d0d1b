import Ick.ConnectionPool

/-!
# The sessions of a pool

Behind a `MySqlConnection` is a session. It is null if `connect` has thrown in `open`, and the
server may close it while the connection is idle. `getConnection` hands out the first free
connection, or a new one, whatever has become of its session : `isValid` decides only whether the
connection is put in `activeConnections`, and takes one without a session for valid.

So a connection that is handed out is usable exactly when its session happens to be open
(`usable_iff_sound`), and one whose session is null is executed on all the same
(`executeCommand_eq_none`).
-/

namespace Ick

/-! ## Sessions -/

namespace MySqlConnection

/-- How `open` goes : `connect` throws, or `setSchema` throws on the session it has made, or
neither does. -/
inductive Connecting
  | connectThrows
  | setSchemaThrows
  | connects
  deriving DecidableEq

/-- The session after `open`. -/
def opened : Connecting → Option Bool
  | .connectThrows => none
  | .setSchemaThrows => some false
  | .connects => some false

/-- What the session makes of a statement : `createStatement` or the statement throws an
`SQLException`, `createStatement` gives `NULL`, or the statement runs and has so many rows. -/
inductive Statement
  | throws
  | null
  | runs (rows : ℕ)

/-- `executeQuery`; `none` where it dereferences a null session. -/
def executeQuery (session : Option Bool) (statement : Statement) : Option ℤ :=
  match session, statement with
  | none, _ => none
  | some _, .throws => some (-1)
  | some _, .null => some 0
  | some _, .runs rows => some rows

/-- `executeCommand`; `none` where it dereferences a null session. -/
def executeCommand (session : Option Bool) (statement : Statement) : Option Bool :=
  match session, statement with
  | none, _ => none
  | some _, .throws => some false
  | some _, .null => some false
  | some _, .runs _ => some true

theorem executeQuery_eq_none {session : Option Bool} {statement : Statement} :
    executeQuery session statement = none ↔ session = none := by
  cases session <;> cases statement <;> simp [executeQuery]

theorem executeCommand_eq_none {session : Option Bool} {statement : Statement} :
    executeCommand session statement = none ↔ session = none := by
  cases session <;> cases statement <;> simp [executeCommand]

end MySqlConnection

open MySqlConnection

/-! ## Sections that return -/

namespace PoolSystem

variable {s s' : PoolSystem} {client conn : ℕ} {sessions : Sessions}

theorem given_eq_holding {c : ConnectionPtr} : Client.given c = .holding conn ↔ c = some conn := by
  cases c <;> simp [Client.given]

@[simp] theorem put_clients (c : Client) (pool : ConnectionPool) :
    (s.put client c pool).clients client = c :=
  Function.update_self _ _ _

/-- A call that returns in its first section. -/
theorem getConnection_holding (h : s.step (.getConnection client sessions) = some s')
    (hholding : s'.clients client = .holding conn) :
    ∃ pool, s.pool.getConnection = some (some conn, pool) ∧
      s' = s.put client (.holding conn) (pool.trackConnection sessions (some conn)) := by
  obtain ⟨-, ⟨-, rfl⟩ | ⟨c, pool, hget, rfl⟩⟩ := step_getConnection h
  · simp at hholding
  · rw [put_clients, given_eq_holding] at hholding
    subst hholding
    exact ⟨pool, hget, rfl⟩

/-- A call that has slept does not return before its frames are left. -/
theorem wake_not_holding (h : s.step (.wake client sessions) = some s') :
    s'.clients client ≠ .holding conn := by
  obtain ⟨frames, -, ⟨-, rfl⟩ | ⟨c, pool, -, rfl⟩⟩ := step_wake h
  · simp
  · simp

/-- A call that returns from its first frame. -/
theorem unwind_holding (h : s.step (.unwind client sessions) = some s')
    (hholding : s'.clients client = .holding conn) :
    s.clients client = .unwinding (some conn) 0 ∧
      s' = s.put client (.holding conn) (s.pool.trackConnection sessions (some conn)) := by
  obtain ⟨c, ⟨hc, rfl⟩ | ⟨frames, -, rfl⟩⟩ := step_unwind h
  · rw [put_clients, given_eq_holding] at hholding
    subst hholding
    exact ⟨hc, rfl⟩
  · simp at hholding

end PoolSystem

/-! ## A pool and its sessions -/

/-- A pool with its clients, and the sessions behind its connections. -/
structure PooledSessions where
  system : PoolSystem
  sessions : Sessions

/-- The sections of the clients' calls, with what `open` does if the section calls it, and the
server's closing of a session. -/
inductive SessionEvent
  | getConnection (client : ℕ) (connecting : Connecting)
  | wake (client : ℕ) (connecting : Connecting)
  | unwind (client : ℕ)
  | releaseConnection (client : ℕ)
  | closedByServer (conn : ℕ)

/-- The client whose call of `getConnection` the section is part of. -/
def SessionEvent.caller : SessionEvent → Option ℕ
  | .getConnection client _ => some client
  | .wake client _ => some client
  | .unwind client => some client
  | .releaseConnection _ => none
  | .closedByServer _ => none

namespace PooledSessions

/-- The sessions after the first branch of `getConnection`, which opens a connection if the pool
is not exhausted and none is free. -/
def afterOpen (s : PooledSessions) (connecting : Connecting) : Sessions :=
  if s.system.pool.countActive < s.system.pool.maxActiveConnections ∧
      s.system.pool.freeConnections = [] then
    match s.system.pool.newConnection.1 with
    | some conn => Function.update s.sessions conn (opened connecting)
    | none => s.sessions
  else s.sessions

/-- One section, or the closing of a session. -/
def step (s : PooledSessions) : SessionEvent → Option PooledSessions
  | .getConnection client connecting =>
    (s.system.step (.getConnection client (s.afterOpen connecting))).map
      (⟨·, s.afterOpen connecting⟩)
  | .wake client connecting =>
    (s.system.step (.wake client (s.afterOpen connecting))).map (⟨·, s.afterOpen connecting⟩)
  | .unwind client => (s.system.step (.unwind client s.sessions)).map (⟨·, s.sessions⟩)
  | .releaseConnection client =>
    (s.system.step (.releaseConnection client)).map (⟨·, s.sessions⟩)
  | .closedByServer conn =>
    match s.sessions conn with
    | some _ => some { s with sessions := Function.update s.sessions conn (some true) }
    | none => none

/-- The section has returned `conn` from the client's call of `getConnection`. -/
def Returned (s' : PooledSessions) (e : SessionEvent) (client conn : ℕ) : Prop :=
  e.caller = some client ∧ s'.system.clients client = .holding conn

/-- The session behind the connection is not null and not closed, and the connection is in
`activeConnections`. -/
structure Usable (s : PooledSessions) (conn : ℕ) : Prop where
  session : s.sessions conn = some false
  tracked : some conn ∈ s.system.pool.activeConnections

/-- The session of the connection that the section hands on is open : that of the first free
connection, or if none is free, that which `open` makes, or that of the connection on its way to
the client. -/
def Sound (s : PooledSessions) : SessionEvent → Prop
  | .getConnection _ connecting =>
    if s.system.pool.freeConnections = [] then connecting ≠ .connectThrows
    else ∀ conn, s.system.pool.freeConnections.head? = some (some conn) →
      s.sessions conn = some false
  | .wake _ _ => True
  | .unwind client => ∀ conn frames,
      s.system.clients client = .unwinding (some conn) frames → s.sessions conn = some false
  | .releaseConnection _ => True
  | .closedByServer _ => True

variable {s s' : PooledSessions} {e : SessionEvent} {client conn : ℕ}

/-- Nothing that is executed on a usable connection dereferences a null session. -/
theorem Usable.executes (h : s.Usable conn) (statement : Statement) :
    executeQuery (s.sessions conn) statement ≠ none ∧
      executeCommand (s.sessions conn) statement ≠ none := by
  rw [Ne, executeQuery_eq_none, Ne, executeCommand_eq_none, h.session]
  exact ⟨Option.some_ne_none _, Option.some_ne_none _⟩

/-- A connection that `getConnection` has just tracked is usable if its session is open. -/
theorem usable_put_track (s : PoolSystem) (c : Client) (pool : ConnectionPool)
    (sessions : Sessions) :
    Usable ⟨s.put client c (pool.trackConnection sessions (some conn)), sessions⟩ conn ↔
      sessions conn = some false := by
  refine ⟨Usable.session, fun h => ⟨h, ?_⟩⟩
  have hvalid : ConnectionPool.isValid sessions (some conn) = true := by
    simp [ConnectionPool.isValid, Sessions.isClosed, h]
  simp [PoolSystem.put, ConnectionPool.trackConnection, hvalid]

/-- The session of the connection that `getConnection` takes off the free list or opens. -/
theorem sound_getConnection_iff {pool : ConnectionPool} (connecting : Connecting)
    (h : s.system.pool.getConnection = some (some conn, pool)) :
    s.afterOpen connecting conn = some false ↔ s.Sound (.getConnection client connecting) := by
  obtain ⟨hroom, ⟨rest, hfree, -⟩ | ⟨hfree, hconn, -⟩ | ⟨-, hnone, -⟩⟩ :=
    ConnectionPool.getConnection_cases h
  · simp [afterOpen, Sound, hfree]
  · obtain rfl := Option.some.inj hconn
    have hnew : s.system.pool.newConnection.1 = some s.system.pool.created := by
      unfold ConnectionPool.getConnection at h
      rw [if_pos hroom, hfree] at h
      exact congrArg Prod.fst (Option.some.inj h)
    cases connecting <;> simp [afterOpen, Sound, hroom, hfree, hnew, opened]
  · exact absurd hnone (Option.some_ne_none _)

/-- A connection handed out. In every state of a pool, its clients, and its sessions, a section
that returns a connection from `getConnection` leaves it usable, exactly when the session of that
connection is open. -/
theorem usable_iff_sound (h : s.step e = some s') (hreturned : s'.Returned e client conn) :
    s'.Usable conn ↔ s.Sound e := by
  obtain ⟨hcaller, hholding⟩ := hreturned
  cases e with
  | getConnection c connecting =>
    obtain rfl := Option.some.inj hcaller
    obtain ⟨system, hsystem, rfl⟩ := Option.map_eq_some_iff.1 h
    obtain ⟨pool, hget, rfl⟩ := PoolSystem.getConnection_holding hsystem hholding
    rw [usable_put_track]
    exact sound_getConnection_iff connecting hget
  | wake c connecting =>
    obtain rfl := Option.some.inj hcaller
    obtain ⟨system, hsystem, rfl⟩ := Option.map_eq_some_iff.1 h
    exact absurd hholding (PoolSystem.wake_not_holding hsystem)
  | unwind c =>
    obtain rfl := Option.some.inj hcaller
    obtain ⟨system, hsystem, rfl⟩ := Option.map_eq_some_iff.1 h
    obtain ⟨hunwinding, rfl⟩ := PoolSystem.unwind_holding hsystem hholding
    rw [usable_put_track]
    simp [Sound, hunwinding]
  | releaseConnection c => exact absurd hcaller (by simp [SessionEvent.caller])
  | closedByServer k => exact absurd hcaller (by simp [SessionEvent.caller])

/-- A pool for one connection, none of which is open, and its client. -/
def unopened : PooledSessions where
  system := ⟨.configured .MySql 1, fun _ => .idle⟩
  sessions _ := none

theorem usable_of_connects : ∃ s', unopened.step (.getConnection 0 .connects) = some s' ∧
    s'.Usable 0 := by
  refine ⟨_, rfl, (@usable_iff_sound unopened _ (.getConnection 0 .connects) 0 0 rfl
    ⟨rfl, rfl⟩).2 ?_⟩
  simp [Sound, unopened, ConnectionPool.configured]

/-- `connect` throws, and the connection without a session is handed out. -/
theorem not_usable_of_connectThrows : ¬∀ (s s' : PooledSessions) e client conn,
    s.step e = some s' → s'.Returned e client conn → s'.Usable conn := by
  intro h
  have husable := h unopened _ (.getConnection 0 .connectThrows) 0 0 rfl ⟨rfl, rfl⟩
  exact absurd husable.session (by decide)

end PooledSessions

end Ick
