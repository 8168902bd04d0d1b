import Ick.Reach
import Mathlib.Data.Set.Card

/-!
# The connection pool

`ConnectionPool` keeps the idle connections in `freeConnections`, the connections it has
handed out in `activeConnections`, and their number in `countActive`. A client calls
`getConnection`, which sleeps and calls itself again while `countActive` is not below
`maxActiveConnections`, and later `releaseConnection` with the connection it was given.

A system is one pool with any number of clients. `getConnection` runs in sections, each
atomic : its entry (`Event.getConnection`), each recursive entry after `msleep`
(`Event.wake`), and, once the recursion has returned, the bookkeeping of each suspended
frame (`Event.unwind`), which the source reaches by falling through the `else` branch.
`releaseConnection` is one section.

`releaseConnection` declares a local `conn` that hides its argument, so it moves the
oldest active connection whatever it is called with. Ownership is exclusive as long as
every client releases the oldest active connection (`exclusive_of_oldestFirst`), and the
counter is exact as long as no call finds the pool exhausted (`accounted_of_roomy`).
-/

set_option linter.unusedSectionVars false

namespace Ick

/-! ## The pool -/

/-- `EDataBaseType` -/
inductive EDataBaseType
  | MySql
  | Oracle
  | SqlServer
  deriving DecidableEq, Repr

/-- A `Connection*`, `none` for `NULL`. Connections are numbered as they are created. -/
abbrev ConnectionPtr := Option ℕ

/-- The sessions behind the connections as one call sees them : `none` for a connection
whose `connection_` is null, else whether its session is closed. -/
abbrev Sessions := ℕ → Option Bool

/-- `MySqlConnection::isClosed` : a connection without a session is not closed. -/
def Sessions.isClosed (sessions : Sessions) (conn : ℕ) : Bool :=
  (sessions conn).getD false

/-- The members of `ConnectionPool` that `make`, `getConnection`, and `releaseConnection`
read or write, and the number of connections created so far. -/
structure ConnectionPool where
  dbType : EDataBaseType
  maxActiveConnections : ℤ
  freeConnections : List ConnectionPtr
  activeConnections : List ConnectionPtr
  countActive : ℤ
  created : ℕ

namespace ConnectionPool

/-- The pool after its constructor and its configuration. -/
def configured (dbType : EDataBaseType) (maxActiveConnections : ℤ) : ConnectionPool where
  dbType := dbType
  maxActiveConnections := maxActiveConnections
  freeConnections := []
  activeConnections := []
  countActive := 0
  created := 0

/-- `newConnection` : only `MySql` has an implementation, the other types give `NULL`. -/
def newConnection (p : ConnectionPool) : ConnectionPtr × ConnectionPool :=
  match p.dbType with
  | .MySql => (some p.created, { p with created := p.created + 1 })
  | .Oracle => (none, p)
  | .SqlServer => (none, p)

/-- `isValid` -/
def isValid (sessions : Sessions) : ConnectionPtr → Bool
  | none => false
  | some conn => !sessions.isClosed conn

/-- The loop of `make`, which fills `freeConnections`; `none` when it throws because a
new connection is closed right after it was opened. -/
def make (sessions : Sessions) : ℕ → ConnectionPool → Option ConnectionPool
  | 0, p => some p
  | i + 1, p =>
    match p.newConnection with
    | (none, p) => make sessions i p
    | (some conn, p) =>
      if isValid sessions (some conn) then
        make sessions i { p with freeConnections := p.freeConnections ++ [some conn] }
      else none

/-- The first branch of `getConnection` : a connection off the front of
`freeConnections`, or a new one; `none` when the pool is exhausted. -/
def getConnection (p : ConnectionPool) : Option (ConnectionPtr × ConnectionPool) :=
  if p.countActive < p.maxActiveConnections then
    match p.freeConnections with
    | conn :: rest => some (conn, { p with freeConnections := rest })
    | [] => some p.newConnection
  else none

/-- The end of `getConnection`, which every frame of the recursion runs. -/
def trackConnection (sessions : Sessions) (conn : ConnectionPtr) (p : ConnectionPool) :
    ConnectionPool :=
  if isValid sessions conn then
    { p with
      activeConnections := p.activeConnections ++ [conn]
      countActive := p.countActive + 1 }
  else p

/-- The first element of a list of connections that is not `NULL`. -/
def firstConnection (conns : List ConnectionPtr) : ConnectionPtr :=
  conns.find? Option.isSome |>.join

/-- `releaseConnection` : the argument is hidden by the local `conn` of the loop, which
stops at the first active connection that is not `NULL`. `list::remove` drops every
element equal to it. -/
def releaseConnection (p : ConnectionPool) (_conn : ConnectionPtr) : ConnectionPool :=
  match firstConnection p.activeConnections with
  | none => p
  | some conn =>
    { p with
      activeConnections := p.activeConnections.filter (· ≠ some conn)
      freeConnections := p.freeConnections ++ [some conn]
      countActive := p.countActive - 1 }

end ConnectionPool

/-! ## A pool and its clients -/

/-- Where a client is : outside the pool, asleep in `getConnection` below `frames`
suspended calls, returning `conn` through the `frames + 1` calls that are left, or
holding a connection it was given. -/
inductive Client
  | idle
  | sleeping (frames : ℕ)
  | unwinding (conn : ConnectionPtr) (frames : ℕ)
  | holding (conn : ℕ)
  deriving DecidableEq

/-- The client after `getConnection` has returned `conn`. -/
def Client.given : ConnectionPtr → Client
  | none => .idle
  | some conn => .holding conn

/-- The connection on its way to a client or held by it. -/
def Client.owned : Client → ConnectionPtr
  | .idle => none
  | .sleeping _ => none
  | .unwinding conn _ => conn
  | .holding conn => some conn

/-- The client is in no call of the pool. -/
def Client.Outside : Client → Prop
  | .idle => True
  | .sleeping _ => False
  | .unwinding _ _ => False
  | .holding _ => True

/-- One pool and its clients. -/
structure PoolSystem where
  pool : ConnectionPool
  clients : ℕ → Client

/-- The atomic sections of the clients' calls, with the sessions as the section sees
them. -/
inductive PoolEvent
  | getConnection (client : ℕ) (sessions : Sessions)
  | wake (client : ℕ) (sessions : Sessions)
  | unwind (client : ℕ) (sessions : Sessions)
  | releaseConnection (client : ℕ)

namespace PoolSystem

/-- The pool and one client after a section. -/
def put (s : PoolSystem) (client : ℕ) (c : Client) (pool : ConnectionPool) : PoolSystem where
  pool := pool
  clients := Function.update s.clients client c

/-- One section. A client releases only the connection it was given, and only once. -/
def step (s : PoolSystem) : PoolEvent → Option PoolSystem
  | .getConnection client sessions =>
    match s.clients client with
    | .idle =>
      match s.pool.getConnection with
      | none => some (s.put client (.sleeping 0) s.pool)
      | some (conn, pool) =>
        some (s.put client (.given conn) (pool.trackConnection sessions conn))
    | _ => none
  | .wake client sessions =>
    match s.clients client with
    | .sleeping frames =>
      match s.pool.getConnection with
      | none => some (s.put client (.sleeping (frames + 1)) s.pool)
      | some (conn, pool) =>
        some (s.put client (.unwinding conn frames) (pool.trackConnection sessions conn))
    | _ => none
  | .unwind client sessions =>
    match s.clients client with
    | .unwinding conn 0 =>
      some (s.put client (.given conn) (s.pool.trackConnection sessions conn))
    | .unwinding conn (frames + 1) =>
      some (s.put client (.unwinding conn frames) (s.pool.trackConnection sessions conn))
    | _ => none
  | .releaseConnection client =>
    match s.clients client with
    | .holding conn => some (s.put client .idle (s.pool.releaseConnection (some conn)))
    | _ => none

/-- A pool that `make` has filled, and no client in it. -/
def Made (s : PoolSystem) : Prop :=
  ∃ dbType maxActiveConnections initConnections sessions,
    ConnectionPool.make sessions initConnections
      (ConnectionPool.configured dbType maxActiveConnections) = some s.pool ∧
    ∀ client, s.clients client = .idle

end PoolSystem

/-! ## What a section does to the lists -/

namespace ConnectionPool

variable {p p' : ConnectionPool} {conn : ConnectionPtr} {sessions : Sessions}

@[simp] theorem trackConnection_free :
    (trackConnection sessions conn p).freeConnections = p.freeConnections := by
  unfold trackConnection
  split_ifs <;> rfl

@[simp] theorem trackConnection_created :
    (trackConnection sessions conn p).created = p.created := by
  unfold trackConnection
  split_ifs <;> rfl

/-- `getConnection` hands out the first free connection, a new one if none is free, or
`NULL` if there is no implementation for the database. -/
theorem getConnection_cases (h : p.getConnection = some (conn, p')) :
    p.countActive < p.maxActiveConnections ∧
      ((∃ rest, p.freeConnections = conn :: rest ∧ p' = { p with freeConnections := rest }) ∨
        (p.freeConnections = [] ∧ conn = some p.created ∧
          p' = { p with created := p.created + 1 }) ∨
        (p.freeConnections = [] ∧ conn = none ∧ p' = p)) := by
  unfold getConnection at h
  split_ifs at h with hlt
  refine ⟨hlt, ?_⟩
  cases hfree : p.freeConnections with
  | cons head rest =>
    simp only [hfree, Option.some.injEq, Prod.mk.injEq] at h
    obtain ⟨rfl, rfl⟩ := h
    exact Or.inl ⟨rest, rfl, rfl⟩
  | nil =>
    simp only [hfree, Option.some.injEq] at h
    unfold newConnection at h
    cases hdb : p.dbType <;> simp only [hdb, Prod.mk.injEq] at h
    · exact Or.inr (Or.inl ⟨rfl, h.1.symm, by rw [← h.2, hfree]⟩)
    · exact Or.inr (Or.inr ⟨rfl, h.1.symm, h.2.symm⟩)
    · exact Or.inr (Or.inr ⟨rfl, h.1.symm, h.2.symm⟩)

theorem getConnection_eq_none (h : p.getConnection = none) :
    p.maxActiveConnections ≤ p.countActive := by
  unfold getConnection at h
  split_ifs at h with hlt
  · split at h <;> simp at h
  · omega

theorem firstConnection_cons_some (k : ℕ) (conns : List ConnectionPtr) :
    firstConnection (some k :: conns) = some k := by
  simp [firstConnection]

theorem releaseConnection_eq {k : ℕ} (h : firstConnection p.activeConnections = some k)
    (conn : ConnectionPtr) : p.releaseConnection conn =
      { p with
        activeConnections := p.activeConnections.filter (· ≠ some k)
        freeConnections := p.freeConnections ++ [some k]
        countActive := p.countActive - 1 } := by
  simp [releaseConnection, h]

/-- `make` only appends new connections to the free list. -/
theorem make_eq_some {n : ℕ} : ∀ {p : ConnectionPool}, make sessions n p = some p' →
    p'.activeConnections = p.activeConnections ∧ p'.countActive = p.countActive ∧
      p'.maxActiveConnections = p.maxActiveConnections ∧
      ∃ k, p'.created = p.created + k ∧
        p'.freeConnections = p.freeConnections ++ (List.range' p.created k).map some := by
  induction n with
  | zero =>
    intro p h
    simp only [make, Option.some.injEq] at h
    subst h
    exact ⟨rfl, rfl, rfl, 0, rfl, by simp⟩
  | succ n ih =>
    intro p h
    cases hdb : p.dbType with
    | MySql =>
      simp only [make, newConnection, hdb] at h
      split_ifs at h with hv
      obtain ⟨ha, hc, hm, k, hk, hf⟩ := ih h
      refine ⟨ha, hc, hm, k + 1, by simp only [hk]; omega, ?_⟩
      simp only [hf, List.append_assoc, List.singleton_append, List.range'_succ, List.map_cons]
    | Oracle => exact ih (by simpa only [make, newConnection, hdb] using h)
    | SqlServer => exact ih (by simpa only [make, newConnection, hdb] using h)

end ConnectionPool

/-! ## Sections -/

namespace PoolSystem

section Sections

variable {s s' : PoolSystem} {client : ℕ} {sessions : Sessions}

theorem step_getConnection (h : s.step (.getConnection client sessions) = some s') :
    s.clients client = .idle ∧
      ((s.pool.getConnection = none ∧ s' = s.put client (.sleeping 0) s.pool) ∨
        ∃ conn pool, s.pool.getConnection = some (conn, pool) ∧
          s' = s.put client (.given conn) (pool.trackConnection sessions conn)) := by
  cases hc : s.clients client <;> simp only [step, hc, reduceCtorEq] at h
  refine ⟨rfl, ?_⟩
  cases hget : s.pool.getConnection with
  | none =>
    rw [hget] at h
    exact Or.inl ⟨rfl, (Option.some.inj h).symm⟩
  | some r =>
    rw [hget] at h
    exact Or.inr ⟨r.1, r.2, rfl, (Option.some.inj h).symm⟩

theorem step_wake (h : s.step (.wake client sessions) = some s') :
    ∃ frames, s.clients client = .sleeping frames ∧
      ((s.pool.getConnection = none ∧ s' = s.put client (.sleeping (frames + 1)) s.pool) ∨
        ∃ conn pool, s.pool.getConnection = some (conn, pool) ∧
          s' = s.put client (.unwinding conn frames) (pool.trackConnection sessions conn)) := by
  cases hc : s.clients client <;> simp only [step, hc, reduceCtorEq] at h
  refine ⟨_, rfl, ?_⟩
  cases hget : s.pool.getConnection with
  | none =>
    rw [hget] at h
    exact Or.inl ⟨rfl, (Option.some.inj h).symm⟩
  | some r =>
    rw [hget] at h
    exact Or.inr ⟨r.1, r.2, rfl, (Option.some.inj h).symm⟩

theorem step_unwind (h : s.step (.unwind client sessions) = some s') :
    ∃ conn, (s.clients client = .unwinding conn 0 ∧
        s' = s.put client (.given conn) (s.pool.trackConnection sessions conn)) ∨
      ∃ frames, s.clients client = .unwinding conn (frames + 1) ∧
        s' = s.put client (.unwinding conn frames) (s.pool.trackConnection sessions conn) := by
  cases hc : s.clients client <;> simp only [step, hc, reduceCtorEq] at h
  rename_i conn frames
  refine ⟨conn, ?_⟩
  cases frames with
  | zero => exact Or.inl ⟨rfl, (Option.some.inj h).symm⟩
  | succ frames => exact Or.inr ⟨frames, rfl, (Option.some.inj h).symm⟩

theorem step_releaseConnection (h : s.step (.releaseConnection client) = some s') :
    ∃ conn, s.clients client = .holding conn ∧
      s' = s.put client .idle (s.pool.releaseConnection (some conn)) := by
  cases hc : s.clients client <;> simp only [step, hc, reduceCtorEq] at h
  exact ⟨_, rfl, (Option.some.inj h).symm⟩

end Sections

/-! ## Exclusive ownership -/

variable {s s' : PoolSystem}

/-- A connection a client holds is held by no other client and is not free. -/
structure Exclusive (s : PoolSystem) : Prop where
  once : ∀ c c' conn, s.clients c = .holding conn → s.clients c' = .holding conn → c = c'
  notFree : ∀ c conn, s.clients c = .holding conn → some conn ∉ s.pool.freeConnections

/-- The section from `s` to `s'` moves `conn`, and nothing else, from the active to the
free connections. -/
def MovesExactly (conn : ℕ) (s s' : PoolSystem) : Prop :=
  some conn ∈ s.pool.activeConnections ∧
    s'.pool.activeConnections = s.pool.activeConnections.filter (· ≠ some conn) ∧
    s'.pool.freeConnections = s.pool.freeConnections ++ [some conn]

/-- A release is guarded by its connection being the oldest active one. -/
def OldestFirst (s : PoolSystem) : PoolEvent → Prop
  | .getConnection _ _ => True
  | .wake _ _ => True
  | .unwind _ _ => True
  | .releaseConnection client =>
    (s.clients client).owned = ConnectionPool.firstConnection s.pool.activeConnections

/-- The invariant behind `Exclusive` : connections are created before they are used, and
the free list and the clients share none of them. -/
structure Owned (s : PoolSystem) : Prop where
  freeCreated : ∀ conn ∈ s.pool.freeConnections, ∃ k < s.pool.created, conn = some k
  ownedCreated : ∀ c k, (s.clients c).owned = some k → k < s.pool.created
  nodup : s.pool.freeConnections.Nodup
  once : ∀ c c' k, (s.clients c).owned = some k → (s.clients c').owned = some k → c = c'
  notFree : ∀ c k, (s.clients c).owned = some k → some k ∉ s.pool.freeConnections

theorem Owned.exclusive (h : Owned s) : Exclusive s where
  once c c' conn hc hc' := h.once c c' conn (by rw [hc]; rfl) (by rw [hc']; rfl)
  notFree c conn hc := h.notFree c conn (by rw [hc]; rfl)

theorem owned_given (conn : ConnectionPtr) : (Client.given conn).owned = conn := by
  cases conn <;> rfl

theorem owned_put (client : ℕ) (c : Client) (pool : ConnectionPool) (c' : ℕ) :
    ((s.put client c pool).clients c').owned =
      if c' = client then c.owned else (s.clients c').owned := by
  unfold put
  by_cases h : c' = client
  · subst h
    simp
  · simp [h]

theorem Made.owned (h : Made s) : Owned s := by
  obtain ⟨dbType, max, n, sessions, hmake, hidle⟩ := h
  obtain ⟨-, -, -, k, hk, hf⟩ := ConnectionPool.make_eq_some hmake
  simp only [ConnectionPool.configured, List.nil_append, zero_add] at hk hf
  have hnone : ∀ c, (s.clients c).owned = none := fun c => by rw [hidle c]; rfl
  refine ⟨?_, ?_, ?_, ?_, ?_⟩
  · intro conn hconn
    rw [hf] at hconn
    obtain ⟨i, hi, rfl⟩ := List.mem_map.1 hconn
    exact ⟨i, by rw [hk]; simpa [List.mem_range'_1] using hi, rfl⟩
  · intro c i hi
    simp [hnone] at hi
  · rw [hf]
    exact (List.nodup_range' 1).map (Option.some_injective _)
  · intro c c' i hi
    simp [hnone] at hi
  · intro c i hi
    simp [hnone] at hi

/-- A client that keeps what it owns. -/
theorem Owned.keep (h : Owned s) {client : ℕ} {c : Client} {pool : ConnectionPool}
    (hc : c.owned = (s.clients client).owned)
    (hfree : pool.freeConnections = s.pool.freeConnections)
    (hcreated : pool.created = s.pool.created) : Owned (s.put client c pool) := by
  have hown : ∀ c', ((s.put client c pool).clients c').owned = (s.clients c').owned := by
    intro c'
    rw [owned_put]
    split_ifs with h
    · rw [hc, h]
    · rfl
  have hfree' : (s.put client c pool).pool.freeConnections = s.pool.freeConnections := hfree
  have hcreated' : (s.put client c pool).pool.created = s.pool.created := hcreated
  exact ⟨by simpa only [hfree', hcreated'] using h.freeCreated,
    by simpa only [hown, hcreated'] using h.ownedCreated,
    by simpa only [hfree'] using h.nodup, by simpa only [hown] using h.once,
    by simpa only [hown, hfree'] using h.notFree⟩

/-- A connection that nobody owns is handed to one client. -/
theorem Owned.once_put (h : Owned s) {client k : ℕ} {c : Client} (pool : ConnectionPool)
    (hc : c.owned = some k) (hother : ∀ c', (s.clients c').owned ≠ some k) (c₁ c₂ i : ℕ)
    (h₁ : ((s.put client c pool).clients c₁).owned = some i)
    (h₂ : ((s.put client c pool).clients c₂).owned = some i) : c₁ = c₂ := by
  rw [owned_put] at h₁ h₂
  split_ifs at h₁ h₂ with hc₁ hc₂ hc₂
  · rw [hc₁, hc₂]
  · exact absurd (h₂.trans (h₁.symm.trans hc)) (hother c₂)
  · exact absurd (h₁.trans (h₂.symm.trans hc)) (hother c₁)
  · exact h.once c₁ c₂ i h₁ h₂

/-- A client is handed the first free connection. -/
theorem Owned.give_free (h : Owned s) {client : ℕ} {c : Client} {pool : ConnectionPool}
    (hfree : s.pool.freeConnections = c.owned :: pool.freeConnections)
    (hcreated : pool.created = s.pool.created) : Owned (s.put client c pool) := by
  obtain ⟨k, hk, hck⟩ := h.freeCreated c.owned (by rw [hfree]; simp)
  have hnd := h.nodup
  rw [hfree] at hnd
  have hrest : ∀ x ∈ pool.freeConnections, x ∈ s.pool.freeConnections := fun x hx => by
    rw [hfree]
    exact List.mem_cons_of_mem _ hx
  have hother : ∀ c', (s.clients c').owned ≠ some k := fun c' hc' =>
    h.notFree c' k hc' (by rw [hfree, hck]; simp)
  refine ⟨?_, ?_, (List.nodup_cons.1 hnd).2, h.once_put pool hck hother, ?_⟩
  · intro x hx
    change ∃ k < pool.created, x = some k
    rw [hcreated]
    exact h.freeCreated x (hrest x hx)
  · intro c' i hi
    change i < pool.created
    rw [owned_put] at hi
    rw [hcreated]
    split_ifs at hi with hcl
    · rw [hck, Option.some.injEq] at hi
      omega
    · exact h.ownedCreated c' i hi
  · intro c' i hi hmem
    rw [owned_put] at hi
    split_ifs at hi with hcl
    · exact (List.nodup_cons.1 hnd).1 (hi ▸ hmem)
    · exact h.notFree c' i hi (hrest _ hmem)

/-- A client is handed a new connection. -/
theorem Owned.give_new (h : Owned s) {client : ℕ} {c : Client} {pool : ConnectionPool}
    (hc : c.owned = some s.pool.created) (hfree : pool.freeConnections = [])
    (hcreated : pool.created = s.pool.created + 1) : Owned (s.put client c pool) := by
  have hother : ∀ c', (s.clients c').owned ≠ some s.pool.created := fun c' hc' =>
    absurd (h.ownedCreated c' _ hc') (by omega)
  have hnone : (s.put client c pool).pool.freeConnections = [] := hfree
  refine ⟨?_, ?_, ?_, h.once_put pool hc hother, ?_⟩
  · intro x hx
    rw [hnone] at hx
    exact absurd hx List.not_mem_nil
  · intro c' i hi
    change i < pool.created
    rw [owned_put] at hi
    split_ifs at hi with hcl
    · rw [hc, Option.some.injEq] at hi
      omega
    · have := h.ownedCreated c' i hi
      omega
  · rw [hnone]
    exact List.nodup_nil
  · intro c' i _ hmem
    rw [hnone] at hmem
    exact absurd hmem List.not_mem_nil

/-- A client that owned nothing and is handed the connection `getConnection` chose. -/
theorem Owned.give (h : Owned s) {client : ℕ} {c : Client} {pool pool' : ConnectionPool}
    (hnone : (s.clients client).owned = none)
    (hget : s.pool.getConnection = some (c.owned, pool))
    (hfree : pool'.freeConnections = pool.freeConnections)
    (hcreated : pool'.created = pool.created) : Owned (s.put client c pool') := by
  obtain ⟨-, ⟨rest, hcons, rfl⟩ | ⟨hnil, hnew, rfl⟩ | ⟨hnil, hnull, rfl⟩⟩ :=
    ConnectionPool.getConnection_cases hget
  · exact h.give_free (by rw [hcons, hfree]) hcreated
  · exact h.give_new hnew (hfree.trans hnil) hcreated
  · exact h.keep (hnull.trans hnone.symm) hfree hcreated

/-- A client that releases the oldest active connection, its own. -/
theorem Owned.release (h : Owned s) {client k : ℕ} (hclient : s.clients client = .holding k)
    (hfirst : ConnectionPool.firstConnection s.pool.activeConnections = some k) :
    Owned (s.put client .idle (s.pool.releaseConnection (some k))) := by
  have hk : (s.clients client).owned = some k := by rw [hclient]; rfl
  have hput : ∀ c' i, ((s.put client .idle (s.pool.releaseConnection (some k))).clients
      c').owned = some i → c' ≠ client ∧ (s.clients c').owned = some i := by
    intro c' i hi
    rw [owned_put] at hi
    split_ifs at hi with hcl
    · simp [Client.owned] at hi
    · exact ⟨hcl, hi⟩
  have hfree : (s.put client .idle (s.pool.releaseConnection (some k))).pool.freeConnections =
      s.pool.freeConnections ++ [some k] := by
    simp only [put, ConnectionPool.releaseConnection_eq hfirst]
  have hcreated : (s.put client .idle (s.pool.releaseConnection (some k))).pool.created =
      s.pool.created := by
    simp only [put, ConnectionPool.releaseConnection_eq hfirst]
  refine ⟨?_, ?_, ?_, ?_, ?_⟩
  · intro x hx
    rw [hfree, List.mem_append, List.mem_singleton] at hx
    rw [hcreated]
    rcases hx with hx | rfl
    · exact h.freeCreated x hx
    · exact ⟨k, h.ownedCreated client k hk, rfl⟩
  · intro c' i hi
    rw [hcreated]
    exact h.ownedCreated c' i (hput c' i hi).2
  · rw [hfree, List.nodup_append]
    refine ⟨h.nodup, by simp, ?_⟩
    intro x hx y hy hxy
    rw [List.mem_singleton] at hy
    exact h.notFree client k hk (by rwa [hxy, hy] at hx)
  · intro c₁ c₂ i h₁ h₂
    exact h.once c₁ c₂ i (hput c₁ i h₁).2 (hput c₂ i h₂).2
  · intro c' i hi hmem
    obtain ⟨hne, hown⟩ := hput c' i hi
    rw [hfree, List.mem_append, List.mem_singleton, Option.some.injEq] at hmem
    rcases hmem with hmem | hik
    · exact h.notFree c' i hown hmem
    · exact hne (h.once c' client i hown (hik ▸ hk))

theorem Owned.step (h : Owned s) {e : PoolEvent} (hC : OldestFirst s e)
    (he : s.step e = some s') : Owned s' := by
  cases e with
  | getConnection client sessions =>
    obtain ⟨hc, ⟨-, rfl⟩ | ⟨conn, pool, hget, rfl⟩⟩ := step_getConnection he
    · exact h.keep (by rw [hc]; rfl) rfl rfl
    · exact h.give (by rw [hc]; rfl) (by rw [owned_given, hget]) (by simp) (by simp)
  | wake client sessions =>
    obtain ⟨frames, hc, ⟨-, rfl⟩ | ⟨conn, pool, hget, rfl⟩⟩ := step_wake he
    · exact h.keep (by rw [hc]; rfl) rfl rfl
    · exact h.give (by rw [hc]; rfl) (by rw [hget]; rfl) (by simp) (by simp)
  | unwind client sessions =>
    obtain ⟨conn, ⟨hc, rfl⟩ | ⟨frames, hc, rfl⟩⟩ := step_unwind he
    · exact h.keep (by rw [hc, owned_given]; rfl) (by simp) (by simp)
    · exact h.keep (by rw [hc]; rfl) (by simp) (by simp)
  | releaseConnection client =>
    obtain ⟨conn, hc, rfl⟩ := step_releaseConnection he
    have hfirst : _ = ConnectionPool.firstConnection s.pool.activeConnections := hC
    rw [hc] at hfirst
    exact h.release hc hfirst.symm

theorem mem_of_firstConnection {conns : List ConnectionPtr} {k : ℕ}
    (h : ConnectionPool.firstConnection conns = some k) : some k ∈ conns := by
  unfold ConnectionPool.firstConnection at h
  cases hf : conns.find? Option.isSome with
  | none => simp [hf] at h
  | some conn =>
    have hmem := List.mem_of_find?_eq_some hf
    simp only [hf, Option.join_some] at h
    rwa [h] at hmem

theorem movesExactly_of_oldest {client k : ℕ} (hc : s.clients client = .holding k)
    (hfirst : (s.clients client).owned =
      ConnectionPool.firstConnection s.pool.activeConnections)
    (he : s.step (.releaseConnection client) = some s') : MovesExactly k s s' := by
  rw [hc] at hfirst
  obtain ⟨conn, hc', rfl⟩ := step_releaseConnection he
  refine ⟨mem_of_firstConnection hfirst.symm, ?_, ?_⟩
  · simp only [put, ConnectionPool.releaseConnection_eq hfirst.symm]
  · simp only [put, ConnectionPool.releaseConnection_eq hfirst.symm]

/-- Exclusive ownership. In every run in which each client that releases holds the
oldest active connection, a held connection has one holder and is not free, and a
release moves exactly the connection it was called with. -/
theorem exclusive_of_oldestFirst (h : Reach step Made OldestFirst s) :
    Exclusive s ∧ ∀ client conn s', s.clients client = .holding conn →
      OldestFirst s (.releaseConnection client) →
      s.step (.releaseConnection client) = some s' → MovesExactly conn s s' :=
  ⟨(h.invariant (fun _ => Made.owned) fun _ _ _ hs hC he => hs.step hC he).exclusive,
    fun _ _ _ hc hC he => movesExactly_of_oldest hc hC he⟩

/-- All sessions are open. -/
def allOpen : Sessions := fun _ => some false

/-- Two clients of a pool with room for two, each with its connection. -/
def twoHolders : PoolSystem where
  pool :=
    { dbType := .MySql
      maxActiveConnections := 2
      freeConnections := []
      activeConnections := [some 0, some 1]
      countActive := 2
      created := 2 }
  clients := Function.update (Function.update (fun _ => .idle) 0 (.holding 0)) 1 (.holding 1)

theorem reach_twoHolders (C : PoolSystem → PoolEvent → Prop)
    (h₀ : ∀ s, s.pool.countActive = 0 → s.pool.maxActiveConnections = 2 →
      C s (.getConnection 0 allOpen))
    (h₁ : ∀ s, s.pool.countActive = 1 → s.pool.maxActiveConnections = 2 →
      C s (.getConnection 1 allOpen)) : Reach step Made C twoHolders := by
  have hstart : Made ⟨.configured .MySql 2, fun _ => .idle⟩ :=
    ⟨.MySql, 2, 0, allOpen, rfl, fun _ => rfl⟩
  have hreach : Reach step Made C _ := .start hstart
  exact (hreach.next (h₀ _ rfl rfl) rfl).next (h₁ _ rfl rfl) rfl

theorem exclusive_twoHolders : Exclusive twoHolders ∧
    ∃ s', twoHolders.step (.releaseConnection 0) = some s' ∧ MovesExactly 0 twoHolders s' := by
  obtain ⟨hex, hmove⟩ := exclusive_of_oldestFirst
    (reach_twoHolders OldestFirst (fun _ _ _ => trivial) fun _ _ _ => trivial)
  exact ⟨hex, _, rfl, hmove 0 0 _ rfl rfl rfl⟩

/-- The second of two clients releases its connection, and the pool frees the first
client's. -/
theorem not_exclusive_of_reach :
    ¬∀ s, Reach step Made (fun _ _ => True) s → Exclusive s := by
  intro h
  have hreach := reach_twoHolders (fun _ _ => True) (fun _ _ _ => trivial) fun _ _ _ => trivial
  have hrel : twoHolders.step (.releaseConnection 1) = some _ := rfl
  exact (h _ (hreach.next trivial hrel)).notFree 0 0 rfl (by decide)

/-! ## Capacity accounting -/

/-- The counter and the lists agree, and the counter is within the capacity. -/
structure Accounted (s : PoolSystem) : Prop where
  count : s.pool.countActive = s.pool.activeConnections.length
  activeNodup : s.pool.activeConnections.Nodup
  disjoint : ∀ conn ∈ s.pool.activeConnections, conn ∉ s.pool.freeConnections
  le_max : s.pool.countActive ≤ s.pool.maxActiveConnections
  drained : (∀ c, s.clients c = .idle) → s.pool.countActive = 0

/-- Every connection stays open. -/
def StaysOpen (_ : PoolSystem) : PoolEvent → Prop
  | .getConnection _ sessions => ∀ conn, sessions.isClosed conn = false
  | .wake _ sessions => ∀ conn, sessions.isClosed conn = false
  | .unwind _ sessions => ∀ conn, sessions.isClosed conn = false
  | .releaseConnection _ => True

/-- Every connection stays open, and a call of `getConnection` finds room. -/
def Roomy (s : PoolSystem) (e : PoolEvent) : Prop :=
  StaysOpen s e ∧ ∀ client sessions, e = .getConnection client sessions →
    s.pool.countActive < s.pool.maxActiveConnections

/-- A pool that `make` has filled, configured with a capacity that is not negative. -/
def MadeRoomy (s : PoolSystem) : Prop :=
  Made s ∧ 0 ≤ s.pool.maxActiveConnections

/-- The invariant behind `Accounted` : no client is inside a call, no connection is
filed twice, and there are as many holders as active connections. -/
structure Counted (s : PoolSystem) : Prop where
  outside : ∀ c, (s.clients c).Outside
  created : ∀ conn ∈ s.pool.activeConnections ++ s.pool.freeConnections,
    ∃ k < s.pool.created, conn = some k
  nodup : (s.pool.activeConnections ++ s.pool.freeConnections).Nodup
  count : s.pool.countActive = s.pool.activeConnections.length
  le_max : s.pool.countActive ≤ s.pool.maxActiveConnections
  finite : {c | s.clients c ≠ .idle}.Finite
  holders : {c | s.clients c ≠ .idle}.ncard = s.pool.activeConnections.length

theorem Counted.accounted (h : Counted s) : Accounted s where
  count := h.count
  activeNodup := (List.nodup_append.1 h.nodup).1
  disjoint conn ha hf := (List.nodup_append.1 h.nodup).2.2 conn ha conn hf rfl
  le_max := h.le_max
  drained hidle := by
    have hempty : {c | s.clients c ≠ .idle} = ∅ := by
      ext c
      simp [hidle c]
    have := h.holders
    rw [hempty, Set.ncard_empty] at this
    rw [h.count, ← this]
    rfl

theorem MadeRoomy.counted (h : MadeRoomy s) : Counted s := by
  obtain ⟨⟨dbType, max, n, sessions, hmake, hidle⟩, hmax⟩ := h
  obtain ⟨ha, hc, -, k, hk, hf⟩ := ConnectionPool.make_eq_some hmake
  simp only [ConnectionPool.configured, List.nil_append, zero_add] at ha hc hk hf
  have hempty : {c | s.clients c ≠ .idle} = ∅ := by
    ext c
    simp [hidle c]
  refine ⟨fun c => by rw [hidle c]; trivial, ?_, ?_, by simp [ha, hc], by rw [hc]; exact hmax,
    by rw [hempty]; exact Set.finite_empty, by rw [hempty, ha]; simp⟩
  · intro conn hconn
    rw [ha, hf, List.nil_append] at hconn
    obtain ⟨i, hi, rfl⟩ := List.mem_map.1 hconn
    exact ⟨i, by rw [hk]; simpa [List.mem_range'_1] using hi, rfl⟩
  · rw [ha, hf, List.nil_append]
    exact (List.nodup_range' 1).map (Option.some_injective _)

theorem holders_put_holding (client conn : ℕ) (pool : ConnectionPool) :
    {c | (s.put client (.holding conn) pool).clients c ≠ .idle} =
      insert client {c | s.clients c ≠ .idle} := by
  ext c
  by_cases h : c = client <;> simp [put, Function.update_apply, h]

theorem holders_put_idle (client : ℕ) (pool : ConnectionPool) :
    {c | (s.put client .idle pool).clients c ≠ .idle} =
      {c | s.clients c ≠ .idle} \ {client} := by
  ext c
  by_cases h : c = client <;> simp [put, Function.update_apply, h]

theorem outside_put (h : ∀ c, (s.clients c).Outside) {client : ℕ} {c : Client}
    (hc : c.Outside) (pool : ConnectionPool) :
    ∀ c', ((s.put client c pool).clients c').Outside := by
  intro c'
  unfold put
  by_cases hcl : c' = client
  · subst hcl
    simpa using hc
  · simpa [hcl] using h c'

/-- An idle client of a pool with room is handed `k`, off the free list or new. -/
theorem Counted.give (h : Counted s) {client k : ℕ} {rest : List ConnectionPtr} {n : ℕ}
    (hidle : s.clients client = .idle)
    (hroom : s.pool.countActive < s.pool.maxActiveConnections)
    (hk : some k ∉ s.pool.activeConnections ++ rest) (hkn : k < n) (hn : s.pool.created ≤ n)
    (hrest : rest.Sublist s.pool.freeConnections) :
    Counted (s.put client (.holding k)
      { s.pool with
        freeConnections := rest
        activeConnections := s.pool.activeConnections ++ [some k]
        countActive := s.pool.countActive + 1
        created := n }) := by
  have hnot : client ∉ {c | s.clients c ≠ .idle} := by simp [hidle]
  have hsub : (s.pool.activeConnections ++ rest).Sublist
      (s.pool.activeConnections ++ s.pool.freeConnections) :=
    (List.append_sublist_append_left _).2 hrest
  have hperm : (s.pool.activeConnections ++ [some k] ++ rest).Perm
      (some k :: (s.pool.activeConnections ++ rest)) := by
    rw [List.append_assoc, List.singleton_append]
    exact List.perm_middle
  refine ⟨outside_put h.outside (show (Client.holding k).Outside from trivial) _,
    ?_, ?_, ?_, ?_, ?_, ?_⟩
  · intro x hx
    rcases List.mem_cons.1 (hperm.mem_iff.1 hx) with rfl | hx
    · exact ⟨k, hkn, rfl⟩
    · obtain ⟨i, hi, rfl⟩ := h.created x (hsub.subset hx)
      exact ⟨i, hi.trans_le hn, rfl⟩
  · exact hperm.nodup_iff.2 (List.nodup_cons.2 ⟨hk, hsub.nodup h.nodup⟩)
  · have := h.count
    simp only [put, List.length_append, List.length_singleton]
    omega
  · exact hroom
  · rw [holders_put_holding]
    exact h.finite.insert _
  · rw [holders_put_holding, Set.ncard_insert_of_notMem hnot h.finite, h.holders]
    simp [put]

theorem Counted.getConnection (h : Counted s) {client : ℕ} {sessions : Sessions}
    {conn : ConnectionPtr} {pool : ConnectionPool} (hidle : s.clients client = .idle)
    (hopen : ∀ conn, sessions.isClosed conn = false)
    (hget : s.pool.getConnection = some (conn, pool)) :
    Counted (s.put client (.given conn) (pool.trackConnection sessions conn)) := by
  obtain ⟨hroom, ⟨rest, hcons, rfl⟩ | ⟨hnil, rfl, rfl⟩ | ⟨-, rfl, rfl⟩⟩ :=
    ConnectionPool.getConnection_cases hget
  · obtain ⟨k, hk, rfl⟩ := h.created conn (by rw [hcons]; simp)
    have hnd := h.nodup
    rw [hcons, List.nodup_middle] at hnd
    have hg := h.give hidle hroom (List.nodup_cons.1 hnd).1 hk le_rfl
      (by rw [hcons]; exact List.sublist_cons_self _ _)
    simpa [ConnectionPool.trackConnection, ConnectionPool.isValid, hopen, Client.given] using hg
  · have hnew : some s.pool.created ∉ s.pool.activeConnections ++ [] := by
      intro hmem
      obtain ⟨i, hi, hik⟩ := h.created _ (by rw [hnil]; exact hmem)
      simp only [Option.some.injEq] at hik
      omega
    have hg := h.give hidle hroom hnew (Nat.lt_succ_self _) (Nat.le_succ _)
      (List.nil_sublist _)
    simpa [ConnectionPool.trackConnection, ConnectionPool.isValid, hopen, Client.given,
      hnil] using hg
  · have hput : s.put client (.given none) (s.pool.trackConnection sessions none) = s := by
      simp [put, ConnectionPool.trackConnection, ConnectionPool.isValid, Client.given, ← hidle]
    rw [hput]
    exact h

/-- A release takes the oldest active connection out, whoever holds it, so as many
connections stay active as clients hold one. -/
theorem Counted.release (h : Counted s) {client k : ℕ} (hclient : s.clients client = .holding k)
    (conn : ConnectionPtr) :
    Counted (s.put client .idle (s.pool.releaseConnection conn)) := by
  have hin : client ∈ {c | s.clients c ≠ .idle} := by simp [hclient]
  have hcard := Set.ncard_sdiff_singleton_of_mem hin
  obtain ⟨x, rest, hactive⟩ : ∃ x rest, s.pool.activeConnections = x :: rest := by
    refine List.exists_cons_of_ne_nil fun hnil => ?_
    have hzero := h.holders
    rw [hnil, List.length_nil, Set.ncard_eq_zero h.finite] at hzero
    rw [hzero] at hin
    exact hin
  obtain ⟨i, hi, rfl⟩ := h.created x (by rw [hactive]; simp)
  have hfirst : ConnectionPool.firstConnection s.pool.activeConnections = some i := by
    rw [hactive, ConnectionPool.firstConnection_cons_some]
  have hnd := h.nodup
  rw [hactive, List.cons_append] at hnd
  obtain ⟨hnotin, hnd⟩ := List.nodup_cons.1 hnd
  have hfilter : (some i :: rest).filter (· ≠ some i) = rest := by
    rw [List.filter_cons_of_neg (by simp), List.filter_eq_self]
    intro y hy
    simpa using fun hyi : y = some i => hnotin (List.mem_append_left _ (hyi ▸ hy))
  have hperm : (rest ++ (s.pool.freeConnections ++ [some i])).Perm
      (s.pool.activeConnections ++ s.pool.freeConnections) := by
    rw [hactive, ← List.append_assoc]
    exact List.perm_append_singleton _ _
  rw [ConnectionPool.releaseConnection_eq hfirst, hactive, hfilter]
  have hlen := h.count
  have hcount := h.holders
  rw [hactive, List.length_cons] at hlen hcount
  refine ⟨outside_put h.outside (show Client.idle.Outside from trivial) _, ?_, ?_, ?_, ?_, ?_, ?_⟩
  · exact fun y hy => h.created y (hperm.mem_iff.1 hy)
  · exact hperm.nodup_iff.2 h.nodup
  · simp only [put]
    omega
  · have := h.le_max
    simp only [put]
    omega
  · rw [holders_put_idle]
    exact h.finite.sdiff
  · rw [holders_put_idle, hcard, hcount]
    rfl

theorem Counted.step (h : Counted s) {e : PoolEvent} (hC : Roomy s e)
    (he : s.step e = some s') : Counted s' := by
  obtain ⟨hopen, hroom⟩ := hC
  cases e with
  | getConnection client sessions =>
    obtain ⟨hc, ⟨hget, -⟩ | ⟨conn, pool, hget, rfl⟩⟩ := step_getConnection he
    · have := ConnectionPool.getConnection_eq_none hget
      have := hroom client sessions rfl
      omega
    · exact h.getConnection hc hopen hget
  | wake client sessions =>
    obtain ⟨frames, hc, -⟩ := step_wake he
    have hout := h.outside client
    rw [hc] at hout
    exact hout.elim
  | unwind client sessions =>
    have hout := h.outside client
    obtain ⟨conn, ⟨hc, -⟩ | ⟨frames, hc, -⟩⟩ := step_unwind he
    · rw [hc] at hout
      exact hout.elim
    · rw [hc] at hout
      exact hout.elim
  | releaseConnection client =>
    obtain ⟨conn, hc, rfl⟩ := step_releaseConnection he
    exact h.release hc _

/-- Capacity accounting. In every run of a pool of capacity at least zero in which all
connections stay open and every call of `getConnection` finds room, the counter is the
length of the active list, no connection is filed twice, the counter is within the
capacity, and it is zero once every client has released. -/
theorem accounted_of_roomy (h : Reach step MadeRoomy Roomy s) : Accounted s :=
  (h.invariant (fun _ => MadeRoomy.counted) fun _ _ _ hs hC he => hs.step hC he).accounted

theorem accounted_twoHolders : Accounted twoHolders := by
  have hroom : ∀ s client, s.pool.countActive < s.pool.maxActiveConnections →
      Roomy s (.getConnection client allOpen) := fun s client h =>
    ⟨fun _ => rfl, fun _ _ _ => h⟩
  have hstart : MadeRoomy ⟨.configured .MySql 2, fun _ => .idle⟩ :=
    ⟨⟨.MySql, 2, 0, allOpen, rfl, fun _ => rfl⟩, by decide⟩
  have hreach : Reach step MadeRoomy Roomy _ := .start hstart
  exact accounted_of_roomy
    ((hreach.next (hroom _ 0 (by decide)) rfl).next (hroom _ 1 (by decide)) rfl)

/-- A client that finds a pool of one connection exhausted, sleeps, and is served after
the first client's release leaves its connection twice in the active list and the
counter at two. -/
theorem not_accounted_of_reach :
    ¬∀ s, Reach step MadeRoomy StaysOpen s → (∀ c, (s.clients c).Outside) → Accounted s := by
  intro h
  have hstart : MadeRoomy ⟨.configured .MySql 1, fun _ => .idle⟩ :=
    ⟨⟨.MySql, 1, 0, allOpen, rfl, fun _ => rfl⟩, by decide⟩
  have hget : ∀ s client, StaysOpen s (.getConnection client allOpen) := fun _ _ _ => rfl
  have hrel : ∀ s client, StaysOpen s (.releaseConnection client) := fun _ _ => trivial
  have hwake : ∀ s client, StaysOpen s (.wake client allOpen) := fun _ _ _ => rfl
  have hunwind : ∀ s client, StaysOpen s (.unwind client allOpen) := fun _ _ _ => rfl
  have h₀ : Reach step MadeRoomy StaysOpen _ := .start hstart
  have h₂ := (h₀.next (hget _ 0) rfl).next (hget _ 1) rfl
  have h₅ := ((h₂.next (hrel _ 0) rfl).next (hwake _ 1) rfl).next (hunwind _ 1) rfl
  refine absurd (h _ h₅ fun c => ?_).le_max (by decide)
  by_cases h1 : c = 1
  · subst h1
    trivial
  · by_cases h0 : c = 0 <;> simp [put, h0, h1, Client.Outside]

end PoolSystem

end Ick
