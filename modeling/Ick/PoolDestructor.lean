import Ick.ConnectionPool
import Ick.History

/-!
# The destructor of a pool

The destructor of `ConnectionPool` closes and deletes the free connections. Its loop goes on to the
next one only if there was a connection, so that it would not end at a `NULL`. No call puts one into
the free list (`Filed`), and the loop ends in every state.

But a connection can be in the free list twice, and is then closed and deleted twice. A frame of
`getConnection` that has slept files its connection as active once more, also if the connection
was released meanwhile, and a later `releaseConnection` takes the oldest active connection to the
free list, where it is already. The free connections are closed and deleted once in all states
exactly if no release does this (`throughout_destroyed_iff`).

The calls are those of any number of clients, in sections, and besides `make` and
`releaseConnection` from anywhere, with any argument.
-/

namespace Ick

namespace ConnectionPool

/-- The pool as `make` leaves it, also if it throws. -/
def filled (sessions : Sessions) : ℕ → ConnectionPool → ConnectionPool
  | 0, p => p
  | i + 1, p =>
    match p.newConnection with
    | (none, p) => filled sessions i p
    | (some conn, p) =>
      if isValid sessions (some conn) then
        filled sessions i { p with freeConnections := p.freeConnections ++ [some conn] }
      else p

/-- The loop of the destructor, with the connections that it closes and deletes; `none` if it does
not end within the turns. -/
def destructor : ℕ → List ConnectionPtr → Option (List ℕ)
  | _, [] => some []
  | 0, _ :: _ => none
  | turns + 1, none :: rest => destructor turns (none :: rest)
  | turns + 1, some conn :: rest => (destructor turns rest).map (conn :: ·)

/-- The destructor ends, and has closed and deleted each free connection once. -/
structure Destroyed (p : ConnectionPool) : Prop where
  notNull : none ∉ p.freeConnections
  once : ∃ closed : List ℕ,
    (∃ n, ∀ turns, n ≤ turns → destructor turns p.freeConnections = some closed) ∧
      closed.Nodup ∧ ∀ conn, conn ∈ closed ↔ some conn ∈ p.freeConnections

/-- The connection that a release takes to the free list is not in it. -/
def Releasable (p : ConnectionPool) : Prop :=
  ∀ conn, firstConnection p.activeConnections = some conn → some conn ∉ p.freeConnections

/-- The connections in both lists are none that is `NULL`, and were created. -/
structure Filed (p : ConnectionPool) : Prop where
  free : ∀ conn ∈ p.freeConnections, ∃ k < p.created, conn = some k
  active : ∀ conn ∈ p.activeConnections, ∃ k < p.created, conn = some k

end ConnectionPool

/-- A section of a client's call, or a call from anywhere. -/
inductive PoolCall
  | make (initConnections : ℕ) (sessions : Sessions)
  | client (e : PoolEvent)
  | releaseConnection (conn : ConnectionPtr)

namespace PoolSystem

/-- One call. -/
def call (s : PoolSystem) : PoolCall → Option PoolSystem
  | .make initConnections sessions =>
    some { s with pool := s.pool.filled sessions initConnections }
  | .client e => s.step e
  | .releaseConnection conn => some { s with pool := s.pool.releaseConnection conn }

/-- A pool with its configuration after the calls. -/
def runCalls (dbType : EDataBaseType) (maxActiveConnections : ℤ) (calls : List PoolCall) :
    Option PoolSystem :=
  calls.foldlM call ⟨.configured dbType maxActiveConnections, fun _ => .idle⟩

/-- A call is no release of a connection that is free already. -/
def ReleasesOnce (s : PoolSystem) : PoolCall → Prop
  | .make _ _ => True
  | .client (.releaseConnection _) => s.pool.Releasable
  | .client _ => True
  | .releaseConnection _ => s.pool.Releasable

end PoolSystem

/-! ## The loop -/

namespace ConnectionPool

variable {p p' : ConnectionPool} {sessions : Sessions}

theorem destructor_map_some {conns : List ℕ} {turns : ℕ} (h : conns.length ≤ turns) :
    destructor turns (conns.map some) = some conns := by
  induction conns generalizing turns with
  | nil => cases turns <;> rfl
  | cons conn conns ih =>
    obtain ⟨turns, rfl⟩ := Nat.exists_eq_add_of_le' (Nat.le_trans (Nat.le_add_left 1 _) h)
    rw [List.map_cons, destructor, ih (Nat.le_of_succ_le_succ h), Option.map_some]

theorem Filed.exists_map_some (h : Filed p) :
    ∃ conns : List ℕ, p.freeConnections = conns.map some := by
  have hfree := h.free
  generalize p.freeConnections = free at hfree
  induction free with
  | nil => exact ⟨[], rfl⟩
  | cons conn rest ih =>
    obtain ⟨⟨k, -, rfl⟩, hrest⟩ := List.forall_mem_cons.1 hfree
    obtain ⟨conns, rfl⟩ := ih hrest
    exact ⟨k :: conns, rfl⟩

/-- Each free connection is closed and deleted once if it is in the list once. -/
theorem Filed.destroyed_iff (h : Filed p) : p.Destroyed ↔ p.freeConnections.Nodup := by
  obtain ⟨conns, hconns⟩ := h.exists_map_some
  have hends : ∀ turns, conns.length ≤ turns →
      destructor turns p.freeConnections = some conns := fun turns hturns => by
    rw [hconns, destructor_map_some hturns]
  have hmem : ∀ conn, conn ∈ conns ↔ some conn ∈ p.freeConnections := fun conn => by
    rw [hconns, List.mem_map_of_injective (Option.some_injective _)]
  rw [hconns, List.nodup_map_iff (Option.some_injective _)]
  constructor
  · rintro ⟨-, closed, ⟨n, hn⟩, hnodup, -⟩
    have heq := (hn (n + conns.length) (by omega)).symm.trans (hends _ (by omega))
    rwa [Option.some.inj heq] at hnodup
  · intro hnodup
    refine ⟨fun hnull => ?_, conns, ⟨_, hends⟩, hnodup, hmem⟩
    obtain ⟨k, -, hk⟩ := h.free none hnull
    cases hk

/-! ## What the calls do to the lists -/

/-- `make` appends new connections to the free list. -/
theorem filled_spec (sessions : Sessions) (n : ℕ) (p : ConnectionPool) :
    (filled sessions n p).activeConnections = p.activeConnections ∧
      ∃ k, p.created + k ≤ (filled sessions n p).created ∧
        (filled sessions n p).freeConnections =
          p.freeConnections ++ (List.range' p.created k).map some := by
  induction n generalizing p with
  | zero => exact ⟨rfl, 0, le_rfl, by simp [filled]⟩
  | succ n ih =>
    cases hdb : p.dbType with
    | MySql =>
      simp only [filled, newConnection, hdb]
      split_ifs with hvalid
      · obtain ⟨hactive, k, hk, hfree⟩ := ih { p with
          freeConnections := p.freeConnections ++ [some p.created], created := p.created + 1 }
        refine ⟨hdb ▸ hactive, k + 1, ?_, ?_⟩
        · have := hdb ▸ hk
          simp only at this
          omega
        · rw [List.range'_succ, List.map_cons]
          simpa [hdb] using hfree
      · exact ⟨rfl, 0, Nat.le_succ _, by simp⟩
    | Oracle => simpa [filled, newConnection, hdb] using ih p
    | SqlServer => simpa [filled, newConnection, hdb] using ih p

theorem Filed.filled (h : Filed p) (sessions : Sessions) (n : ℕ) : Filed (p.filled sessions n) := by
  obtain ⟨hactive, k, hk, hfree⟩ := filled_spec sessions n p
  have hold : ∀ conn : ConnectionPtr, (∃ i < p.created, conn = some i) →
      ∃ i < (p.filled sessions n).created, conn = some i := by
    rintro conn ⟨i, hi, rfl⟩
    exact ⟨i, by omega, rfl⟩
  refine ⟨fun conn hconn => ?_, fun conn hconn => hold conn (h.active conn (hactive ▸ hconn))⟩
  rw [hfree, List.mem_append] at hconn
  rcases hconn with hconn | hconn
  · exact hold conn (h.free conn hconn)
  · obtain ⟨i, hi, rfl⟩ := List.mem_map.1 hconn
    rw [List.mem_range'_1] at hi
    exact ⟨i, by omega, rfl⟩

theorem Filed.nodup_filled (h : Filed p) (hnodup : p.freeConnections.Nodup) (sessions : Sessions)
    (n : ℕ) : (p.filled sessions n).freeConnections.Nodup := by
  obtain ⟨-, k, -, hfree⟩ := filled_spec sessions n p
  rw [hfree, List.nodup_append]
  refine ⟨hnodup, (List.nodup_range' 1).map (Option.some_injective _), ?_⟩
  rintro x hx y hy rfl
  obtain ⟨i, hi, rfl⟩ := h.free x hx
  obtain ⟨j, hj, hij⟩ := List.mem_map.1 hy
  rw [List.mem_range'_1] at hj
  have := Option.some.inj hij
  omega

/-- `getConnection` takes the first free connection, or creates one. -/
theorem getConnection_spec {conn : ConnectionPtr} (h : p.getConnection = some (conn, p')) :
    p'.freeConnections = p.freeConnections.tail ∧ p'.activeConnections = p.activeConnections ∧
      p.created ≤ p'.created ∧
      ∀ k, conn = some k → some k ∈ p.freeConnections ∨ k < p'.created := by
  obtain ⟨-, ⟨rest, hfree, rfl⟩ | ⟨hfree, rfl, rfl⟩ | ⟨hfree, rfl, rfl⟩⟩ := getConnection_cases h
  · exact ⟨by rw [hfree, List.tail_cons], rfl, le_rfl, fun k hk => Or.inl (by rw [hfree, hk]; simp)⟩
  · refine ⟨by rw [hfree, List.tail_nil], rfl, Nat.le_succ _, fun k hk => Or.inr ?_⟩
    rw [← Option.some.inj hk]
    exact Nat.lt_succ_self _
  · exact ⟨by rw [hfree, List.tail_nil], rfl, le_rfl, nofun⟩

theorem Filed.getConnection (h : Filed p) {conn : ConnectionPtr}
    (hget : p.getConnection = some (conn, p')) :
    Filed p' ∧ ∀ k, conn = some k → k < p'.created := by
  obtain ⟨hfree, hactive, hle, hconn⟩ := getConnection_spec hget
  have hold : ∀ conn : ConnectionPtr, (∃ i < p.created, conn = some i) →
      ∃ i < p'.created, conn = some i := by
    rintro conn ⟨i, hi, rfl⟩
    exact ⟨i, by omega, rfl⟩
  refine ⟨⟨fun x hx => ?_, fun x hx => hold x (h.active x (hactive ▸ hx))⟩, fun k hk => ?_⟩
  · exact hold x (h.free x (List.mem_of_mem_tail (hfree ▸ hx)))
  · rcases hconn k hk with hmem | hlt
    · obtain ⟨i, hi, heq⟩ := hold _ (h.free _ hmem)
      rwa [Option.some.inj heq]
    · exact hlt

theorem Filed.trackConnection (h : Filed p) {conn : ConnectionPtr}
    (hconn : ∀ k, conn = some k → k < p.created) (sessions : Sessions) :
    Filed (p.trackConnection sessions conn) := by
  unfold ConnectionPool.trackConnection
  split_ifs with hvalid
  · refine ⟨h.free, fun x hx => ?_⟩
    rcases List.mem_append.1 hx with hx | hx
    · exact h.active x hx
    · obtain rfl := List.mem_singleton.1 hx
      cases x with
      | none => cases hvalid
      | some k => exact ⟨k, hconn k rfl, rfl⟩
  · exact h

theorem Filed.releaseConnection (h : Filed p) (conn : ConnectionPtr) :
    Filed (p.releaseConnection conn) := by
  cases hfirst : firstConnection p.activeConnections with
  | none => simpa only [ConnectionPool.releaseConnection, hfirst] using h
  | some k =>
    have hk : some k ∈ p.activeConnections := by
      rw [firstConnection, Option.join_eq_some_iff] at hfirst
      exact List.mem_of_find?_eq_some hfirst
    rw [releaseConnection_eq hfirst]
    refine ⟨fun x hx => ?_, fun x hx => h.active x (List.mem_of_mem_filter hx)⟩
    rcases List.mem_append.1 hx with hx | hx
    · exact h.free x hx
    · rw [List.mem_singleton.1 hx]
      exact h.active _ hk

/-- A release keeps the free connections apart if it may. -/
theorem nodup_releaseConnection_iff (hnodup : p.freeConnections.Nodup) (conn : ConnectionPtr) :
    (p.releaseConnection conn).freeConnections.Nodup ↔ p.Releasable := by
  unfold Releasable
  cases hfirst : firstConnection p.activeConnections with
  | none => exact iff_of_true (by simpa only [releaseConnection, hfirst] using hnodup) nofun
  | some k =>
    rw [releaseConnection_eq hfirst, ← List.concat_eq_append, List.nodup_concat]
    simp [hnodup]

end ConnectionPool

/-! ## The calls -/

namespace PoolSystem

variable {s s' : PoolSystem}

/-- A section is a release, or a client is left with a connection that the pool has taken from the
free list, has created, or had handed to it before, and that may be tracked. -/
theorem section_cases {e : PoolEvent} (h : s.step e = some s') :
    (∃ client conn, e = .releaseConnection client ∧
        s' = s.put client .idle (s.pool.releaseConnection conn)) ∨
      ((∀ client, e ≠ .releaseConnection client) ∧ ∃ client c pool,
        s' = s.put client c pool ∧ ((pool = s.pool ∧ c.owned = none) ∨
          ∃ pool' sessions, pool = pool'.trackConnection sessions c.owned ∧
            (s.pool.getConnection = some (c.owned, pool') ∨
              (pool' = s.pool ∧ (s.clients client).owned = c.owned)))) := by
  cases e with
  | getConnection client sessions =>
    obtain ⟨-, ⟨-, rfl⟩ | ⟨conn, pool, hget, rfl⟩⟩ := step_getConnection h
    · exact Or.inr ⟨nofun, client, _, _, rfl, Or.inl ⟨rfl, rfl⟩⟩
    · refine Or.inr ⟨nofun, client, _, _, rfl, Or.inr ⟨pool, sessions, ?_, Or.inl ?_⟩⟩
      · rw [owned_given]
      · rw [owned_given, hget]
  | wake client sessions =>
    obtain ⟨frames, -, ⟨-, rfl⟩ | ⟨conn, pool, hget, rfl⟩⟩ := step_wake h
    · exact Or.inr ⟨nofun, client, _, _, rfl, Or.inl ⟨rfl, rfl⟩⟩
    · exact Or.inr ⟨nofun, client, _, _, rfl, Or.inr ⟨pool, sessions, rfl, Or.inl hget⟩⟩
  | unwind client sessions =>
    obtain ⟨conn, ⟨hc, rfl⟩ | ⟨frames, hc, rfl⟩⟩ := step_unwind h
    · refine Or.inr ⟨nofun, client, _, _, rfl, Or.inr ⟨s.pool, sessions, ?_, Or.inr ⟨rfl, ?_⟩⟩⟩
      · rw [owned_given]
      · rw [owned_given, hc]
        rfl
    · refine Or.inr ⟨nofun, client, _, _, rfl, Or.inr ⟨s.pool, sessions, rfl, Or.inr ⟨rfl, ?_⟩⟩⟩
      rw [hc]
      rfl
  | releaseConnection client =>
    obtain ⟨conn, -, rfl⟩ := step_releaseConnection h
    exact Or.inl ⟨client, some conn, rfl, rfl⟩

/-- The connections in the lists and those of the clients were created. -/
structure Created (s : PoolSystem) : Prop where
  filed : s.pool.Filed
  owned : ∀ client k, (s.clients client).owned = some k → k < s.pool.created

theorem Created.put (h : Created s) {client : ℕ} {c : Client} {pool : ConnectionPool}
    (hfiled : pool.Filed) (hle : s.pool.created ≤ pool.created)
    (hc : ∀ k, c.owned = some k → k < pool.created) : Created (s.put client c pool) := by
  refine ⟨hfiled, fun client' k hk => ?_⟩
  rw [owned_put] at hk
  split_ifs at hk
  · exact hc k hk
  · exact (h.owned client' k hk).trans_le hle

theorem releaseConnection_created (p : ConnectionPool) (conn : ConnectionPtr) :
    (p.releaseConnection conn).created = p.created := by
  unfold ConnectionPool.releaseConnection
  split <;> rfl

theorem Created.call (h : Created s) {e : PoolCall} (hcall : s.call e = some s') : Created s' := by
  cases e with
  | make n sessions =>
    obtain rfl := Option.some.inj hcall
    obtain ⟨-, k, hk, -⟩ := ConnectionPool.filled_spec sessions n s.pool
    exact ⟨h.filed.filled sessions n, fun client i hi =>
      (h.owned client i hi).trans_le ((Nat.le_add_right _ k).trans hk)⟩
  | releaseConnection conn =>
    obtain rfl := Option.some.inj hcall
    refine ⟨h.filed.releaseConnection conn, fun client i hi => ?_⟩
    rw [releaseConnection_created]
    exact h.owned client i hi
  | client e =>
    obtain ⟨client, conn, -, rfl⟩ | ⟨-, client, c, pool, rfl, hpool⟩ := section_cases hcall
    · exact h.put (h.filed.releaseConnection conn) (releaseConnection_created _ _).ge nofun
    · obtain ⟨rfl, hnone⟩ | ⟨pool', sessions, rfl, hget | ⟨rfl, hown⟩⟩ := hpool
      · exact h.put h.filed le_rfl (by rw [hnone]; nofun)
      · obtain ⟨hfiled, hconn⟩ := h.filed.getConnection hget
        have hle := (ConnectionPool.getConnection_spec hget).2.2.1
        refine h.put (hfiled.trackConnection hconn sessions) ?_ ?_
        · rwa [ConnectionPool.trackConnection_created]
        · rwa [ConnectionPool.trackConnection_created]
      · have hconn := fun k hk => h.owned client k (hown.trans hk)
        refine h.put (h.filed.trackConnection hconn sessions) ?_ ?_
        · rw [ConnectionPool.trackConnection_created]
        · rwa [ConnectionPool.trackConnection_created]

/-- Only a release can put a connection into the free list that is in it. -/
theorem Created.nodup_call_iff (h : Created s) (hnodup : s.pool.freeConnections.Nodup)
    {e : PoolCall} (hcall : s.call e = some s') :
    s'.pool.freeConnections.Nodup ↔ s.ReleasesOnce e := by
  cases e with
  | make n sessions =>
    obtain rfl := Option.some.inj hcall
    exact iff_of_true (h.filed.nodup_filled hnodup sessions n) trivial
  | releaseConnection conn =>
    obtain rfl := Option.some.inj hcall
    exact ConnectionPool.nodup_releaseConnection_iff hnodup conn
  | client e =>
    obtain ⟨client, conn, rfl, rfl⟩ | ⟨hrelease, client, c, pool, rfl, hpool⟩ :=
      section_cases hcall
    · exact ConnectionPool.nodup_releaseConnection_iff hnodup conn
    · have honce : s.ReleasesOnce (.client e) := by
        cases e with
        | releaseConnection client => exact absurd rfl (hrelease client)
        | _ => trivial
      refine iff_of_true ?_ honce
      obtain ⟨rfl, -⟩ | ⟨pool', sessions, rfl, hget | ⟨rfl, -⟩⟩ := hpool
      · exact hnodup
      · rw [PoolSystem.put, ConnectionPool.trackConnection_free,
          (ConnectionPool.getConnection_spec hget).1]
        exact hnodup.tail
      · rw [PoolSystem.put, ConnectionPool.trackConnection_free]
        exact hnodup

/-! ## All calls -/

section Runs

variable {dbType : EDataBaseType} {maxActiveConnections : ℤ} {calls : List PoolCall}

theorem created_configured (dbType : EDataBaseType) (maxActiveConnections : ℤ) :
    Created ⟨.configured dbType maxActiveConnections, fun _ => .idle⟩ :=
  ⟨⟨nofun, nofun⟩, nofun⟩

/-- In every state reached the free connections are none that is `NULL`. -/
theorem created_runCalls (h : runCalls dbType maxActiveConnections calls = some s) :
    Created s :=
  Throughout.run (C := fun _ _ => True) (fun _ _ _ _ _ => trivial)
    (created_configured dbType maxActiveConnections) (fun _ _ _ hs _ hcall => hs.call hcall) s h

/-- The destructor. In every state of a run it ends, and has closed and deleted each free
connection once, exactly if no release takes a connection to the free list that is in it. -/
theorem throughout_destroyed_iff (dbType : EDataBaseType) (maxActiveConnections : ℤ)
    (calls : List PoolCall) :
    (∀ pre, pre <+: calls → ∀ s, runCalls dbType maxActiveConnections pre = some s →
        s.pool.Destroyed) ↔
      Throughout (fun pre e => ∀ s s', runCalls dbType maxActiveConnections pre = some s →
        s.call e = some s' → s.ReleasesOnce e) calls := by
  have hrun : (∀ pre, pre <+: calls → ∀ s, runCalls dbType maxActiveConnections pre = some s →
      s.pool.Destroyed) ↔
        Throughout (fun pre e => ∀ s, runCalls dbType maxActiveConnections pre = some s →
          ∀ s', s.call e = some s' → s.ReleasesOnce e) calls := by
    refine forall_run_iff (I := fun s => s.Created ∧ s.pool.freeConnections.Nodup)
      ⟨created_configured dbType maxActiveConnections, List.nodup_nil⟩
      (fun s hs => hs.1.filed.destroyed_iff.2 hs.2) ?_ ?_ calls
    · intro s e s' hs honce hcall
      exact ⟨hs.1.call hcall, (hs.1.nodup_call_iff hs.2 hcall).2 (honce s' hcall)⟩
    · intro s e hs hafter s' hcall
      have hnodup := (hs.1.call hcall).filed.destroyed_iff.1 (hafter s' hcall)
      exact (hs.1.nodup_call_iff hs.2 hcall).1 hnodup
  refine hrun.trans (forall₃_congr fun pre e _ => ?_)
  exact ⟨fun h s s' hs => h s hs s', fun h s hs s' => h s s' hs⟩

end Runs

/-- Four clients of a pool for three. The last one sleeps until the others have released, and is
given the connection 0, which is released and filed once more before it returns. -/
def fourClients : List PoolCall :=
  [.client (.getConnection 0 allOpen), .client (.getConnection 1 allOpen),
    .client (.getConnection 2 allOpen), .client (.getConnection 3 allOpen),
    .client (.releaseConnection 0), .client (.releaseConnection 1), .client (.releaseConnection 2),
    .client (.wake 3 allOpen), .client (.getConnection 0 allOpen), .client (.releaseConnection 0),
    .client (.unwind 3 allOpen), .client (.getConnection 0 allOpen),
    .client (.releaseConnection 0), .client (.releaseConnection 3)]

/-- The connection 0 is in the free list twice, and is closed and deleted twice. -/
theorem not_destroyed_fourClients : ∃ s, runCalls .MySql 3 fourClients = some s ∧
    ConnectionPool.destructor 3 s.pool.freeConnections = some [0, 1, 0] ∧ ¬s.pool.Destroyed := by
  have hrun : (runCalls .MySql 3 fourClients).map (·.pool.freeConnections) =
      some ([0, 1, 0].map some) := rfl
  obtain ⟨s, hs, hfree⟩ := Option.map_eq_some_iff.1 hrun
  refine ⟨s, hs, by rw [hfree]; rfl, fun h => ?_⟩
  rw [(created_runCalls hs).filed.destroyed_iff, hfree] at h
  revert h
  decide

end PoolSystem

end Ick
