import Ick.Converter
import Ick.History
import Ick.PoolSessions
import Std.Data.TreeMap

/-!
# Data bases

`IDataBase` runs its statements on connections of a pool. `executeQuery` looks for the pool by its
name when `connection_pool_` is `NULL`; `executeCommand` does not, and when the pool gives no
connection it returns `-1`, which is `true` for a `bool`.

A call is modelled with what it does to the pool, in order (`PoolAction`), and with the `NULL`
pointer it stops at, if it does. `Reports` says what `executeCommand` should do, and
`reports_iff_resolved` says after which calls, and for which answers of the pool, it does.
-/

namespace Ick

/-! ## Pools by name -/

/-- `ConnectionPoolManager`. Its pools are numbered. -/
structure ConnectionPoolManager where
  defaultPool : Option ℕ
  pools : Std.TreeMap Str ℕ

/-- `getPool`; `none` for `NULL`. -/
def ConnectionPoolManager.getPool (m : ConnectionPoolManager) (poolName : Str) : Option ℕ :=
  if poolName = [] then
    match m.defaultPool with
    | some pool => some pool
    | none => if m.pools.size = 1 then m.pools.minEntry?.map Prod.snd else none
  else if 0 < m.pools.size then m.pools[poolName]?
  else none

/-- The rows of a result, by the names of the columns. -/
abbrev RecordSet := List (Std.TreeMap Str Str)

/-! ## Statements -/

/-- `IDataBase` -/
structure IDataBase where
  sql : Str
  rs : RecordSet
  connectionPool : Option ℕ
  connectionPoolName : Str

/-- What the pool and the connection answer during a call : what `getConnection` returns, the
session of that connection, what it makes of the statement, and its record set then. -/
structure Answer where
  conn : ConnectionPtr
  session : Option Bool
  statement : MySqlConnection.Statement
  recordSet : RecordSet

/-- What a call does with a pool and its connections. -/
inductive PoolAction
  | getConnection (pool : ℕ) (conn : ConnectionPtr)
  | executeQuery (conn : ℕ) (sql : Str) (result : ℤ)
  | executeCommand (conn : ℕ) (sql : Str) (result : Bool)
  | releaseConnection (pool conn : ℕ)
  deriving DecidableEq

/-- The pointer that is `NULL` where it is dereferenced. -/
inductive NullPointer
  | pool
  | session
  deriving DecidableEq

/-- An `int` as a `bool`. -/
def boolOfInt (n : ℤ) : Bool := n ≠ 0

namespace IDataBase

/-- `connection_pool_`, or the pool of this name if it is `NULL`. -/
def resolve (db : IDataBase) (m : ConnectionPoolManager) : Option ℕ :=
  match db.connectionPool with
  | some pool => some pool
  | none => m.getPool db.connectionPoolName

/-- The statement that a call executes. -/
def statement (db : IDataBase) (sql : Str) : Str :=
  if sql = [] then db.sql else sql

/-- `executeQuery`, with what it does and the members after it. -/
def executeQuery (m : ConnectionPoolManager) (db : IDataBase) (sql : Str) (answer : Answer) :
    Except NullPointer ℤ × List PoolAction × IDataBase :=
  let db := { db with connectionPool := db.resolve m }
  match db.connectionPool with
  | none => (.error .pool, [], db)
  | some pool =>
    match answer.conn with
    | none => (.ok (-1), [.getConnection pool none], db)
    | some conn =>
      match MySqlConnection.executeQuery answer.session answer.statement with
      | none => (.error .session, [.getConnection pool (some conn)], db)
      | some ret =>
        (.ok ret,
          [.getConnection pool (some conn), .executeQuery conn (db.statement sql) ret,
            .releaseConnection pool conn],
          { db with rs := answer.recordSet })

/-- `executeCommand`, with what it does. -/
def executeCommand (db : IDataBase) (sql : Str) (answer : Answer) :
    Except NullPointer Bool × List PoolAction :=
  match db.connectionPool with
  | none => (.error .pool, [])
  | some pool =>
    match answer.conn with
    | none => (.ok (boolOfInt (-1)), [.getConnection pool none])
    | some conn =>
      match MySqlConnection.executeCommand answer.session answer.statement with
      | none => (.error .session, [.getConnection pool (some conn)])
      | some flag =>
        (.ok flag,
          [.getConnection pool (some conn), .executeCommand conn (db.statement sql) flag,
            .releaseConnection pool conn])

variable {m : ConnectionPoolManager} {db db' : IDataBase} {sql : Str} {answer : Answer}

/-- What `executeCommand` should do : no `NULL` pool is dereferenced, a connection is asked of the
pool that `executeQuery` would ask and of no other, the result is `true` only if the statement has
run on a connection of that pool and returned `true`, and each connection is released once. -/
structure Reports (m : ConnectionPoolManager) (db : IDataBase) (sql : Str)
    (call : Except NullPointer Bool × List PoolAction) : Prop where
  pool : call.1 ≠ .error .pool
  asks : ∀ pool, db.resolve m = some pool ↔ ∃ conn, .getConnection pool conn ∈ call.2
  ran : call.1 = .ok true → ∃ pool conn, db.resolve m = some pool ∧
    .getConnection pool (some conn) ∈ call.2 ∧
      .executeCommand conn (db.statement sql) true ∈ call.2
  releases : ∀ pool conn, call.2.count (.releaseConnection pool conn) =
    call.2.count (.getConnection pool (some conn))

/-- `executeCommand` does what it should exactly if the pool is resolved already, and gives a
connection that has a session. -/
theorem executeCommand_reports_iff : db.Reports m sql (db.executeCommand sql answer) ↔
    db.connectionPool ≠ none ∧ answer.conn ≠ none ∧ answer.session ≠ none := by
  unfold executeCommand
  cases hpool : db.connectionPool with
  | none => exact iff_of_false (fun h => h.pool rfl) fun h => h.1 rfl
  | some p =>
    have hresolve : db.resolve m = some p := by rw [resolve, hpool]
    cases hconn : answer.conn with
    | none =>
      refine iff_of_false (fun h => ?_) fun h => h.2.1 rfl
      obtain ⟨pool, conn, -, hget, -⟩ := h.ran rfl
      simp at hget
    | some c =>
      cases hexecute : MySqlConnection.executeCommand answer.session answer.statement with
      | none =>
        have hsession := MySqlConnection.executeCommand_eq_none.1 hexecute
        refine iff_of_false (fun h => ?_) fun h => h.2.2 hsession
        have hcount := h.releases p c
        simp at hcount
      | some flag =>
        have hsession : answer.session ≠ none := fun hnone => by
          rw [MySqlConnection.executeCommand_eq_none.2 hnone] at hexecute
          exact Option.some_ne_none flag hexecute.symm
        refine iff_of_true ⟨?_, fun pool => ?_, fun htrue => ?_, fun pool conn => ?_⟩
          ⟨Option.some_ne_none _, Option.some_ne_none _, hsession⟩
        · simp
        · simp [hresolve, eq_comm]
        · obtain rfl : flag = true := Except.ok.inj htrue
          exact ⟨p, c, hresolve, by simp, by simp⟩
        · by_cases hsame : p = pool ∧ c = conn
          · simp [hsame.1, hsame.2]
          · simp [hsame]

end IDataBase

/-! ## Sequences of calls -/

/-- The calls on a data base, with the pools there are and what is answered. -/
inductive DataBaseCall
  | executeQuery (manager : ConnectionPoolManager) (sql : Str) (answer : Answer)
  | executeCommand (manager : ConnectionPoolManager) (sql : Str) (answer : Answer)

namespace IDataBase

/-- One call; `none` where it dereferences a `NULL` pointer. -/
def step (db : IDataBase) : DataBaseCall → Option IDataBase
  | .executeQuery manager sql answer =>
    match (db.executeQuery manager sql answer).1 with
    | .ok _ => some (db.executeQuery manager sql answer).2.2
    | .error _ => none
  | .executeCommand _ sql answer =>
    match (db.executeCommand sql answer).1 with
    | .ok _ => some db
    | .error _ => none

/-- A list of calls. -/
def run (db : IDataBase) (calls : List DataBaseCall) : Option IDataBase :=
  calls.foldlM step db

/-- What holds at each `executeCommand` of `calls`, of the calls before it and what is answered. -/
def AtCommands (Q : List DataBaseCall → ConnectionPoolManager → Str → Answer → Prop)
    (calls : List DataBaseCall) : Prop :=
  Throughout (fun pre call => ∀ manager sql answer,
    call = .executeCommand manager sql answer → Q pre manager sql answer) calls

/-- The pool was set from the start, or one of the calls is an `executeQuery`. -/
def Resolved (db : IDataBase) (calls : List DataBaseCall) : Prop :=
  db.connectionPool ≠ none ∨ ∃ manager sql answer, .executeQuery manager sql answer ∈ calls

variable {m : ConnectionPoolManager} {db db' : IDataBase} {sql : Str} {answer : Answer}

/-- A query that ends has found its pool. -/
theorem step_executeQuery (h : db.step (.executeQuery m sql answer) = some db') :
    db'.connectionPool ≠ none := by
  unfold step executeQuery at h
  cases hpool : db.resolve m with
  | none => simp [hpool] at h
  | some pool =>
    cases hconn : answer.conn with
    | none =>
      simp only [hpool, hconn, Option.some.injEq] at h
      subst h
      exact Option.some_ne_none pool
    | some conn =>
      cases hexecute : MySqlConnection.executeQuery answer.session answer.statement with
      | none => simp [hpool, hconn, hexecute] at h
      | some ret =>
        simp only [hpool, hconn, hexecute, Option.some.injEq] at h
        subst h
        exact Option.some_ne_none pool

theorem step_executeCommand (h : db.step (.executeCommand m sql answer) = some db') :
    db' = db := by
  simp only [step] at h
  split at h
  · exact (Option.some.inj h).symm
  · contradiction

/-- After calls that have all ended, the pool is set exactly if it was resolved. -/
theorem run_connectionPool {calls : List DataBaseCall} (h : db.run calls = some db') :
    db'.connectionPool ≠ none ↔ db.Resolved calls := by
  induction calls using List.reverseRecOn generalizing db' with
  | nil =>
    obtain rfl : db = db' := Option.some.inj h
    simp [Resolved]
  | append_singleton calls call ih =>
    obtain ⟨db₁, hcalls, hcall⟩ : ∃ db₁, db.run calls = some db₁ ∧ db₁.step call = some db' := by
      rw [run, List.foldlM_append] at h
      obtain ⟨db₁, hcalls, hcall⟩ := Option.bind_eq_some_iff.1 h
      exact ⟨db₁, hcalls, by simpa using hcall⟩
    cases call with
    | executeQuery manager sql answer =>
      refine iff_of_true (step_executeQuery hcall) (Or.inr ⟨manager, sql, answer, ?_⟩)
      exact List.mem_append_right _ (List.mem_singleton_self _)
    | executeCommand manager sql answer =>
      rw [step_executeCommand hcall, ih hcalls]
      simp [Resolved]

/-- Commands that report. In every order of calls, each `executeCommand` that is reached does what
it should, exactly when the pool was resolved before it, by a query or from the start, and gives it
a connection that has a session. -/
theorem reports_iff_resolved (db : IDataBase) (calls : List DataBaseCall) :
    AtCommands (fun pre m sql answer => ∀ db', db.run pre = some db' →
        db'.Reports m sql (db'.executeCommand sql answer)) calls ↔
      AtCommands (fun pre _ _ answer => db.run pre ≠ none →
        db.Resolved pre ∧ answer.conn ≠ none ∧ answer.session ≠ none) calls := by
  refine forall₂_congr fun pre call => imp_congr_right fun _ => forall₃_congr fun m sql answer =>
    imp_congr_right fun _ => ?_
  dsimp only
  rw [Option.ne_none_iff_exists', forall_exists_index]
  refine forall₂_congr fun db' hrun => ?_
  rw [executeCommand_reports_iff, run_connectionPool hrun]

/-- A data base whose pool has not been looked for. -/
def unresolved : IDataBase := ⟨[], [], none, []⟩

/-- An answer without a connection. -/
def noConnection : Answer := ⟨none, none, .null, []⟩

/-- The first command of a data base dereferences `NULL`, and a command that is given no connection
returns `true`. -/
theorem not_reports : (¬∀ db calls, connectionPool db = none →
      AtCommands (fun pre m sql answer => ∀ db', db.run pre = some db' →
        db'.Reports m sql (db'.executeCommand sql answer)) calls) ∧
    ¬∀ db calls, connectionPool db ≠ none →
      AtCommands (fun pre m sql answer => ∀ db', db.run pre = some db' →
        db'.Reports m sql (db'.executeCommand sql answer)) calls := by
  constructor
  · intro h
    have hreports := h unresolved [.executeCommand ⟨none, ∅⟩ [] noConnection] rfl [] _
      (List.prefix_refl _) _ _ _ rfl _ rfl
    exact hreports.pool rfl
  · intro h
    have hreports := h { unresolved with connectionPool := some 0 }
      [.executeCommand ⟨none, ∅⟩ [] noConnection] (Option.some_ne_none 0) [] _
      (List.prefix_refl _) _ _ _ rfl _ rfl
    obtain ⟨pool, conn, -, hget, -⟩ := hreports.ran rfl
    exact absurd hget (by simp [executeCommand, noConnection])

end IDataBase

end Ick
