import Ick.LockTrace
import Ick.ServiceClient
import Ick.SubscriberClient

/-!
# The paths between `lock` and `unlock`

Three functions lock `m_mutex` at their beginning and unlock it at their end :
`IckStormSubscriberSocket::subscribeChannelHandler`, the client branch of
`IckStormServiceSocket::socketConnectHandler`, and
`IckStormSubscriberManager::subscriber(channelName, callback)`. In between the first two return
`false` after a send that has failed, and the third if there is no socket; none of them unlocks the
mutex then, nor catches an exception.

So a call is balanced if and only if all the calls in its section pass, and, for the third, there
is a socket (`balanced_iff`). A section of the service client passes exactly if the client's pass
goes on (`passes_iff_pass`).
-/

namespace Ick

/-- The objects whose `m_mutex` is locked. -/
inductive MutexOwner
  | subscriberSocket
  | serviceSocket
  | subscriberManager
  deriving DecidableEq

namespace LockPaths

/-- `if (this->send(str, socketParam) < 0) return false;` -/
def sends : LockStmt MutexOwner := .call fun n => n < 0

/-- A call whose result is not looked at. -/
def calls : LockStmt MutexOwner := .call fun _ => false

/-- The section of `subscribeChannelHandler` at the time `t`. -/
def subscribeChannelHandler (t : ℤ) (subscribeChannels : SubscribeChannels)
    (dataSendList : List Str) : List (LockStmt MutexOwner) :=
  ((batches 0 [] (subscribeChannels.requests t)).map fun _ => calls) ++
    (batches 0 [] dataSendList).map fun _ => sends

/-- The section of the client branch of `socketConnectHandler` at the time `t`. -/
def socketConnectHandler (serviceToRun : List ServiceClient.ServiceParam)
    (lastHeartBeatTime t : ℤ) : List (LockStmt MutexOwner) :=
  (serviceToRun.map fun _ => sends) ++ if t - lastHeartBeatTime > 60 then [sends] else []

/-- `subscribe` -/
def subscribe : List (LockStmt MutexOwner) :=
  [.lock .subscriberSocket, calls, .unlock .subscriberSocket]

/-- The section of `subscriber` when there is a socket. -/
def subscriber (callback : Bool) : List (LockStmt MutexOwner) :=
  subscribe ++ if callback then [calls] else []

end LockPaths

/-- A call of one of the three functions, with what it reads : the socket and the call-back are
`NULL` or not. -/
inductive LockingCall
  | subscribeChannelHandler (t : ℤ) (subscribeChannels : SubscribeChannels)
    (dataSendList : List Str)
  | socketConnectHandler (serviceToRun : List ServiceClient.ServiceParam)
    (lastHeartBeatTime t : ℤ)
  | subscriber (subscriberSocket callback : Bool)

namespace LockingCall

open LockStmt (ops ops_append ops_map_call balanced_nil balanced_wrap balanced_section_iff)

/-- The object whose mutex is locked first. -/
def owner : LockingCall → MutexOwner
  | .subscribeChannelHandler _ _ _ => .subscriberSocket
  | .socketConnectHandler _ _ _ => .serviceSocket
  | .subscriber _ _ => .subscriberManager

/-- The statements between `lock` and `unlock`. -/
def body : LockingCall → List (LockStmt MutexOwner)
  | .subscribeChannelHandler t subscribeChannels dataSendList =>
    LockPaths.subscribeChannelHandler t subscribeChannels dataSendList
  | .socketConnectHandler serviceToRun lastHeartBeatTime t =>
    LockPaths.socketConnectHandler serviceToRun lastHeartBeatTime t
  | .subscriber _ callback => LockPaths.subscriber callback

/-- The statements of the call. Without a socket `subscriber` returns behind the first. -/
def stmts : LockingCall → List (LockStmt MutexOwner)
  | .subscriber false _ => [.lock .subscriberManager]
  | call => .lock call.owner :: call.body ++ [.unlock call.owner]

/-- The end of the call if all calls in it pass. There is no `return` at the end of
`subscriber`. -/
def last : LockingCall → LockEnd
  | .subscribeChannelHandler _ _ _ => .returned true
  | .socketConnectHandler _ _ _ => .returned true
  | .subscriber false _ => .returned false
  | .subscriber true _ => .noReturn

/-- The trace of the call, and how it ends. -/
def run (results : ℕ → CallResult) (call : LockingCall) : List (LockOp MutexOwner) × LockEnd :=
  LockStmt.run results call.last 0 call.stmts

/-- There is a socket if the call needs one, all calls in the section return, and no send gives a
negative number. -/
def Passes (results : ℕ → CallResult) : LockingCall → Prop
  | .subscriber false _ => False
  | call => LockStmt.Passes results 0 call.body

/-- In the section no mutex is left locked, and that of the section is not touched. -/
theorem balanced_ops_body (call : LockingCall) :
    Balanced (ops call.body) ∧ .unlock call.owner ∉ ops call.body := by
  cases call with
  | subscribeChannelHandler t subscribeChannels dataSendList =>
    have hops : ops (LockPaths.subscribeChannelHandler t subscribeChannels dataSendList) = [] := by
      rw [LockPaths.subscribeChannelHandler, ops_append, LockPaths.calls, LockPaths.sends,
        ops_map_call, ops_map_call, List.append_nil]
    rw [body, hops]
    exact ⟨balanced_nil, List.not_mem_nil⟩
  | socketConnectHandler serviceToRun lastHeartBeatTime t =>
    have hops : ops (LockPaths.socketConnectHandler serviceToRun lastHeartBeatTime t) = [] := by
      rw [LockPaths.socketConnectHandler, ops_append, LockPaths.sends, ops_map_call,
        List.nil_append]
      split_ifs <;> rfl
    rw [body, hops]
    exact ⟨balanced_nil, List.not_mem_nil⟩
  | subscriber subscriberSocket callback =>
    have hops : ops (LockPaths.subscriber callback) =
        [.lock .subscriberSocket, .unlock .subscriberSocket] := by
      cases callback <;> rfl
    rw [body, hops]
    refine ⟨balanced_wrap balanced_nil MutexOwner.subscriberSocket, ?_⟩
    simp [owner]

theorem not_balanced_lock {μ : Type*} [DecidableEq μ] (m : μ) : ¬Balanced [LockOp.lock m] := by
  intro h
  simpa using h.released m

/-- A call releases its mutexes if and only if it passes. -/
theorem balanced_iff (results : ℕ → CallResult) (call : LockingCall) :
    Balanced (call.run results).1 ↔ call.Passes results := by
  obtain ⟨hbalanced, hfresh⟩ := balanced_ops_body call
  cases call with
  | subscribeChannelHandler t subscribeChannels dataSendList =>
    exact balanced_section_iff hbalanced hfresh
  | socketConnectHandler serviceToRun lastHeartBeatTime t =>
    exact balanced_section_iff hbalanced hfresh
  | subscriber subscriberSocket callback =>
    cases subscriberSocket with
    | false => exact iff_of_false (not_balanced_lock _) id
    | true => exact balanced_section_iff hbalanced hfresh

/-! ## The pass of the service client -/

/-- The loop goes on behind the last request exactly if no send gives a negative number. -/
theorem sendServices_spec (sends : ℕ → SendEvent) (its : List ServiceClient.ServiceParam) :
    ∀ {i : ℕ} {s : ServiceClient},
    (∃ s', ServiceClient.sendServices sends its i s = .next s' ∧
      s'.recvBlockMode = s.recvBlockMode ∧ s'.lastHeartBeatTime = s.lastHeartBeatTime ∧
      ∀ j < its.length, 0 ≤ send s.recvBlockMode (sends (i + j))) ∨
    (∃ s', ServiceClient.sendServices sends its i s = .ret s') ∧
      ∃ j < its.length, send s.recvBlockMode (sends (i + j)) < 0 := by
  induction its with
  | nil => exact .inl ⟨_, rfl, rfl, rfl, fun j hj => absurd hj (Nat.not_lt_zero j)⟩
  | cons it its ih =>
    intro i s
    by_cases hneg : send s.recvBlockMode (sends i) < 0
    · have hrefused : ServiceClient.sendServices sends (it :: its) i s = _ :=
        ServiceClient.sendServices_refused (send_neg_iff.1 hneg)
      exact .inr ⟨⟨_, hrefused⟩, 0, Nat.succ_pos _, hneg⟩
    · rw [ServiceClient.sendServices_erased fun hrefused => hneg (send_neg_iff.2 hrefused)]
      rcases @ih (i + 1) { s.logged (.request it (sends i)) with serviceToRun := its } with
        ⟨s', hs', hmode, htime, hall⟩ | ⟨hret, j, hj, hlt⟩
      · refine .inl ⟨s', hs', hmode, htime, fun j hj => ?_⟩
        cases j with
        | zero => exact not_lt.1 hneg
        | succ j => exact Nat.add_right_comm i 1 j ▸ hall j (Nat.lt_of_succ_lt_succ hj)
      · exact .inr ⟨hret, j + 1, Nat.succ_lt_succ hj, Nat.add_right_comm i 1 j ▸ hlt⟩

/-- The section passes exactly if the pass of the service client goes on. -/
theorem passes_iff_pass (sends : ℕ → SendEvent) (heartBeat : SendEvent) (t : ℤ)
    (s : ServiceClient) :
    (socketConnectHandler s.serviceToRun s.lastHeartBeatTime t).Passes
        (fun k => .returns (send s.recvBlockMode
          (if k < s.serviceToRun.length then sends k else heartBeat))) ↔
      ∃ s', s.pass sends heartBeat t = .next s' := by
  change LockStmt.Passes _ 0 (LockPaths.socketConnectHandler _ _ _) ↔ _
  rw [LockPaths.socketConnectHandler, LockPaths.sends, LockStmt.passes_map_call_append,
    ServiceClient.pass]
  rcases @sendServices_spec sends s.serviceToRun 0 s with
    ⟨s', hs', hmode, htime, hall⟩ | ⟨⟨s', hs'⟩, j, hj, hlt⟩
  · have hsends : ∀ i < s.serviceToRun.length, ∃ n : ℤ,
        CallResult.returns (send s.recvBlockMode
          (if 0 + i < s.serviceToRun.length then sends (0 + i) else heartBeat)) = .returns n ∧
        decide (n < 0) = false := by
      intro i hi
      refine ⟨_, rfl, ?_⟩
      rw [if_pos (by omega)]
      exact decide_eq_false (hall i hi).not_gt
    rw [hs', and_iff_right hsends]
    dsimp only
    rw [htime]
    split_ifs with hdue hneg
    · refine iff_of_false (fun h => ?_) (fun ⟨_, h⟩ => nomatch h)
      obtain ⟨⟨n, hn, hpos⟩, -⟩ := h
      dsimp only at hn
      rw [if_neg (by omega)] at hn
      rw [← CallResult.returns.inj hn] at hpos
      exact of_decide_eq_false hpos (hmode ▸ hneg)
    · refine iff_of_true ⟨⟨_, rfl, ?_⟩, trivial⟩ ⟨_, rfl⟩
      dsimp only
      rw [if_neg (by omega)]
      exact decide_eq_false (hmode ▸ hneg)
    · exact iff_of_true trivial ⟨_, rfl⟩
  · rw [hs']
    refine iff_of_false (fun h => ?_) (fun ⟨_, h⟩ => nomatch h)
    obtain ⟨n, hn, hpos⟩ := h.1 j hj
    rw [if_pos (by omega)] at hn
    rw [← CallResult.returns.inj hn] at hpos
    exact of_decide_eq_false hpos hlt

/-- A send of each of the sockets fails, and there is no socket. -/
theorem not_balanced_failing :
    ¬Balanced ((subscribeChannelHandler 0 ∅ ["ChannelList:a;".toList]).run
      fun _ => .returns (-1)).1 ∧
    ¬Balanced ((socketConnectHandler [⟨"/a".toList, "b".toList, []⟩] 0 0).run
      fun _ => .returns (-1)).1 ∧
    ¬Balanced ((subscriber false true).run fun _ => .returns 0).1 :=
  ⟨not_balanced_lock MutexOwner.subscriberSocket, not_balanced_lock MutexOwner.serviceSocket,
    not_balanced_lock MutexOwner.subscriberManager⟩

end LockingCall

end Ick
