import Ick.Converter
import Ick.Delimited
import Ick.Mutex
import Mathlib.Tactic.SplitIfs
import Std.Data.TreeMap

/-!
# Sockets

`ISocket::send` returns one number for all that can become of the bytes : how many were
accepted, zero if the socket has no handle or nothing could be sent in time, or -1. The threads of
the handlers, which receive, are created in the program for Windows only; the server sends its
updates in both (`sendOn`).

`ISocket::receive` hands on what `recv` has written into the buffer of the caller, or says
why there is nothing. The handlers above it share one way of reading, `Reader` : a buffer
of 4096 bytes, zeroed, and in `strTmp` the text that stands at its front because it was not
complete in the bytes received before. The next bytes are written behind it, and the
buffer is read up to its first zero byte.

A server files the sockets of its clients, and for each the channels subscribed through
it, in `clientSocketMap`.
-/

namespace Ick

/-! ## Sending -/

/-- How a call of `ISocket::send` goes : the socket has no handle, `::send` accepts so many
bytes, or it ends with an error, which may be that the connection was reset or that nothing
could be sent in time. -/
inductive SendEvent
  | noHandle
  | accepted (len : ℕ)
  | reset
  | timedOut
  | failed
  deriving DecidableEq

/-- `ISocket::send` on Windows. -/
def send (recvBlockMode : Bool) : SendEvent → ℤ
  | .noHandle => 0
  | .accepted len => if len = 0 then -1 else len
  | .reset => -1
  | .timedOut => if recvBlockMode then -1 else 0
  | .failed => -1

/-- `ISocket::send` on both systems. On Linux it does not look at the error, so a time-out is one
like any other. -/
def sendOn (platform : Platform) (recvBlockMode : Bool) (e : SendEvent) : ℤ :=
  match platform with
  | .windows => send recvBlockMode e
  | .linux => send true e

theorem sendOn_noHandle (platform : Platform) (recvBlockMode : Bool) :
    sendOn platform recvBlockMode .noHandle = 0 := by
  cases platform <;> rfl

/-- Nothing is accepted, and the caller is told so. -/
def SendEvent.Refused (recvBlockMode : Bool) : SendEvent → Prop
  | .noHandle => False
  | .accepted len => len = 0
  | .reset => True
  | .timedOut => recvBlockMode = true
  | .failed => True

theorem send_neg_iff {recvBlockMode : Bool} {e : SendEvent} :
    send recvBlockMode e < 0 ↔ e.Refused recvBlockMode := by
  cases e with
  | accepted len =>
    rw [send, SendEvent.Refused]
    split_ifs with h
    · exact iff_of_true (by decide) h
    · exact iff_of_false (by omega) h
  | timedOut => cases recvBlockMode <;> simp [send, SendEvent.Refused]
  | _ => simp [send, SendEvent.Refused]

/-- A frame is accepted as a whole, or nothing of it. -/
def SendEvent.Whole (frame : Str) : SendEvent → Prop
  | .accepted len => len = 0 ∨ len = frame.length
  | _ => True

/-! ## Receiving -/

/-- How a call of `recv` ends : with bytes, at the end of the stream, or with an error,
which may be that the connection was reset or that nothing came in time. -/
inductive RecvEvent
  | bytes (data : Str)
  | closed
  | reset
  | timedOut
  | failed

/-- What `ISocket::receive` returns : the number of bytes, which are in the buffer, or zero,
or a negative number. -/
inductive Received
  | bytes (data : Str)
  | zero
  | negative

/-- `ISocket::receive`, with the new `isAlive` of the socket. In blocking mode a time-out is
an error like any other, and an error that is no reset leaves `isAlive` as it was. -/
def receive (recvBlockMode isAlive : Bool) : RecvEvent → Received × Bool
  | .bytes data => (.bytes data, true)
  | .closed => (.negative, false)
  | .reset => (.negative, false)
  | .timedOut => if recvBlockMode then (.negative, isAlive) else (.zero, isAlive)
  | .failed => if recvBlockMode then (.negative, isAlive) else (.negative, false)

/-- How the body of a loop ends : it goes on, it leaves the loop, the handler returns
`false`, or the behaviour is undefined. -/
inductive Flow (σ : Type*)
  | next (s : σ)
  | brk (s : σ)
  | ret (s : σ)
  | crash

/-- The property of the state in which the body ends. -/
def Flow.All {σ : Type*} (P : σ → Prop) : Flow σ → Prop
  | next s => P s
  | brk s => P s
  | ret s => P s
  | crash => True

/-- The state in which the body ends. -/
def Flow.state? {σ : Type*} : Flow σ → Option σ
  | next s => some s
  | brk s => some s
  | ret s => some s
  | crash => none

/-- `sizeof(buff)` -/
def bufferSize : ℕ := 4096

/-- A handler's buffer, up to a tail of zero bytes, and the text carried over. -/
structure Reader where
  buff : Str
  strTmp : Str
  deriving DecidableEq, Repr

namespace Reader

/-- The buffer after `memset`. -/
def new : Reader where
  buff := []
  strTmp := []

/-- The room that is offered to `receive`. -/
def room (r : Reader) : ℕ := bufferSize - 1 - r.strTmp.length

/-- The buffer after `receive` has written behind the text carried over. -/
def write (r : Reader) (data : Str) : Reader :=
  { r with
    buff := r.buff.take r.strTmp.length ++
      List.replicate (r.strTmp.length - r.buff.length) '\x00' ++ data ++
      r.buff.drop (r.strTmp.length + data.length) }

/-- `std::string(buff)` -/
def text (r : Reader) : Str := r.buff.takeWhile (· ≠ '\x00')

/-- `len == sizeof(buff) - 1 - strTmp.length()` -/
def full (r : Reader) (len : ℕ) : Bool := len = r.room

/-- The end of a round : a full buffer leaves its last piece at the front of the cleared
buffer, any other leaves the buffer clear. -/
def carry (r : Reader) (len : ℕ) (last : Str) : Reader :=
  if r.full len then ⟨last, last⟩ else new

/-- A reader whose buffer holds what is carried over, and nothing else. -/
def holding (c : Str) : Reader where
  buff := c
  strTmp := c

@[simp] theorem holding_nil : holding [] = new := rfl

theorem carry_eq (r : Reader) (len : ℕ) (last : Str) :
    r.carry len last = holding (if len = r.room then last else []) := by
  unfold carry full
  by_cases h : len = r.room <;> simp [h, holding, new]

/-- Bytes that contain no zero are read behind the text carried over. -/
theorem text_write_holding {c data : Str} (h : '\x00' ∉ c ++ data) :
    ((holding c).write data).text = c ++ data := by
  have hbuff : ((holding c).write data).buff = c ++ data := by
    simp [write, holding]
  rw [text, hbuff, List.takeWhile_eq_self_iff]
  intro x hx
  simpa using fun heq : x = '\x00' => h (heq ▸ hx)

/-- Bytes that fill the room make, with the text carried over, a full buffer. -/
theorem length_of_full {r : Reader} {data : Str} (hfull : data.length = r.room) :
    4095 ≤ (r.strTmp ++ data).length := by
  rw [room, bufferSize] at hfull
  rw [List.length_append]
  omega

/-- A full buffer that does not end with a message is cut inside one, since a buffer without a
semicolon would be part of a message of 4095 bytes. -/
theorem exists_cut {β : Type*} {f : Str → Option β} {messages : List Str} {done : List β}
    {r : Reader} {data rest : Str}
    (h : Delimited.Remaining ';' f messages done (r.strTmp ++ data ++ rest))
    (hshort : ∀ m ∈ messages, m.length < 4000) (hfull : data.length = r.room)
    (hends : ¬[';'] <:+ r.strTmp ++ data) :
    ∃ b p, r.strTmp ++ data = b ++ ';' :: p ∧ p ≠ [] ∧ ';' ∉ p := by
  have hlen := length_of_full hfull
  refine h.exists_cut (by omega) (fun m hm => ?_) hends
  have hm := hshort m hm
  omega

end Reader

/-! ## The subscriptions of a server's clients -/

/-- `ChannelSubscribeInfo` -/
structure ChannelSubscribeInfo where
  channelName : Str
  registTime : ℤ
  isRegistSuccess : Bool

/-- `SocketSubscribeChannelMap` : for the address of each socket, the addresses of the
channels subscribed through it. -/
abbrev SocketSubscribeChannelMap := Std.TreeMap ℕ (Std.TreeMap ℕ ChannelSubscribeInfo)

namespace SocketSubscribeChannelMap

/-- `insertClientSocket` -/
def insertClientSocket (clients : SocketSubscribeChannelMap) (socketParam : ℕ) :
    SocketSubscribeChannelMap :=
  clients.insertIfNew socketParam ∅

/-- `removeClientSocket` -/
def removeClientSocket (clients : SocketSubscribeChannelMap) (socketParam : ℕ) :
    SocketSubscribeChannelMap :=
  clients.erase socketParam

/-- `insertSubscribeChannel(SocketParam*, UntypedData*)`, at the time `t`, for a channel
with this full name. -/
def insertSubscribeChannel (clients : SocketSubscribeChannelMap) (socketParam untypedData : ℕ)
    (fullName : Str) (t : ℤ) : SocketSubscribeChannelMap :=
  let channelInfo : ChannelSubscribeInfo := ⟨fullName, t, true⟩
  match clients[socketParam]? with
  | none => clients.insertIfNew socketParam
      (Std.TreeMap.insertIfNew ∅ untypedData channelInfo)
  | some channels => clients.insert socketParam (channels.insertIfNew untypedData channelInfo)

/-- The channel is recorded as subscribed through the socket. -/
def Records (clients : SocketSubscribeChannelMap) (socketParam untypedData : ℕ) : Prop :=
  ∃ channels, clients[socketParam]? = some channels ∧ untypedData ∈ channels

theorem records_insertClientSocket {clients : SocketSubscribeChannelMap}
    {socketParam socketParam' untypedData : ℕ} :
    (clients.insertClientSocket socketParam).Records socketParam' untypedData ↔
      clients.Records socketParam' untypedData := by
  unfold insertClientSocket Records
  simp only [Std.TreeMap.getElem?_insertIfNew, compare_eq_iff_eq]
  by_cases h : socketParam = socketParam' ∧ socketParam ∉ clients
  · obtain ⟨rfl, hmem⟩ := h
    simp [hmem]
  · simp [h]

theorem records_removeClientSocket {clients : SocketSubscribeChannelMap}
    {socketParam socketParam' untypedData : ℕ} :
    (clients.removeClientSocket socketParam).Records socketParam' untypedData ↔
      socketParam ≠ socketParam' ∧ clients.Records socketParam' untypedData := by
  unfold removeClientSocket Records
  simp only [Std.TreeMap.getElem?_erase, compare_eq_iff_eq]
  by_cases h : socketParam = socketParam' <;> simp [h]

/-- Nothing is recorded for a new socket. -/
theorem not_records_insertClientSocket {clients : SocketSubscribeChannelMap} {socketParam : ℕ}
    (h : socketParam ∉ clients) (untypedData : ℕ) :
    ¬(clients.insertClientSocket socketParam).Records socketParam untypedData := by
  rw [records_insertClientSocket]
  rintro ⟨channels, hget, -⟩
  rw [Std.TreeMap.getElem?_eq_none h] at hget
  cases hget

theorem records_insertSubscribeChannel {clients : SocketSubscribeChannelMap}
    {socketParam untypedData : ℕ} {fullName : Str} {t : ℤ} {socketParam' untypedData' : ℕ} :
    (clients.insertSubscribeChannel socketParam untypedData fullName t).Records socketParam'
        untypedData' ↔
      (socketParam' = socketParam ∧ untypedData' = untypedData) ∨
        clients.Records socketParam' untypedData' := by
  unfold insertSubscribeChannel Records
  cases hs : clients[socketParam]? with
  | none =>
    have hmem : socketParam ∉ clients := by
      rw [Std.TreeMap.mem_iff_isSome_getElem?, hs]
      exact Bool.false_ne_true
    simp only [Std.TreeMap.getElem?_insertIfNew, compare_eq_iff_eq]
    by_cases h : socketParam = socketParam'
    · subst h
      simp [hmem, @eq_comm _ untypedData' untypedData]
    · simp [h, Ne.symm h]
  | some channels =>
    simp only [Std.TreeMap.getElem?_insert, compare_eq_iff_eq]
    by_cases h : socketParam = socketParam'
    · subst h
      simp [hs, @eq_comm _ untypedData' untypedData]
    · simp [h, Ne.symm h]

end SocketSubscribeChannelMap

end Ick
