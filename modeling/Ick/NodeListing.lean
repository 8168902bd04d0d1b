import Ick.SubscriberClient
import Ick.SubscriberServer

/-!
# Lists of channel names

A client asks a server with `getNodeInfoList` for the names of the channels below a path. Its
request is `ChannelList:path;`, which has two fields, and the server answers a request with
three fields at least. So no answer is ever sent, whatever is below the path
(`replies_request`), and the callbacks of the client receive what they should only if nothing
is below the path or there are no callbacks (`listed_iff`).
-/

namespace Ick

namespace SubscriberClient

/-- `IckStormSubscriberManager::getNodeInfoList`, whose `m_subscriberSocket` is the handler. -/
def getNodeInfoList (s : SubscriberClient) (nodeName : Str) : SubscriberClient :=
  if nodeName = [] then s
  else
    { s with dataSendList := s.dataSendList ++ ["ChannelList:".toList ++ nodeName ++ [';']] }

/-- The client handles texts one after the other, each received at once. -/
def handleTexts (world : ClientWorld) : List Str → SubscriberClient → Flow SubscriberClient
  | [], s => .next s
  | text :: texts, s =>
    match Converter.split text ';' with
    | none => .crash
    | some datas =>
      match handleAll world datas s with
      | .next s => handleTexts world texts s
      | flow => flow

/-- The names that one of the callbacks receives for the path. -/
def namesReceived (callBack : ℕ) (nodeName : Str) (log : List ClientEvent) : List Str :=
  log.flatMap fun
    | .nodeInfo callBack' nodeName' nodeNames _ =>
      if callBack' = callBack ∧ nodeName' = nodeName then
        (Converter.split nodeNames ',').getD []
      else []
    | _ => []

end SubscriberClient

namespace SubscriberServer

/-- What the server sends about a text received at once. -/
def replies (world : SubscriberWorld) (socketParam : ℕ) (s : SubscriberServer) (text : Str) :
    List Str :=
  match Converter.split text ';' with
  | none => []
  | some datas =>
    match (handleAll world socketParam text.length (datas.getLastD []) datas s).state? with
    | none => []
    | some s' => (s'.log.drop s.log.length).filterMap fun
      | .send data => some data
      | .call _ _ _ => none

end SubscriberServer

/-- When the client asks for the names below the path, the server handles the text of the
request, and the client what the server sends about it, each callback has received the names
that are listed there, each once and in order. -/
def Listed (clientWorld : ClientWorld) (world : SubscriberWorld) (socketParam : ℕ)
    (c : SubscriberClient) (s : SubscriberServer) (nodeName : Str) : Prop :=
  let c' := c.getNodeInfoList nodeName
  let request := (c'.dataSendList.drop c.dataSendList.length).flatten
  ∃ c'', c'.handleTexts clientWorld (s.replies world socketParam request) = .next c'' ∧
    ∀ callBack ∈ clientWorld.nodeInfoCallBacks,
      SubscriberClient.namesReceived callBack nodeName (c''.log.drop c.log.length) =
        s.objects.getChannelNodeList nodeName

/-- The path of a folder, as a client may ask for it. -/
structure IsFolderPath (nodeName : Str) : Prop where
  head : nodeName.head? = some '/'
  last : nodeName.getLast? = some '/'
  noSep : ':' ∉ nodeName ∧ ';' ∉ nodeName ∧ ' ' ∉ nodeName

variable {clientWorld : ClientWorld} {world : SubscriberWorld} {socketParam : ℕ}
  {c : SubscriberClient} {s : SubscriberServer} {nodeName : Str}

theorem IsFolderPath.ne_nil (h : IsFolderPath nodeName) : nodeName ≠ [] := by
  rintro rfl
  exact absurd h.head (by decide)

/-- The text of a request is split into its two fields. -/
theorem split_request (h : IsFolderPath nodeName) :
    Converter.split ("ChannelList:".toList ++ nodeName ++ [';']) ';' =
        some ["ChannelList:".toList ++ nodeName] ∧
      Converter.split ("ChannelList:".toList ++ nodeName) ':' =
        some ["ChannelList".toList, nodeName] := by
  obtain ⟨hcolon, hsemicolon, hblank⟩ := h.noSep
  constructor
  · have hfirst : ';' ∉ "ChannelList:".toList ++ nodeName := by simp [hsemicolon]
    rw [Converter.split_of_noBlank (by simp [hblank]),
      List.splitOn_append_cons_self_of_not_mem hfirst, List.splitOn_nil]
    rfl
  · have htext : "ChannelList:".toList ++ nodeName = "ChannelList".toList ++ ':' :: nodeName := rfl
    rw [Converter.split_of_noBlank (by simp [hblank]), htext,
      List.splitOn_append_cons_self_of_not_mem (by decide), List.splitOn_eq_singleton hcolon]
    exact congrArg some (Converter.tidy_concat h.ne_nil ["ChannelList".toList])

/-- The server does not answer a request. -/
theorem replies_request (h : IsFolderPath nodeName) :
    s.replies world socketParam ("ChannelList:".toList ++ nodeName ++ [';']) = [] := by
  obtain ⟨htext, hfields⟩ := split_request h
  have hhandle : s.handle world socketParam ("ChannelList:".toList ++ nodeName) = .next s := by
    unfold SubscriberServer.handle
    rw [hfields]
    rfl
  simp only [SubscriberServer.replies, htext, SubscriberServer.handleAll, hhandle, Flow.state?,
    List.drop_length, List.filterMap_nil]

/-- Requests for lists. The callbacks have received the names below a path exactly if there
are none, or no callbacks. -/
theorem listed_iff (h : IsFolderPath nodeName) :
    Listed clientWorld world socketParam c s nodeName ↔
      clientWorld.nodeInfoCallBacks = [] ∨ s.objects.getChannelNodeList nodeName = [] := by
  have hask : c.getNodeInfoList nodeName = { c with dataSendList :=
      c.dataSendList ++ ["ChannelList:".toList ++ nodeName ++ [';']] } := if_neg h.ne_nil
  simp only [Listed, hask, List.drop_left, List.flatten_singleton, replies_request h,
    SubscriberClient.handleTexts, Flow.next.injEq, exists_eq_left', List.drop_length,
    SubscriberClient.namesReceived, List.flatMap_nil]
  constructor
  · intro hall
    by_contra hne
    rw [not_or] at hne
    obtain ⟨callBack, hcallBack⟩ := List.exists_mem_of_ne_nil _ hne.1
    exact hne.2 (hall callBack hcallBack).symm
  · rintro (hnone | hnil) callBack hcallBack
    · rw [hnone] at hcallBack
      exact absurd hcallBack List.not_mem_nil
    · exact hnil.symm

/-- A server with the channel `/a`, whose name is listed below `/`. -/
def server_listed : SubscriberServer :=
  { SubscriberServer.server_a with objects :=
    ((ObjectManager.new.registerData (some 0) "/a".toList).state?).getD .new }

/-- The list for a folder without channels, of a server that has one elsewhere. -/
theorem listed_elsewhere : Listed { ClientWorld.quiet with nodeInfoCallBacks := [0] } .quiet 0 .new
    server_listed "/b/".toList :=
  (listed_iff ⟨rfl, rfl, by decide⟩).2 (Or.inr rfl)

/-- The name of the channel is not received. -/
theorem not_listed : ¬∀ clientWorld world socketParam c s nodeName, IsFolderPath nodeName →
    Listed clientWorld world socketParam c s nodeName := by
  intro h
  obtain ⟨c', hc', hall⟩ := h { ClientWorld.quiet with nodeInfoCallBacks := [0] } .quiet 0 .new
    server_listed ['/'] ⟨rfl, rfl, by decide⟩
  obtain rfl : _ = c' := Flow.next.inj hc'
  have hnames : [] = server_listed.objects.getChannelNodeList ['/'] := hall 0 (by decide)
  exact absurd hnames (by decide)

end Ick
