import Ick.Converter
import Ick.History
import Std.Data.TreeMap

/-!
# The HTTP server

An `HttpServer` has a callback for each of some paths, and one for all other paths. Each of its
threads has an `evhttp` of libevent, which is told to call `callbackHandler` for each of the paths.

Four things decide what a request comes to beside the callbacks. `evhttp` refuses the methods that
it has not been told to allow, and nothing here tells it, so that it allows five. It decodes the
path of a request before it compares it with the paths it knows, and `callbackHandler` looks for the
path as it was sent. `HttpServerThread::Start` sets the callback for all other paths to one of its
own, so that the generic callback is called for a path that is not known only if it has been set
after the thread was last started. And this callback joins the parts of the URI in 8192 bytes, and
reads them even if they are not written, as when the URI is longer. `served_of_run` says what a
request comes to in every run, and `crashes_iff` for which requests nothing is called, and `NULL` is
used instead of the generic callback.

A callback is a number here, for the function and its argument. `evhttp_bind_socket_with_handle`
may fail, and `evhttp_accept_socket` for each thread.
-/

namespace Ick

/-! ## libevent -/

/-- What a `const char*` to this text is read as. -/
def cString (s : Str) : Str := s.takeWhile (· ≠ '\x00')

/-- `evhttp_cmd_type` -/
inductive EvHttpCmdType
  | get
  | post
  | head
  | put
  | delete
  | options
  | trace
  | connect
  | patch
  deriving DecidableEq

/-- The methods that an `evhttp` allows when it is not told otherwise. -/
def EvHttpCmdType.allowedMethods : List EvHttpCmdType := [.get, .post, .head, .put, .delete]

/-- `evhttp_uri` : the parts of a URI. -/
structure EvHttpUri where
  scheme : Option Str
  userinfo : Option Str
  host : Option Str
  port : Option ℕ
  path : Str
  query : Option Str
  fragment : Option Str

namespace EvHttpUri

/-- The host, and what stands around it. -/
def authority (uri : EvHttpUri) : Str :=
  match uri.host with
  | none => []
  | some host => ['/', '/'] ++ (uri.userinfo.elim [] (· ++ ['@']) ++ host ++
      uri.port.elim [] (':' :: Converter.convertToString ·))

/-- The parts, one after the other. -/
def joined (uri : EvHttpUri) : Str :=
  uri.scheme.elim [] (· ++ [':']) ++ uri.authority ++ uri.path ++ uri.query.elim [] ('?' :: ·) ++
    uri.fragment.elim [] ('#' :: ·)

/-- `evhttp_uri_join` : what it writes to an array of this size, `none` if that is nothing. A path
behind a host starts with a slash, and the text is closed by a zero. -/
def join (uri : EvHttpUri) (limit : ℕ) : Option Str :=
  if uri.host.isSome ∧ uri.path ≠ [] ∧ uri.path.head? ≠ some '/' then none
  else if uri.joined.length + 1 ≤ limit then some uri.joined else none

end EvHttpUri

/-- `evhttp_request` : what is read of one that has been received whole. -/
structure EvHttpRequest where
  type : EvHttpCmdType
  uri : EvHttpUri

/-- A request for a path, without anything else. -/
def EvHttpRequest.ofPath (type : EvHttpCmdType) (path : Str) : EvHttpRequest :=
  ⟨type, ⟨none, none, none, none, path, none, none⟩⟩

/-- A path is joined if it is shorter than the array. -/
theorem EvHttpRequest.join_ofPath (type : EvHttpCmdType) (path : Str) (limit : ℕ) :
    (ofPath type path).uri.join limit = none ↔ limit ≤ path.length := by
  have hjoined : (ofPath type path).uri.joined = path := by
    simp [ofPath, EvHttpUri.joined, EvHttpUri.authority]
  rw [EvHttpUri.join, if_neg (by simp [ofPath]), hjoined]
  split_ifs with hfits
  · exact iff_of_false nofun (by omega)
  · exact iff_of_true rfl (by omega)

/-- What an `evhttp` does with a request : it calls a function, or answers itself that the method is
not implemented or that there is nothing under this path. -/
inductive EvHttpAction (Handler : Type)
  | call (handler : Handler)
  | notImplemented
  | notFound
  deriving DecidableEq

/-- The functions that an `evhttp` can be told to call. -/
inductive HttpHandler
  | callbackHandler
  | defaultGenericCallback
  deriving DecidableEq

/-- `struct evhttp` : the paths that `callbackHandler` is called for, and what is called for all
others. -/
structure EvHttp where
  callbacks : List Str
  gencb : Option HttpHandler

namespace EvHttp

/-- `evhttp_set_cb`, which leaves a path that is known as it is. -/
def setCb (http : EvHttp) (path : Str) : EvHttp :=
  if cString path ∈ http.callbacks then http
  else { http with callbacks := http.callbacks ++ [cString path] }

/-- The value of a hexadecimal digit. -/
def hexValue (c : Char) : Option ℕ :=
  if '0' ≤ c ∧ c ≤ '9' then some (c.toNat - '0'.toNat)
  else if 'a' ≤ c ∧ c ≤ 'f' then some (c.toNat - 'a'.toNat + 10)
  else if 'A' ≤ c ∧ c ≤ 'F' then some (c.toNat - 'A'.toNat + 10)
  else none

/-- `evhttp_decode_uri_internal` -/
def decodeUri : Str → Str
  | [] => []
  | [c] => [c]
  | [c, d] => [c, d]
  | c :: x :: y :: uri =>
    if c = '%' then
      match hexValue x, hexValue y with
      | some a, some b => Char.ofNat (16 * a + b) :: decodeUri uri
      | _, _ => c :: decodeUri (x :: y :: uri)
    else c :: decodeUri (x :: y :: uri)

/-- `evhttp_handle_request` -/
def dispatch (http : EvHttp) (req : EvHttpRequest) : EvHttpAction HttpHandler :=
  if req.type ∉ EvHttpCmdType.allowedMethods then .notImplemented
  else if cString (decodeUri req.uri.path) ∈ http.callbacks then .call .callbackHandler
  else
    match http.gencb with
    | some handler => .call handler
    | none => .notFound

end EvHttp

/-! ## The server -/

/-- `HttpServerThread` -/
structure HttpServerThread where
  http : EvHttp
  isRunning : Bool

namespace HttpServerThread

/-- A thread with nothing to call. -/
def new : HttpServerThread := ⟨⟨[], none⟩, false⟩

/-- `Start`, when the socket is accepted or not. -/
def start (t : HttpServerThread) (accepted : Bool) : HttpServerThread :=
  if accepted then ⟨{ t.http with gencb := some .defaultGenericCallback }, true⟩ else t

/-- `Stop` -/
def stop (t : HttpServerThread) : HttpServerThread := { t with isRunning := false }

end HttpServerThread

/-- `HttpServer` -/
structure HttpServer where
  port : ℕ
  serverThreads : List HttpServerThread
  callbacks : Std.TreeMap Str ℕ
  genericCallback : Option ℕ
  isRunning : Bool

/-- The calls on a server. A start carries whether the socket is bound, and for which threads it is
accepted. -/
inductive HttpServerCall
  | setListeningPort (port : ℕ)
  | setCallback (path : Str) (cb : ℕ)
  | setGenericCallback (cb : ℕ)
  | start (bound : Bool) (accepted : ℕ → Bool)
  | stop

/-- What a request comes to : a callback, the answer `{'status':'OK'}`, one of the two answers of
libevent, or undefined behaviour, which is to read an array before it is written or to call
`NULL`. -/
inductive Served
  | callback (cb : ℕ)
  | status
  | notImplemented
  | notFound
  | uninitialised
  | crash
  deriving DecidableEq

/-- `defaultGenericCallback` -/
def HttpServerThread.defaultGenericCallback (req : EvHttpRequest) : Served :=
  match req.uri.join 8192 with
  | some _ => .status
  | none => .uninitialised

namespace HttpServer

/-- A server with this number of threads. -/
def new (port threadNum : ℕ) : HttpServer where
  port := port
  serverThreads := List.replicate threadNum .new
  callbacks := ∅
  genericCallback := none
  isRunning := false

/-- `SetCallback` -/
def setCallback (s : HttpServer) (path : Str) (cb : ℕ) : HttpServer :=
  if path ∉ s.callbacks then
    { s with
      callbacks := s.callbacks.insertIfNew path cb
      serverThreads := s.serverThreads.map fun t => { t with http := t.http.setCb path } }
  else s

/-- `SetGenericCallback` -/
def setGenericCallback (s : HttpServer) (cb : ℕ) : HttpServer :=
  if s.genericCallback.isNone then
    { s with
      genericCallback := some cb
      serverThreads := s.serverThreads.map fun t =>
        { t with http := { t.http with gencb := some .callbackHandler } } }
  else s

/-- `Start` -/
def start (s : HttpServer) (bound : Bool) (accepted : ℕ → Bool) : HttpServer :=
  if s.isRunning then s
  else if bound then
    { s with
      serverThreads := s.serverThreads.mapIdx fun i t => t.start (accepted i)
      isRunning := true }
  else s

/-- `Stop` -/
def stop (s : HttpServer) : HttpServer :=
  if s.isRunning then
    { s with serverThreads := s.serverThreads.map (·.stop), isRunning := false }
  else s

/-- One call. -/
def step (s : HttpServer) : HttpServerCall → HttpServer
  | .setListeningPort port => { s with port := port }
  | .setCallback path cb => s.setCallback path cb
  | .setGenericCallback cb => s.setGenericCallback cb
  | .start bound accepted => s.start bound accepted
  | .stop => s.stop

/-- The server after a list of calls. -/
def run (s : HttpServer) (calls : List HttpServerCall) : HttpServer := calls.foldl step s

/-- `callbackHandler` -/
def callbackHandler (s : HttpServer) (path : Str) : Served :=
  match s.callbacks[path]? with
  | some cb => .callback cb
  | none =>
    match s.genericCallback with
    | some cb => .callback cb
    | none => .crash

/-- What a request that comes to a thread is served with. -/
def serve (s : HttpServer) (t : HttpServerThread) (req : EvHttpRequest) : Served :=
  match t.http.dispatch req with
  | .call .callbackHandler => s.callbackHandler req.uri.path
  | .call .defaultGenericCallback => HttpServerThread.defaultGenericCallback req
  | .notImplemented => .notImplemented
  | .notFound => .notFound

/-! ## Histories -/

/-- The callback that was set first for a path. -/
def firstCallback (calls : List HttpServerCall) (path : Str) : Option ℕ :=
  calls.findSome? fun
    | .setCallback path' cb => if path' = path then some cb else none
    | _ => none

/-- The callback that was set first for all other paths. -/
def firstGeneric (calls : List HttpServerCall) : Option ℕ :=
  calls.findSome? fun
    | .setGenericCallback cb => some cb
    | _ => none

/-- A callback has been set for a path that is read as this. -/
def Registered (calls : List HttpServerCall) (what : Str) : Prop :=
  ∃ path, firstCallback calls path ≠ none ∧ cString path = what

/-- The server has been started, and not stopped since then. -/
def Up : List HttpServerCall → Prop :=
  Since (fun _ call => ∃ accepted, call = .start true accepted) fun _ call => call = .stop

/-- The call starts a thread. -/
def Starts (i : ℕ) (calls : List HttpServerCall) (call : HttpServerCall) : Prop :=
  ¬Up calls ∧ ∃ accepted, call = .start true accepted ∧ accepted i = true

/-- The thread has been started, and the server not stopped since then. -/
def ThreadUp (i : ℕ) : List HttpServerCall → Prop := Since (Starts i) fun _ call => call = .stop

/-- The generic callback has been set, and the thread not started since then. -/
def GenericSet (i : ℕ) : List HttpServerCall → Prop :=
  Since (fun calls call => firstGeneric calls = none ∧ ∃ cb, call = .setGenericCallback cb)
    (Starts i)

/-- What the calls have made of a thread. -/
structure ThreadAfter (i : ℕ) (calls : List HttpServerCall) (t : HttpServerThread) : Prop where
  callbacks : ∀ what, what ∈ t.http.callbacks ↔ Registered calls what
  isRunning : t.isRunning = true ↔ ThreadUp i calls
  generic : t.http.gencb = some .callbackHandler ↔ GenericSet i calls
  gencb : t.isRunning = true → t.http.gencb ≠ none

/-- What the calls have made of the server. -/
structure After (calls : List HttpServerCall) (s : HttpServer) : Prop where
  callbacks : ∀ path : Str, s.callbacks[path]? = firstCallback calls path
  genericCallback : s.genericCallback = firstGeneric calls
  isRunning : s.isRunning = true ↔ Up calls
  threads : ∀ i t, s.serverThreads[i]? = some t → ThreadAfter i calls t

variable {s : HttpServer} {t : HttpServerThread} {calls : List HttpServerCall}
  {call : HttpServerCall} {i : ℕ} {path : Str}

theorem firstCallback_snoc :
    firstCallback (calls ++ [call]) path = (firstCallback calls path).or
      (match call with
        | .setCallback path' cb => if path' = path then some cb else none
        | _ => none) := by
  rw [firstCallback, List.findSome?_append, ← firstCallback]
  congr 1
  cases call <;> simp

theorem firstGeneric_snoc :
    firstGeneric (calls ++ [call]) = (firstGeneric calls).or
      (match call with
        | .setGenericCallback cb => some cb
        | _ => none) := by
  rw [firstGeneric, List.findSome?_append, ← firstGeneric]
  congr 1
  cases call <;> simp

theorem run_snoc (s : HttpServer) : s.run (calls ++ [call]) = (s.run calls).step call := by
  simp [run]

theorem registered_snoc_of_ne (h : ∀ path cb, call ≠ .setCallback path cb) (what : Str) :
    Registered (calls ++ [call]) what ↔ Registered calls what := by
  unfold Registered
  refine exists_congr fun path => and_congr_left fun _ => ?_
  rw [firstCallback_snoc]
  cases call with
  | setCallback path' cb => exact absurd rfl (h path' cb)
  | _ => rw [Option.or_none]

/-- A call that neither starts nor stops the server leaves the threads up or not. -/
theorem up_snoc_of_ne (hstart : ∀ accepted, call ≠ .start true accepted) (hstop : call ≠ .stop) :
    (Up (calls ++ [call]) ↔ Up calls) ∧ (ThreadUp i (calls ++ [call]) ↔ ThreadUp i calls) ∧
      ¬Starts i calls call := by
  have hnot : ¬Starts i calls call := fun ⟨_, accepted, h, _⟩ => hstart accepted h
  refine ⟨?_, ?_, hnot⟩
  · rw [Up, since_snoc, and_iff_left hstop]
    exact or_iff_right fun ⟨accepted, h⟩ => hstart accepted h
  · rw [ThreadUp, since_snoc, and_iff_left hstop]
    exact or_iff_right hnot

theorem genericSet_snoc_of_ne (hgeneric : ∀ cb, call ≠ .setGenericCallback cb)
    (hstarts : ¬Starts i calls call) : GenericSet i (calls ++ [call]) ↔ GenericSet i calls := by
  rw [GenericSet, since_snoc, and_iff_left hstarts]
  exact or_iff_right fun ⟨_, cb, h⟩ => hgeneric cb h

theorem firstCallback_snoc_of_ne (h : ∀ path cb, call ≠ .setCallback path cb) :
    firstCallback (calls ++ [call]) path = firstCallback calls path := by
  rw [firstCallback_snoc]
  cases call with
  | setCallback path' cb => exact absurd rfl (h path' cb)
  | _ => rw [Option.or_none]

theorem firstGeneric_snoc_of_ne (h : ∀ cb, call ≠ .setGenericCallback cb) :
    firstGeneric (calls ++ [call]) = firstGeneric calls := by
  rw [firstGeneric_snoc]
  cases call with
  | setGenericCallback cb => exact absurd rfl (h cb)
  | _ => rw [Option.or_none]

/-- A thread is up only if the server is. -/
theorem up_of_threadUp (h : ThreadUp i calls) : Up calls := by
  obtain ⟨pre, call, post, rfl, ⟨-, accepted, rfl, -⟩, hpost⟩ := h
  exact ⟨pre, _, post, rfl, ⟨accepted, rfl⟩, hpost⟩

/-! ## What the calls do -/

theorem after_new (port threadNum : ℕ) : After [] (new port threadNum) := by
  refine ⟨fun path => by simp [new, firstCallback], rfl, ?_, fun i t ht => ?_⟩
  · exact iff_of_false Bool.false_ne_true not_since_nil
  · obtain ⟨-, rfl⟩ : i < threadNum ∧ HttpServerThread.new = t := by
      simpa [new, List.getElem?_replicate] using ht
    refine ⟨fun what => ?_, iff_of_false Bool.false_ne_true not_since_nil,
      iff_of_false nofun not_since_nil, fun h => absurd h Bool.false_ne_true⟩
    simp [HttpServerThread.new, Registered, firstCallback]

/-- A thread that is told nothing. -/
theorem ThreadAfter.of_ne (h : ThreadAfter i calls t)
    (hcallback : ∀ path cb, call ≠ .setCallback path cb)
    (hgeneric : ∀ cb, call ≠ .setGenericCallback cb)
    (hstart : ∀ accepted, call ≠ .start true accepted) (hstop : call ≠ .stop) :
    ThreadAfter i (calls ++ [call]) t := by
  obtain ⟨-, hup, hstarts⟩ := @up_snoc_of_ne calls call i hstart hstop
  refine ⟨fun what => ?_, ?_, ?_, h.gencb⟩
  · rw [registered_snoc_of_ne hcallback, h.callbacks]
  · rw [hup, h.isRunning]
  · rw [genericSet_snoc_of_ne hgeneric hstarts, h.generic]

/-- A call that does nothing to the callbacks and the threads. -/
theorem After.of_ne (h : After calls s) (hcallback : ∀ path cb, call ≠ .setCallback path cb)
    (hgeneric : ∀ cb, call ≠ .setGenericCallback cb)
    (hstart : ∀ accepted, call ≠ .start true accepted) (hstop : call ≠ .stop) :
    After (calls ++ [call]) s := by
  refine ⟨fun path => ?_, ?_, ?_, fun i t ht => ?_⟩
  · rw [firstCallback_snoc_of_ne hcallback, h.callbacks]
  · rw [firstGeneric_snoc_of_ne hgeneric, h.genericCallback]
  · rw [(@up_snoc_of_ne calls call 0 hstart hstop).1, h.isRunning]
  · exact (h.threads i t ht).of_ne hcallback hgeneric hstart hstop

theorem mem_setCb {http : EvHttp} {what : Str} :
    what ∈ (http.setCb path).callbacks ↔ what ∈ http.callbacks ∨ cString path = what := by
  unfold EvHttp.setCb
  split_ifs with hmem
  · exact ⟨Or.inl, fun h => h.elim id fun heq => heq ▸ hmem⟩
  · simp [eq_comm]

theorem gencb_setCb (http : EvHttp) (path : Str) : (http.setCb path).gencb = http.gencb := by
  unfold EvHttp.setCb
  split_ifs <;> rfl

theorem registered_setCallback {cb : ℕ} {what : Str} :
    Registered (calls ++ [.setCallback path cb]) what ↔
      Registered calls what ∨ cString path = what := by
  unfold Registered
  simp only [firstCallback_snoc, Option.or_eq_none_iff, ne_eq, not_and_or]
  constructor
  · rintro ⟨path', hfirst | hnew, rfl⟩
    · exact Or.inl ⟨path', hfirst, rfl⟩
    · split_ifs at hnew with hpath
      · exact Or.inr (congrArg cString hpath)
      · exact absurd rfl hnew
  · rintro (⟨path', hfirst, rfl⟩ | rfl)
    · exact ⟨path', Or.inl hfirst, rfl⟩
    · exact ⟨path, Or.inr (by simp), rfl⟩

theorem After.mem_callbacks (h : After calls s) :
    path ∈ s.callbacks ↔ firstCallback calls path ≠ none := by
  rw [Std.TreeMap.mem_iff_isSome_getElem?, h.callbacks, Option.isSome_iff_ne_none]

theorem After.setCallback (h : After calls s) (path : Str) (cb : ℕ) :
    After (calls ++ [.setCallback path cb]) (s.setCallback path cb) := by
  have hup : ∀ i, (Up (calls ++ [.setCallback path cb]) ↔ Up calls) ∧
      (ThreadUp i (calls ++ [.setCallback path cb]) ↔ ThreadUp i calls) ∧
      ¬Starts i calls (.setCallback path cb) := fun i => up_snoc_of_ne nofun nofun
  have hgeneric : firstGeneric (calls ++ [.setCallback path cb]) = firstGeneric calls :=
    firstGeneric_snoc_of_ne nofun
  have hset : ∀ i, GenericSet i (calls ++ [.setCallback path cb]) ↔ GenericSet i calls :=
    fun i => genericSet_snoc_of_ne nofun (hup i).2.2
  have hmem := @After.mem_callbacks s calls path h
  rw [HttpServer.setCallback]
  split_ifs with hnew
  · rw [hmem] at hnew
    refine ⟨fun path' => ?_, ?_, ?_, fun i t ht => ?_⟩
    · rw [firstCallback_snoc, h.callbacks]
      by_cases hpath : path = path'
      · subst hpath
        obtain ⟨cb', hcb'⟩ := Option.ne_none_iff_exists'.1 hnew
        simp [hcb']
      · simp [hpath]
    · rw [hgeneric, h.genericCallback]
    · rw [(hup 0).1, h.isRunning]
    · have hthread := h.threads i t ht
      refine ⟨fun what => ?_, ?_, ?_, hthread.gencb⟩
      · rw [registered_setCallback, hthread.callbacks]
        exact ⟨Or.inl, fun hwhat => hwhat.elim id fun heq => ⟨path, hnew, heq⟩⟩
      · rw [(hup i).2.1, hthread.isRunning]
      · rw [hset, hthread.generic]
  · rw [hmem, not_not] at hnew
    refine ⟨fun path' => ?_, ?_, ?_, fun i t ht => ?_⟩
    · have hfree : path ∉ s.callbacks := fun hpath => hmem.1 hpath hnew
      rw [Std.TreeMap.getElem?_insertIfNew, firstCallback_snoc, h.callbacks]
      by_cases hpath : path = path'
      · subst hpath
        simp [hnew, hfree]
      · simp [hpath]
    · rw [hgeneric, h.genericCallback]
    · rw [(hup 0).1, h.isRunning]
    · rw [List.getElem?_map, Option.map_eq_some_iff] at ht
      obtain ⟨t, ht, rfl⟩ := ht
      have hthread := h.threads i t ht
      refine ⟨fun what => ?_, ?_, ?_, ?_⟩
      · rw [mem_setCb, hthread.callbacks, registered_setCallback]
      · rw [(hup i).2.1, hthread.isRunning]
      · rw [hset, gencb_setCb, hthread.generic]
      · rw [gencb_setCb]
        exact hthread.gencb

theorem After.setGenericCallback (h : After calls s) (cb : ℕ) :
    After (calls ++ [.setGenericCallback cb]) (s.setGenericCallback cb) := by
  have hup : ∀ i, (Up (calls ++ [.setGenericCallback cb]) ↔ Up calls) ∧
      (ThreadUp i (calls ++ [.setGenericCallback cb]) ↔ ThreadUp i calls) ∧
      ¬Starts i calls (.setGenericCallback cb) := fun i => up_snoc_of_ne nofun nofun
  have hcallback : ∀ path, firstCallback (calls ++ [.setGenericCallback cb]) path =
      firstCallback calls path := fun path => firstCallback_snoc_of_ne nofun
  have hregistered : ∀ what, Registered (calls ++ [.setGenericCallback cb]) what ↔
      Registered calls what := registered_snoc_of_ne nofun
  have hset : ∀ i, GenericSet i (calls ++ [.setGenericCallback cb]) ↔
      firstGeneric calls = none ∨ GenericSet i calls := by
    intro i
    rw [GenericSet, since_snoc, and_iff_left (hup i).2.2]
    exact or_congr_left (and_iff_left ⟨cb, rfl⟩)
  rw [HttpServer.setGenericCallback, h.genericCallback]
  split_ifs with hnone
  · rw [Option.isNone_iff_eq_none] at hnone
    refine ⟨fun path => ?_, ?_, ?_, fun i t ht => ?_⟩
    · rw [hcallback, ← h.callbacks]
    · rw [firstGeneric_snoc, hnone]
      rfl
    · rw [(hup 0).1, ← h.isRunning]
    · rw [List.getElem?_map, Option.map_eq_some_iff] at ht
      obtain ⟨t, ht, rfl⟩ := ht
      have hthread := h.threads i t ht
      refine ⟨fun what => ?_, ?_, ?_, fun _ => Option.some_ne_none _⟩
      · rw [hregistered, ← hthread.callbacks]
      · rw [(hup i).2.1, ← hthread.isRunning]
      · exact iff_of_true rfl ((hset i).2 (Or.inl hnone))
  · have hsome : firstGeneric calls ≠ none := by simpa using hnone
    refine ⟨fun path => ?_, ?_, ?_, fun i t ht => ?_⟩
    · rw [hcallback, h.callbacks]
    · obtain ⟨cb', hcb'⟩ := Option.ne_none_iff_exists'.1 hsome
      rw [firstGeneric_snoc, hcb', h.genericCallback, hcb']
      rfl
    · rw [(hup 0).1, h.isRunning]
    · have hthread := h.threads i t ht
      refine ⟨fun what => ?_, ?_, ?_, hthread.gencb⟩
      · rw [hregistered, hthread.callbacks]
      · rw [(hup i).2.1, hthread.isRunning]
      · rw [hset, or_iff_right hsome, hthread.generic]

theorem After.start (h : After calls s) (bound : Bool) (accepted : ℕ → Bool) :
    After (calls ++ [.start bound accepted]) (s.start bound accepted) := by
  cases bound with
  | false =>
    have heq : s.start false accepted = s := by simp [HttpServer.start]
    rw [heq]
    exact h.of_ne nofun nofun nofun nofun
  | true =>
    have hup : Up (calls ++ [.start true accepted]) := since_snoc.2 (Or.inl ⟨accepted, rfl⟩)
    have hcallback : ∀ path, firstCallback (calls ++ [.start true accepted]) path =
        firstCallback calls path := fun path => firstCallback_snoc_of_ne nofun
    have hgeneric : firstGeneric (calls ++ [.start true accepted]) = firstGeneric calls :=
      firstGeneric_snoc_of_ne nofun
    have hregistered : ∀ what, Registered (calls ++ [.start true accepted]) what ↔
        Registered calls what := registered_snoc_of_ne nofun
    have hthreadUp : ∀ i, ThreadUp i (calls ++ [.start true accepted]) ↔
        Starts i calls (.start true accepted) ∨ ThreadUp i calls := by
      intro i
      rw [ThreadUp, since_snoc, and_iff_left (by nofun)]
    have hset : ∀ i, GenericSet i (calls ++ [.start true accepted]) ↔
        GenericSet i calls ∧ ¬Starts i calls (.start true accepted) := by
      intro i
      rw [GenericSet, since_snoc]
      exact or_iff_right nofun
    have hstarts : ∀ i, Starts i calls (.start true accepted) ↔
        ¬s.isRunning = true ∧ accepted i = true := by
      intro i
      rw [h.isRunning]
      constructor
      · rintro ⟨hnot, accepted', heq, hi⟩
        obtain rfl := (HttpServerCall.start.inj heq).2
        exact ⟨hnot, hi⟩
      · exact fun ⟨hnot, hi⟩ => ⟨hnot, accepted, rfl, hi⟩
    by_cases hrunning : s.isRunning = true
    · rw [HttpServer.start, if_pos hrunning]
      have hnot : ∀ i, ¬Starts i calls (.start true accepted) := fun i hi =>
        ((hstarts i).1 hi).1 hrunning
      refine ⟨fun path => ?_, ?_, iff_of_true hrunning hup, fun i t ht => ?_⟩
      · rw [hcallback, h.callbacks]
      · rw [hgeneric, h.genericCallback]
      · have hthread := h.threads i t ht
        refine ⟨fun what => ?_, ?_, ?_, hthread.gencb⟩
        · rw [hregistered, hthread.callbacks]
        · rw [hthreadUp, or_iff_right (hnot i), hthread.isRunning]
        · rw [hset, and_iff_left (hnot i), hthread.generic]
    · rw [HttpServer.start, if_neg hrunning, if_pos rfl]
      refine ⟨fun path => ?_, ?_, iff_of_true rfl hup, fun i t ht => ?_⟩
      · rw [hcallback, ← h.callbacks]
      · rw [hgeneric, ← h.genericCallback]
      · rw [List.getElem?_mapIdx, Option.map_eq_some_iff] at ht
        obtain ⟨t, ht, rfl⟩ := ht
        have hthread := h.threads i t ht
        rw [HttpServerThread.start]
        split_ifs with hi
        · have hstart := (hstarts i).2 ⟨hrunning, hi⟩
          refine ⟨fun what => ?_, iff_of_true rfl ((hthreadUp i).2 (Or.inl hstart)),
            iff_of_false nofun fun hset' => ((hset i).1 hset').2 hstart,
            fun _ => Option.some_ne_none _⟩
          rw [hregistered, ← hthread.callbacks]
        · have hnot : ¬Starts i calls (.start true accepted) := fun hstart =>
            hi ((hstarts i).1 hstart).2
          refine ⟨fun what => ?_, ?_, ?_, hthread.gencb⟩
          · rw [hregistered, hthread.callbacks]
          · rw [hthreadUp, or_iff_right hnot, hthread.isRunning]
          · rw [hset, and_iff_left hnot, hthread.generic]

theorem After.stop (h : After calls s) : After (calls ++ [.stop]) s.stop := by
  have hup : ¬Up (calls ++ [.stop]) := by
    rw [Up, since_snoc]
    rintro (⟨accepted, heq⟩ | ⟨-, hnot⟩)
    · cases heq
    · exact hnot rfl
  have hthreadUp : ∀ i, ¬ThreadUp i (calls ++ [.stop]) := by
    intro i
    rw [ThreadUp, since_snoc]
    rintro (⟨-, accepted, heq, -⟩ | ⟨-, hnot⟩)
    · cases heq
    · exact hnot rfl
  have hset : ∀ i, GenericSet i (calls ++ [.stop]) ↔ GenericSet i calls := fun i =>
    genericSet_snoc_of_ne nofun fun ⟨_, _, heq, _⟩ => by cases heq
  have hregistered : ∀ what, Registered (calls ++ [.stop]) what ↔ Registered calls what :=
    registered_snoc_of_ne nofun
  have hcallback : ∀ path, firstCallback (calls ++ [.stop]) path = firstCallback calls path :=
    fun path => firstCallback_snoc_of_ne nofun
  have hgeneric : firstGeneric (calls ++ [.stop]) = firstGeneric calls :=
    firstGeneric_snoc_of_ne nofun
  rw [HttpServer.stop]
  split_ifs with hrunning
  · refine ⟨fun path => ?_, ?_, iff_of_false Bool.false_ne_true hup, fun i t ht => ?_⟩
    · rw [hcallback, ← h.callbacks]
    · rw [hgeneric, ← h.genericCallback]
    · rw [List.getElem?_map, Option.map_eq_some_iff] at ht
      obtain ⟨t, ht, rfl⟩ := ht
      have hthread := h.threads i t ht
      refine ⟨fun what => ?_, iff_of_false Bool.false_ne_true (hthreadUp i), ?_,
        fun hup => absurd hup Bool.false_ne_true⟩
      · rw [hregistered, ← hthread.callbacks]
        rfl
      · rw [hset, ← hthread.generic]
        rfl
  · refine ⟨fun path => ?_, ?_, iff_of_false hrunning hup, fun i t ht => ?_⟩
    · rw [hcallback, h.callbacks]
    · rw [hgeneric, h.genericCallback]
    · have hthread := h.threads i t ht
      -- a thread runs in a server that runs only
      have hnot : ¬t.isRunning = true := by
        rw [hthread.isRunning]
        exact fun hthreadUp => hrunning (h.isRunning.2 (up_of_threadUp hthreadUp))
      refine ⟨fun what => ?_, iff_of_false hnot (hthreadUp i), ?_, hthread.gencb⟩
      · rw [hregistered, hthread.callbacks]
      · rw [hset, hthread.generic]

/-- The server after any calls. -/
theorem after_run (port threadNum : ℕ) (calls : List HttpServerCall) :
    After calls ((new port threadNum).run calls) := by
  induction calls using List.reverseRecOn with
  | nil => exact after_new port threadNum
  | append_singleton calls call ih =>
    rw [run_snoc]
    cases call with
    | setListeningPort port' =>
      have hsame := @After.of_ne _ calls (.setListeningPort port') ih nofun nofun nofun nofun
      exact ⟨hsame.callbacks, hsame.genericCallback, hsame.isRunning, hsame.threads⟩
    | setCallback path cb => exact ih.setCallback path cb
    | setGenericCallback cb => exact ih.setGenericCallback cb
    | start bound accepted => exact ih.start bound accepted
    | stop => exact ih.stop

/-! ## Requests -/

theorem After.callbackHandler (h : After calls s) (path : Str) : s.callbackHandler path =
    match (firstCallback calls path).or (firstGeneric calls) with
    | some cb => .callback cb
    | none => .crash := by
  rw [HttpServer.callbackHandler, h.callbacks, h.genericCallback]
  cases firstCallback calls path <;> cases firstGeneric calls <;> rfl

/-- Nothing of a server is asked for a request whose method is not allowed. -/
theorem serve_of_notMem {req : EvHttpRequest} (h : req.type ∉ EvHttpCmdType.allowedMethods) :
    s.serve t req = .notImplemented := by
  rw [HttpServer.serve, EvHttp.dispatch, if_pos h]

theorem After.serve (h : After calls s) (ht : s.serverThreads[i]? = some t)
    (hup : ThreadUp i calls) {req : EvHttpRequest}
    (hallowed : req.type ∈ EvHttpCmdType.allowedMethods) :
    (Registered calls (cString (EvHttp.decodeUri req.uri.path)) ∨ GenericSet i calls →
      s.serve t req = s.callbackHandler req.uri.path) ∧
    (¬(Registered calls (cString (EvHttp.decodeUri req.uri.path)) ∨ GenericSet i calls) →
      s.serve t req = HttpServerThread.defaultGenericCallback req) := by
  have hthread := h.threads i t ht
  have hgencb := hthread.gencb (hthread.isRunning.2 hup)
  rw [← hthread.callbacks, ← hthread.generic, HttpServer.serve, EvHttp.dispatch,
    if_neg (not_not_intro hallowed)]
  split_ifs with hknown
  · exact ⟨fun _ => rfl, fun hnot => absurd (Or.inl hknown) hnot⟩
  · rw [or_iff_right hknown]
    constructor
    · intro hgeneric
      rw [hgeneric]
    · intro hgeneric
      obtain ⟨handler, hhandler⟩ := Option.ne_none_iff_exists'.1 hgencb
      cases handler with
      | callbackHandler => exact absurd hhandler hgeneric
      | defaultGenericCallback => rw [hhandler]

theorem defaultGenericCallback_ne_crash (req : EvHttpRequest) :
    HttpServerThread.defaultGenericCallback req ≠ .crash := by
  unfold HttpServerThread.defaultGenericCallback
  cases req.uri.join 8192 <;> nofun

theorem firstGeneric_of_genericSet (h : GenericSet i calls) : firstGeneric calls ≠ none := by
  obtain ⟨pre, call, post, rfl, ⟨-, cb, rfl⟩, -⟩ := h
  rw [firstGeneric, ne_eq, List.findSome?_eq_none_iff]
  exact fun hnone => Option.some_ne_none cb (hnone (.setGenericCallback cb) (by simp))

/-- What a request comes to. After any calls on a new server, a request that comes to a thread that
is up is refused if its method is not allowed. Any other is served with the callback that was set
first for its path, or else with the generic callback that was set first, if its path is one that is
known when it is decoded, or if the generic callback has been set since the thread was started. What
is left is answered with the status if its URI is joined in 8192 bytes, and otherwise the array is
read as it was found. -/
theorem served_of_run (port threadNum : ℕ) (calls : List HttpServerCall) (i : ℕ)
    (t : HttpServerThread) (ht : ((new port threadNum).run calls).serverThreads[i]? = some t)
    (hup : ThreadUp i calls) (req : EvHttpRequest) :
    (req.type ∉ EvHttpCmdType.allowedMethods →
      ((new port threadNum).run calls).serve t req = .notImplemented) ∧
    (req.type ∈ EvHttpCmdType.allowedMethods →
      Registered calls (cString (EvHttp.decodeUri req.uri.path)) ∨ GenericSet i calls →
      ((new port threadNum).run calls).serve t req =
        match (firstCallback calls req.uri.path).or (firstGeneric calls) with
        | some cb => .callback cb
        | none => .crash) ∧
    (req.type ∈ EvHttpCmdType.allowedMethods →
      ¬(Registered calls (cString (EvHttp.decodeUri req.uri.path)) ∨ GenericSet i calls) →
      ((new port threadNum).run calls).serve t req =
        match req.uri.join 8192 with
        | some _ => .status
        | none => .uninitialised) := by
  have hafter := after_run port threadNum calls
  refine ⟨serve_of_notMem, fun hallowed hhandled => ?_, fun hallowed hother => ?_⟩
  · rw [(hafter.serve ht hup hallowed).1 hhandled, hafter.callbackHandler]
  · exact (hafter.serve ht hup hallowed).2 hother

/-- A path without escapes is not changed by decoding. -/
theorem decodeUri_of_notMem (h : '%' ∉ path) : EvHttp.decodeUri path = path := by
  fun_induction EvHttp.decodeUri path with
  | case1 => rfl
  | case2 => rfl
  | case3 => rfl
  | case4 => exact absurd List.mem_cons_self h
  | case5 => exact absurd List.mem_cons_self h
  | case6 c x y uri hc ih =>
    rw [ih fun hmem => h (List.mem_cons_of_mem _ hmem)]

/-- A callback for one path, and the start of the server. -/
def callsOfOnePath : List HttpServerCall :=
  [.setCallback ['/', 'a'] 1, .start true fun _ => true]

theorem not_up_setCallback (path : Str) (cb : ℕ) : ¬Up [.setCallback path cb] := by
  have hsame := (@up_snoc_of_ne [] (.setCallback path cb) 0 nofun nofun).1
  exact fun hup => not_since_nil (hsame.1 hup)

theorem eq_of_registered_callsOfOnePath {what : Str} (h : Registered callsOfOnePath what) :
    what = ['/', 'a'] := by
  obtain ⟨path, hpath, rfl⟩ := h
  have heq : ['/', 'a'] = path := by
    by_contra hne
    exact hpath (by simp [callsOfOnePath, firstCallback, hne])
  subst heq
  decide

theorem threadUp_callsOfOnePath : ThreadUp 0 callsOfOnePath := by
  have hstarts : Starts 0 [.setCallback ['/', 'a'] 1] (.start true fun _ => true) :=
    ⟨not_up_setCallback _ _, _, rfl, rfl⟩
  exact (@since_snoc HttpServerCall _ _ [.setCallback ['/', 'a'] 1] _).2 (Or.inl hstarts)

/-- The callback for `/a` is called when it is asked for, but not when it is to be patched. A path
that is not known is answered with the status, if it is not too long. -/
theorem served_of_run_known : ∃ t, ((new 80 2).run callsOfOnePath).serverThreads[0]? = some t ∧
    ((new 80 2).run callsOfOnePath).serve t (.ofPath .get ['/', 'a']) = .callback 1 ∧
    ((new 80 2).run callsOfOnePath).serve t (.ofPath .get ['/', 'b']) = .status ∧
    ((new 80 2).run callsOfOnePath).serve t (.ofPath .get (List.replicate 8192 '/')) =
      .uninitialised ∧
    ((new 80 2).run callsOfOnePath).serve t (.ofPath .patch ['/', 'a']) = .notImplemented := by
  refine ⟨_, rfl, ?_⟩
  have hserved := served_of_run 80 2 callsOfOnePath 0 _ rfl threadUp_callsOfOnePath
  have hother : ∀ {path : Str}, cString (EvHttp.decodeUri path) ≠ ['/', 'a'] →
      ¬(Registered callsOfOnePath (cString (EvHttp.decodeUri path)) ∨
        GenericSet 0 callsOfOnePath) := by
    rintro path hne (hknown | hset)
    · exact hne (eq_of_registered_callsOfOnePath hknown)
    · exact firstGeneric_of_genericSet hset rfl
  have hescaped : ∀ n, '%' ∉ List.replicate n '/' := fun n hmem => by
    cases List.eq_of_mem_replicate hmem
  have hlong : (EvHttpRequest.ofPath .get (List.replicate 8192 '/')).uri.join 8192 = none :=
    (EvHttpRequest.join_ofPath _ _ _).2 (List.length_replicate ..).ge
  have hcString : ∀ n, cString (List.replicate (n + 2) '/') ≠ ['/', 'a'] := fun n heq => by
    simp [cString, List.replicate_succ] at heq
  refine ⟨?_, ?_, ?_, ?_⟩
  · exact (hserved _).2.1 (by decide) (Or.inl ⟨['/', 'a'], by decide, by decide⟩)
  · exact (hserved _).2.2 (by decide) (hother (by decide))
  · have hslashes : EvHttp.decodeUri (List.replicate 8192 '/') = List.replicate 8192 '/' :=
      decodeUri_of_notMem (hescaped 8192)
    have hne : cString (EvHttp.decodeUri (List.replicate 8192 '/')) ≠ ['/', 'a'] := by
      rw [hslashes]
      exact hcString 8190
    rw [(hserved _).2.2 (by decide) (hother hne), hlong]
  · exact (hserved _).1 (by decide)

/-- The requests that `NULL` is called for : their methods are allowed, their paths are known when
they are decoded, but not as they are, and there is no generic callback. -/
theorem crashes_iff (port threadNum : ℕ) (calls : List HttpServerCall) (i : ℕ)
    (t : HttpServerThread) (ht : ((new port threadNum).run calls).serverThreads[i]? = some t)
    (hup : ThreadUp i calls) (req : EvHttpRequest) :
    ((new port threadNum).run calls).serve t req = .crash ↔
      req.type ∈ EvHttpCmdType.allowedMethods ∧
        Registered calls (cString (EvHttp.decodeUri req.uri.path)) ∧
        firstCallback calls req.uri.path = none ∧ firstGeneric calls = none := by
  have hafter := after_run port threadNum calls
  by_cases hallowed : req.type ∈ EvHttpCmdType.allowedMethods
  · rw [and_iff_right hallowed]
    obtain ⟨hhandled, hother⟩ := hafter.serve ht hup hallowed
    have hcrash : ((new port threadNum).run calls).callbackHandler req.uri.path = .crash ↔
        firstCallback calls req.uri.path = none ∧ firstGeneric calls = none := by
      rw [hafter.callbackHandler]
      cases firstCallback calls req.uri.path <;> cases firstGeneric calls <;> simp
    by_cases hknown : Registered calls (cString (EvHttp.decodeUri req.uri.path))
    · rw [hhandled (Or.inl hknown), hcrash, and_iff_right hknown]
    · refine iff_of_false (fun heq => ?_) fun h => hknown h.1
      by_cases hset : GenericSet i calls
      · rw [hhandled (Or.inr hset), hcrash] at heq
        exact firstGeneric_of_genericSet hset heq.2
      · rw [hother (not_or.2 ⟨hknown, hset⟩)] at heq
        exact defaultGenericCallback_ne_crash req heq
  · refine iff_of_false (fun heq => ?_) fun h => hallowed h.1
    rw [serve_of_notMem hallowed] at heq
    cases heq

/-- The request for `/%61` is one for the path `/a`, and no callback is found for it. -/
theorem crashes_iff_escaped : ∃ t, ((new 80 2).run callsOfOnePath).serverThreads[0]? = some t ∧
    ((new 80 2).run callsOfOnePath).serve t (.ofPath .get ['/', '%', '6', '1']) = .crash :=
  ⟨_, rfl, (crashes_iff 80 2 callsOfOnePath 0 _ rfl threadUp_callsOfOnePath
    (.ofPath .get ['/', '%', '6', '1'])).2
      ⟨by decide, ⟨['/', 'a'], by decide, by decide⟩, by decide, by decide⟩⟩

end HttpServer

end Ick
