import Ick.Converter
import Ick.History
import Std.Data.TreeMap.Lemmas

/-!
# HTTP requests

An `HttpClient` keeps its headers and the body of the response between two requests.
`FetchUrl` hands libcurl the body as it is, to which `OnWriteData` appends, and a `POST`
request puts its `Content-Length` into the map with the headers of the caller, where it stays.

So the body after a request is that of its response exactly if all responses before it were
empty, and the headers of a `GET` request are those of a fresh client exactly if the caller
has set the length of the last `POST` request as well, or set the header after it
(`throughout_independent_iff`). A `POST` request sends its own length, whatever was sent before.
-/

namespace Ick

/-! ## The client -/

/-- What libcurl does in a request : whether there is a handle, the pieces of the response in
the calls of `OnWriteData`, the `CURLcode` and the code of the response. -/
structure Transfer where
  handle : Bool
  response : List Str
  code : ℤ
  responseCode : ℤ

/-- A request as it is handed to libcurl. -/
structure HttpRequest where
  url : Str
  headers : List Str
  method : Str
  body : Option Str
  connectTimeout : ℤ
  timeout : ℤ

/-- `HttpClient` -/
structure HttpClient where
  request_header_map_ : Std.TreeMap Str Str
  response_body_ : Str
  http_method_ : Str
  connect_timeout_ : ℤ
  fetch_timeout_ : ℤ
  response_code_ : ℤ
  curl_code_ : ℤ

namespace HttpClient

/-- A text up to its first zero byte. -/
def cString (s : Str) : Str := s.takeWhile (· ≠ '\x00')

/-- The header of the length. -/
def contentLength : Str := "Content-Length".toList

/-- `"GET"` -/
def get : Str := "GET".toList

/-- `"POST"` -/
def post : Str := "POST".toList

/-- `SetHeader`, which replaces the value of a header that is there. -/
def setHeader (client : HttpClient) (key value : Str) : HttpClient :=
  { client with request_header_map_ := client.request_header_map_.insert key value }

/-- `SetMethod` -/
def setMethod (client : HttpClient) (http_method : Str) : HttpClient :=
  if http_method = get ∨ http_method = post then { client with http_method_ := http_method }
  else client

/-- `SetConnectTimeout` -/
def setConnectTimeout (client : HttpClient) (timeout : ℤ) : HttpClient :=
  { client with connect_timeout_ := timeout }

/-- `SetFetchTimeout` -/
def setFetchTimeout (client : HttpClient) (timeout : ℤ) : HttpClient :=
  { client with fetch_timeout_ := timeout }

/-- The constructor. -/
def new : HttpClient :=
  let client : HttpClient :=
    { request_header_map_ := ∅, response_body_ := [], http_method_ := post,
      connect_timeout_ := 3000, fetch_timeout_ := 3000, response_code_ := 200, curl_code_ := 0 }
  ((((client.setHeader "Accept".toList "*/*".toList).setHeader
    "Accept-Language".toList "zh-cn".toList).setHeader
    "User-Agent".toList "ICK CORE 2.0".toList).setHeader
    "Cache-Control".toList "no-cache".toList).setHeader
    "Content-Type".toList "application/json".toList

/-- `OnWriteData`, of the buffer and of the string to append it to. -/
def onWriteData (str buffer : Str) : Str := str ++ buffer

/-- The line of a header, which libcurl copies up to a zero byte. -/
def headerLine (it : Str × Str) : Str := cString (it.1 ++ ':' :: it.2)

/-- The list of the headers, in the order of the map. -/
def headers (m : Std.TreeMap Str Str) : List Str := m.toList.map headerLine

/-- `FetchUrl`, with the request if there is one, and what the call returns. -/
def fetchUrl (client : HttpClient) (url data : Str) (curl : Transfer) :
    HttpClient × Option HttpRequest × Bool :=
  if url = [] then (client, none, false)
  else if curl.handle = false then (client, none, false)
  else
    let client :=
      if client.http_method_ = post then
        client.setHeader contentLength (Converter.convertToString data.length)
      else client
    let request : HttpRequest :=
      { url := cString url
        headers := headers client.request_header_map_
        method := client.http_method_
        body := if client.http_method_ = post then some data else none
        connectTimeout := client.connect_timeout_.tdiv 1000
        timeout := client.fetch_timeout_.tdiv 1000 }
    let response_code_ := if curl.code ≠ 0 then curl.code else curl.responseCode
    ({ client with
        response_body_ := curl.response.foldl onWriteData client.response_body_
        response_code_ := response_code_
        curl_code_ := curl.code },
      some request, decide (curl.code = 0 ∧ response_code_ = 200))

/-! ## Histories -/

/-- A call of a method. -/
inductive Call
  | setHeader (key value : Str)
  | setMethod (http_method : Str)
  | setConnectTimeout (timeout : ℤ)
  | setFetchTimeout (timeout : ℤ)
  | fetchUrl (url data : Str) (curl : Transfer)

def step (client : HttpClient) : Call → HttpClient
  | .setHeader key value => client.setHeader key value
  | .setMethod http_method => client.setMethod http_method
  | .setConnectTimeout timeout => client.setConnectTimeout timeout
  | .setFetchTimeout timeout => client.setFetchTimeout timeout
  | .fetchUrl url data curl => (client.fetchUrl url data curl).1

/-- The client after the calls. -/
def run (calls : List Call) : HttpClient := calls.foldl step new

/-- The calls of `SetHeader` and `SetMethod`. -/
def Call.prepares : Call → Bool
  | .setHeader _ _ => true
  | .setMethod _ => true
  | _ => false

/-- The body after a request is that of its response, and its headers are those of the same
request of a fresh client, for which `SetHeader` and `SetMethod` were called as here. -/
def Independent (pre : List Call) : Call → Prop
  | .fetchUrl url data curl =>
    ∀ request, ((run pre).fetchUrl url data curl).2.1 = some request →
      ((run pre).fetchUrl url data curl).1.response_body_ = curl.response.flatten ∧
      ∃ request', ((run (pre.filter Call.prepares)).fetchUrl url data curl).2.1 = some request' ∧
        request.headers = request'.headers
  | _ => True

/-- A call makes a request. -/
def Makes (data : Str) (response : List Str) (call : Call) : Prop :=
  ∃ url curl, call = .fetchUrl url data curl ∧ url ≠ [] ∧ curl.handle = true ∧
    curl.response = response

/-- The method of the next request is `POST`. -/
def Posting (pre : List Call) : Prop :=
  ¬Since (fun _ call => call = .setMethod get) (fun _ call => call = .setMethod post) pre

/-- A `POST` request with data of `n` bytes. -/
def Posts (n : ℕ) (pre : List Call) (call : Call) : Prop :=
  Posting pre ∧ ∃ data response, Makes data response call ∧ data.length = n

/-- What the caller has set the header of the length to, if it has. -/
def Given (value : Str) (pre : List Call) : Prop :=
  Since (fun _ call => call = .setHeader contentLength value)
    (fun _ call => ∃ value, call = .setHeader contentLength value) pre

/-- The last `POST` request had data of `n` bytes, and the caller has not set the header of the
length since. -/
def Left (n : ℕ) (pre : List Call) : Prop :=
  Since (Posts n)
    (fun pre call => (∃ n, Posts n pre call) ∨ ∃ value, call = .setHeader contentLength value) pre

/-- Before a request all responses were empty, and before a `GET` request the length of a
`POST` request that is left is also what the caller has set. -/
def Unaffected (pre : List Call) (call : Call) : Prop :=
  (∃ data response, Makes data response call) →
    (∀ c ∈ pre, ∀ data response, Makes data response c → response.flatten = []) ∧
    (¬Posting pre → ∀ n, Left n pre →
      ∃ value, Given value pre ∧ cString value = Converter.convertToString n)

/-! ## The headers that are sent -/

theorem headers_eq_keys_map (m : Std.TreeMap Str Str) :
    headers m = m.keys.map fun key => headerLine (key, m.getD key []) := by
  rw [headers, ← Std.TreeMap.map_fst_toList_eq_keys, List.map_map]
  refine List.map_congr_left fun it hit => ?_
  have hget := Std.TreeMap.mem_toList_iff_getElem?_eq_some.1 hit
  rw [Function.comp_apply, Std.TreeMap.getD_eq_getD_getElem?, hget, Option.getD_some]

theorem keys_eq {m m' : Std.TreeMap Str Str} (h : ∀ key, key ∈ m ↔ key ∈ m') :
    m.keys = m'.keys := by
  have hnodup : ∀ m : Std.TreeMap Str Str, m.keys.Nodup := fun m =>
    m.distinct_keys.imp fun hne heq => hne (Std.compare_eq_iff_eq.2 heq)
  have hperm : m.keys.Perm m'.keys :=
    (List.perm_ext_iff_of_nodup (hnodup m) (hnodup m')).2 fun key => by
      rw [Std.TreeMap.mem_keys, Std.TreeMap.mem_keys, h]
  refine hperm.eq_of_pairwise ?_ m.ordered_keys m'.ordered_keys
  intro key key' _ _ hlt hgt
  have hswap : compare key' key = (compare key key').swap := Std.OrientedCmp.eq_swap
  rw [hgt, hlt] at hswap
  cases hswap

theorem headerLine_contentLength (value : Str) :
    headerLine (contentLength, value) = contentLength ++ ':' :: cString value := rfl

/-- A header that only one of two maps has makes its list longer. -/
theorem length_headers {m m' : Std.TreeMap Str Str} {key : Str}
    (h : ∀ key', key' ≠ key → m[key']? = m'[key']?) {value : Str} (hm : m[key]? = some value)
    (hm' : m'[key]? = none) : (headers m).length = (headers m').length + 1 := by
  have hequiv : m.Equiv (m'.insert key value) := by
    refine Std.TreeMap.Equiv.of_forall_constGet?_eq fun key' => ?_
    simp only [Std.TreeMap.getElem?_insert, Std.compare_eq_iff_eq]
    split_ifs with hkey
    · rw [← hkey, hm]
    · exact h key' (Ne.symm hkey)
  have hnot : m'.contains key = false := by
    rw [Std.TreeMap.contains_eq_isSome_getElem?, hm']
    rfl
  rw [headers, headers, List.length_map, List.length_map, Std.TreeMap.length_toList,
    Std.TreeMap.length_toList, hequiv.size_eq, Std.TreeMap.size_insert, hnot,
    if_neg Bool.false_ne_true]

/-- Maps with the same keys, that differ in the value of one header at most. -/
theorem headers_eq_iff_of_some {m m' : Std.TreeMap Str Str}
    (h : ∀ key, key ≠ contentLength → m[key]? = m'[key]?) {value value' : Str}
    (hm : m[contentLength]? = some value) (hm' : m'[contentLength]? = some value') :
    headers m = headers m' ↔ cString value = cString value' := by
  have hkeys : m.keys = m'.keys := keys_eq fun key => by
    rw [Std.TreeMap.mem_iff_isSome_getElem?, Std.TreeMap.mem_iff_isSome_getElem?]
    by_cases hkey : key = contentLength
    · rw [hkey, hm, hm']
      exact Iff.rfl
    · rw [h key hkey]
  have hmem : contentLength ∈ m'.keys := by
    rw [Std.TreeMap.mem_keys, Std.TreeMap.mem_iff_isSome_getElem?, hm']
    rfl
  simp only [headers_eq_keys_map, hkeys, List.map_inj_left, Std.TreeMap.getD_eq_getD_getElem?]
  constructor
  · intro hlines
    have hline := hlines _ hmem
    rw [hm, hm', Option.getD_some, Option.getD_some, headerLine_contentLength,
      headerLine_contentLength] at hline
    exact (List.cons.inj (List.append_cancel_left hline)).2
  · intro hvalue key _
    by_cases hkey : key = contentLength
    · rw [hkey, hm, hm', Option.getD_some, Option.getD_some, headerLine_contentLength,
        headerLine_contentLength, hvalue]
    · rw [h key hkey]

/-- Maps that differ in one header at most give the same list exactly if the values of that
header are the same up to a zero byte. -/
theorem headers_eq_iff {m m' : Std.TreeMap Str Str}
    (h : ∀ key, key ≠ contentLength → m[key]? = m'[key]?) :
    headers m = headers m' ↔ m[contentLength]?.map cString = m'[contentLength]?.map cString := by
  cases hm : m[contentLength]? with
  | none =>
    cases hm' : m'[contentLength]? with
    | none =>
      refine iff_of_true ?_ rfl
      have hequiv : m.Equiv m' := Std.TreeMap.Equiv.of_forall_constGet?_eq fun key => by
        by_cases hkey : key = contentLength
        · rw [hkey, hm, hm']
        · exact h key hkey
      rw [headers, headers, hequiv.toList_eq]
    | some value =>
      have hlength := length_headers (fun key hkey => (h key hkey).symm) hm' hm
      refine iff_of_false (fun heq => ?_) nofun
      rw [heq] at hlength
      omega
  | some value =>
    cases hm' : m'[contentLength]? with
    | none =>
      have hlength := length_headers h hm hm'
      refine iff_of_false (fun heq => ?_) nofun
      rw [heq] at hlength
      omega
    | some value' =>
      rw [headers_eq_iff_of_some h hm hm', Option.map_some, Option.map_some, Option.some.injEq]

/-! ## One call -/

theorem foldl_onWriteData (chunks : List Str) (str : Str) :
    chunks.foldl onWriteData str = str ++ chunks.flatten := by
  induction chunks generalizing str with
  | nil => rw [List.foldl_nil, List.flatten_nil, List.append_nil]
  | cons chunk chunks ih =>
    rw [List.foldl_cons, ih, onWriteData, List.flatten_cons, List.append_assoc]

/-- The headers with which a request is made. -/
def requestHeaders (client : HttpClient) (data : Str) : Std.TreeMap Str Str :=
  if client.http_method_ = post then
    client.request_header_map_.insert contentLength (Converter.convertToString data.length)
  else client.request_header_map_

/-- Without a request nothing happens. -/
theorem fetchUrl_of_not {client : HttpClient} {url data : Str} {curl : Transfer}
    (h : ¬(url ≠ [] ∧ curl.handle = true)) :
    client.fetchUrl url data curl = (client, none, false) := by
  unfold fetchUrl
  by_cases hurl : url = []
  · rw [if_pos hurl]
  · rw [if_neg hurl, if_pos (by simpa [hurl] using h)]

/-- What a request changes, and its headers. -/
theorem fetchUrl_of_request {client : HttpClient} {url data : Str} {curl : Transfer}
    (hurl : url ≠ []) (hhandle : curl.handle = true) :
    (client.fetchUrl url data curl).1.request_header_map_ = client.requestHeaders data ∧
      (client.fetchUrl url data curl).1.http_method_ = client.http_method_ ∧
      (client.fetchUrl url data curl).1.response_body_ =
        client.response_body_ ++ curl.response.flatten ∧
      ∃ request, (client.fetchUrl url data curl).2.1 = some request ∧
        request.headers = headers (client.requestHeaders data) := by
  unfold fetchUrl requestHeaders
  rw [if_neg hurl, if_neg (by simp [hhandle])]
  by_cases hmethod : client.http_method_ = post
  · simp only [foldl_onWriteData, if_pos hmethod]
    exact ⟨rfl, rfl, rfl, _, rfl, rfl⟩
  · simp only [foldl_onWriteData, if_neg hmethod]
    exact ⟨trivial, trivial, trivial, _, rfl, rfl⟩

@[simp] theorem setMethod_request_header_map_ (client : HttpClient) (http_method : Str) :
    (client.setMethod http_method).request_header_map_ = client.request_header_map_ := by
  unfold setMethod
  split_ifs <;> rfl

@[simp] theorem setMethod_response_body_ (client : HttpClient) (http_method : Str) :
    (client.setMethod http_method).response_body_ = client.response_body_ := by
  unfold setMethod
  split_ifs <;> rfl

theorem run_snoc (calls : List Call) (call : Call) :
    run (calls ++ [call]) = step (run calls) call := by
  rw [run, List.foldl_append]
  rfl

/-- The client for which only `SetHeader` and `SetMethod` were called. -/
def prepared (pre : List Call) : HttpClient := run (pre.filter Call.prepares)

theorem prepared_snoc (calls : List Call) (call : Call) :
    prepared (calls ++ [call]) =
      if call.prepares then step (prepared calls) call else prepared calls := by
  rw [prepared, List.filter_append, List.filter_singleton]
  cases call.prepares with
  | true => exact run_snoc _ _
  | false =>
    rw [cond_false, List.append_nil]
    rfl

/-! ## All calls -/

theorem makes_fetchUrl_iff {data data' url : Str} {curl : Transfer} {response : List Str} :
    Makes data' response (.fetchUrl url data curl) ↔
      url ≠ [] ∧ curl.handle = true ∧ data = data' ∧ curl.response = response := by
  constructor
  · rintro ⟨url', curl', hcall, hurl, hhandle, hresponse⟩
    obtain ⟨rfl, rfl, rfl⟩ := Call.fetchUrl.inj hcall
    exact ⟨hurl, hhandle, rfl, hresponse⟩
  · rintro ⟨hurl, hhandle, rfl, hresponse⟩
    exact ⟨url, curl, rfl, hurl, hhandle, hresponse⟩

theorem requests_of_makes {data data' url : Str} {curl : Transfer} {response : List Str}
    (h : Makes data' response (.fetchUrl url data curl)) : url ≠ [] ∧ curl.handle = true :=
  ⟨(makes_fetchUrl_iff.1 h).1, (makes_fetchUrl_iff.1 h).2.1⟩

theorem posts_fetchUrl_iff {n : ℕ} {pre : List Call} {url data : Str} {curl : Transfer} :
    Posts n pre (.fetchUrl url data curl) ↔
      Posting pre ∧ url ≠ [] ∧ curl.handle = true ∧ data.length = n := by
  simp only [Posts, makes_fetchUrl_iff]
  constructor
  · rintro ⟨hposting, _, _, ⟨hurl, hhandle, rfl, -⟩, hn⟩
    exact ⟨hposting, hurl, hhandle, hn⟩
  · rintro ⟨hposting, hurl, hhandle, hn⟩
    exact ⟨hposting, data, curl.response, ⟨hurl, hhandle, rfl, rfl⟩, hn⟩

theorem posting_snoc {pre : List Call} {call : Call} :
    Posting (pre ++ [call]) ↔
      call ≠ .setMethod get ∧ (Posting pre ∨ call = .setMethod post) := by
  unfold Posting
  rw [since_snoc]
  tauto

theorem given_snoc {value : Str} {pre : List Call} {call : Call} :
    Given value (pre ++ [call]) ↔ call = .setHeader contentLength value ∨
      (Given value pre ∧ ¬∃ value, call = .setHeader contentLength value) :=
  since_snoc

theorem left_snoc {n : ℕ} {pre : List Call} {call : Call} :
    Left n (pre ++ [call]) ↔ Posts n pre call ∨
      (Left n pre ∧
        ¬((∃ n, Posts n pre call) ∨ ∃ value, call = .setHeader contentLength value)) :=
  since_snoc

theorem http_method_fetchUrl (client : HttpClient) (url data : Str) (curl : Transfer) :
    (client.fetchUrl url data curl).1.http_method_ = client.http_method_ := by
  by_cases h : url ≠ [] ∧ curl.handle = true
  · exact (fetchUrl_of_request h.1 h.2).2.1
  · rw [fetchUrl_of_not h]

/-- The method is that of the last `SetMethod` that has one, also of the fresh client. -/
theorem http_method_run (pre : List Call) :
    (prepared pre).http_method_ = (run pre).http_method_ ∧
      ((run pre).http_method_ = post ↔ Posting pre) := by
  induction pre using List.reverseRecOn with
  | nil => exact ⟨rfl, iff_of_true rfl not_since_nil⟩
  | append_singleton pre call ih =>
    rw [run_snoc, prepared_snoc, posting_snoc]
    cases call with
    | setHeader key value => simpa [Call.prepares, step, setHeader] using ih
    | setConnectTimeout timeout => simpa [Call.prepares, step, setConnectTimeout] using ih
    | setFetchTimeout timeout => simpa [Call.prepares, step, setFetchTimeout] using ih
    | setMethod http_method =>
      by_cases hget : http_method = get
      · have hne : get ≠ post := by decide
        simp [Call.prepares, step, setMethod, hget, hne]
      · by_cases hpost : http_method = post
        · have hne : post ≠ get := by decide
          simp [Call.prepares, step, setMethod, hpost, hne]
        · simpa [Call.prepares, step, setMethod, hget, hpost] using ih
    | fetchUrl url data curl => simpa [Call.prepares, step, http_method_fetchUrl] using ih

/-- The body is that of all responses together. -/
theorem response_body_run (pre : List Call) :
    (run pre).response_body_ = [] ↔
      ∀ c ∈ pre, ∀ data response, Makes data response c → response.flatten = [] := by
  induction pre using List.reverseRecOn with
  | nil => exact iff_of_true rfl nofun
  | append_singleton pre call ih =>
    have hkeep : (∀ data response, ¬Makes data response call) →
        ((∀ c ∈ pre ++ [call], ∀ data response, Makes data response c → response.flatten = []) ↔
          ∀ c ∈ pre, ∀ data response, Makes data response c → response.flatten = []) := by
      intro hnot
      rw [List.forall_mem_append, List.forall_mem_singleton, and_iff_left]
      exact fun data response h => absurd h (hnot data response)
    rw [run_snoc]
    cases call with
    | setHeader key value => exact ih.trans (hkeep nofun).symm
    | setConnectTimeout timeout => exact ih.trans (hkeep nofun).symm
    | setFetchTimeout timeout => exact ih.trans (hkeep nofun).symm
    | setMethod http_method =>
      rw [step, setMethod_response_body_]
      exact ih.trans (hkeep nofun).symm
    | fetchUrl url data curl =>
      by_cases h : url ≠ [] ∧ curl.handle = true
      · rw [step, (fetchUrl_of_request h.1 h.2).2.2.1, List.append_eq_nil_iff, ih,
          List.forall_mem_append, List.forall_mem_singleton]
        refine and_congr_right fun _ => ⟨fun hnil data' response hmakes => ?_, fun hall => ?_⟩
        · rw [← (makes_fetchUrl_iff.1 hmakes).2.2.2]
          exact hnil
        · exact hall data _ (makes_fetchUrl_iff.2 ⟨h.1, h.2, rfl, rfl⟩)
      · rw [step, fetchUrl_of_not h]
        exact ih.trans (hkeep fun data' response hmakes => h (requests_of_makes hmakes)).symm

/-- What the headers of the client and of the fresh client have to do with the calls. -/
structure Tracks (pre : List Call) (m m' : Std.TreeMap Str Str) : Prop where
  other : ∀ key, key ≠ contentLength → m[key]? = m'[key]?
  given : ∀ value, m'[contentLength]? = some value ↔ Given value pre
  left : ∀ value, m[contentLength]? = some value ↔
    (∃ n : ℕ, Left n pre ∧ Converter.convertToString n = value) ∨
      ((∀ n, ¬Left n pre) ∧ Given value pre)

/-- A call that does not write the length. -/
theorem Tracks.keep {pre : List Call} {m m' : Std.TreeMap Str Str} (h : Tracks pre m m')
    {call : Call} (hposts : ∀ n, ¬Posts n pre call)
    (hset : ∀ value, call ≠ .setHeader contentLength value) : Tracks (pre ++ [call]) m m' := by
  have hgiven : ∀ value, Given value (pre ++ [call]) ↔ Given value pre := fun value => by
    rw [given_snoc]
    simp [hset]
  have hleft : ∀ n, Left n (pre ++ [call]) ↔ Left n pre := fun n => by
    rw [left_snoc]
    simp [hset, hposts]
  refine ⟨h.other, fun value => ?_, fun value => ?_⟩
  · rw [h.given, hgiven]
  · rw [h.left, hgiven]
    simp only [hleft]

/-- A header of the caller. -/
theorem Tracks.setHeader {pre : List Call} {m m' : Std.TreeMap Str Str} (h : Tracks pre m m')
    (key value : Str) :
    Tracks (pre ++ [.setHeader key value]) (m.insert key value) (m'.insert key value) := by
  have hposts : ∀ n, ¬Posts n pre (.setHeader key value) := by
    rintro n ⟨-, data, response, hmakes, -⟩
    obtain ⟨_, _, hcall, -⟩ := hmakes
    cases hcall
  have hother : ∀ key', key' ≠ contentLength →
      (m.insert key value)[key']? = (m'.insert key value)[key']? := fun key' hkey' => by
    rw [Std.TreeMap.getElem?_insert, Std.TreeMap.getElem?_insert, h.other key' hkey']
  by_cases hkey : key = contentLength
  · subst hkey
    have hgiven : ∀ value', Given value' (pre ++ [.setHeader contentLength value]) ↔
        value = value' := fun value' => by
      rw [given_snoc]
      simp
    have hleft : ∀ n, ¬Left n (pre ++ [.setHeader contentLength value]) := fun n => by
      rw [left_snoc]
      simp [hposts]
    refine ⟨hother, fun value' => ?_, fun value' => ?_⟩
    · rw [Std.TreeMap.getElem?_insert_self, Option.some.injEq, hgiven]
    · rw [Std.TreeMap.getElem?_insert_self, Option.some.injEq, hgiven]
      simp [hleft]
  · have hlength : ∀ m : Std.TreeMap Str Str,
        (m.insert key value)[contentLength]? = m[contentLength]? := fun m => by
      simp [Std.TreeMap.getElem?_insert, hkey]
    have hkept := h.keep hposts fun value' heq => hkey (Call.setHeader.inj heq).1
    refine ⟨hother, fun value' => ?_, fun value' => ?_⟩
    · rw [hlength, hkept.given]
    · rw [hlength, hkept.left]

/-- A `POST` request. -/
theorem Tracks.posts {pre : List Call} {m m' : Std.TreeMap Str Str} (h : Tracks pre m m') {n : ℕ}
    {call : Call} (hposts : ∀ n', Posts n' pre call ↔ n = n')
    (hset : ∀ value, call ≠ .setHeader contentLength value) :
    Tracks (pre ++ [call]) (m.insert contentLength (Converter.convertToString n)) m' := by
  have hgiven : ∀ value, Given value (pre ++ [call]) ↔ Given value pre := fun value => by
    rw [given_snoc]
    simp [hset]
  have hleft : ∀ n', Left n' (pre ++ [call]) ↔ n = n' := fun n' => by
    rw [left_snoc]
    simp [hposts]
  refine ⟨fun key hkey => ?_, fun value => ?_, fun value => ?_⟩
  · rw [← h.other key hkey]
    simp [Std.TreeMap.getElem?_insert, Ne.symm hkey]
  · rw [h.given, hgiven]
  · rw [Std.TreeMap.getElem?_insert_self, Option.some.injEq]
    simp [hleft]

theorem not_posts_of {pre : List Call} {call : Call}
    (h : ∀ url data curl, call ≠ .fetchUrl url data curl) (n : ℕ) : ¬Posts n pre call := by
  rintro ⟨-, data, response, ⟨url, curl, hcall, -⟩, -⟩
  exact h url data curl hcall

theorem tracks_run (pre : List Call) :
    Tracks pre (run pre).request_header_map_ (prepared pre).request_header_map_ := by
  induction pre using List.reverseRecOn with
  | nil =>
    have hnone : new.request_header_map_[contentLength]? = none := by decide
    have hgiven : ∀ value, ¬Given value [] := fun value => not_since_nil
    have hleft : ∀ n, ¬Left n [] := fun n => not_since_nil
    refine ⟨fun _ _ => rfl, fun value => ?_, fun value => ?_⟩
    · exact iff_of_false (by rw [prepared]; simp [run, hnone]) (hgiven value)
    · exact iff_of_false (by simp [run, hnone]) (by simp [hgiven, hleft])
  | append_singleton pre call ih =>
    rw [run_snoc, prepared_snoc]
    cases call with
    | setHeader key value => exact ih.setHeader key value
    | setConnectTimeout timeout => exact ih.keep (not_posts_of nofun) nofun
    | setFetchTimeout timeout => exact ih.keep (not_posts_of nofun) nofun
    | setMethod http_method =>
      simp only [Call.prepares, if_true, step, setMethod_request_header_map_]
      exact ih.keep (not_posts_of nofun) nofun
    | fetchUrl url data curl =>
      simp only [Call.prepares]
      by_cases h : url ≠ [] ∧ curl.handle = true
      · rw [step, (fetchUrl_of_request h.1 h.2).1, requestHeaders]
        by_cases hmethod : (run pre).http_method_ = post
        · have hposting := (http_method_run pre).2.1 hmethod
          rw [if_pos hmethod]
          refine ih.posts (fun n => ?_) nofun
          rw [posts_fetchUrl_iff]
          exact ⟨fun hn => hn.2.2.2, fun hn => ⟨hposting, h.1, h.2, hn⟩⟩
        · have hposting := mt (http_method_run pre).2.2 hmethod
          rw [if_neg hmethod]
          exact ih.keep (fun n hposts => hposting hposts.1) nofun
      · rw [step, fetchUrl_of_not h]
        refine ih.keep (fun n hposts => h ?_) nofun
        obtain ⟨-, data', response, hmakes, -⟩ := hposts
        exact requests_of_makes hmakes

theorem cString_convertToString (z : ℤ) :
    cString (Converter.convertToString z) = Converter.convertToString z :=
  List.takeWhile_eq_self_iff.2 fun c hc => by
    simpa using fun heq : c = '\x00' =>
      Converter.notMem_convertToString (by decide) (by decide) (heq ▸ hc)

/-- What is left of a `POST` request is seen, unless the caller has set it as well. -/
theorem Tracks.map_cString_iff {pre : List Call} {m m' : Std.TreeMap Str Str}
    (h : Tracks pre m m') :
    m[contentLength]?.map cString = m'[contentLength]?.map cString ↔
      ∀ n : ℕ, Left n pre →
        ∃ value, Given value pre ∧ cString value = Converter.convertToString n := by
  constructor
  · intro heq n hn
    rw [(h.left _).2 (Or.inl ⟨n, hn, rfl⟩), Option.map_some, cString_convertToString] at heq
    obtain ⟨value, hvalue, hcut⟩ := Option.map_eq_some_iff.1 heq.symm
    exact ⟨value, (h.given value).1 hvalue, hcut⟩
  · intro hall
    by_cases hleft : ∃ n, Left n pre
    · obtain ⟨n, hn⟩ := hleft
      obtain ⟨value, hvalue, hcut⟩ := hall n hn
      rw [(h.left _).2 (Or.inl ⟨n, hn, rfl⟩), (h.given value).2 hvalue, Option.map_some,
        Option.map_some, cString_convertToString, hcut]
    · have hnot : ∀ n, ¬Left n pre := not_exists.1 hleft
      have heq : m[contentLength]? = m'[contentLength]? := by
        ext value
        rw [h.left, h.given]
        simp [hnot]
      rw [heq]

/-- The headers of a request and of that of the fresh client. -/
theorem requestHeaders_eq_iff (pre : List Call) (data : Str) :
    headers ((run pre).requestHeaders data) = headers ((prepared pre).requestHeaders data) ↔
      (¬Posting pre → ∀ n : ℕ, Left n pre →
        ∃ value, Given value pre ∧ cString value = Converter.convertToString n) := by
  have htracks := tracks_run pre
  obtain ⟨hmethod, hposting⟩ := http_method_run pre
  rw [requestHeaders, requestHeaders, hmethod]
  by_cases hpost : (run pre).http_method_ = post
  · -- both send the length of these data
    rw [if_pos hpost, if_pos hpost, headers_eq_iff fun key hkey => ?_]
    · rw [Std.TreeMap.getElem?_insert_self, Std.TreeMap.getElem?_insert_self]
      exact iff_of_true rfl fun hnot => absurd (hposting.1 hpost) hnot
    · rw [Std.TreeMap.getElem?_insert, Std.TreeMap.getElem?_insert, htracks.other key hkey]
  · rw [if_neg hpost, if_neg hpost, headers_eq_iff htracks.other, htracks.map_cString_iff]
    exact ⟨fun hall _ => hall, fun hall => hall (mt hposting.2 hpost)⟩

/-- What it takes for a call that makes a request. -/
theorem independent_fetchUrl_iff {pre : List Call} {url data : Str} {curl : Transfer}
    (hurl : url ≠ []) (hhandle : curl.handle = true) :
    Independent pre (.fetchUrl url data curl) ↔
      (run pre).response_body_ = [] ∧ headers ((run pre).requestHeaders data) =
        headers ((prepared pre).requestHeaders data) := by
  obtain ⟨-, -, hbody, request, hrequest, hheaders⟩ :=
    @fetchUrl_of_request (run pre) url data curl hurl hhandle
  obtain ⟨-, -, -, request', hrequest', hheaders'⟩ :=
    @fetchUrl_of_request (prepared pre) url data curl hurl hhandle
  constructor
  · intro hind
    obtain ⟨hnil, request'', hsome, heq⟩ := hind request hrequest
    obtain rfl : request' = request'' := Option.some.inj (hrequest'.symm.trans hsome)
    rw [hbody] at hnil
    exact ⟨List.append_left_eq_self.1 hnil, by rw [← hheaders, ← hheaders', heq]⟩
  · rintro ⟨hnil, heq⟩ request'' hsome
    obtain rfl : request = request'' := Option.some.inj (hrequest.symm.trans hsome)
    rw [hbody, hnil]
    exact ⟨rfl, request', hrequest', by rw [hheaders, hheaders', heq]⟩

/-- A request is as those of a fresh client exactly if it is not affected. -/
theorem independent_iff (pre : List Call) (call : Call) :
    Independent pre call ↔ Unaffected pre call := by
  have hnone : (∀ url data curl, call ≠ .fetchUrl url data curl) → Unaffected pre call := by
    rintro hcall ⟨data, response, url, curl, heq, -⟩
    exact absurd heq (hcall url data curl)
  cases call with
  | setHeader key value => exact iff_of_true trivial (hnone nofun)
  | setMethod http_method => exact iff_of_true trivial (hnone nofun)
  | setConnectTimeout timeout => exact iff_of_true trivial (hnone nofun)
  | setFetchTimeout timeout => exact iff_of_true trivial (hnone nofun)
  | fetchUrl url data curl =>
    by_cases h : url ≠ [] ∧ curl.handle = true
    · rw [independent_fetchUrl_iff h.1 h.2, response_body_run, requestHeaders_eq_iff]
      exact ⟨fun hall _ => hall,
        fun hall => hall ⟨data, curl.response, url, curl, rfl, h.1, h.2, rfl⟩⟩
    · have hrequest := @fetchUrl_of_not (run pre) url data curl h
      refine iff_of_true (fun request hsome => ?_) ?_
      · rw [hrequest] at hsome
        cases hsome
      · rintro ⟨data', response, hmakes⟩
        exact absurd (requests_of_makes hmakes) h

/-- HTTP requests. In every history of calls each request is independent of those before it
exactly if none is affected. -/
theorem throughout_independent_iff (calls : List Call) :
    Throughout Independent calls ↔ Throughout Unaffected calls :=
  forall₂_congr fun pre call => by rw [independent_iff]

/-- Two requests, answered with `a` and with `b`. -/
def twoRequests : List Call :=
  [.fetchUrl "http://h/".toList "{}".toList ⟨true, [['a']], 0, 200⟩,
    .fetchUrl "http://h/".toList "{}".toList ⟨true, [['b']], 0, 200⟩]

/-- After the second one the body is `ab`. -/
theorem not_independent_twoRequests : ¬Throughout Independent twoRequests := by
  intro h
  have hlast := (throughout_cons.1 (throughout_cons.1 h).2).1 _ rfl
  exact absurd hlast.1 (by decide)

end HttpClient

end Ick
