import SageStore.Client.ApiManager
import SageStore.Properties.Codec

/-!
# `NetworkService`

A request of the client is an endpoint, a method, a dataset and the id of a resource.
`sendRequest` appends the id to the endpoint, sets the path of the server's URL to it, encodes
the dataset and hands the request to the network; a reply comes back to `onNetworkReply`.

How Qt encodes the path of a URL is a parameter (`QUrl`). It encodes a path byte by byte and
leaves the bytes of the endpoints alone, so the segments of the endpoint arrive as they are
(`parseEndpoint_target`). So the server executes the task that the request names
(`handleRequest_sendRequest`), and the client gets the dataset that the server replied with
(`onNetworkReply_doResponse`).
-/

namespace SageStore

open Bytes BusinessLogic

variable {e : Enforcement}

/-! ### URLs -/

/-- A byte that the path of a URL holds as it is: a slash, or an unreserved character. -/
def isPlainPathByte (b : UInt8) : Bool :=
  isDigit b || (65 ≤ b.toNat && b.toNat ≤ 90) || (97 ≤ b.toNat && b.toNat ≤ 122) ||
    b.toNat ∈ [45, 46, 47, 95, 126]

/-- How `QUrl` encodes a path that was set to a text. -/
structure QUrl where
  escape : UInt8 → Bytes
  escape_plain : ∀ b, isPlainPathByte b = true → escape b = [b]
  /-- The encoded path is visible ASCII. -/
  escape_visible : ∀ b, ∀ c ∈ escape b, 32 < c.toNat ∧ c.toNat ≠ 127

namespace QUrl

def encodedPath (url : QUrl) (path : Bytes) : Bytes := path.flatMap url.escape

/-- A hexadecimal digit in upper case. -/
def hexDigit (n : ℕ) : UInt8 := UInt8.ofNat (if n < 10 then 48 + n else 55 + n)

theorem hexDigit_visible {n : ℕ} (h : n < 16) :
    32 < (hexDigit n).toNat ∧ (hexDigit n).toNat ≠ 127 := by
  unfold hexDigit
  rw [UInt8.toNat_ofNat']
  split <;> omega

/-- `QUrl` on the paths of this development: plain bytes stay, and every other byte is written
with a percent sign. -/
def percent : QUrl where
  escape b :=
    if isPlainPathByte b then [b] else [37, hexDigit (b.toNat / 16), hexDigit (b.toNat % 16)]
  escape_plain b h := if_pos h
  escape_visible b c hc := by
    have hb : b.toNat < 256 := b.toNat_lt
    split at hc
    · next hplain =>
      obtain rfl := List.mem_singleton.mp hc
      simp only [isPlainPathByte, isDigit, Bool.or_eq_true, Bool.and_eq_true, decide_eq_true_eq,
        List.mem_cons, List.not_mem_nil, or_false] at hplain
      omega
    · simp only [List.mem_cons, List.not_mem_nil, or_false] at hc
      rcases hc with rfl | rfl | rfl
      · decide
      · exact hexDigit_visible (by omega)
      · exact hexDigit_visible (by omega)

variable (url : QUrl)

/-- Plain bytes are left alone. -/
theorem encodedPath_eq_self {path : Bytes} (h : ∀ b ∈ path, isPlainPathByte b = true) :
    url.encodedPath path = path := by
  rw [encodedPath, List.flatMap_congr fun b hb => url.escape_plain b (h b hb)]
  exact List.flatMap_singleton' path

theorem encodedPath_append (path path' : Bytes) :
    url.encodedPath (path ++ path') = url.encodedPath path ++ url.encodedPath path' :=
  List.flatMap_append

/-- An encoded path holds neither blanks nor control characters. -/
theorem encodedPath_visible (path : Bytes) :
    ∀ c ∈ url.encodedPath path, 32 < c.toNat ∧ c.toNat ≠ 127 := by
  intro c hc
  obtain ⟨b, -, hb⟩ := List.mem_flatMap.mp hc
  exact url.escape_visible b c hb

end QUrl

/-! ### Endpoints -/

/-- The endpoints of `Endpoints.hpp` that the client requests. -/
inductive Endpoint where
  | resource (t : TableName)
  | login
  | receipts
  | salesAnalytics
  | inventoryAnalytics
deriving DecidableEq

namespace Endpoint

/-- The module and the submodule of an endpoint. -/
def segments : Endpoint → String × String
  | .resource t => path t
  | .login => ("users", "login")
  | .receipts => ("purchase", "receipts")
  | .salesAnalytics => ("analytics", "sales")
  | .inventoryAnalytics => ("analytics", "inventory")

/-- The text of an endpoint, such as `/api/users/login`. -/
def text (endpoint : Endpoint) : Bytes :=
  utf8 "/api/" ++ utf8 endpoint.segments.1 ++ utf8 "/" ++ utf8 endpoint.segments.2

/-- The paths of the endpoints need no encoding. -/
theorem text_plain (endpoint : Endpoint) : ∀ b ∈ endpoint.text, isPlainPathByte b = true := by
  have h : endpoint.text.all isPlainPathByte = true := by
    cases endpoint with
    | resource t => cases t <;> decide
    | _ => decide
  exact List.all_eq_true.mp h

/-- The server splits an endpoint into the root, the module and the submodule. -/
theorem parseEndpoint_text (endpoint : Endpoint) :
    HttpTransaction.parseEndpoint endpoint.text =
      [utf8 "api", utf8 endpoint.segments.1, utf8 endpoint.segments.2] := by
  cases endpoint with
  | resource t => cases t <;> decide
  | _ => decide

end Endpoint

/-! ### `NetworkService` -/

/-- The arguments of a call of `sendRequest`. -/
structure ClientRequest where
  endpoint : Endpoint
  method : Method
  dataset : Dataset
  resourceId : Bytes

namespace NetworkService

/-- The method of the request that the network manager sends. -/
def verb : Method → Bytes
  | .get => "GET"
  | .post => "POST"
  | .put => "PUT"
  | .del => "DELETE"

/-- The path that the server's URL is set to. -/
def endpointSuffix (r : ClientRequest) : Bytes :=
  r.endpoint.text ++ if r.resourceId = [] then [] else utf8 "/" ++ r.resourceId

/-- `sendRequest`: the request that leaves the client, or nothing if the dataset cannot be
encoded. Only `POST` and `PUT` have a body. -/
def sendRequest (J : Json) (url : QUrl) (r : ClientRequest) : Option HttpRequest :=
  (JsonSerializer.serialize J r.dataset).map fun serializedData =>
    { method := verb r.method
      target := url.encodedPath (endpointSuffix r)
      body := if r.method = .post ∨ r.method = .put then serializedData else []
      target_visible := url.encodedPath_visible _ }

/-- `onNetworkReply`: the dataset of a reply, or nothing if the request fails. -/
def onNetworkReply (J : Json) : HttpOutcome → Option Dataset
  | .response body => some (JsonSerializer.deserialize J body)
  | _ => none

end NetworkService

/-- The task that a request names: the id is what is left of it in the target. -/
def ClientRequest.task (url : QUrl) (r : ClientRequest) : RequestData where
  module := utf8 r.endpoint.segments.1
  submodule := utf8 r.endpoint.segments.2
  method := NetworkService.verb r.method
  resourceId := (HttpTransaction.parseEndpoint (url.encodedPath r.resourceId)).headD []
  dataset := if r.method = .post ∨ r.method = .put then r.dataset else ∅

section Task

variable (url : QUrl) (r : ClientRequest)

@[simp] theorem task_module : (r.task url).module = utf8 r.endpoint.segments.1 := rfl

@[simp] theorem task_submodule : (r.task url).submodule = utf8 r.endpoint.segments.2 := rfl

@[simp] theorem task_method : (r.task url).method = NetworkService.verb r.method := rfl

/-- The task of a request about a resource is about its table. -/
theorem task_addresses {t : TableName} (h : r.endpoint = .resource t) :
    (r.task url).Addresses t := by
  refine ⟨?_, ?_⟩
  · rw [task_module, h]
    rfl
  · rw [task_submodule, h]
    rfl

/-- Only a request about the resource addresses it. -/
theorem endpoint_of_addresses {t : TableName} (h : (r.task url).Addresses t) :
    r.endpoint = .resource t := by
  obtain ⟨hmodule, hsub⟩ := h
  rw [task_module] at hmodule
  rw [task_submodule] at hsub
  generalize r.endpoint = endpoint at hmodule hsub
  cases endpoint with
  | resource t' => rw [path_injective t' t hmodule hsub]
  | _ =>
    -- no table has the path of another endpoint
    revert hmodule hsub
    cases t <;> decide

/-- Only a receipt is posted as one. -/
theorem endpoint_of_postsReceipt (h : (r.task url).PostsReceipt) : r.endpoint = .receipts := by
  obtain ⟨-, hsub, -⟩ := h
  rw [task_submodule] at hsub
  generalize r.endpoint = endpoint at hsub
  cases endpoint with
  | resource t =>
    revert hsub
    cases t <;> decide
  | receipts => rfl
  | _ => exact absurd hsub (by decide)

end Task

/-! ### Requests arrive -/

section Arrival

variable {J : Json} {url : QUrl} {p : Platform} {now : UtcTime} {r : ClientRequest}

/-- A slash separates the segments of what is before it from those of what is after it. -/
theorem parseEndpoint_append_slash (t u : Bytes) :
    HttpTransaction.parseEndpoint (t ++ utf8 "/" ++ u) =
      HttpTransaction.parseEndpoint t ++ HttpTransaction.parseEndpoint u := by
  have hslash : utf8 "/" = [47] := by decide
  rw [HttpTransaction.parseEndpoint, hslash, List.append_assoc, List.singleton_append,
    List.splitOn_append_cons_self, List.filter_append]
  rfl

/-- **The segments of a target**: those of the endpoint, and then those of the id. -/
theorem parseEndpoint_target (url : QUrl) (r : ClientRequest) :
    HttpTransaction.parseEndpoint (url.encodedPath (NetworkService.endpointSuffix r)) =
      utf8 "api" :: utf8 r.endpoint.segments.1 :: utf8 r.endpoint.segments.2 ::
        HttpTransaction.parseEndpoint (url.encodedPath r.resourceId) := by
  have htext : url.encodedPath r.endpoint.text = r.endpoint.text :=
    url.encodedPath_eq_self r.endpoint.text_plain
  unfold NetworkService.endpointSuffix
  rw [url.encodedPath_append, htext]
  by_cases hid : r.resourceId = []
  · rw [if_pos hid, hid]
    show HttpTransaction.parseEndpoint (r.endpoint.text ++ []) = _
    rw [List.append_nil, r.endpoint.parseEndpoint_text]
    rfl
  · have hplain : (utf8 "/").all isPlainPathByte = true := by decide
    have hslash : url.encodedPath (utf8 "/") = utf8 "/" :=
      url.encodedPath_eq_self (List.all_eq_true.mp hplain)
    rw [if_neg hid, url.encodedPath_append, hslash, ← List.append_assoc,
      parseEndpoint_append_slash, r.endpoint.parseEndpoint_text]
    rfl

/-- An id of plain bytes without a slash arrives as it is. -/
theorem task_resourceId (hplain : ∀ b ∈ r.resourceId, isPlainPathByte b = true)
    (hslash : (47 : UInt8) ∉ r.resourceId) : (r.task url).resourceId = r.resourceId := by
  show (HttpTransaction.parseEndpoint (url.encodedPath r.resourceId)).headD [] = r.resourceId
  rw [url.encodedPath_eq_self hplain, HttpTransaction.parseEndpoint,
    List.splitOn_eq_singleton hslash, List.filter_singleton]
  by_cases hid : r.resourceId = []
  · rw [hid]
    rfl
  · simp only [hid, decide_true, ne_eq, not_false_eq_true, cond_true, List.headD_cons]

/-- The dataset of a request that leaves the client is decoded as it was. -/
theorem deserialize_body (hJ : J.RoundTrips) {h : HttpRequest}
    (hsend : NetworkService.sendRequest J url r = some h) :
    (if h.body.all isSpace then ∅ else JsonSerializer.deserialize J h.body) =
      (r.task url).dataset := by
  obtain ⟨body, hbody, rfl⟩ := Option.map_eq_some_iff.mp hsend
  have hvalid : r.dataset.IsUtf8 :=
    (JsonSerializer.serialize_isSome J r.dataset).mp (by rw [hbody]; rfl)
  have hback := JsonSerializer.deserialize_serialize hJ hvalid
  rw [hbody, Option.map_some] at hback
  have hback := Option.some.inj hback
  unfold ClientRequest.task
  dsimp only
  by_cases hmethod : r.method = .post ∨ r.method = .put
  · rw [if_pos hmethod, if_pos hmethod]
    -- a blank text is decoded as the empty dataset in any case
    split
    · next hblank =>
      rw [← hback, JsonSerializer.deserialize, if_pos hblank]
    · exact hback
  · rw [if_neg hmethod, if_neg hmethod]
    rfl

/-- **A request arrives as it was made.** The server executes the task that the request names,
and replies with its outcome. -/
theorem handleRequest_sendRequest (hJ : J.RoundTrips) {h : HttpRequest}
    (hsend : NetworkService.sendRequest J url r = some h) (now : UtcTime)
    (s : Session (Db e) Exception) : HttpTransaction.handleRequest p J now h s =
      (HttpTransaction.doResponse J (executeTask p now (r.task url) s).1,
        (executeTask p now (r.task url) s).2) := by
  have htask : HttpTransaction.requestData J h (utf8 r.endpoint.segments.1)
      (utf8 r.endpoint.segments.2)
      (HttpTransaction.parseEndpoint (url.encodedPath r.resourceId)) = r.task url := by
    have hdataset := deserialize_body hJ hsend
    unfold HttpTransaction.requestData
    rw [hdataset]
    obtain ⟨body, hbody, rfl⟩ := Option.map_eq_some_iff.mp hsend
    rfl
  have hsegments : HttpTransaction.parseEndpoint h.target = utf8 "api" ::
      utf8 r.endpoint.segments.1 :: utf8 r.endpoint.segments.2 ::
        HttpTransaction.parseEndpoint (url.encodedPath r.resourceId) := by
    obtain ⟨body, hbody, rfl⟩ := Option.map_eq_some_iff.mp hsend
    exact parseEndpoint_target url r
  rw [HttpTransaction.handleRequest_api hsegments, htask]

/-- **A reply arrives as it was made**, if it is valid UTF-8. -/
theorem onNetworkReply_doResponse (hJ : J.RoundTrips) {data : ResponseData}
    (h : data.dataset.IsUtf8) :
    NetworkService.onNetworkReply J (HttpTransaction.doResponse J data) = some data.dataset := by
  have hback := JsonSerializer.deserialize_serialize hJ h
  unfold HttpTransaction.doResponse
  cases hbody : JsonSerializer.serialize J data.dataset with
  | none => rw [hbody] at hback; cases hback
  | some body =>
    rw [hbody] at hback
    exact hback

/-- A reply that is not valid UTF-8 does not arrive. -/
theorem onNetworkReply_doResponse_of_not {data : ResponseData} (h : ¬ data.dataset.IsUtf8) :
    NetworkService.onNetworkReply J (HttpTransaction.doResponse J data) = none := by
  have hnone : JsonSerializer.serialize J data.dataset = none :=
    Option.not_isSome_iff_eq_none.mp fun hsome =>
      h ((JsonSerializer.serialize_isSome J data.dataset).mp hsome)
  unfold HttpTransaction.doResponse
  rw [hnone]
  rfl

end Arrival

end SageStore
