import Mathlib.Data.List.DropRight
import ProtonDrive.App.Session

/-!
# The HTTP clients (`pdtui`, `http.rs`)

* `SessionAwareHttpClient`
                       adds the auth headers of the session to every request, and after a 401 refreshes
                       the session and sends the request once more;
* `WireCall`           what the transport asks of the network;
* `ReqwestHttpClient`  resolves the URL of a request, and sends it up to `maxAttempts` times;
* `overReqwest`        the first client over the second.
-/

set_option linter.unusedVariables false

namespace ProtonDrive
open Encoding Effects Api

/-! ## the session-aware client -/

abbrev SessionAware (α : Type) := ExceptT Error (Prog sessionHost) α

namespace SessionAwareHttpClient

def innerJson (req : JsonRequest) : SessionAware JsonResponse :=
  ExceptT.mk (Prog.perform (S := sessionHost) (.requestJson req))

def innerBlob (req : BlobRequest) : SessionAware JsonResponse :=
  ExceptT.mk (Prog.perform (S := sessionHost) (.requestBlob req))

/-- `SessionManager::auth_headers`: a snapshot, no refresh -/
def authHeaders : SessionAware (List (String × String)) := do
  let st : SessionState ← ExceptT.lift (Prog.perform (S := sessionHost) .readState)
  return st.authHeaders

section
variable (K : Crates) {Req : Type}

/-- `inner` sends a request of the inner client, `authed` puts headers before those of the request -/
def send (inner : Req → SessionAware JsonResponse) (authed : List (String × String) → Req → Req)
    (req : Req) : SessionAware JsonResponse := do
  let auth ← authHeaders
  let resp ← inner (authed auth req)
  if resp.status ≠ 401 then return resp
  else do
    let refreshed ← ExceptT.lift (forceRefresh K).run
    match refreshed with
    | .ok _ => do
      let auth ← authHeaders
      inner (authed auth req)
    | .error .sessionExpired => throw (.internal "session expired -- please log in again")
    | .error e => throw (.internal ("refresh failed: " ++ e.display))

def requestJson (req : JsonRequest) : SessionAware JsonResponse :=
  send K innerJson (fun auth req => { req with headers := auth ++ req.headers }) req

def requestBlob (req : BlobRequest) : SessionAware JsonResponse :=
  send K innerBlob (fun auth req => { req with headers := auth ++ req.headers }) req

end

end SessionAwareHttpClient

/-! ## the transport -/

inductive WireBody where
  | none
  | json (doc : Json)
  | bytes (bs : Bytes)

/-- a request as it is given to `reqwest`: the query is still to be appended to the URL -/
structure WireRequest where
  method : HttpMethod
  url : String
  query : List (String × String)
  headers : List (String × String)
  body : WireBody

/-- an answer of the network: a header value is `none` if it is not visible ASCII, and reading the body
can fail -/
structure WireResponse where
  status : Nat
  headers : List (String × Option String)
  body : Except String Bytes

inductive WireError where
  /-- a timeout, or no connection -/
  | transient (msg : String)
  | other (msg : String)

inductive WireCall where
  | send (wire : WireRequest)
  /-- a random number below the bound -/
  | jitter (below : Nat)
  | sleepMillis (millis : Nat)

def WireCall.Ans : WireCall → Type
  | .send _ => Except WireError WireResponse
  | .jitter _ => Nat
  | .sleepMillis _ => Unit

abbrev wireHost : Sig := { Call := WireCall, Ans := WireCall.Ans }

abbrev Wire (α : Type) := ExceptT Error (Prog wireHost) α

def wireCall (c : WireCall) : Wire c.Ans := ExceptT.lift (Prog.perform (S := wireHost) c)

def startsWith (s start : String) : Bool := start.toList.isPrefixOf s.toList

def trimStartSlashes (s : String) : String := String.ofList (s.toList.dropWhile (· = '/'))

def trimEndSlashes (s : String) : String := String.ofList (s.toList.rdropWhile (· = '/'))

/-- `str::parse::<u64>` -/
def parseU64 (s : String) : Option Nat :=
  let digits := if startsWith s "+" then s.toList.drop 1 else s.toList
  if digits ≠ [] ∧ digits.all Char.isDigit then
    let n := digits.foldl (fun n c => 10 * n + (c.toNat - '0'.toNat)) 0
    if n < 2 ^ 64 then some n else none
  else none

structure ReqwestHttpClient where
  baseUrl : String
  appVersion : String
  maxAttempts : Nat

namespace ReqwestHttpClient

def new (baseUrl appVersion : String) : ReqwestHttpClient :=
  { baseUrl, appVersion, maxAttempts := 5 }

def sleepWithJitter (baseMs : Nat) : Wire Unit := do
  let jitter : Nat ← wireCall (.jitter (baseMs / 2 + 1))
  wireCall (.sleepMillis (baseMs + jitter))

def retryAfter (headers : List (String × Option String)) : Nat :=
  (do
    let header ← headers.find? fun h : String × Option String => h.1 = "retry-after"
    let value ← header.2
    parseU64 value).getD 5

/-- the attempts that are left, of which the first has the number `attempt` -/
def attempts (wire : WireRequest) (maxAttempts : Nat) : (left attempt delayMs : Nat) → Wire JsonResponse
  | 0, _, _ => throw (.network "max retries exhausted")
  | left + 1, attempt, delayMs => do
    let sent : Except WireError WireResponse ← wireCall (.send wire)
    match sent with
    | .ok resp =>
      if resp.status = 429 then throw (.rateLimited (retryAfter resp.headers))
      else
        match resp.body with
        | .error e => throw (.network ("body read: " ++ e))
        | .ok bytes =>
          if 500 ≤ resp.status ∧ resp.status < 600 ∧ attempt < maxAttempts then do
            sleepWithJitter delayMs
            attempts wire maxAttempts left (attempt + 1) (min (delayMs * 2) 8000)
          else
            return { status := resp.status, body := bytes,
                     headers := resp.headers.map fun h => (h.1, h.2.getD "") }
    | .error (.transient e) =>
      if attempt ≥ maxAttempts then
        throw (.network ("transport error after " ++ toString attempt ++ " attempts: " ++ e))
      else do
        sleepWithJitter delayMs
        attempts wire maxAttempts left (attempt + 1) (min (delayMs * 2) 8000)
    | .error (.other e) => throw (.network e)

variable (client : ReqwestHttpClient)

def sendWithRetry (wire : WireRequest) : Wire JsonResponse :=
  attempts { wire with headers := wire.headers ++
    [("x-pm-appversion", client.appVersion), ("accept", "application/json")] }
    client.maxAttempts client.maxAttempts 1 250

/-- the URL of a path that is relative to the base -/
def joined (path : String) : String :=
  trimEndSlashes client.baseUrl ++ "/" ++ trimStartSlashes path

def requestJson (req : JsonRequest) : Wire JsonResponse :=
  match req.body with
  | some doc =>
    client.sendWithRetry
      { method := req.method, url := client.joined req.path, query := req.query,
        headers := req.headers ++ [("content-type", "application/json")], body := .json doc }
  | none =>
    client.sendWithRetry
      { method := req.method, url := client.joined req.path, query := req.query,
        headers := req.headers, body := .none }

/-- the URL of a blob request: a `BareURL` is kept, unless it is plain http -/
def blobUrl (path : String) : Except Error String :=
  if startsWith path "https://" then .ok path
  else if startsWith path "http://" then
    .error (.validation ("refusing to send bearer token to non-https BareURL: " ++ path))
  else .ok (client.joined path)

def requestBlob (req : BlobRequest) : Wire JsonResponse :=
  match client.blobUrl req.path with
  | .ok url =>
    client.sendWithRetry
      { method := req.method, url, query := req.query, headers := req.headers, body := .bytes req.body }
  | .error e => throw e

end ReqwestHttpClient

/-! ## one client over the other -/

/-- the calls of a session whose transport is `ReqwestHttpClient` -/
inductive StackCall where
  | session (c : SessionCall)
  | wire (c : WireCall)

def StackCall.Ans : StackCall → Type
  | .session c => c.Ans
  | .wire c => c.Ans

abbrev stackHost : Sig := { Call := StackCall, Ans := StackCall.Ans }

def onWire {α : Type} (p : Wire α) : Prog stackHost (Except Error α) :=
  p.run.handle fun c => Prog.perform (S := stackHost) (.wire c)

/-- the requests of a session are carried out by the transport -/
def overReqwest (client : ReqwestHttpClient) : (c : SessionCall) → Prog stackHost c.Ans
  | .requestJson req => onWire (client.requestJson req)
  | .requestBlob req => onWire (client.requestBlob req)
  | c => Prog.perform (S := stackHost) (.session c)

/-- `SessionAwareHttpClient::request_json` over `ReqwestHttpClient` -/
def stackedJson (K : Crates) (client : ReqwestHttpClient) (req : JsonRequest) :
    Prog stackHost (Except Error JsonResponse) :=
  (SessionAwareHttpClient.requestJson K req).run.handle (overReqwest client)

/-- `SessionAwareHttpClient::request_blob` over `ReqwestHttpClient` -/
def stackedBlob (K : Crates) (client : ReqwestHttpClient) (req : BlobRequest) :
    Prog stackHost (Except Error JsonResponse) :=
  (SessionAwareHttpClient.requestBlob K req).run.handle (overReqwest client)

end ProtonDrive
