import ProtonDrive.Core.Actions

/-!
# Sessions (`pdtui`, `session.rs`)

* `SessionCall`            what a session asks of its surroundings: the transport, the clocks, the lock
                           around its state, the keyring and the two files;
* `saveKeyring`, …, `loadSessionFile`
                           the stores;
* `doRefresh`              one refresh, on the state its caller holds the write lock of;
* `forceRefresh`, `proactiveRefreshLoop`
                           the two callers of it;
* `fromLogin`, `fromKeyring`, `logout`
                           the beginnings and the end of a session.

Instants are counted in nanoseconds, times of the system clock in seconds.  Both are unbounded: the
panic of `Instant + Duration` beyond 2^63 seconds, for an `ExpiresIn` or an `ExpiresAt` that large, is
not modelled.  A text is kept as the document it is the text of.
-/

set_option linter.unusedVariables false

namespace ProtonDrive
open Encoding Effects Api Json

/-! ## errors -/

/-- an error of the `keyring` crate -/
inductive KeyringError where
  | noEntry
  | other (msg : String)
  deriving DecidableEq

def KeyringError.display : KeyringError → String
  | .noEntry => "No matching entry found in secure storage"
  | .other msg => msg

inductive IoError where
  | notFound (msg : String)
  | other (msg : String)
  deriving DecidableEq

def IoError.display : IoError → String
  | .notFound msg => msg
  | .other msg => msg

inductive SessionManagerError where
  | sessionExpired
  | keyring (msg : String)
  | io (e : IoError)
  | json (msg : String)
  | http (e : Error)
  | noKeyring (uid : String)
  deriving DecidableEq

def SessionManagerError.display : SessionManagerError → String
  | .sessionExpired => "session expired - please log in again"
  | .keyring msg => "keyring: " ++ msg
  | .io e => "io: " ++ e.display
  | .json msg => "json: " ++ msg
  | .http e => "http: " ++ e.display
  | .noKeyring uid => "no session stored in keyring for uid " ++ uid

/-! ## what is stored -/

/-- what a store holds: the document it is the text of, `none` if it is the text of none -/
abbrev Text := Option Json

structure KeyringPayload where
  uid : String
  refreshToken : String
  keyPassword : String
  deriving DecidableEq

def KeyringPayload.toJson (p : KeyringPayload) : Json :=
  .obj [("uid", .str p.uid), ("refresh_token", .str p.refreshToken),
    ("key_password", .str p.keyPassword)]

def KeyringPayload.ofJson : Json → Option KeyringPayload :=
  record ["uid", "refresh_token", "key_password"] 3 fun j => do
    let uid ← j.required asStr "uid"
    let refreshToken ← j.required asStr "refresh_token"
    let keyPassword ← j.required asStr "key_password"
    return { uid, refreshToken, keyPassword }

def defaultAppVersion : String := "external-drive-pdtui@0.1.0-stable"

def defaultBaseUrl : String := "https://drive.proton.me/api"

structure SessionFile where
  uid : String
  accessToken : String
  expiresAtUnix : Nat
  appVersion : String
  baseUrl : String
  deriving DecidableEq

def SessionFile.toJson (sf : SessionFile) : Json :=
  .obj [("UID", .str sf.uid), ("AccessToken", .str sf.accessToken),
    ("ExpiresAt", .num sf.expiresAtUnix), ("app_version", .str sf.appVersion),
    ("base_url", .str sf.baseUrl)]

def SessionFile.ofJson : Json → Option SessionFile :=
  record ["UID", "AccessToken", "ExpiresAt", "app_version", "base_url"] 3 fun j => do
    let uid ← j.required asStr "UID"
    let accessToken ← j.required asStr "AccessToken"
    let expiresAtUnix ← j.required asU64 "ExpiresAt"
    let appVersion ← j.defaulted asStr defaultAppVersion "app_version"
    let baseUrl ← j.defaulted asStr defaultBaseUrl "base_url"
    return { uid, accessToken, expiresAtUnix, appVersion, baseUrl }

/-- a payload that was written is read back -/
theorem KeyringPayload.ofJson_toJson (p : KeyringPayload) : ofJson p.toJson = some p := rfl

theorem SessionFile.ofJson_toJson (sf : SessionFile) (h : sf.expiresAtUnix < 2 ^ 64) :
    ofJson sf.toJson = some sf := by
  have hexpires : (Json.num sf.expiresAtUnix).asU64 = some sf.expiresAtUnix := by
    have hbounds : (0 : Int) ≤ sf.expiresAtUnix ∧
        (sf.expiresAtUnix : Int) ≤ 18446744073709551615 := by omega
    simp [Json.asU64, Json.asIntIn, hbounds]
  have hmember : sf.toJson.required asU64 "ExpiresAt" = (Json.num sf.expiresAtUnix).asU64 := rfl
  have hobj : ofJson sf.toJson = (do
      let uid ← sf.toJson.required asStr "UID"
      let accessToken ← sf.toJson.required asStr "AccessToken"
      let expiresAtUnix ← sf.toJson.required asU64 "ExpiresAt"
      let appVersion ← sf.toJson.defaulted asStr defaultAppVersion "app_version"
      let baseUrl ← sf.toJson.defaulted asStr defaultBaseUrl "base_url"
      return { uid, accessToken, expiresAtUnix, appVersion, baseUrl }) := rfl
  rw [hobj, hmember, hexpires]
  rfl

/-! ## the surroundings -/

inductive StorePath where
  | session
  | secret
  deriving DecidableEq

structure SessionState where
  uid : String
  accessToken : String
  refreshToken : String
  keyPassword : String
  /-- an instant -/
  expiresAt : Nat
  deriving DecidableEq

/-- `acquire` and `release` are the write lock of the state; `readState` copies it under a read lock,
and `replace` is the assignment under the write lock.  `writeFile` makes the directory, writes the file
and sets its mode -/
inductive SessionCall where
  | requestJson (req : JsonRequest)
  | requestBlob (req : BlobRequest)
  | now
  | unixNow
  | sleepUntil (instant : Nat)
  | readState
  | acquire
  | replace (st : SessionState)
  | release
  | setKeyring (uid : String) (doc : Json)
  | getKeyring (uid : String)
  | deleteKeyring (uid : String)
  | writeFile (path : StorePath) (doc : Json)
  | truncateFile (path : StorePath)
  | readFile (path : StorePath)
  | fileExists (path : StorePath)
  | removeFile (path : StorePath)

def SessionCall.Ans : SessionCall → Type
  | .requestJson _ => Except Error JsonResponse
  | .requestBlob _ => Except Error JsonResponse
  | .now => Nat
  | .unixNow => Nat
  | .sleepUntil _ => Unit
  | .readState => SessionState
  | .acquire => SessionState
  | .replace _ => Unit
  | .release => Unit
  | .setKeyring _ _ => Except KeyringError Unit
  | .getKeyring _ => Except KeyringError Text
  | .deleteKeyring _ => Except KeyringError Unit
  | .writeFile _ _ => Except IoError Unit
  | .truncateFile _ => Except IoError Unit
  | .readFile _ => Except IoError Text
  | .fileExists _ => Bool
  | .removeFile _ => Except IoError Unit

abbrev sessionHost : Sig := { Call := SessionCall, Ans := SessionCall.Ans }

abbrev Session (α : Type) := ExceptT SessionManagerError (Prog sessionHost) α

def ask (c : SessionCall) : Session c.Ans := ExceptT.lift (Prog.perform (S := sessionHost) c)

def orFail {ε α : Type} (f : ε → SessionManagerError) : Except ε α → Session α
  | .ok a => pure a
  | .error e => throw (f e)

/-- a failure is a value -/
def caught {α : Type} (p : Session α) : Session (Except SessionManagerError α) :=
  ExceptT.lift p.run

def NANOS_PER_SEC : Nat := 1000000000

def sleep (nanos : Nat) : Session Unit := do
  let now : Nat ← ask .now
  ask (.sleepUntil (now + nanos))

/-- `serde_json` on a text that is kept as its document -/
def readText {α : Type} (type : String) (dec : Json → Option α) (text : Text) : Session α :=
  match text.bind dec with
  | some a => pure a
  | none => throw (.json type)

/-! ## the keyring -/

def saveKeyring (uid refreshToken keyPassword : String) : Session Unit := do
  let payload : KeyringPayload := { uid, refreshToken, keyPassword }
  let set ← ask (.setKeyring uid payload.toJson)
  orFail (fun e : KeyringError => .keyring e.display) set

def deleteKeyring (uid : String) : Session Unit := do
  let deleted : Except KeyringError Unit ← ask (.deleteKeyring uid)
  match deleted with
  | .ok _ => pure ()
  | .error .noEntry => pure ()
  | .error e => throw (.keyring e.display)

def loadKeyring (uid : String) : Session KeyringPayload := do
  let got : Except KeyringError Text ← ask (.getKeyring uid)
  match got with
  | .ok raw => readText "KeyringPayload" KeyringPayload.ofJson raw
  | .error .noEntry => throw (.noKeyring uid)
  | .error other => throw (.keyring other.display)

/-! ## the secret file -/

def saveSecretFile (uid refreshToken keyPassword : String) : Session Unit := do
  let payload : KeyringPayload := { uid, refreshToken, keyPassword }
  let written ← ask (.writeFile .secret payload.toJson)
  orFail .io written

def loadSecretFile (uid : String) : Session KeyringPayload := do
  let there : Bool ← ask (.fileExists .secret)
  if there then do
    let read ← ask (.readFile .secret)
    let raw ← orFail .io read
    let payload ← readText "KeyringPayload" KeyringPayload.ofJson raw
    if payload.uid ≠ uid then throw (.noKeyring uid) else return payload
  else throw (.noKeyring uid)

def deleteSecretFile : Session Unit := do
  let removed : Except IoError Unit ← ask (.removeFile .secret)
  match removed with
  | .ok _ => pure ()
  | .error (.notFound _) => pure ()
  | .error e => throw (.io e)

/-! ## `session.json` -/

/-- the rest of the life of the access token, on the system clock -/
def expiresAtUnix (nowUnix now expiresAt : Nat) : Nat :=
  min (nowUnix + (expiresAt - now) / NANOS_PER_SEC) (2 ^ 64 - 1)

def writeSessionFile (uid accessToken : String) (expiresAt : Nat) : Session Unit := do
  let nowUnix : Nat ← ask .unixNow
  let now : Nat ← ask .now
  let sf : SessionFile :=
    { uid, accessToken, expiresAtUnix := expiresAtUnix nowUnix now expiresAt,
      appVersion := defaultAppVersion, baseUrl := defaultBaseUrl }
  let written ← ask (.writeFile .session sf.toJson)
  orFail .io written

def truncateSessionFile : Session Unit := do
  let there : Bool ← ask (.fileExists .session)
  if there then do
    let truncated ← ask (.truncateFile .session)
    orFail .io truncated
  else return ()

def loadSessionFile : Session SessionFile := do
  let read ← ask (.readFile .session)
  let bytes ← orFail .io read
  readText "SessionFile" SessionFile.ofJson bytes

/-! ## refreshing -/

def refreshPath : String := "/core/v4/auth/refresh"

def refreshRequest (st : SessionState) : JsonRequest where
  method := .post
  path := refreshPath
  query := []
  headers := [("x-pm-uid", st.uid)]
  body := some (Auth.RefreshRequest.toJson
    { responseType := "token", grantType := "refresh_token", refreshToken := st.refreshToken,
      redirectUri := "https://protonmail.com" })

/-- the life of a token that was just issued: 30 minutes -/
def TOKEN_LIFE : Nat := 30 * 60 * NANOS_PER_SEC

/-- the state after a refresh that was answered with `tok` -/
def SessionState.rotated (st : SessionState) (tok : Auth.RefreshResponse) (expiresAt : Nat) :
    SessionState :=
  { st with accessToken := tok.accessToken, refreshToken := tok.refreshToken, expiresAt }

section
variable (K : Crates)

/-- what the answer to a refresh request says, unless it is 401 or 422 -/
def refreshAnswer (resp : JsonResponse) : Except SessionManagerError Auth.RefreshResponse :=
  match K.fromSlice "ResponseEnvelope<RefreshResponse>"
      (ResponseEnvelope.ofJson Auth.RefreshResponse.ofJson) resp.body with
  | .error e => .error (.json e)
  | .ok env =>
    if env.code ≠ CODE_OK then
      .error (.http (.internal ("refresh endpoint returned code " ++ toString env.code ++ ": " ++
        env.error.getD "")))
    else .ok env.inner

/-- the stores are written before the state is replaced; the keyring is best effort -/
def saveRotated (st : SessionState) (tok : Auth.RefreshResponse) : Session SessionState := do
  let now : Nat ← ask .now
  let expiresAt := now + TOKEN_LIFE
  let _ ← caught (saveKeyring st.uid tok.refreshToken st.keyPassword)
  saveSecretFile st.uid tok.refreshToken st.keyPassword
  writeSessionFile st.uid tok.accessToken expiresAt
  return st.rotated tok expiresAt

def doRefresh (st : SessionState) : Session SessionState := do
  let sent ← ask (.requestJson (refreshRequest st))
  let resp ← orFail .http sent
  if resp.status = 401 ∨ resp.status = 422 then do
    let _ ← caught (deleteKeyring st.uid)
    throw .sessionExpired
  else do
    let tok ← orFail id (refreshAnswer K resp)
    saveRotated st tok

/-- the tail of both callers: the state is replaced if there is a new one, and the lock released -/
def settle (refreshed : Except SessionManagerError SessionState) : Session Unit :=
  match refreshed with
  | .ok st => do
    ask (.replace st)
    ask .release
  | .error _ => ask .release

def forceRefresh : Session Unit := do
  let st : SessionState ← ask .acquire
  let refreshed ← caught (doRefresh K st)
  settle refreshed
  orFail id (refreshed.map fun _ => ())

/-- how long the loop sleeps: until a minute before the expiry, and a second at least -/
def sleepDuration (expiresAt now : Nat) : Nat :=
  max (expiresAt - (now + 60 * NANOS_PER_SEC)) NANOS_PER_SEC

/-- `fuel` bounds the turns of the unrolling, the source has no such bound -/
def proactiveRefreshLoop : (fuel : Nat) → Session Unit
  | 0 => (Prog.cut : Prog sessionHost (Except SessionManagerError Unit))
  | fuel + 1 => do
    let seen : SessionState ← ask .readState
    let now : Nat ← ask .now
    sleep (sleepDuration seen.expiresAt now)
    let st : SessionState ← ask .acquire
    let refreshed ← caught (doRefresh K st)
    settle refreshed
    match refreshed with
    | .ok _ => proactiveRefreshLoop fuel
    | .error .sessionExpired => return ()
    | .error _ => do
      sleep (30 * NANOS_PER_SEC)
      proactiveRefreshLoop fuel

end

/-! ## the session manager -/

structure Credentials where
  uid : String
  accessToken : String
  refreshToken : String
  keyPassword : String
  deriving DecidableEq

/-- the sum of the instants is taken to fit -/
def fromLogin (creds : Credentials) (expiresInSecs : Nat) : Session SessionState := do
  let now : Nat ← ask .now
  let expiresAt := now + expiresInSecs * NANOS_PER_SEC
  let _ ← caught (saveKeyring creds.uid creds.refreshToken creds.keyPassword)
  saveSecretFile creds.uid creds.refreshToken creds.keyPassword
  writeSessionFile creds.uid creds.accessToken expiresAt
  return { uid := creds.uid, accessToken := creds.accessToken, refreshToken := creds.refreshToken,
           keyPassword := creds.keyPassword, expiresAt }

/-- the secret of a session: the keyring is preferred, the file is read only where it has no entry -/
def loadSecret (uid : String) : Session KeyringPayload := do
  let loaded ← caught (loadKeyring uid)
  match loaded with
  | .ok kp => return kp
  | .error (.noKeyring _) => loadSecretFile uid
  | .error e => throw e

/-- the sum of the instants is taken to fit -/
def fromKeyring : Session SessionState := do
  let sf ← loadSessionFile
  let kp ← loadSecret sf.uid
  let nowUnix : Nat ← ask .unixNow
  let now : Nat ← ask .now
  return { uid := sf.uid, accessToken := sf.accessToken, refreshToken := kp.refreshToken,
           keyPassword := kp.keyPassword,
           expiresAt := now + (sf.expiresAtUnix - nowUnix) * NANOS_PER_SEC }

def logout : Session Unit := do
  let st : SessionState ← ask .readState
  deleteKeyring st.uid
  deleteSecretFile
  truncateSessionFile

/-- `SessionManager::auth_headers` of a copy of the state -/
def SessionState.authHeaders (st : SessionState) : List (String × String) :=
  [("Authorization", "Bearer " ++ st.accessToken), ("x-pm-uid", st.uid)]

end ProtonDrive
