import ProtonDrive.App.Account
import ProtonDrive.Core.Actions

/-!
# Logging in (`pdtui`, `auth.rs`)

* `AuthError`             how a login fails;
* `SrpModule`             what `proton-srp` supplies: the exchange and the hash of the mailbox
                          password; `getSrp` and `computeKeyPassword` are the calls around them;
* `login`                 auth/info, the exchange, auth, the server's proof, the second factor (`signIn`),
                          then the salts of the keys and the mailbox password made with one of them.

The errors of the session store and of the terminal, which no login returns, are left out.
-/

set_option linter.unusedVariables false

namespace ProtonDrive
open Encoding Effects Api

/-! ## errors -/

inductive AuthError where
  | http (e : Error)
  | api (code : Nat) (message : String)
  | crypto (e : CryptoError)
  | serverProofMismatch
  | json (msg : String)
  | noKeySalt
  | twoFactorRequired
  | base64 (msg : String)
  deriving DecidableEq

def AuthError.display : AuthError → String
  | .http e => "http: " ++ e.display
  | .api code message => "api error " ++ toString code ++ ": " ++ message
  | .crypto e => "crypto: " ++ e.display
  | .serverProofMismatch => "server proof mismatch — possible MITM"
  | .json msg => "json: " ++ msg
  | .noKeySalt => "no non-empty key salt in /keys/salts response"
  | .twoFactorRequired =>
    "2FA is enabled — not yet supported; use scripts/configure-session.sh instead"
  | .base64 msg => "base64: " ++ msg

abbrev LoginM (α : Type) := ExceptT AuthError (Prog host) α

def orAuthError {ε α : Type} (f : ε → AuthError) : Except ε α → LoginM α
  | .ok a => pure a
  | .error e => throw (f e)

/-! ## the mailbox password -/

structure SrpExchange where
  expectedServerProof : String
  clientProof : String
  clientEphemeral : String

structure SrpModule where
  /-- `SRPAuth::with_pgp` and `generate_proofs` -/
  generateProofs : (hashVersion : Nat) → (password salt modulus serverEphemeral : String) → Coins →
    Except String SrpExchange
  /-- the part of `mailbox_password_hash` that is the hash -/
  mailboxPasswordHash : (password : String) → (salt : Bytes) → Except String Bytes

section
variable (S : SrpModule) (K : Crates)

/-- `version as u8` keeps the low byte -/
def SrpModule.getSrp (version : Nat) (modulus serverEphemeral salt password : String) (coins : Coins) :
    Except CryptoError SrpExchange :=
  (S.generateProofs (version % 256) password salt modulus serverEphemeral coins).mapError .srp

def SrpModule.computeKeyPassword (password salt : String) : Except CryptoError String :=
  match Base64.decode salt with
  | none => .error (.key ("key-salt base64: " ++ K.base64Error salt))
  | some saltBytes =>
    match S.mailboxPasswordHash password saltBytes with
    | .error e => .error (.srp e)
    | .ok hashed => (strFromUtf8 K hashed).mapError fun e => .key ("bcrypt output not utf-8: " ++ e)

end

/-! ## requests -/

/-- `parse_envelope` -/
def parseEnvelope (K : Crates) {α : Type} (type : String) (dec : Json → Option α) (body : Bytes) :
    Except AuthError α := do
  let env ← (K.fromSlice ("ResponseEnvelope<" ++ type ++ ">") (ResponseEnvelope.ofJson dec)
    body).mapError .json
  if env.code ≠ CODE_OK then
    .error (.api env.code (env.error.getD "unknown API error"))
  else .ok env.inner

section
variable (K : Crates)

/-- the common part of `api_post` and `api_get` of `auth.rs` -/
def sendParsed {α : Type} (type : String) (dec : Json → Option α) (req : JsonRequest) : LoginM α := do
  let answer ← ExceptT.lift (Prog.perform (S := host) (.requestJson req))
  let resp ← orAuthError .http answer
  orAuthError id (parseEnvelope K type dec resp.body)

def authPost {α : Type} (type : String) (dec : Json → Option α) (path : String) (body : Json) :
    LoginM α := sendParsed K type dec (.bare .post path (some body))

def authGet {α : Type} (type : String) (dec : Json → Option α) (path : String)
    (extraHeaders : List (String × String)) : LoginM α :=
  sendParsed K type dec { JsonRequest.bare .get path none with headers := extraHeaders }

end

/-! ## the login -/

structure Login.Credentials where
  username : String
  uid : String
  userId : String
  accessToken : String
  refreshToken : String
  keyPassword : String
  deriving DecidableEq

def bearerHeaders (auth : Auth.AuthResponse) : List (String × String) :=
  [("Authorization", "Bearer " ++ auth.accessToken), ("x-pm-uid", auth.uid)]

section
variable (S : SrpModule) (K : Crates) (username password : String)

/-- the login up to the check of the second factor -/
def signIn : LoginM Auth.AuthResponse := do
  let info ← authPost K "AuthInfoResponse" Auth.AuthInfoResponse.ofJson "/core/v4/auth/info"
    (Auth.AuthInfoRequest.toJson { username })
  let coins ← ExceptT.lift (Prog.perform (S := host) .coins)
  let exchange ← orAuthError .crypto
    (S.getSrp info.version info.modulus info.serverEphemeral info.salt password coins)
  let authResp ← authPost K "AuthResponse" Auth.AuthResponse.ofJson "/core/v4/auth"
    (Auth.AuthRequest.toJson { username, clientEphemeral := exchange.clientEphemeral,
                               clientProof := exchange.clientProof, srpSession := info.srpSession })
  if authResp.serverProof ≠ exchange.expectedServerProof then
    throw .serverProofMismatch
  else if authResp.twoFactor.enabled ≠ 0 then
    throw .twoFactorRequired
  else
    return authResp

/-- the mailbox password made with the salt that is chosen: the first one that is not empty -/
def saltedKeyPassword (salts : List Auth.KeySalt) : Except AuthError String :=
  match salts.find? fun s => s.keySalt ≠ "" with
  | none => .error .noKeySalt
  | some s =>
    match Base64.decode s.keySalt with
    | none => .error (.base64 (K.base64Error s.keySalt))
    | some saltBytes =>
      (S.computeKeyPassword K password (Base64.encode saltBytes)).mapError .crypto

def login : LoginM Login.Credentials := do
  let authResp ← signIn S K username password
  let salts ← authGet K "KeySaltsResponse" Auth.KeySaltsResponse.ofJson "/core/v4/keys/salts"
    (bearerHeaders authResp)
  let keyPassword ← orAuthError id (saltedKeyPassword S K password salts.keySalts)
  return { username, uid := authResp.uid, userId := authResp.userId,
           accessToken := authResp.accessToken, refreshToken := authResp.refreshToken, keyPassword }

end

/-! ## a login that is served -/

section
variable {serve : Trace host → (c : HostCall) → c.Ans} {h : Trace host} {K : Crates} {α : Type}
  {type : String} {dec : Json → Option α} {a : α}

theorem parseEnvelope_ok {body : Bytes} (henv : K.Envelopes dec body a) :
    parseEnvelope K type dec body = .ok a := by
  obtain ⟨error, henv⟩ := henv
  unfold parseEnvelope
  rw [fromSlice_of_some henv]
  rfl

theorem perform_yields (c : HostCall) :
    Yields serve h (ExceptT.lift (Prog.perform (S := host) c) : LoginM c.Ans) [⟨c, serve h c⟩]
      (serve h c) := rfl

/-- a request that is answered with an envelope around `a` -/
theorem sendParsed_yields {req : JsonRequest} {resp : JsonResponse}
    (hans : serve h (.requestJson req) = .ok resp) (henv : K.Envelopes dec resp.body a) :
    Yields serve h (sendParsed K type dec req) [⟨.requestJson req, .ok resp⟩] a := by
  have hcall : Yields serve h (ExceptT.lift (Prog.perform (S := host) (.requestJson req)) :
      LoginM (HostCall.Ans (.requestJson req))) [⟨.requestJson req, .ok resp⟩] (.ok resp) := by
    rw [← hans]
    rfl
  have hparse : Yields serve (h ++ [⟨.requestJson req, .ok resp⟩] ++ [])
      (orAuthError id (parseEnvelope K type dec resp.body)) [] a := by
    rw [parseEnvelope_ok henv]
    exact Yields.pure a
  have hread : Yields serve (h ++ [⟨.requestJson req, .ok resp⟩])
      (Pure.pure resp >>= fun resp => orAuthError id (parseEnvelope K type dec resp.body)) [] a :=
    (Yields.pure resp).bind hparse
  exact hcall.bind hread

end

end ProtonDrive
