import ProtonDrive.App.Auth
import ProtonDrive.App.Session
import ProtonDrive.Lib.Strings

/-!
# The commands that begin and end a session (`pdtui`, `main.rs`, `auth.rs`)

* `CliCall`              what a command asks of its surroundings: its client, the stores and the clocks of a
                         session, the terminal;
* `loginInteractive`     prompts for the credentials, logs in and persists the session;
* `LegacySession.load`   reads `session.json` the way the other commands do;
* `runLogin`, `runLogout`
                         the commands.

`build` puts the state of a session behind its lock, and spawns the refresh loop of the session.  The loop is
no part of a command, but a party of its own that runs beside it until the process ends.
-/

set_option linter.unusedVariables false

namespace ProtonDrive
open Effects Json

/-! ## the surroundings -/

inductive CliCall where
  | host (c : HostCall)
  | session (c : SessionCall)
  | newClient (baseUrl appVersion : String)
  | build (st : SessionState)
  | print (text : String)
  | println (text : String)
  | eprintln (text : String)
  | flushStdout
  | readLine
  | promptPassword (label : String)

def CliCall.Ans : CliCall → Type
  | .host c => c.Ans
  | .session c => c.Ans
  | .newClient _ _ => Except Error Unit
  | .build _ => Unit
  | .print _ => Unit
  | .println _ => Unit
  | .eprintln _ => Unit
  | .flushStdout => Except IoError Unit
  | .readLine => Except IoError String
  | .promptPassword _ => Except IoError String

abbrev cliHost : Sig := { Call := CliCall, Ans := CliCall.Ans }

abbrev Command (ε α : Type) := ExceptT ε (Prog cliHost) α

section
variable {ε ε' α : Type}

def tell (c : CliCall) : Command ε c.Ans := ExceptT.lift (Prog.perform (S := cliHost) c)

def orRaise (f : ε' → ε) : Except ε' α → Command ε α
  | .ok a => pure a
  | .error e => throw (f e)

def onHost (f : AuthError → ε) (p : LoginM α) : Command ε α :=
  ExceptT.lift (p.run.handle fun c => Prog.perform (S := cliHost) (.host c)) >>= orRaise f

def onSession (f : ε' → ε) (p : ExceptT ε' (Prog sessionHost) α) : Command ε α :=
  ExceptT.lift (p.run.handle fun c => Prog.perform (S := cliHost) (.session c)) >>= orRaise f

end

/-! ## the login -/

/-- the errors of `auth.rs`, those of the session and of the terminal among them -/
inductive LoginError where
  | auth (e : AuthError)
  | session (e : SessionManagerError)
  | io (e : IoError)
  deriving DecidableEq

def LoginError.display : LoginError → String
  | .auth e => e.display
  | .session e => "session: " ++ e.display
  | .io e => "io: " ++ e.display

def prompt (label : String) : Command LoginError String := do
  tell (.print label)
  let flushed ← tell .flushStdout
  orRaise .io flushed
  let line ← tell .readLine
  let buf ← orRaise .io line
  return String.ofList (Strings.trim buf.toList)

def sessionCredentials (creds : Login.Credentials) : Credentials where
  uid := creds.uid
  accessToken := creds.accessToken
  refreshToken := creds.refreshToken
  keyPassword := creds.keyPassword

section
variable (S : SrpModule) (K : Crates)

def loginInteractive (baseUrl appVersion : String) : Command LoginError Unit := do
  let username ← prompt "Email: "
  let answer ← tell (.promptPassword "Password: ")
  let password ← orRaise .io answer
  let client ← tell (.newClient baseUrl appVersion)
  orRaise (fun e => .auth (.http e)) client
  tell (.eprintln "Authenticating…")
  let creds ← onHost .auth (login S K username password)
  let st ← onSession .session (fromLogin (sessionCredentials creds) (30 * 60))
  tell (.build st)
  tell (.eprintln "✓ session persisted (keyring + session.json)")
  tell (.eprintln ("✓ logged in as " ++ creds.username))

inductive ExitCode where
  | success
  | failure
  deriving DecidableEq

def runLogin : Prog cliHost ExitCode := do
  let result ← (loginInteractive S K defaultBaseUrl defaultAppVersion).run
  match result with
  | .ok _ => return .success
  | .error e => do
    Prog.perform (S := cliHost) (.eprintln ("login failed: " ++ e.display))
    return .failure

end

/-! ## the logout -/

/-- `Session`: what the commands before `SessionManager` keep of `session.json` -/
structure LegacySession where
  accessToken : String
  uid : String
  appVersion : String
  baseUrl : String
  deriving DecidableEq

def LegacySession.ofJson : Json → Option LegacySession :=
  record ["AccessToken", "UID", "app_version", "base_url"] 2 fun j => do
    let accessToken ← j.required asStr "AccessToken"
    let uid ← j.required asStr "UID"
    let appVersion ← j.defaulted asStr defaultAppVersion "app_version"
    let baseUrl ← j.defaulted asStr defaultBaseUrl "base_url"
    return { accessToken, uid, appVersion, baseUrl }

inductive SessionError where
  | notFound
  | io (e : IoError)
  | parse (type : String)
  deriving DecidableEq

abbrev Legacy (α : Type) := ExceptT SessionError (Prog sessionHost) α

def LegacySession.parsed (text : Text) : Legacy LegacySession :=
  match text.bind LegacySession.ofJson with
  | some s => return s
  | none => throw (.parse "Session")

def LegacySession.load : Legacy LegacySession := do
  let there : Bool ← ExceptT.lift (Prog.perform (S := sessionHost) (.fileExists .session))
  if there then do
    let read : Except IoError Text ←
      ExceptT.lift (Prog.perform (S := sessionHost) (.readFile .session))
    match read with
    | .error e => throw (.io e)
    | .ok text => LegacySession.parsed text
  else throw .notFound

/-- `from_keyring` and the `build` at its end -/
def resume : Command SessionManagerError SessionState := do
  let st ← onSession id fromKeyring
  tell (.build st)
  return st

def runLogout : Prog cliHost ExitCode := do
  let loaded ← (onSession id LegacySession.load).run
  match loaded with
  | .error _ => do
    Prog.perform (S := cliHost) (.println "no active session — nothing to log out")
    return .success
  | .ok session => do
    let client : Except Error Unit ←
      Prog.perform (S := cliHost) (.newClient session.baseUrl session.appVersion)
    match client with
    | .error e => do
      Prog.perform (S := cliHost) (.eprintln ("http client init: " ++ e.display))
      return .failure
    | .ok _ => do
      let resumed ← resume.run
      match resumed with
      | .error e => do
        Prog.perform (S := cliHost) (.eprintln ("could not load session to log out: " ++ e.display))
        return .failure
      | .ok _ => do
        let result ← (onSession id logout).run
        match result with
        | .ok _ => do
          Prog.perform (S := cliHost) (.println
            "logged out: keyring entry deleted, session.json truncated")
          return .success
        | .error e => do
          Prog.perform (S := cliHost) (.eprintln ("logout failed: " ++ e.display))
          return .failure

end ProtonDrive
