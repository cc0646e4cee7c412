import ProtonDrive.App.Panes
import ProtonDrive.App.Transfer

/-!
# The user interface (`pdtui`, `app.rs` and `keymap.rs`)

* `App`                   the state of the interface;
* `refreshRemote`         the remote pane is listed again;
* `buildClientFromLogin`, `buildClientFromKeyring`
                          the steps that lead from a login, or from a stored session, to a client;
* `checkAuthResult`, `apply`, `handleLoginKey`
                          a login that is over, the actions, and the keys of the login form;
* `tick`                  one turn of the loop.
-/

set_option linter.unusedVariables false

namespace ProtonDrive
open Encoding Effects Sorting

/-! ## keys -/

inductive Action where
  | none
  | quit
  | login
  | togglePane
  | up
  | down
  | enter
  | parent
  | refresh
  | upload
  | download
  | help
  | toggleSelect
  deriving DecidableEq

def dispatch (key : KeyEvent) : Action :=
  match key.code with
  | .char 'q' => .quit
  | .char 'c' => if key.control then .quit else .none
  | .f 4 => .login
  | .char 'L' => .login
  | .tab => .togglePane
  | .backTab => .togglePane
  | .up => .up
  | .char 'k' => .up
  | .down => .down
  | .char 'j' => .down
  | .enter => .enter
  | .char 'l' => .enter
  | .backspace => .parent
  | .char 'h' => .parent
  | .f 5 => .refresh
  | .char 'r' => .refresh
  | .f 3 => .upload
  | .char 'u' => .upload
  | .f 2 => .download
  | .char 'd' => .download
  | .char '?' => .help
  | .char ' ' => .toggleSelect
  | _ => .none

/-! ## the state -/

inductive LoginField where
  | email
  | password
  deriving DecidableEq

structure LoginForm where
  email : String := ""
  password : String := ""
  field : LoginField := .email
  error : Option String := none
  deriving DecidableEq

inductive Screen where
  | main
  | login (form : LoginForm)
  | authenticating
  deriving DecidableEq

structure App where
  panes : Panes
  focus : Focus
  shouldQuit : Bool
  screen : Screen
  status : Option String
  transfers : List Transfer
  client : Option ClientRef
  session : Option SessionRef

namespace App

/-- the status line is set -/
def saying (app : App) (status : String) : App := { app with status := some status }

/-- the remote pane shows an error; all else of it stays -/
def remoteFailed (app : App) (error : String) : App :=
  { app with panes := { app.panes with remotePane := { app.panes.remotePane with error := some error } } }

/-- the folder that is to be listed, and the cursor in its first row -/
def remoteAt (app : App) (uid : Option NodeUid) : App :=
  { app with panes := { app.panes with
      remotePane := { app.panes.remotePane with remoteCwdUid := uid, cursor := 0 } } }

/-- the remote pane shows a listing -/
def remoteListed (app : App) (uid : NodeUid) (entries : List PaneEntry) : App :=
  { app with panes := { app.panes with
      remotePane := { app.panes.remotePane with
        entries, cursor := 0, remoteCwdUid := some uid, error := none } } }

end App

/-! ## the listing of the remote pane -/

/-- the entry of a node; those that are in the trash or missing have none -/
def remoteEntry : MaybeNode → Option PaneEntry
  | .node n =>
    if n.trashed then none
    else some { name := n.name, isDir := n.nodeType = .folder ∨ n.nodeType = .album,
                sizeBytes := n.sizeBytes, selected := false, nodeUid := some n.uid }
  | .degraded uid reason =>
    some { name := "<degraded " ++ uid.nodeId ++ ": " ++ reason ++ ">", isDir := false,
           sizeBytes := none, selected := false, nodeUid := some uid }
  | .missing _ => none

/-- the entries of the children, up to the first item that is an error -/
def childEntries : ChildItems → Except Error (List PaneEntry)
  | [] => .ok []
  | .error e :: _ => .error e
  | .ok node :: rest => do
    let entries ← childEntries rest
    return (remoteEntry node).toList ++ entries

/-- what a listing makes of the remote pane -/
def App.remoteFilled (app : App) (uid : NodeUid) (items : ChildItems) : App :=
  match childEntries items with
  | .error e => app.remoteFailed ("list: " ++ e.display)
  | .ok entries => app.remoteListed uid (sortBy dirsFirst entries)

def listFolder (app : App) (client : ClientRef) (uid : NodeUid) : Ui App := do
  let items : ChildItems ← uiCall (.folderChildren client uid)
  return app.remoteFilled uid items

def listRoot (app : App) (client : ClientRef) : Ui App := do
  let root : Except Error MaybeNode ← uiCall (.myFilesRoot client)
  match root with
  | .error e => pure (app.remoteFailed ("my-files root: " ++ e.display))
  | .ok node => listFolder app client node.uid

def refreshRemote (app : App) : Ui App :=
  match app.client with
  | none => pure app
  | some client =>
    match app.panes.remotePane.remoteCwdUid with
    | none => listRoot app client
    | some uid => listFolder app client uid

/-! ## clients -/

def buildClientWithSession (app : App) (session : SessionRef) (userId keyPassword : String) :
    Ui (App × Except String Unit) := do
  let account : Except String Nat ← uiCall (.bootstrapAccount session userId keyPassword)
  match account with
  | .error e => pure (app, .error ("account bootstrap: " ++ e))
  | .ok account => do
    let app ← refreshRemote
      { app with client := some { session, account }, session := some session }
    return (app, .ok ())

def buildClientFromLogin (app : App) (creds : LoginCredentials) : Ui (App × Except String Unit) := do
  let transport : Except String Unit ← uiCall .newTransport
  match transport with
  | .error e => pure (app, .error ("http client: " ++ e))
  | .ok () => do
    let session : Except String SessionRef ← uiCall (.loginSession creds)
    match session with
    | .error e => pure (app, .error ("session manager: " ++ e))
    | .ok session => buildClientWithSession app session creds.userId creds.keyPassword

def buildClientFromKeyring (app : App) : Ui (App × Except String Unit) := do
  let transport : Except String Unit ← uiCall .newTransport
  match transport with
  | .error e => pure (app, .error ("http client: " ++ e))
  | .ok () => do
    let session : Except String SessionRef ← uiCall .resumeSession
    match session with
    | .error e => pure (app, .error ("session resume: " ++ e))
    | .ok session => buildClientWithSession app session "" session.keyPassword

/-! ## the start -/

def App.new : Ui App := do
  let stored : Bool ← uiCall .storedSession
  let panes ← Panes.new
  return { panes, focus := .onLocal, shouldQuit := false,
           screen := if stored then .main else .login {}, status := none, transfers := [],
           client := none, session := none }

/-- a stored session that cannot be resumed leaves an error in the remote pane -/
def App.resumed : App × Except String Unit → App
  | (app, .ok ()) => app
  | (app, .error _) => app.remoteFailed "session expired — press Enter or F4 to log in"

/-- the part of `run` before its loop -/
def App.resume (app : App) : Ui App :=
  if app.screen = .main then do
    let built ← buildClientFromKeyring app
    return App.resumed built
  else pure app

def App.start : Ui App := do
  let app ← App.new
  app.resume

/-! ## logins -/

/-- a client that could not be built after a login -/
def App.loggedIn (username : String) : App × Except String Unit → App
  | (app, .ok ()) => app
  | (app, .error e) =>
    (app.remoteFailed ("listing failed: " ++ e)).saying
      ("logged in as " ++ username ++ " (listing failed)")

def App.toLogin (app : App) (error : Option String) : App :=
  { app with screen := .login { error } }

def acceptLogin (app : App) (creds : LoginCredentials) : Ui App := do
  let built ← buildClientFromLogin
    { app with status := some ("logged in as " ++ creds.username), screen := .main } creds
  return App.loggedIn creds.username built

def checkAuthResult (app : App) : Ui App :=
  match app.screen with
  | .authenticating => do
    let outcome : Option AuthOutcome ← uiCall .authFinished
    match outcome with
    | none => pure app
    | some (.accepted creds) => acceptLogin app creds
    | some (.refused msg) => pure (app.toLogin (some msg))
    | some (.panicked msg) => pure (app.toLogin (some ("auth task panicked: " ++ msg)))
  | _ => pure app

def startAuth (app : App) (form : LoginForm) : Ui App := do
  let _ : Unit ← uiCall (.spawnLogin form.email form.password)
  return { app with screen := .authenticating }

/-- `String::pop` -/
def popChar (s : String) : String := String.ofList s.toList.dropLast

def LoginForm.toggled (form : LoginForm) : LoginForm :=
  { form with field := match form.field with
      | .email => .password
      | .password => .email }

def LoginForm.edit (form : LoginForm) (f : String → String) : LoginForm :=
  match form.field with
  | .email => { form with email := f form.email }
  | .password => { form with password := f form.password }

def handleLoginKey (app : App) (form : LoginForm) (key : KeyEvent) : Ui App :=
  match key.code with
  | .esc => pure { app with screen := .main }
  | .tab => pure { app with screen := .login form.toggled }
  | .backTab => pure { app with screen := .login form.toggled }
  | .enter =>
    if form.field = .email then pure { app with screen := .login { form with field := .password } }
    else startAuth app form
  | .backspace => pure { app with screen := .login (form.edit popChar) }
  | .char c =>
    if key.control then pure { app with shouldQuit := app.shouldQuit || c = 'c' }
    else pure { app with screen := .login (form.edit fun s => s.push c) }
  | _ => pure app

/-! ## actions -/

def notAuthenticated : String := "not authenticated — press F4 to log in"

def descendRemote (app : App) : Ui App :=
  match app.panes.remotePane.under with
  | none => pure app
  | some entry =>
    if entry.isDir then
      match entry.nodeUid with
      | none => pure app
      | some uid => refreshRemote (app.remoteAt (some uid))
    else pure app

/-- the parents of folders are not kept: the way up leads to the root -/
def ascendRemote (app : App) : Ui App := refreshRemote (app.remoteAt none)

def spawnTransfer (app : App) (call : UiCall) (status : String) : Ui App := do
  let _ ← uiCall call
  return { app with status := some status, transfers := app.transfers ++ [Transfer.spawned] }

def startUpload (app : App) : Ui App :=
  match app.client with
  | none => pure (app.saying notAuthenticated)
  | some client =>
    match app.panes.selectedLocalPath with
    | none => pure (app.saying "select a file in the LOCAL pane first")
    | some localPath =>
      match app.panes.remoteFolderUid with
      | none => pure (app.saying "remote folder not loaded — authenticate and navigate first")
      | some parent => spawnTransfer app (.spawnUpload client localPath parent)
          ("uploading " ++ (fileNameOf localPath).getD localPath ++ "...")

def startDownload (app : App) : Ui App :=
  match app.client with
  | none => pure (app.saying notAuthenticated)
  | some client =>
    match app.panes.selectedRemoteNode with
    | none => pure (app.saying "select a file in the REMOTE pane first")
    | some (uid, name) => spawnTransfer app
        (.spawnDownload client uid name app.panes.localPane.cwd) ("downloading " ++ name ++ "...")

def Focus.other : Focus → Focus
  | .onLocal => .onRemote
  | .onRemote => .onLocal

/-- the panes change and nothing else does -/
def App.onPanes (app : App) (p : Ui Panes) : Ui App := do
  let panes ← p
  return { app with panes }

/-- a remote pane that comes into focus is listed if nothing has been listed yet -/
def listIfEmpty (app : App) : Ui App :=
  if app.focus = .onRemote ∧ app.client.isSome ∧ app.panes.remotePane.entries = [] then
    refreshRemote app
  else pure app

def togglePane (app : App) : Ui App := listIfEmpty { app with focus := app.focus.other }

def enter (app : App) : Ui App :=
  match app.focus with
  | .onRemote => if app.client.isNone then pure (app.toLogin none) else descendRemote app
  | .onLocal => app.onPanes (app.panes.descend .onLocal)

def toParent (app : App) : Ui App :=
  match app.focus with
  | .onRemote => ascendRemote app
  | .onLocal => app.onPanes (app.panes.ascend .onLocal)

def refreshPane (app : App) : Ui App :=
  if app.focus = .onRemote ∧ app.client.isSome then refreshRemote app
  else app.onPanes (app.panes.refresh app.focus)

def apply (app : App) : Action → Ui App
  | .quit => pure { app with shouldQuit := true }
  | .login => pure (app.toLogin none)
  | .togglePane => togglePane app
  | .up => pure { app with panes := app.panes.cursorUp app.focus }
  | .down => pure { app with panes := app.panes.cursorDown app.focus }
  | .enter => enter app
  | .parent => toParent app
  | .refresh => refreshPane app
  | .upload => startUpload app
  | .download => startDownload app
  | .help => pure app
  | .none => pure app
  | .toggleSelect => pure { app with panes := app.panes.toggleSelect app.focus }

/-! ## the loop -/

/-- finished transfers are dropped once there are more than eight -/
def App.pollTransfers (app : App) : App :=
  let transfers := app.transfers.map fun t => t.poll.1
  { app with transfers :=
      if transfers.length > 8 then transfers.filter fun t => !t.state.isTerminal else transfers }

def handleKey (app : App) (key : KeyEvent) : Ui App :=
  match app.screen with
  | .login form => handleLoginKey app form key
  | .authenticating => pure (if key.code = .esc then app.toLogin none else app)
  | .main => apply { app with status := none } (dispatch key)

def readKey (app : App) : Ui App := do
  let key : Option KeyEvent ← uiCall .pollKey
  match key with
  | none => pure app
  | some key => handleKey app key

def tick (app : App) : Ui App := do
  let app ← checkAuthResult app
  readKey app.pollTransfers

end ProtonDrive
