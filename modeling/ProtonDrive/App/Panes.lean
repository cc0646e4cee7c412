import ProtonDrive.App.Session
import ProtonDrive.Core.Listing
import ProtonDrive.Lib.Sorting
import Mathlib.Data.String.Basic

/-!
# The panes of the user interface (`pdtui`, `panes.rs`)

* `UiCall`                what the interface asks of what is around it: the file system, the clients,
                          the tasks it starts and the keyboard;
* `Pane`, `Panes`         the two panes, with the entries that are shown and the cursor;
* `listDir`, `loadLocal`  the local pane shows a directory;
* `cursorUp`, `descend`, `selectedRemoteNode`, …
                          what the actions do to the panes.
-/

set_option linter.unusedVariables false

namespace ProtonDrive
open Encoding Effects Sorting

/-! ## what is around the interface -/

/-- a session, as far as the interface can tell: which one it is, and the password of its keys -/
structure SessionRef where
  id : Nat
  keyPassword : String
  deriving DecidableEq

/-- a client is built from a session and the account that was set up with it -/
structure ClientRef where
  session : SessionRef
  account : Nat
  deriving DecidableEq

/-- `Credentials` of `auth.rs`, with the parts the session does not keep -/
structure LoginCredentials extends Credentials where
  username : String
  userId : String
  deriving DecidableEq

/-- how the task that logs in has ended -/
inductive AuthOutcome where
  | accepted (creds : LoginCredentials)
  | refused (msg : String)
  | panicked (msg : String)

inductive KeyCode where
  | char (c : Char)
  | f (n : Nat)
  | up
  | down
  | enter
  | tab
  | backTab
  | backspace
  | esc
  | other
  deriving DecidableEq

/-- of the modifiers only the control key is looked at -/
structure KeyEvent where
  code : KeyCode
  control : Bool

structure EntryMeta where
  isDir : Bool
  len : Nat

/-- an entry of a directory; its name has the replacement character where it is not Unicode -/
structure DirItem where
  fileName : String
  metadata : Except String EntryMeta

inductive UiCall where
  | storedSession
  | currentDir
  | readDir (path : String)
  | newTransport
  | resumeSession
  | loginSession (creds : LoginCredentials)
  | bootstrapAccount (session : SessionRef) (userId keyPassword : String)
  | myFilesRoot (client : ClientRef)
  | folderChildren (client : ClientRef) (folder : NodeUid)
  | spawnLogin (email password : String)
  | authFinished
  | spawnUpload (client : ClientRef) (localPath : String) (parent : NodeUid)
  | spawnDownload (client : ClientRef) (node : NodeUid) (name destDir : String)
  | pollKey

/-- the children of a folder come as the items of a stream -/
abbrev ChildItems := List (Except Error MaybeNode)

abbrev DirItems := Except String (List (Except String DirItem))

def ui : Sig where
  Call := UiCall
  Ans
    | .storedSession => Bool
    | .currentDir => Option String
    | .readDir _ => DirItems
    | .newTransport => Except String Unit
    | .resumeSession => Except String SessionRef
    | .loginSession _ => Except String SessionRef
    | .bootstrapAccount _ _ _ => Except String Nat
    | .myFilesRoot _ => Except Error MaybeNode
    | .folderChildren _ _ => ChildItems
    | .spawnLogin _ _ => Unit
    | .authFinished => Option AuthOutcome
    | .spawnUpload _ _ _ => Unit
    | .spawnDownload _ _ _ _ => Unit
    | .pollKey => Option KeyEvent

abbrev Ui (α : Type) := Prog ui α

def uiCall (c : UiCall) : Ui (ui.Ans c) := Prog.perform (S := ui) c

/-! ## paths -/

/-- the parts of a path, less its root and the parts that do not count -/
def pathParts (path : String) : List String :=
  ((path.toList.splitOn '/').map String.ofList).filter fun c => c ≠ "" ∧ c ≠ "."

def hasRoot (path : String) : Bool := path.toList.head? = some '/'

/-- `Path::parent` -/
def pathParent (path : String) : Option String :=
  match pathParts path with
  | [] => none
  | part :: rest =>
    some ((if hasRoot path then "/" else "") ++ "/".intercalate (part :: rest).dropLast)

/-- `Path::join`: a name that is an absolute path replaces the directory -/
def pathJoin (dir name : String) : String :=
  if (asBytes name).head? = some 47 then name
  else if (asBytes dir).getLast?.all (· = 47) then dir ++ name
  else dir ++ "/" ++ name

/-! ## entries -/

inductive Focus where
  | onLocal
  | onRemote
  deriving DecidableEq

structure PaneEntry where
  name : String
  isDir : Bool
  sizeBytes : Option Nat
  selected : Bool
  /-- the node of an entry of the remote pane -/
  nodeUid : Option NodeUid
  deriving DecidableEq

def byName (a b : PaneEntry) : Bool := a.name ≤ b.name

/-- directories before files, and then by name -/
def dirsFirst : PaneEntry → PaneEntry → Bool := firstBy (fun e => e.isDir) byName

/-- the way up before all others -/
def parentFirst : PaneEntry → PaneEntry → Bool := firstBy (fun e => e.name = "..") dirsFirst

def parentEntry : PaneEntry :=
  { name := "..", isDir := true, sizeBytes := none, selected := false, nodeUid := none }

def localEntry (name : String) (entry : EntryMeta) : PaneEntry :=
  { name, isDir := entry.isDir, sizeBytes := if entry.isDir then none else some entry.len,
    selected := false, nodeUid := none }

/-- the entries of a directory, less those whose names begin with a dot -/
def visibleEntries : List (Except String DirItem) → Except String (List PaneEntry)
  | [] => .ok []
  | item :: rest => do
    let item ← item
    let entry ← item.metadata
    let out ← visibleEntries rest
    return if item.fileName.toList.head? = some '.' then out
      else localEntry item.fileName entry :: out

/-- `list_dir`, given what the file system says of the directory -/
def listDir (path : String) (answer : DirItems) : Except String (List PaneEntry) := do
  let items ← answer
  let out ← visibleEntries items
  return if (pathParent path).isSome then parentEntry :: out else out

/-! ## panes -/

structure Pane where
  cwd : String
  entries : List PaneEntry
  cursor : Nat
  error : Option String
  /-- in the remote pane the folder that is shown -/
  remoteCwdUid : Option NodeUid
  deriving DecidableEq

structure Panes where
  localPane : Pane
  remotePane : Pane

namespace Pane

/-- what a listing of the directory makes of the pane -/
def loaded (p : Pane) (answer : DirItems) : Pane :=
  match listDir p.cwd answer with
  | .ok entries =>
    { p with
      error := none, entries := sortBy parentFirst entries,
      cursor := if p.cursor ≥ (sortBy parentFirst entries).length then
        (sortBy parentFirst entries).length - 1 else p.cursor }
  | .error e => { p with entries := [], error := some (p.cwd ++ ": " ++ e) }

def loadLocal (p : Pane) : Ui Pane := do
  let answer : DirItems ← uiCall (.readDir p.cwd)
  return p.loaded answer

def cursorUp (p : Pane) : Pane := { p with cursor := p.cursor - 1 }

def cursorDown (p : Pane) : Pane :=
  if p.cursor + 1 < p.entries.length then { p with cursor := p.cursor + 1 } else p

def toggleSelect (p : Pane) : Pane :=
  { p with entries := p.entries.modify p.cursor fun e => { e with selected := !e.selected } }

def under (p : Pane) : Option PaneEntry := p.entries[p.cursor]?

end Pane

namespace Panes

/-- the panes at the start -/
def new : Ui Panes := do
  let dir : Option String ← uiCall .currentDir
  let cwd := dir.getD "/"
  let localPane ← Pane.loadLocal { cwd, entries := [], cursor := 0, error := none, remoteCwdUid := none }
  return { localPane,
           remotePane := { cwd := "/", entries := [], cursor := 0,
                           error := some "Not signed in — press Enter or F4 to login",
                           remoteCwdUid := none } }

/-- one of the panes is changed -/
def atMut (panes : Panes) (f : Pane → Pane) : Focus → Panes
  | .onLocal => { panes with localPane := f panes.localPane }
  | .onRemote => { panes with remotePane := f panes.remotePane }

def cursorUp (panes : Panes) (focus : Focus) : Panes := panes.atMut Pane.cursorUp focus

def cursorDown (panes : Panes) (focus : Focus) : Panes := panes.atMut Pane.cursorDown focus

def toggleSelect (panes : Panes) (focus : Focus) : Panes := panes.atMut Pane.toggleSelect focus

/-- the local pane shows another directory -/
def goTo (panes : Panes) (cwd : String) : Ui Panes := do
  let localPane ← Pane.loadLocal { panes.localPane with cwd, cursor := 0 }
  return { panes with localPane }

def descendTarget (cwd : String) (entry : PaneEntry) : String :=
  if entry.name = ".." then (pathParent cwd).getD cwd else pathJoin cwd entry.name

def descend (panes : Panes) : Focus → Ui Panes
  | .onRemote => pure panes
  | .onLocal =>
    match panes.localPane.under with
    | none => pure panes
    | some entry =>
      if entry.isDir then panes.goTo (descendTarget panes.localPane.cwd entry) else pure panes

def ascend (panes : Panes) : Focus → Ui Panes
  | .onRemote => pure panes
  | .onLocal =>
    match pathParent panes.localPane.cwd with
    | none => pure panes
    | some parent => panes.goTo parent

def refresh (panes : Panes) : Focus → Ui Panes
  | .onRemote => pure panes
  | .onLocal => do
    let localPane ← panes.localPane.loadLocal
    return { panes with localPane }

/-- the path of the file under the cursor of the local pane -/
def selectedLocalPath (panes : Panes) : Option String :=
  match panes.localPane.under with
  | none => none
  | some entry => if entry.isDir then none else some (pathJoin panes.localPane.cwd entry.name)

/-- the node and the name of the file under the cursor of the remote pane -/
def selectedRemoteNode (panes : Panes) : Option (NodeUid × String) :=
  if panes.remotePane.error.isSome then none
  else
    match panes.remotePane.under with
    | none => none
    | some entry => if entry.isDir then none else entry.nodeUid.map fun uid => (uid, entry.name)

def remoteFolderUid (panes : Panes) : Option NodeUid := panes.remotePane.remoteCwdUid

end Panes

end ProtonDrive
