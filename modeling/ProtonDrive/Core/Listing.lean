import ProtonDrive.Core.Events

/-!
# Nodes, and the listing side of the client (`nodes.rs`, `client.rs`)

* `linkToMaybeNode`       the node of a link;
* `decryptNodeName`       the name of a node, encrypted to the key of its parent;
* `myFilesRoot`, `node`, `fetchFolderChildren`
                          the root of My Files, a single node, and the children of a folder;
* `iterFolderChildren`    the children of a folder as a stream;
* `subscribeDriveEvents`  the subscription to the events of My Files, with the task it starts.
-/

set_option linter.unusedVariables false

namespace ProtonDrive
open Encoding Effects Api

/-! ## nodes -/

inductive NodeType where
  | file
  | folder
  | album
  deriving DecidableEq

inductive RevisionState where
  | draft
  | active
  | superseded
  deriving DecidableEq

inductive Author where
  | user (email : String) (displayName : Option String)
  | anonymous
  | unverified (email reason : String)
  deriving DecidableEq

/-- instants are seconds after the epoch -/
structure Revision where
  uid : String
  state : RevisionState
  sizeBytes : Option Nat
  createdAt : Nat
  author : Author
  deriving DecidableEq

structure Node where
  uid : NodeUid
  parent : Option NodeUid
  name : String
  nodeType : NodeType
  mediaType : Option String
  sizeBytes : Option Nat
  createdAt : Nat
  modifiedAt : Nat
  trashed : Bool
  author : Author
  activeRevision : Option Revision
  deriving DecidableEq

inductive MaybeNode where
  | node (n : Node)
  | degraded (uid : NodeUid) (reason : String)
  | missing (uid : NodeUid)
  deriving DecidableEq

def MaybeNode.uid : MaybeNode → NodeUid
  | .node n => n.uid
  | .degraded uid _ => uid
  | .missing uid => uid

def activeRevisionOf (rev : Nodes.Revision) : Revision :=
  { uid := rev.id, state := .active, sizeBytes := some rev.size,
    createdAt := (max rev.createdTime 0).toNat, author := .anonymous }

def linkToMaybeNode (link : Nodes.Link) (volumeId : String) (decryptedName : Option String) :
    MaybeNode :=
  let nodeType : NodeType :=
    match link.type with
    | 1 => .folder
    | 2 => .file
    | _ => .album
  .node
    { uid := { volumeId, nodeId := link.linkId },
      parent := link.parentLinkId.map fun pid => { volumeId, nodeId := pid },
      name := decryptedName.getD ("<encrypted-" ++ link.linkId ++ ">"),
      nodeType,
      mediaType := link.mimeType.filter fun s => s ≠ "",
      sizeBytes := if link.size = 0 ∧ nodeType = .folder then none else some link.size,
      createdAt := (max link.createdTime 0).toNat,
      modifiedAt := (max link.modifyTime 0).toNat,
      trashed := link.trashed.isSome,
      author := .anonymous,
      activeRevision :=
        (link.fileProperties.bind fun fp => fp.activeRevision).map activeRevisionOf }

theorem linkToMaybeNode_uid (link : Nodes.Link) (volumeId : String) (name : Option String) :
    (linkToMaybeNode link volumeId name).uid = { volumeId, nodeId := link.linkId } := rfl

structure FolderChildrenFilter where
  includeTrashed : Bool := false
  onlyType : Option NodeType := none

/-! ## the client -/

def decryptNodeName (K : Crates) (P : OpenPgpCrypto) (armoredName : String)
    (parentKey : PrivateKey) : Except Error String := do
  let nameBytes := asBytes armoredName
  let sessionKey ← (P.decryptSessionKey nameBytes [parentKey]).mapError fun e =>
    .decryption ("node name session key: " ++ e.display)
  let (plaintext, _) ← (P.decryptAndVerify nameBytes sessionKey []).mapError fun e =>
    .decryption ("node name plaintext: " ++ e.display)
  match fromUtf8 plaintext with
  | some name => return name
  | none => throw (.internal ("node name utf-8: " ++ K.utf8Error plaintext))

def myFilesPath : String := "/drive/v2/shares/my-files"

def linkPath (uid : NodeUid) : String :=
  "/drive/shares/" ++ uid.volumeId ++ "/links/" ++ uid.nodeId

def childrenPath (uid : NodeUid) : String :=
  "/drive/shares/" ++ uid.volumeId ++ "/folders/" ++ uid.nodeId ++ "/children"

section
variable (K : Crates) (client : ProtonDriveClient)

def apiGetWithQuery {α : Type} (type : String) (dec : Json → Option α) (path : String)
    (query : List (String × String)) : Sdk α := do
  let resp ← requestJson { method := .get, path, query, headers := [], body := none }
  let env ← ofExcept (fun e => .internal ("JSON parse: " ++ e))
    (K.fromSlice ("ResponseEnvelope<" ++ type ++ ">") (ResponseEnvelope.ofJson dec) resp.body)
  require (env.code = CODE_OK) (mapApiError env.code env.error)
  return env.inner

/-- the id of the share stands where a uid has the id of a volume -/
def myFilesRoot : Sdk MaybeNode := do
  let resp ← apiGet K "GetMyFilesResponse" Shares.GetMyFilesResponse.ofJson myFilesPath
  return linkToMaybeNode resp.link.intoLink resp.share.shareId (some "root")

def node (uid : NodeUid) : Sdk MaybeNode := do
  let resp ← apiGet K "GetLinkResponse" Nodes.GetLinkResponse.ofJson (linkPath uid)
  return linkToMaybeNode resp.link uid.volumeId none

def resolveFolderNodeKey (parent : NodeUid) : Sdk PrivateKey := do
  let sharePriv ← resolveShareKey K client parent.volumeId
  resolveNodeKeyViaChain K client parent.volumeId parent.nodeId sharePriv

/-- a child; its name is left encrypted where it cannot be decrypted -/
def childNode (parent : NodeUid) (parentKey : Option PrivateKey) (link : Nodes.Link) : MaybeNode :=
  linkToMaybeNode link parent.volumeId
    (parentKey.bind fun key => (decryptNodeName K client.openpgp link.name key).toOption)

/-- the number of the next page, a `u32` -/
def nextPage (page : Nat) : Nat := (page + 1) % 2 ^ 32

/-- the pages from `page` on; `fuel` bounds their number, the source has no such bound -/
def childrenPages (parent : NodeUid) (pageSize : Nat) (parentKey : Option PrivateKey) :
    (fuel : Nat) → (page : Nat) → Sdk (List MaybeNode)
  | 0, _ => (Prog.cut : Prog host (Except Fault (List MaybeNode)))
  | fuel + 1, page => do
    let resp ← apiGetWithQuery K "GetChildrenResponse" Nodes.GetChildrenResponse.ofJson
      (childrenPath parent) [("Page", toString page), ("PageSize", toString pageSize)]
    let nodes := resp.links.map (childNode K client parent parentKey)
    if resp.more = 0 then return nodes
    else do
      let rest ← childrenPages parent pageSize parentKey fuel (nextPage page)
      return nodes ++ rest

def fetchFolderChildren (fuel : Nat) (parent : NodeUid) (pageSize : Nat) : Sdk (List MaybeNode) := do
  let parentKey ← attempt (resolveFolderNodeKey K client parent)
  childrenPages K client parent pageSize parentKey.toOption fuel 0

/-- the items of the stream.  All pages are collected first; the filter is not looked at -/
def iterFolderChildren (fuel : Nat) (parent : NodeUid) (_filter : FolderChildrenFilter) :
    Sdk (List (Except Error MaybeNode)) := do
  let result ← attempt (fetchFolderChildren K client fuel parent 150)
  match result with
  | .ok nodes => return nodes.map .ok
  | .error e => return [.error e]

/-- the calls of the subscription, and then those of the task it starts -/
def subscribeDriveEvents (fuel : Nat) : Sdk Unit := do
  let myFiles ← apiGet K "GetMyFilesResponse" Shares.GetMyFilesResponse.ofJson myFilesPath
  let volumeId ← resolveShareVolume K myFiles.share.shareId
  spawnVolumeEventLoop K volumeId fuel

end

end ProtonDrive
