import ProtonDrive.Core.Download
import ProtonDrive.Core.Upload

/-!
# The client (`client.rs`)

* `resolveShareKey`           the key of a share, unlocked with the address key;
* `resolveNodeKeyViaChain`    the key of a node: the links up to the root of the share, and then
                              their keys from the root down, each unlocked with the one above it;
* `fileUploader`, `fileDownloader`
                              the context of an upload and of a download.
-/

set_option linter.unusedVariables false

namespace ProtonDrive
open Encoding Effects Api

structure ProtonDriveClient where
  openpgp : OpenPgpCrypto
  account : ProtonDriveAccount

def MAX_CHAIN_DEPTH : Nat := 64

section
variable (K : Crates) (client : ProtonDriveClient)

def apiGet {α : Type} (type : String) (dec : Json → Option α) (path : String) : Sdk α :=
  getJson K "JSON parse" type dec path

def getLink (shareId linkId : String) : Sdk Nodes.Link := do
  let resp ← apiGet K "GetLinkResponse" Nodes.GetLinkResponse.ofJson
    ("/drive/shares/" ++ shareId ++ "/links/" ++ linkId)
  return resp.link

/-- `download.rs`: the volume of a share -/
def resolveShareVolume (shareId : String) : Sdk String := do
  let resp ← getJsonOr (fun code error => .notFound (error.getD ("API error " ++ toString code))) K
    "share JSON" "GetShareResponse" Shares.GetShareResponse.ofJson ("/drive/shares/" ++ shareId)
  return resp.share.volumeId

/-- `download.rs`: the active revision of a link, and who signed it -/
def resolveActiveRevision (shareId linkId : String) : Sdk (String × Option String) := do
  let resp ← getJsonOr (fun code error => .notFound (error.getD ("API error " ++ toString code))) K
    "link JSON" "GetLinkResponse" Nodes.GetLinkResponse.ofJson
    ("/drive/shares/" ++ shareId ++ "/links/" ++ linkId)
  let activeRevision := resp.link.fileProperties.bind fun fp => fp.activeRevision
  let revision ← ofExcept id
    (activeRevision.elim (.error (.notFound "no active revision on link")) .ok)
  return (revision.id, revision.signatureEmail)

def resolveShareKey (shareId : String) : Sdk PrivateKey := do
  let shareResp ← apiGet K "GetShareResponse" Shares.GetShareResponse.ofJson
    ("/drive/shares/" ++ shareId)
  let addressKey ← ofExcept id (client.account.addressPrivateKey client.account.primaryEmail)
  ofExcept id (decryptShareKey K client.openpgp shareResp.share.key shareResp.share.passphrase
    addressKey)

/-- the links from a node up to the root of its share, the node first; `room` is how many more links
the chain may have -/
def collectChain (shareId : String) : (room : Nat) → (currentId : String) → Sdk (List Nodes.Link)
  | 0, _ => fail (.internal ("node key chain exceeded depth " ++ toString MAX_CHAIN_DEPTH ++
      " (cyclic parent links?)"))
  | room + 1, currentId => do
    let link ← getLink K shareId currentId
    match link.parentLinkId with
    | none => return [link]
    | some parent => do
      let above ← collectChain shareId room parent
      return link :: above

/-- the keys from the root down: `current` unlocks the first link of the list -/
def unlockChain (P : OpenPgpCrypto) : PrivateKey → List Nodes.Link → Except Error PrivateKey
  | current, [] => .ok current
  | current, link :: below =>
    match decryptNodePrivateKey K P link.nodeKey link.nodePassphrase current with
    | .error e => .error e
    | .ok next => unlockChain P next below

/-- the chain that is collected is never empty, so the key found is that of its first link -/
def resolveNodeKeyViaChain (shareId linkId : String) (sharePriv : PrivateKey) :
    Sdk PrivateKey := do
  let chain ← collectChain K shareId MAX_CHAIN_DEPTH linkId
  ofExcept id (unlockChain K client.openpgp sharePriv chain.reverse)

def fileUploader (parent : NodeUid) (name : String) (metadata : UploadMetadata) :
    Except Error ProtonFileUploader :=
  match metadata.validate with
  | .error e => .error e
  | .ok () =>
    .ok { openpgp := client.openpgp, account := client.account, parent, name, metadata }

def fileDownloader (uid : NodeUid) : Sdk FileDownloader := do
  let shareId := uid.volumeId
  let linkId := uid.nodeId
  -- step 1
  let link ← getLink K shareId linkId
  require (link.type = 2) (.validation "file_downloader: node is not a file (type != 2)")
  let fileProps ← ofExcept id
    (link.fileProperties.elim (.error (.internal "file link missing FileProperties")) .ok)
  let revision ← ofExcept id
    (fileProps.activeRevision.elim (.error (.notFound "file has no active revision")) .ok)
  -- steps 2 to 4
  let volumeId ← resolveShareVolume K shareId
  let sharePriv ← resolveShareKey K client shareId
  let nodePriv ← resolveNodeKeyViaChain K client shareId linkId sharePriv
  -- step 5: without keys the manifest is checked against the node's own key
  let signatureAddressPubs :=
    match revision.signatureEmail with
    | some email => ((client.account.addressPublicKeys email).toOption).getD []
    | none => []
  return {
    crypto := client.openpgp, nodeUid := uid, volumeId, shareId, revisionId := revision.id,
    nodePrivateKey := nodePriv, signatureAddressPubs,
    contentKeyPacket := fileProps.contentKeyPacket }

end

theorem fileUploader_ok {client : ProtonDriveClient} {parent : NodeUid} {name : String}
    {metadata : UploadMetadata} {up : ProtonFileUploader}
    (h : fileUploader client parent name metadata = .ok up) :
    metadata.validate = .ok () ∧
      up = { openpgp := client.openpgp, account := client.account, parent, name, metadata } := by
  unfold fileUploader at h
  split at h
  · cases h
  · next hvalid => exact ⟨hvalid, (Except.ok.inj h).symm⟩

end ProtonDrive
