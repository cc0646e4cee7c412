import ProtonDrive.Lib.Json

/-!
# The wire records of the Drive API (`proton-drive-api`)

One structure for each record the client reads or sends, with the member names of the wire.  A
record that is read has an `ofJson`, a record that is sent a `toJson`.  A decoder fails when a
required member is missing, is given twice or has another type; what `serde` then says is not
modelled (`Crates.jsonError`).  A record inside another one may also be given as the list of its
values (`Json.record`); what is flattened into an envelope is read from the members only.
-/

set_option linter.unusedVariables false

namespace ProtonDrive.Api
open Json

/-! ## common -/

def CODE_OK : Nat := 1000

/-- the envelope of a response; the payload is flattened into the same object -/
structure ResponseEnvelope (α : Type) where
  code : Nat
  inner : α
  error : Option String

def ResponseEnvelope.ofJson {α : Type} (dec : Json → Option α) (j : Json) :
    Option (ResponseEnvelope α) := do
  let code ← j.required asU32 "Code"
  let inner ← dec j
  let error ← j.optional asStr "Error"
  return { code, inner, error }

/-! ## shares -/

namespace Shares

structure Share where
  shareId : String
  volumeId : String
  linkId : String
  type : Nat
  key : String
  passphrase : String
  passphraseSignature : String
  addressId : String
  addressKeyId : Option String

def Share.ofJson (j : Json) : Option Share := do
  let shareId ← j.required asStr "ShareID"
  let volumeId ← j.required asStr "VolumeID"
  let linkId ← j.required asStr "LinkID"
  let type ← j.required asU8 "Type"
  let key ← j.required asStr "Key"
  let passphrase ← j.required asStr "Passphrase"
  let passphraseSignature ← j.required asStr "PassphraseSignature"
  let addressId ← j.required asStr "AddressID"
  let addressKeyId ← j.optional asStr "AddressKeyID"
  return { shareId, volumeId, linkId, type, key, passphrase, passphraseSignature, addressId,
           addressKeyId }

/-- `GET drive/shares/{shareID}`: the share is flattened into the envelope -/
structure GetShareResponse where
  share : Share

def GetShareResponse.ofJson (j : Json) : Option GetShareResponse :=
  (Share.ofJson j).map .mk

end Shares

/-! ## nodes -/

namespace Nodes

structure Revision where
  id : String
  state : Nat
  createdTime : Int
  size : Nat
  manifestSignature : Option String
  signatureEmail : Option String

def Revision.ofJson : Json → Option Revision :=
  record ["ID", "State", "CreateTime", "Size", "ManifestSignature", "SignatureEmail"] 6 fun j => do
    let id ← j.defaulted asStr "" "ID"
    let state ← j.defaulted asU8 0 "State"
    let createdTime ← j.defaulted asI64 0 "CreateTime"
    let size ← j.defaulted asU64 0 "Size"
    let manifestSignature ← j.optional asStr "ManifestSignature"
    let signatureEmail ← j.optional asStr "SignatureEmail"
    return { id, state, createdTime, size, manifestSignature, signatureEmail }

structure FileProperties where
  contentKeyPacket : Option String
  contentKeyPacketSignature : Option String
  activeRevision : Option Revision

def FileProperties.ofJson : Json → Option FileProperties :=
  record ["ContentKeyPacket", "ContentKeyPacketSignature", "ActiveRevision"] 3 fun j => do
    let contentKeyPacket ← j.optional asStr "ContentKeyPacket"
    let contentKeyPacketSignature ← j.optional asStr "ContentKeyPacketSignature"
    let activeRevision ← j.optional Revision.ofJson "ActiveRevision"
    return { contentKeyPacket, contentKeyPacketSignature, activeRevision }

structure FolderProperties where
  nodeHashKey : Option String

def FolderProperties.ofJson : Json → Option FolderProperties :=
  record ["NodeHashKey"] 0 fun j => do
    let nodeHashKey ← j.optional asStr "NodeHashKey"
    return { nodeHashKey }

structure Link where
  linkId : String
  parentLinkId : Option String
  type : Nat
  name : String
  nameSignatureEmail : Option String
  hash : Option String
  mimeType : Option String
  state : Nat
  size : Nat
  createdTime : Int
  modifyTime : Int
  trashed : Option Int
  nodeKey : String
  nodePassphrase : String
  nodePassphraseSignature : String
  signatureEmail : Option String
  fileProperties : Option FileProperties
  folderProperties : Option FolderProperties

def Link.ofJson : Json → Option Link :=
  record ["LinkID", "ParentLinkID", "Type", "Name", "NameSignatureEmail", "Hash", "MIMEType",
      "State", "Size", "CreateTime", "ModifyTime", "Trashed", "NodeKey", "NodePassphrase",
      "NodePassphraseSignature", "SignatureEmail", "FileProperties", "FolderProperties"] 16 fun j => do
    let linkId ← j.required asStr "LinkID"
    let parentLinkId ← j.optional asStr "ParentLinkID"
    let type ← j.required asU8 "Type"
    let name ← j.required asStr "Name"
    let nameSignatureEmail ← j.optional asStr "NameSignatureEmail"
    let hash ← j.optional asStr "Hash"
    let mimeType ← j.optional asStr "MIMEType"
    let state ← j.required asU8 "State"
    let size ← j.required asU64 "Size"
    let createdTime ← j.required asI64 "CreateTime"
    let modifyTime ← j.required asI64 "ModifyTime"
    let trashed ← j.optional asI64 "Trashed"
    let nodeKey ← j.required asStr "NodeKey"
    let nodePassphrase ← j.required asStr "NodePassphrase"
    let nodePassphraseSignature ← j.required asStr "NodePassphraseSignature"
    let signatureEmail ← j.optional asStr "SignatureEmail"
    let fileProperties ← j.optional FileProperties.ofJson "FileProperties"
    let folderProperties ← j.optional FolderProperties.ofJson "FolderProperties"
    return { linkId, parentLinkId, type, name, nameSignatureEmail, hash, mimeType, state, size,
             createdTime, modifyTime, trashed, nodeKey, nodePassphrase, nodePassphraseSignature,
             signatureEmail, fileProperties, folderProperties }

structure GetLinkResponse where
  link : Link

def GetLinkResponse.ofJson (j : Json) : Option GetLinkResponse := do
  let link ← j.required Link.ofJson "Link"
  return { link }

structure GetChildrenResponse where
  links : List Link
  more : Nat

def GetChildrenResponse.ofJson (j : Json) : Option GetChildrenResponse := do
  let links ← j.required (asList Link.ofJson) "Links"
  let more ← j.defaulted asU8 0 "More"
  return { links, more }

end Nodes

/-! ## My Files -/

namespace Shares

structure MyFilesVolume where
  volumeId : String

def MyFilesVolume.ofJson : Json → Option MyFilesVolume :=
  record ["VolumeID"] 1 fun j => do
    let volumeId ← j.required asStr "VolumeID"
    return { volumeId }

structure MyFilesShare where
  shareId : String
  creatorEmail : Option String
  key : String
  passphrase : String
  passphraseSignature : String
  addressId : String

def MyFilesShare.ofJson : Json → Option MyFilesShare :=
  record ["ShareID", "CreatorEmail", "Key", "Passphrase", "PassphraseSignature",
      "AddressID"] 6 fun j => do
    let shareId ← j.required asStr "ShareID"
    let creatorEmail ← j.optional asStr "CreatorEmail"
    let key ← j.required asStr "Key"
    let passphrase ← j.required asStr "Passphrase"
    let passphraseSignature ← j.required asStr "PassphraseSignature"
    let addressId ← j.required asStr "AddressID"
    return { shareId, creatorEmail, key, passphrase, passphraseSignature, addressId }

structure LinkV2 where
  linkId : String
  parentLinkId : Option String
  type : Nat
  state : Nat
  name : String
  nameHash : Option String
  nameSignatureEmail : Option String
  createTime : Int
  modifyTime : Int
  trashTime : Option Int
  nodeKey : String
  nodePassphrase : String
  nodePassphraseSignature : String
  signatureEmail : Option String

def LinkV2.ofJson : Json → Option LinkV2 :=
  record ["LinkID", "ParentLinkID", "Type", "State", "Name", "NameHash", "NameSignatureEmail",
      "CreateTime", "ModifyTime", "TrashTime", "NodeKey", "NodePassphrase",
      "NodePassphraseSignature", "SignatureEmail"] 14 fun j => do
    let linkId ← j.required asStr "LinkID"
    let parentLinkId ← j.optional asStr "ParentLinkID"
    let type ← j.required asU8 "Type"
    let state ← j.required asU8 "State"
    let name ← j.required asStr "Name"
    let nameHash ← j.optional asStr "NameHash"
    let nameSignatureEmail ← j.optional asStr "NameSignatureEmail"
    let createTime ← j.required asI64 "CreateTime"
    let modifyTime ← j.required asI64 "ModifyTime"
    let trashTime ← j.optional asI64 "TrashTime"
    let nodeKey ← j.required asStr "NodeKey"
    let nodePassphrase ← j.required asStr "NodePassphrase"
    let nodePassphraseSignature ← j.required asStr "NodePassphraseSignature"
    let signatureEmail ← j.optional asStr "SignatureEmail"
    return { linkId, parentLinkId, type, state, name, nameHash, nameSignatureEmail, createTime,
             modifyTime, trashTime, nodeKey, nodePassphrase, nodePassphraseSignature, signatureEmail }

structure FolderV2 where
  nodeHashKey : Option String

def FolderV2.ofJson : Json → Option FolderV2 :=
  record ["NodeHashKey"] 0 fun j => do
    let nodeHashKey ← j.optional asStr "NodeHashKey"
    return { nodeHashKey }

structure FolderDetails where
  link : LinkV2
  folder : Option FolderV2

def FolderDetails.ofJson : Json → Option FolderDetails :=
  record ["Link", "Folder"] 1 fun j => do
    let link ← j.required LinkV2.ofJson "Link"
    let folder ← j.optional FolderV2.ofJson "Folder"
    return { link, folder }

/-- the split shape, as a legacy link -/
def FolderDetails.intoLink (details : FolderDetails) : Nodes.Link :=
  let l := details.link
  { linkId := l.linkId, parentLinkId := l.parentLinkId, type := l.type, name := l.name,
    nameSignatureEmail := l.nameSignatureEmail, hash := l.nameHash, mimeType := none,
    state := l.state, size := 0, createdTime := l.createTime, modifyTime := l.modifyTime,
    trashed := l.trashTime, nodeKey := l.nodeKey, nodePassphrase := l.nodePassphrase,
    nodePassphraseSignature := l.nodePassphraseSignature, signatureEmail := l.signatureEmail,
    fileProperties := none,
    folderProperties := details.folder.map fun f => { nodeHashKey := f.nodeHashKey } }

structure GetMyFilesResponse where
  volume : MyFilesVolume
  share : MyFilesShare
  link : FolderDetails

def GetMyFilesResponse.ofJson (j : Json) : Option GetMyFilesResponse := do
  let volume ← j.required MyFilesVolume.ofJson "Volume"
  let share ← j.required MyFilesShare.ofJson "Share"
  let link ← j.required FolderDetails.ofJson "Link"
  return { volume, share, link }

end Shares

/-! ## upload -/

namespace Upload

structure CreateFileRequest where
  name : String
  hash : String
  parentLinkId : String
  mimeType : String
  clientUid : Option String
  intendedUploadSize : Option Nat
  nodeKey : String
  nodePassphrase : String
  nodePassphraseSignature : String
  contentKeyPacket : String
  contentKeyPacketSignature : String
  signatureAddress : String

def optStr : Option String → Json
  | some s => .str s
  | none => .null

def optNat : Option Nat → Json
  | some n => .num n
  | none => .null

def CreateFileRequest.toJson (r : CreateFileRequest) : Json :=
  .obj [("Name", .str r.name), ("Hash", .str r.hash), ("ParentLinkID", .str r.parentLinkId),
    ("MIMEType", .str r.mimeType), ("ClientUID", optStr r.clientUid),
    ("IntendedUploadSize", optNat r.intendedUploadSize), ("NodeKey", .str r.nodeKey),
    ("NodePassphrase", .str r.nodePassphrase),
    ("NodePassphraseSignature", .str r.nodePassphraseSignature),
    ("ContentKeyPacket", .str r.contentKeyPacket),
    ("ContentKeyPacketSignature", .str r.contentKeyPacketSignature),
    ("SignatureAddress", .str r.signatureAddress)]

structure CreatedFile where
  linkId : String
  revisionId : String

def CreatedFile.ofJson : Json → Option CreatedFile :=
  record ["ID", "RevisionID"] 2 fun j => do
    let linkId ← j.required asStr "ID"
    let revisionId ← j.required asStr "RevisionID"
    return { linkId, revisionId }

structure CreateFileResponse where
  file : CreatedFile

def CreateFileResponse.ofJson (j : Json) : Option CreateFileResponse := do
  let file ← j.required CreatedFile.ofJson "File"
  return { file }

structure BlockVerifier where
  token : String

structure BlockUploadEntry where
  index : Nat
  encSignature : String
  verifier : BlockVerifier

def BlockUploadEntry.toJson (e : BlockUploadEntry) : Json :=
  .obj [("Index", .num e.index), ("EncSignature", .str e.encSignature),
    ("Verifier", .obj [("Token", .str e.verifier.token)])]

structure ThumbnailUploadEntry where
  type : Nat

def ThumbnailUploadEntry.toJson (e : ThumbnailUploadEntry) : Json := .obj [("Type", .num e.type)]

structure RequestBlockUploadRequest where
  addressId : String
  volumeId : String
  linkId : String
  revisionId : String
  blockList : List BlockUploadEntry
  thumbnailList : List ThumbnailUploadEntry

def RequestBlockUploadRequest.toJson (r : RequestBlockUploadRequest) : Json :=
  .obj [("AddressID", .str r.addressId), ("VolumeID", .str r.volumeId),
    ("LinkID", .str r.linkId), ("RevisionID", .str r.revisionId),
    ("BlockList", .arr (r.blockList.map BlockUploadEntry.toJson)),
    ("ThumbnailList", .arr (r.thumbnailList.map ThumbnailUploadEntry.toJson))]

structure UploadLink where
  index : Nat
  bareUrl : String
  token : String
  deriving DecidableEq

def UploadLink.ofJson : Json → Option UploadLink :=
  record ["Index", "BareURL", "Token"] 3 fun j => do
    let index ← j.required asU32 "Index"
    let bareUrl ← j.required asStr "BareURL"
    let token ← j.required asStr "Token"
    return { index, bareUrl, token }

structure RequestBlockUploadResponse where
  uploadLinks : List UploadLink

def RequestBlockUploadResponse.ofJson (j : Json) : Option RequestBlockUploadResponse := do
  let uploadLinks ← j.required (asList UploadLink.ofJson) "UploadLinks"
  return { uploadLinks }

structure CommitRevisionRequest where
  manifestSignature : String
  signatureAddress : String
  xAttr : String
  checksumVerified : Bool
  photo : Option Json

def CommitRevisionRequest.toJson (r : CommitRevisionRequest) : Json :=
  .obj [("ManifestSignature", .str r.manifestSignature),
    ("SignatureAddress", .str r.signatureAddress), ("XAttr", .str r.xAttr),
    ("ChecksumVerified", .bool r.checksumVerified), ("Photo", r.photo.getD .null)]

end Upload

/-! ## download -/

namespace Download

structure BlockResponse where
  index : Nat
  bareUrl : String
  token : String
  hash : String
  encryptedSignature : Option String
  size : Nat
  deriving DecidableEq

def BlockResponse.ofJson : Json → Option BlockResponse :=
  record ["Index", "BareURL", "Token", "Hash", "EncSignature", "Size"] 4 fun j => do
    let index ← j.required asU32 "Index"
    let bareUrl ← j.required asStr "BareURL"
    let token ← j.required asStr "Token"
    let hash ← j.required asStr "Hash"
    let encryptedSignature ← j.optional asStr "EncSignature"
    let size ← j.defaulted asU64 0 "Size"
    return { index, bareUrl, token, hash, encryptedSignature, size }

/-- the revision as the client reads it: a member `Thumbnails` of the response is not kept -/
structure RevisionWithBlocks where
  id : String
  state : Option Nat
  blocks : List BlockResponse
  manifestSignature : Option String
  contentKeyPacket : Option String
  contentKeyPacketSignature : Option String
  xAttr : Option String
  signatureEmail : Option String

def RevisionWithBlocks.ofJson : Json → Option RevisionWithBlocks :=
  record ["ID", "State", "Blocks", "ManifestSignature", "ContentKeyPacket",
      "ContentKeyPacketSignature", "XAttr", "SignatureEmail"] 8 fun j => do
    let id ← j.required asStr "ID"
    let state ← j.optional asU8 "State"
    let blocks ← j.required (asList BlockResponse.ofJson) "Blocks"
    let manifestSignature ← j.optional asStr "ManifestSignature"
    let contentKeyPacket ← j.optional asStr "ContentKeyPacket"
    let contentKeyPacketSignature ← j.optional asStr "ContentKeyPacketSignature"
    let xAttr ← j.optional asStr "XAttr"
    let signatureEmail ← j.optional asStr "SignatureEmail"
    return { id, state, blocks, manifestSignature, contentKeyPacket, contentKeyPacketSignature,
             xAttr, signatureEmail }

structure GetRevisionResponse where
  revision : RevisionWithBlocks

def GetRevisionResponse.ofJson (j : Json) : Option GetRevisionResponse := do
  let revision ← j.required RevisionWithBlocks.ofJson "Revision"
  return { revision }

end Download

/-! ## events -/

namespace Events

structure GetLatestEventIdResponse where
  eventId : String

def GetLatestEventIdResponse.ofJson (j : Json) : Option GetLatestEventIdResponse := do
  let eventId ← j.required asStr "EventID"
  return { eventId }

def asBool : Json → Option Bool
  | .bool b => some b
  | _ => none

structure EventLinkData where
  linkId : String
  parentLinkId : Option String
  isShared : Bool
  isTrashed : Bool

def EventLinkData.ofJson : Json → Option EventLinkData :=
  record ["LinkID", "ParentLinkID", "IsShared", "IsTrashed"] 1 fun j => do
    let linkId ← j.required asStr "LinkID"
    let parentLinkId ← j.optional asStr "ParentLinkID"
    let isShared ← j.defaulted asBool false "IsShared"
    let isTrashed ← j.defaulted asBool false "IsTrashed"
    return { linkId, parentLinkId, isShared, isTrashed }

structure VolumeEventEntry where
  eventId : String
  eventType : Nat
  link : EventLinkData

def VolumeEventEntry.ofJson : Json → Option VolumeEventEntry :=
  record ["EventID", "EventType", "Link"] 3 fun j => do
    let eventId ← j.required asStr "EventID"
    let eventType ← j.required asU8 "EventType"
    let link ← j.required EventLinkData.ofJson "Link"
    return { eventId, eventType, link }

structure GetVolumeEventsResponse where
  eventId : String
  events : List VolumeEventEntry
  more : Bool
  refresh : Bool

def GetVolumeEventsResponse.ofJson (j : Json) : Option GetVolumeEventsResponse := do
  let eventId ← j.required asStr "EventID"
  let events ← j.defaulted (asList VolumeEventEntry.ofJson) [] "Events"
  let more ← j.defaulted asBool false "More"
  let refresh ← j.defaulted asBool false "Refresh"
  return { eventId, events, more, refresh }

end Events

/-! ## auth -/

namespace Auth

structure AuthInfoRequest where
  username : String

def AuthInfoRequest.toJson (req : AuthInfoRequest) : Json := .obj [("Username", .str req.username)]

structure AuthInfoResponse where
  version : Nat
  modulus : String
  serverEphemeral : String
  salt : String
  srpSession : String

def AuthInfoResponse.ofJson (j : Json) : Option AuthInfoResponse := do
  let version ← j.required asU32 "Version"
  let modulus ← j.required asStr "Modulus"
  let serverEphemeral ← j.required asStr "ServerEphemeral"
  let salt ← j.required asStr "Salt"
  let srpSession ← j.required asStr "SRPSession"
  return { version, modulus, serverEphemeral, salt, srpSession }

structure AuthRequest where
  username : String
  clientEphemeral : String
  clientProof : String
  srpSession : String

def AuthRequest.toJson (req : AuthRequest) : Json :=
  .obj [("Username", .str req.username), ("ClientEphemeral", .str req.clientEphemeral),
    ("ClientProof", .str req.clientProof), ("SRPSession", .str req.srpSession)]

/-- `null_to_empty`: a text that may be missing or `null`, and is empty then -/
def nullToEmpty (key : String) (j : Json) : Option String :=
  (j.optional asStr key).map fun text => text.getD ""

structure TwoFactor where
  enabled : Nat

def TwoFactor.ofJson : Json → Option TwoFactor :=
  record ["Enabled"] 1 fun j => (j.required asU32 "Enabled").map .mk

structure AuthResponse where
  uid : String
  accessToken : String
  refreshToken : String
  serverProof : String
  userId : String
  twoFactor : TwoFactor

def AuthResponse.ofJson (j : Json) : Option AuthResponse := do
  let uid ← j.required asStr "UID"
  let accessToken ← j.required asStr "AccessToken"
  let refreshToken ← j.required asStr "RefreshToken"
  let serverProof ← j.required asStr "ServerProof"
  let userId ← nullToEmpty "UserID" j
  let twoFactor ← j.defaulted TwoFactor.ofJson { enabled := 0 } "2FA"
  return { uid, accessToken, refreshToken, serverProof, userId, twoFactor }

/-- the salt of one key, empty for a key without a passphrase -/
structure KeySalt where
  id : String
  keySalt : String
  deriving DecidableEq

def KeySalt.ofJson : Json → Option KeySalt :=
  record ["ID", "KeySalt"] 1 fun j => do
    let id ← j.required asStr "ID"
    let keySalt ← nullToEmpty "KeySalt" j
    return { id, keySalt }

structure KeySaltsResponse where
  keySalts : List KeySalt

def KeySaltsResponse.ofJson (j : Json) : Option KeySaltsResponse :=
  (j.required (asList KeySalt.ofJson) "KeySalts").map .mk

structure RefreshRequest where
  responseType : String
  grantType : String
  refreshToken : String
  redirectUri : String

def RefreshRequest.toJson (req : RefreshRequest) : Json :=
  .obj [("ResponseType", .str req.responseType), ("GrantType", .str req.grantType),
    ("RefreshToken", .str req.refreshToken), ("RedirectUri", .str req.redirectUri)]

structure RefreshResponse where
  accessToken : String
  refreshToken : String

def RefreshResponse.ofJson (j : Json) : Option RefreshResponse := do
  let accessToken ← j.required asStr "AccessToken"
  let refreshToken ← j.required asStr "RefreshToken"
  return { accessToken, refreshToken }

end Auth

/-! ## the user and its addresses -/

namespace Users

structure UserKey where
  id : String
  primary : Nat
  privateKey : String
  /-- an armored message: the passphrase of the key, encrypted to another key -/
  token : Option String

def UserKey.ofJson : Json → Option UserKey :=
  record ["ID", "Primary", "PrivateKey", "Token"] 3 fun j => do
    let id ← j.required asStr "ID"
    let primary ← j.required asU8 "Primary"
    let privateKey ← j.required asStr "PrivateKey"
    let token ← j.optional asStr "Token"
    return { id, primary, privateKey, token }

structure User where
  id : String
  keys : List UserKey

/-- the name and the email of a user have to be there, but are not looked at -/
def User.ofJson : Json → Option User :=
  record ["ID", "Name", "Email", "Keys"] 4 fun j => do
    let id ← j.required asStr "ID"
    let _ ← j.required asStr "Name"
    let _ ← j.required asStr "Email"
    let keys ← j.required (asList UserKey.ofJson) "Keys"
    return { id, keys }

/-- `GET core/v4/users` -/
structure GetUserResponse where
  user : User

def GetUserResponse.ofJson (j : Json) : Option GetUserResponse :=
  (j.required User.ofJson "User").map .mk

end Users

namespace Addresses

structure AddressKey where
  id : String
  primary : Nat
  privateKey : String
  /-- an armored message: the passphrase of the key, encrypted to another key -/
  token : Option String

def AddressKey.ofJson : Json → Option AddressKey :=
  record ["ID", "Primary", "PrivateKey", "Token"] 3 fun j => do
    let id ← j.required asStr "ID"
    let primary ← j.required asU8 "Primary"
    let privateKey ← j.required asStr "PrivateKey"
    let token ← j.optional asStr "Token"
    return { id, primary, privateKey, token }

structure Address where
  id : String
  email : String
  order : Nat
  keys : List AddressKey

def Address.ofJson : Json → Option Address :=
  record ["ID", "Email", "Order", "Keys"] 4 fun j => do
    let id ← j.required asStr "ID"
    let email ← j.required asStr "Email"
    let order ← j.required asU32 "Order"
    let keys ← j.required (asList AddressKey.ofJson) "Keys"
    return { id, email, order, keys }

/-- `GET core/v4/addresses` -/
structure GetAddressesResponse where
  addresses : List Address

def GetAddressesResponse.ofJson (j : Json) : Option GetAddressesResponse :=
  (j.required (asList Address.ofJson) "Addresses").map .mk

end Addresses

end ProtonDrive.Api
