import ProtonDrive.Core.Keys
import ProtonDrive.Core.Xattr
import ProtonDrive.Lib.Sorting

/-!
# The block-upload protocol (`upload.rs`)

`runUpload` is `ProtonFileUploader::run_upload`, cut at its own step comments:

* `generateNode`      steps 0 to 1c: volume, address key, node keys, content key, name;
* `createDraft`       steps 2 and 3: the draft on the server and its verification code;
* `readBlocks`        step 4: read the stream, cut it into blocks, encrypt and hash each;
* `requestBlocks`     step 5: the size check and the request for upload links;
* `putBlocks`         step 6: one `POST` for each block;
* `commitRequest`     steps 7 and 8: the manifest signature and the extended attributes;
* `commitRevision`    step 9: the commit.

The state of the loop of step 4 is a `Chunks`; that its blocks are numbered from 1 and its counters
agree with them is part of the type.
-/

set_option linter.unusedVariables false

namespace ProtonDrive
open Encoding Effects Api

/-- 4 MiB: the server rejects larger blocks -/
def BLOCK_SIZE : Nat := 4194304

/-- 16 MiB -/
def MAX_FILE_SIZE : Nat := 16777216

/-! ## the uploader -/

structure UploadMetadata where
  mediaType : String
  expectedSize : Nat
  expectedSha1Hex : Option String
  modificationTime : Option SystemTime
  additionalMetadataJson : Option String
  overrideExistingDraftByOtherClient : Bool

def UploadMetadata.validate (m : UploadMetadata) : Except Error Unit :=
  if m.expectedSize = 0 then
    .error (.validation "expected_size must be > 0 (server uses it for integrity)")
  else if m.expectedSha1Hex.any fun sha1 => sha1.utf8ByteSize ≠ 40 then
    .error (.validation "expected_sha1_hex must be 40 hex chars (SHA1)")
  else if m.expectedSize > MAX_FILE_SIZE then
    .error (.validation ("file exceeds MVP limit: " ++ toString m.expectedSize ++ " > " ++
      toString MAX_FILE_SIZE ++ " bytes"))
  else .ok ()

structure ProtonFileUploader where
  openpgp : OpenPgpCrypto
  account : ProtonDriveAccount
  parent : NodeUid
  name : String
  metadata : UploadMetadata

/-- the crypto of a block: its ciphertext, encrypted signature and verifier token -/
structure SealedBlock where
  ciphertext : Bytes
  encSignature : String
  verifierTokenB64 : String

structure EncryptedBlock (K : Crates) where
  index : Nat
  ciphertext : Bytes
  ciphertextHashHex : String
  encSignature : String
  verifierTokenB64 : String
  hashed : ciphertextHashHex = Hex.encode (K.sha256 ciphertext).1

def SealedBlock.numbered (K : Crates) (b : SealedBlock) (index : Nat) : EncryptedBlock K where
  index := index
  ciphertext := b.ciphertext
  ciphertextHashHex := Hex.encode (K.sha256 b.ciphertext).1
  encSignature := b.encSignature
  verifierTokenB64 := b.verifierTokenB64
  hashed := rfl

/-- the variables of the loop that reads the stream; `hashed` is what the SHA-1 has been fed -/
structure Chunks (K : Crates) where
  blocks : List (EncryptedBlock K)
  blockSizes : List Nat
  hashed : Bytes
  totalBytes : Nat
  blockIndex : Nat
  numbered : blocks.map (·.index) = List.range' 1 blocks.length
  next : blockIndex = blocks.length + 1
  sized : blockSizes.length = blocks.length
  total : totalBytes = blockSizes.sum
  fed : hashed.length = totalBytes

namespace Chunks
variable {K : Crates}

def empty (K : Crates) : Chunks K where
  blocks := []
  blockSizes := []
  hashed := []
  totalBytes := 0
  blockIndex := 1
  numbered := rfl
  next := by rw [List.length_nil]
  sized := by rw [List.length_nil, List.length_nil]
  total := by rw [List.sum_nil]
  fed := by rw [List.length_nil]

/-- one more block: what the loop body does after it has encrypted `plaintext` -/
def push (s : Chunks K) (plaintext : Bytes) (b : SealedBlock) : Chunks K where
  blocks := s.blocks ++ [b.numbered K s.blockIndex]
  blockSizes := s.blockSizes ++ [plaintext.length]
  hashed := s.hashed ++ plaintext
  totalBytes := s.totalBytes + plaintext.length
  blockIndex := s.blockIndex + 1
  numbered := by
    rw [List.map_append, s.numbered, List.length_append, List.length_singleton,
      List.range'_concat, List.map_singleton, SealedBlock.numbered, s.next]
    simp [Nat.add_comm]
  next := by rw [s.next, List.length_append, List.length_singleton]
  sized := by simp [s.sized]
  total := by simp [s.total]
  fed := by simp [s.fed]

end Chunks

/-! ## the requests -/

section
variable (K : Crates)

def resolveVolumeId (shareId : String) : Sdk String := do
  let resp ← getJson K "shares JSON parse" "GetShareResponse" Shares.GetShareResponse.ofJson
    ("/drive/shares/" ++ shareId)
  return resp.share.volumeId

structure VerificationDataResponse where
  verificationCode : String
  contentKeyPacket : Option String

def VerificationDataResponse.ofJson (j : Json) : Option VerificationDataResponse := do
  let verificationCode ← j.required Json.asStr "VerificationCode"
  let contentKeyPacket ← j.optional Json.asStr "ContentKeyPacket"
  return { verificationCode, contentKeyPacket }

def getVerificationCode (volumeId linkId revisionId : String) : Sdk Bytes := do
  let resp ← getJson K "verification JSON parse" "VerificationDataResponse"
    VerificationDataResponse.ofJson
    ("/drive/v2/volumes/" ++ volumeId ++ "/links/" ++ linkId ++ "/revisions/" ++ revisionId ++
      "/verification")
  match Base64.decode resp.verificationCode with
  | some code => return code
  | none => fail (.internal ("verification code base64: " ++ K.base64Error resp.verificationCode))

def filesPath (volumeId : String) : String := "/drive/v2/volumes/" ++ volumeId ++ "/files"

def blocksPath : String := "/drive/blocks"

def postCreateFile (volumeId : String) (req : Upload.CreateFileRequest) :
    Sdk Upload.CreatedFile := do
  let resp ← postProbed K "CreateFile envelope parse" "CreateFileResponse parse" "="
    "CreateFileResponse" Upload.CreateFileResponse.ofJson (filesPath volumeId) req.toJson
  return resp.file

def postRequestBlocks (req : Upload.RequestBlockUploadRequest) : Sdk (List Upload.UploadLink) := do
  let resp ← postProbed K "RequestBlockUpload envelope parse" "RequestBlockUploadResponse parse"
    ": " "RequestBlockUploadResponse" Upload.RequestBlockUploadResponse.ofJson blocksPath
    req.toJson
  return resp.uploadLinks

def boundary : String := "pdtui_block_boundary_x7z9q"

/-- what stands before and after the ciphertext in the multipart body -/
def framingHead : Bytes :=
  asBytes ("--" ++ boundary ++ "\r\nContent-Disposition: form-data; name=\"Block\"; " ++
    "filename=\"blob\"\r\nContent-Type: application/octet-stream\r\n\r\n")
def framingTail : Bytes := asBytes ("\r\n--" ++ boundary ++ "--\r\n")

def blockRequest (bareUrl token : String) (ciphertext : Bytes) : BlobRequest :=
  { method := .post, path := bareUrl, query := [],
    headers := [("pm-storage-token", token),
      ("content-type", "multipart/form-data; boundary=" ++ boundary)],
    body := framingHead ++ ciphertext ++ framingTail }

def putBlock (bareUrl token : String) (ciphertext : Bytes) : Sdk Unit := do
  let resp ← requestBlob (blockRequest bareUrl token ciphertext)
  require (resp.status = 200)
    (.integrityCheckFailed ("block upload returned HTTP " ++ toString resp.status))

def commitPath (volumeId linkId revisionId : String) : String :=
  "/drive/v2/volumes/" ++ volumeId ++ "/files/" ++ linkId ++ "/revisions/" ++ revisionId

/-- `ResponseEnvelope<serde_json::Value>`: any members are a payload -/
def putCommitRevision (volumeId linkId revisionId : String) (req : Upload.CommitRevisionRequest) :
    Sdk Unit := do
  let resp ← requestJson (.bare .put (commitPath volumeId linkId revisionId) (some req.toJson))
  let env ← ofExcept (fun e => .internal ("CommitRevisionResponse parse: " ++ e))
    (K.fromSlice "ResponseEnvelope<Value>" (ResponseEnvelope.ofJson some) resp.body)
  require (env.code = CODE_OK) (mapApiError env.code env.error)

end

/-! ## steps 0 to 3: the draft -/

section
variable (K : Crates) (up : ProtonFileUploader)

/-- the parent's node key and its decrypted hash key -/
def resolveParentContext (shareId : String) : Sdk (PrivateKey × Bytes) := do
  let shareResp ← getJson K "share JSON parse" "GetShareResponse" Shares.GetShareResponse.ofJson
    ("/drive/shares/" ++ shareId)
  let share := shareResp.share
  let addressPriv ← ofExcept id (up.account.addressPrivateKey up.account.primaryEmail)
  let sharePriv ← ofExcept id (decryptShareKey K up.openpgp share.key share.passphrase addressPriv)
  let linkResp ← getJson K "parent link JSON parse" "GetLinkResponse" Nodes.GetLinkResponse.ofJson
    ("/drive/shares/" ++ shareId ++ "/links/" ++ up.parent.nodeId)
  let link := linkResp.link
  let parentNodePriv ← ofExcept id
    (decryptNodePrivateKey K up.openpgp link.nodeKey link.nodePassphrase sharePriv)
  let nodeHashKey ← ofExcept id
    ((link.folderProperties.bind (·.nodeHashKey)).elim
      (.error (.internal "parent link is not a folder or has no NodeHashKey")) .ok)
  let hashKeyBytes := asBytes nodeHashKey
  let hashKeySessionKey ← ofExcept .crypto
    (up.openpgp.decryptSessionKey hashKeyBytes [parentNodePriv])
  let (parentHashKey, _) ← ofExcept .crypto
    (up.openpgp.decryptAndVerify hashKeyBytes hashKeySessionKey [])
  return (parentNodePriv, parentHashKey)

/-- what the steps before the create request make -/
structure NewNode where
  volumeId : String
  addressEmail : String
  addressPriv : PrivateKey
  nodePub : PublicKey
  contentSessionKey : SessionKey
  createReq : Upload.CreateFileRequest

def generateNode : Sdk NewNode := do
  -- steps 0 and 0b
  let shareId := up.parent.volumeId
  let volumeId ← resolveVolumeId K shareId
  let addressEmail := up.account.primaryEmail
  let addressPriv ← ofExcept id (up.account.addressPrivateKey addressEmail)
  -- step 1: node crypto
  let passphraseCoins ← call .coins
  let nodePassphrase := up.openpgp.generatePassphrase passphraseCoins
  let (nodePriv, nodePubArmored) ← random (up.openpgp.generateKey nodePassphrase {})
  let nodePub : PublicKey :=
    { armored := nodePubArmored, fingerprintHex := nodePriv.fingerprintHex }
  let (parentNodePriv, parentHashKey) ← resolveParentContext K up shareId
  let parentNodePub ← ofExcept .crypto (up.openpgp.publicKey parentNodePriv)
  let passphraseSessionKey ← random (up.openpgp.generateSessionKey [] {})
  let nodePassphraseEncrypted ← random (up.openpgp.encryptAndSign (asBytes nodePassphrase)
    passphraseSessionKey [parentNodePub] addressPriv {})
  let passphraseSig ← random (up.openpgp.sign (asBytes nodePassphrase) addressPriv "")
  -- step 1b: content session key
  let contentSessionKey ← random (up.openpgp.generateSessionKey [] {})
  let contentKeyPacket ← random (up.openpgp.encryptSessionKey contentSessionKey [nodePub])
  let contentKeySig ← random (up.openpgp.sign contentSessionKey.data nodePriv "")
  -- step 1c: file name and name hash
  let nameSessionKey ← random (up.openpgp.generateSessionKey [] {})
  let encryptedName ← random (up.openpgp.encryptAndSign (asBytes up.name) nameSessionKey
    [parentNodePub] addressPriv {})
  let nameHash ← ofExcept (fun e => .internal ("HMAC key init: " ++ e))
    (K.hmacSha256 parentHashKey (asBytes up.name))
  return {
    volumeId, addressEmail, addressPriv, nodePub, contentSessionKey,
    createReq := {
      name := armor encryptedName .message
      hash := Hex.encode nameHash.1
      parentLinkId := up.parent.nodeId
      mimeType := up.metadata.mediaType
      clientUid := none
      intendedUploadSize := none
      nodeKey := nodePriv.armored
      nodePassphrase := armor nodePassphraseEncrypted .message
      nodePassphraseSignature := armor passphraseSig .signature
      contentKeyPacket := Base64.encode contentKeyPacket
      contentKeyPacketSignature := armor contentKeySig .signature
      signatureAddress := addressEmail } }

/-- the draft of a revision, and what its blocks are made with -/
structure Draft where
  volumeId : String
  linkId : String
  revisionId : String
  addressEmail : String
  addressPriv : PrivateKey
  nodePub : PublicKey
  contentSessionKey : SessionKey
  verificationCode : Bytes

def createDraft : Sdk Draft := do
  let node ← generateNode K up
  -- step 2: create file node
  let file ← postCreateFile K node.volumeId node.createReq
  -- step 3: verification data
  let verificationCode ← getVerificationCode K node.volumeId file.linkId file.revisionId
  return { volumeId := node.volumeId, linkId := file.linkId, revisionId := file.revisionId,
           addressEmail := node.addressEmail, addressPriv := node.addressPriv,
           nodePub := node.nodePub, contentSessionKey := node.contentSessionKey, verificationCode }

/-! ## step 4: the blocks -/

/-- fill the buffer: read until it is full or the stream ends.  Each read leaves less room, so
`fuel := remaining` is enough -/
def fillBuffer : (fuel remaining : Nat) → Bytes → Sdk Bytes
  | 0, _, buf => pure buf
  | fuel + 1, remaining, buf => do
    let r ← call (.read remaining)
    match r with
    | .error e => fail (.network ("stream read: " ++ e))
    | .ok ⟨bs, _⟩ =>
      if bs = [] then pure buf
      else if bs.length = remaining then pure (buf ++ bs)
      else fillBuffer fuel (remaining - bs.length) (buf ++ bs)

/-- `verification_code[i] ^ ciphertext.get(i).unwrap_or(0)` -/
def verifierToken (code ciphertext : Bytes) : Bytes :=
  code.mapIdx fun i v => v ^^^ ciphertext.getD i 0

def encryptBlock (d : Draft) (plaintext : Bytes) : Sdk SealedBlock := do
  let ciphertext ← random
    (up.openpgp.encryptAndSign plaintext d.contentSessionKey [] d.addressPriv {})
  let blockSig ← random (up.openpgp.sign plaintext d.addressPriv "")
  let encSig ← random (up.openpgp.encrypt blockSig d.contentSessionKey [d.nodePub] {})
  return { ciphertext, encSignature := armor encSig .message,
           verifierTokenB64 := Base64.encode (verifierToken d.verificationCode ciphertext) }

/-- the loop over the stream; `fuel` bounds the number of blocks of the unrolling, the source has
no such bound -/
def readBlocks (d : Draft) : Nat → Chunks K → Sdk (Chunks K)
  | 0, _ => (Prog.cut : Prog host (Except Fault (Chunks K)))
  | fuel + 1, s => do
    let cancelled ← call (.isCancelled .upload)
    require (!cancelled) (.internal "upload cancelled")
    let plaintext ← fillBuffer BLOCK_SIZE BLOCK_SIZE []
    if plaintext = [] then return s
    else do
      let b ← encryptBlock up d plaintext
      call (.sendProgress (s.push plaintext b).totalBytes)
      if plaintext.length < BLOCK_SIZE then return s.push plaintext b
      else readBlocks d fuel (s.push plaintext b)

/-! ## steps 5 and 6: the links and the posts -/

def blockEntry (b : EncryptedBlock K) : Upload.BlockUploadEntry :=
  { index := b.index, encSignature := b.encSignature, verifier := { token := b.verifierTokenB64 } }

def blockUploadRequest (d : Draft) (addressId : String) (blocks : List (EncryptedBlock K)) :
    Upload.RequestBlockUploadRequest :=
  { addressId, volumeId := d.volumeId, linkId := d.linkId, revisionId := d.revisionId,
    blockList := blocks.map (blockEntry K), thumbnailList := [] }

def requestBlocks (d : Draft) (s : Chunks K) : Sdk (List Upload.UploadLink) := do
  require (!s.blocks.isEmpty) (.validation "upload_from_stream: stream was empty")
  require (s.totalBytes = up.metadata.expectedSize)
    (.validation ("stream size mismatch: expected " ++ toString up.metadata.expectedSize ++
      " bytes, got " ++ toString s.totalBytes))
  let addressId ← ofExcept id (up.account.addressId d.addressEmail)
  let uploadLinks ← postRequestBlocks K (blockUploadRequest K d addressId s.blocks)
  require (uploadLinks.length = s.blocks.length)
    (.protocolViolation ("server returned " ++ toString uploadLinks.length ++
      " upload links but " ++ toString s.blocks.length ++ " blocks were requested"))
  return Sorting.sortByKey (·.index) uploadLinks

def putBlocks : List (EncryptedBlock K × Upload.UploadLink) → Sdk Unit
  | [] => pure ()
  | (block, link) :: rest => do
    let cancelled ← call (.isCancelled .upload)
    require (!cancelled) (.internal "upload cancelled")
    putBlock link.bareUrl link.token block.ciphertext
    putBlocks rest

/-! ## steps 7 to 9: the commit -/

/-- the digests of the ciphertexts in order, read back from their hexadecimal form -/
def manifestPayload (blocks : List (EncryptedBlock K)) : Bytes :=
  blocks.flatMap fun b => (Hex.decode b.ciphertextHashHex).getD (List.replicate 32 0)

/-- steps 7 and 8 -/
def commitRequest (d : Draft) (s : Chunks K) : Sdk Upload.CommitRevisionRequest := do
  let manifestSig ← random (up.openpgp.sign (manifestPayload K s.blocks) d.addressPriv "")
  let sha1Hex := Hex.encode (K.sha1 s.hashed).1
  let xattrJson := buildXattrJson s.totalBytes s.blockSizes sha1Hex up.metadata.modificationTime
  let xattrSessionKey ← random (up.openpgp.generateSessionKey [] {})
  let xattrCiphertext ← random (up.openpgp.encryptAndSign (asBytes xattrJson) xattrSessionKey
    [d.nodePub] d.addressPriv {})
  return { manifestSignature := armor manifestSig .signature, signatureAddress := d.addressEmail,
           xAttr := armor xattrCiphertext .message, checksumVerified := false, photo := none }

/-- step 9 -/
def commitRevision (d : Draft) (totalBytes : Nat) (req : Upload.CommitRevisionRequest) :
    Sdk Unit := do
  putCommitRevision K d.volumeId d.linkId d.revisionId req
  call (.sendProgress totalBytes)

/-- `ProtonFileUploader::run_upload`, unrolled to at most `fuel` blocks -/
def runUpload (fuel : Nat) : Sdk Unit := do
  let d ← createDraft K up
  let s ← readBlocks K up d fuel (Chunks.empty K)
  let sortedLinks ← requestBlocks K up d s
  putBlocks K (s.blocks.zip sortedLinks)
  let commitReq ← commitRequest K up d s
  commitRevision K d s.totalBytes commitReq

end

end ProtonDrive
