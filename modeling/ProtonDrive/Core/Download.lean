import ProtonDrive.Core.Keys
import ProtonDrive.Core.Xattr
import ProtonDrive.Lib.Sorting

/-!
# The block-download protocol (`download.rs`)

`downloadToWriter` is `FileDownloader::download_to_writer`, cut at its own step comments:

* `fetchRevision`     step 1: the revision with its blocks;
* `contentSessionKey` step 2: the key of the content, from the packet of the node or the revision;
* `writeBlocks`       step 3: fetch each block, check its hash, decrypt it, write it;
* `verifyManifest`    step 4: the signature over the hashes of the blocks, which says whether the
                      revision is authentic and stops nothing;
* `verifyXattr`       step 5: the extended attributes, of which the modification time is returned.

The state of the loop of step 3 is a `Tally`.
-/

set_option linter.unusedVariables false

namespace ProtonDrive
open Encoding Effects Api

/-- the counts are a `u64` and a `u32` -/
structure DownloadStats where
  bytes : Nat
  blocks : Nat
  lastModificationTime : Option SystemTime
  signatureVerified : Bool
  deriving DecidableEq

structure FileDownloader where
  crypto : OpenPgpCrypto
  nodeUid : NodeUid
  volumeId : String
  shareId : String
  revisionId : String
  nodePrivateKey : PrivateKey
  signatureAddressPubs : List PublicKey
  contentKeyPacket : Option String

/-! ## steps 1 and 2 -/

section
variable (K : Crates) (dl : FileDownloader)

def FileDownloader.revisionPath : String :=
  "/drive/v2/volumes/" ++ dl.volumeId ++ "/files/" ++ dl.nodeUid.nodeId ++ "/revisions/" ++
    dl.revisionId

/-- the error for a revision that is not there -/
def revisionError (code : Nat) (error : Option String) : Error :=
  let msg := error.getD ("API error " ++ toString code)
  if code = 2501 then .notFound msg else .internal msg

def fetchRevision : Sdk Download.RevisionWithBlocks := do
  let resp ← getJsonOr revisionError K "revision JSON" "GetRevisionResponse"
    Download.GetRevisionResponse.ofJson dl.revisionPath
  return resp.revision

def contentSessionKey (revision : Download.RevisionWithBlocks) : Except Error SessionKey :=
  match dl.contentKeyPacket.or revision.contentKeyPacket with
  | none => .error (.internal "missing ContentKeyPacket")
  | some packet =>
    match dl.crypto.decryptSessionKey (base64OrRaw packet) [dl.nodePrivateKey] with
    | .error e => .error (.decryption ("content session key: " ++ e.display))
    | .ok sessionKey => .ok sessionKey

end

/-! ## step 3 -/

/-- the variables of the loop; `hashed` is what the SHA-1 has been fed.  The counters wrap, as they do in a
release build -/
structure Tally where
  hashed : Bytes
  totalBytes : Nat
  totalBlocks : Nat
  fed : totalBytes = hashed.length % 2 ^ 64
  fits : totalBlocks < 2 ^ 32

namespace Tally

def empty : Tally where
  hashed := []
  totalBytes := 0
  totalBlocks := 0
  fed := rfl
  fits := Nat.two_pow_pos 32

def add (t : Tally) (plaintext : Bytes) : Tally where
  hashed := t.hashed ++ plaintext
  totalBytes := (t.totalBytes + plaintext.length) % 2 ^ 64
  totalBlocks := (t.totalBlocks + 1) % 2 ^ 32
  fed := by rw [List.length_append, t.fed, Nat.mod_add_mod]
  fits := Nat.mod_lt _ (Nat.two_pow_pos 32)

end Tally

/-- the request for a block, authenticated by its token -/
def blockGet (block : Download.BlockResponse) : BlobRequest :=
  { method := .get, path := block.bareUrl, query := [],
    headers := [("pm-storage-token", block.token)], body := [] }

section
variable (K : Crates) (dl : FileDownloader)

def fetchAndDecryptBlock (sessionKey : SessionKey) (block : Download.BlockResponse) :
    Sdk Bytes := do
  let resp ← requestBlob (blockGet block)
  let actualHashB64 := Base64.encode (K.sha256 resp.body).1
  require (actualHashB64 = block.hash)
    (.integrity ("block " ++ toString block.index ++ " ciphertext hash mismatch: expected=" ++
      block.hash ++ " got=" ++ actualHashB64))
  let (plaintext, _) ← ofExcept
    (fun e => .decryption ("block " ++ toString block.index ++ ": " ++ e.display))
    (dl.crypto.decryptAndVerify resp.body sessionKey [])
  return plaintext

def writeBlocks (sessionKey : SessionKey) : List Download.BlockResponse → Tally → Sdk Tally
  | [], t => pure t
  | block :: rest, t => do
    let plaintext ← fetchAndDecryptBlock K dl sessionKey block
    let r ← call (.writeAll plaintext)
    ofExcept (fun e : WriteError => .internal ("write error: " ++ e.msg)) r
    writeBlocks sessionKey rest (t.add plaintext)

/-! ## step 4 -/

/-- the bytes whose signature is checked: the hashes of the blocks, one after the other -/
def manifestOf : List Download.BlockResponse → Except Error Bytes
  | [] => .ok []
  | block :: rest =>
    match Base64.decode block.hash with
    | none => .error (.internal ("block hash base64: " ++ K.base64Error block.hash))
    | some hash =>
      match manifestOf rest with
      | .error e => .error e
      | .ok payload => .ok (hash ++ payload)

/-- the keys a manifest signature is checked against -/
def FileDownloader.verificationKeys : Except Error (List PublicKey) :=
  if dl.signatureAddressPubs.isEmpty then
    match dl.crypto.publicKey dl.nodePrivateKey with
    | .error e => .error (.crypto e)
    | .ok pub => .ok [pub]
  else .ok dl.signatureAddressPubs

def verifyManifest (sortedBlocks : List Download.BlockResponse) (manifestSig : Option String) :
    Except Error Bool := do
  match manifestSig with
  | none => .error (.verification "revision has no ManifestSignature — integrity check failed")
  | some sig =>
    let payload ← manifestOf K sortedBlocks
    let keys ← dl.verificationKeys
    match dl.crypto.verify payload (base64OrRaw sig) keys with
    | .error e => .error (.crypto e)
    | .ok status => .ok (status = .ok)

/-! ## step 5 -/

/-- the document in the extended attributes of a revision, where they can be read -/
def xattrOf (xattrArmored : Option String) : Option Json := do
  let xattrRaw ← xattrArmored
  let xattrBytes := asBytes xattrRaw
  let sessionKey ← (dl.crypto.decryptSessionKey xattrBytes [dl.nodePrivateKey]).toOption
  let (plaintext, _) ← (dl.crypto.decryptAndVerify xattrBytes sessionKey []).toOption
  let text ← fromUtf8 plaintext
  K.jsonParse (asBytes text)

/-- The modification time, in whole seconds of which the negative ones count as zero.  What the document says
of the size and the digest is compared with what was written, and a difference is only logged -/
def verifyXattr (xattrArmored : Option String) (totalBytes : Nat) (sha1Digest : Bytes) :
    Option SystemTime :=
  (xattrOf K dl xattrArmored).bind fun xattr =>
    ((xattr.index "Common").index "ModificationTime").asI64.map fun ts =>
      if ts ≥ 0 then ts * 1000000000 else 0

/-! ## the protocol -/

def downloadToWriter : Sdk DownloadStats := do
  -- step 1
  let revision ← fetchRevision K dl
  require (!revision.blocks.isEmpty)
    (.internal "protocol violation: active revision has no blocks")
  require revision.manifestSignature.isSome
    (.verification "revision has no ManifestSignature — integrity check failed")
  -- step 2
  let sessionKey ← ofExcept id (contentSessionKey dl revision)
  let sortedBlocks := Sorting.sortByKey (·.index) revision.blocks
  -- step 3
  let t ← writeBlocks K dl sessionKey sortedBlocks Tally.empty
  let flushed ← call .flush
  ofExcept (fun e => .internal ("flush error: " ++ e)) flushed
  -- steps 4 and 5
  let signatureVerified ← ofExcept id (verifyManifest K dl sortedBlocks revision.manifestSignature)
  return { bytes := t.totalBytes, blocks := t.totalBlocks,
           lastModificationTime :=
             verifyXattr K dl revision.xAttr t.totalBytes (K.sha1 t.hashed).1,
           signatureVerified }

end

end ProtonDrive
