import ProtonDrive.Lib.Json
import ProtonDrive.Lib.Sorting
import ProtonDrive.Reference.ChunkReader

/-!
# The stream uploader of the reference client

`StreamUploader` of the TypeScript client runs on one thread, but as many tasks: `start` requests tokens and
starts uploads, `encryptBlocks` reads the stream and fills the buffer, and each upload has a task of its own.
A task is suspended at an `await` (`Main`, `Encryptor`, `Phase`), and what it does from there to the next one
is a function of the state, under the name of the source.

* `StreamUploader`      the fields of the class, and where its tasks are suspended;
* `UploadEvent`         what is asked of the stream, the crypto and the API, with the answers;
* `Step`                a task is resumed: in any order, with any answer.
-/

set_option linter.unusedVariables false

namespace ProtonDrive.Reference
open Encoding Sorting

/-! ## what is uploaded -/

/-- what may be thrown, as far as the uploader tells it apart -/
inductive Thrown
  | abort
  | integrity (message : String)
  | timeout
  | notFound
  | other (message : String)
  deriving DecidableEq

inductive ThumbnailType
  | type1
  | type2
  deriving DecidableEq

def ThumbnailType.value : ThumbnailType → Nat
  | .type1 => 1
  | .type2 => 2

structure Thumbnail where
  type : ThumbnailType
  thumbnail : Bytes

structure UploadMetadata where
  expectedSize : Nat
  expectedSha1 : Option String
  modificationTime : Option Int
  additionalMetadata : Option Json

/-- what an upload is started with; the hashes are those of the platform -/
structure UploadJob where
  metadata : UploadMetadata
  thumbnails : List Thumbnail
  verificationCode : Bytes
  sha1 : Bytes → Bytes
  sha256 : Bytes → Bytes
  chunkSize : Nat
  pos : 0 < chunkSize

def MAX_BUFFERED_BLOCKS : Nat := 15
def MAX_UPLOADING_BLOCKS : Nat := 5
def MAX_BLOCK_ENCRYPTION_RETRIES : Nat := 1
def MAX_BLOCK_UPLOAD_RETRIES : Nat := 3

structure EncryptedThumbnail where
  type : ThumbnailType
  encryptedData : Bytes
  originalSize : Nat
  encryptedSize : Nat
  hash : Bytes

structure EncryptedBlock where
  index : Nat
  encryptedData : Bytes
  armoredSignature : String
  verificationToken : Bytes
  originalSize : Nat
  encryptedSize : Nat
  hash : Bytes

/-- `EncryptedBlockMetadata` under the key of the part -/
structure Uploaded (κ : Type) where
  key : κ
  hash : Bytes
  encryptedSize : Nat
  originalSize : Nat

def EncryptedThumbnail.metadata (t : EncryptedThumbnail) : Uploaded ThumbnailType :=
  { key := t.type, hash := t.hash, encryptedSize := t.encryptedSize, originalSize := t.originalSize }

def EncryptedBlock.metadata (b : EncryptedBlock) : Uploaded Nat :=
  { key := b.index, hash := b.hash, encryptedSize := b.encryptedSize, originalSize := b.originalSize }

/-- an upload token: of the thumbnail of a type, or of the block of an index -/
structure UploadToken (κ : Type) where
  key : κ
  bareUrl : String
  token : String

structure UploadTokens where
  blockTokens : List (UploadToken Nat)
  thumbnailTokens : List (UploadToken ThumbnailType)

structure ContentBlock where
  index : Nat
  armoredSignature : String
  verificationToken : Bytes

def EncryptedBlock.content (b : EncryptedBlock) : ContentBlock :=
  { index := b.index, armoredSignature := b.armoredSignature, verificationToken := b.verificationToken }

structure BlockUploadRequest where
  contentBlocks : List ContentBlock
  thumbnails : List ThumbnailType

/-- what `commitDraft` gets -/
structure Commit where
  manifest : Bytes
  modificationTime : Option Int
  size : Nat
  blockSizes : List Nat
  sha1 : String
  additionalMetadata : Option Json
  checksumVerified : Bool

/-- `UploadDigests`: a hash over what it was updated with -/
structure UploadDigests where
  updates : List Bytes

def UploadDigests.update (d : UploadDigests) (data : Bytes) : UploadDigests :=
  { updates := d.updates ++ [data] }

def UploadDigests.sha1 (d : UploadDigests) (J : UploadJob) : String := Hex.encode (J.sha1 d.updates.flatten)

/-- `verifyBlock` of the crypto service: the code, and the first bytes of the block on it -/
def verificationToken (code encryptedData : Bytes) : Bytes :=
  code.mapIdx fun i value => value ^^^ encryptedData.getD i 0

/-! ## the tasks -/

inductive UploadKey
  | thumbnail (type : ThumbnailType)
  | block (index : Nat)
  deriving DecidableEq

inductive Part
  | thumbnail (t : EncryptedThumbnail)
  | block (b : EncryptedBlock)

def Part.key : Part → UploadKey
  | .thumbnail t => .thumbnail t.type
  | .block b => .block b.index

def Part.data : Part → Bytes
  | .thumbnail t => t.encryptedData
  | .block b => b.encryptedData

/-- where `uploadThumbnail` or `uploadBlock` is suspended -/
inductive Phase
  | uploading (address : Option (UploadToken UploadKey)) (attempt : Nat)
  | limiting (address : UploadToken UploadKey) (attempt : Nat)
  | refreshing (attempt : Nat)
  /-- it is over, and the `finally` that was put behind it is not -/
  | settling (r : Except Thrown Unit)
  | settled (r : Except Thrown Unit)

structure Upload where
  part : Part
  phase : Phase
  /-- of `createProgressCallback` -/
  reported : Nat

def Upload.key (u : Upload) : UploadKey := u.part.key

/-- where `encryptBlocks` is suspended; the generator is gone when it has yielded the last chunk -/
inductive Encryptor (chunkSize : Nat)
  | idle
  | reading (reader : ChunkStreamReader chunkSize) (index : Nat)
  | pausing (rest : Option (ChunkStreamReader chunkSize)) (index : Nat) (block : Bytes)
  | buffering (rest : Option (ChunkStreamReader chunkSize)) (index : Nat) (block : Bytes)
  | encrypting (rest : Option (ChunkStreamReader chunkSize)) (index : Nat) (block : Bytes) (attempt : Nat)
  | verifying (rest : Option (ChunkStreamReader chunkSize)) (index : Nat) (block : Bytes) (attempt : Nat)
      (encryptedData : Bytes) (armoredSignature : String)
  /-- its `finally` is over, and the `catch` that was put behind it is not -/
  | ended (error : Option Thrown)
  | settled (error : Option Thrown)

/-- the extended attributes and the integrity info, while the manifest is made -/
structure Attributes where
  blockSizes : List Nat
  sha1 : String
  checksumVerified : Bool

/-- where `start` is suspended -/
inductive Main
  | encryptingThumbnail (thumbnail : Thumbnail) (rest : List Thumbnail)
  | pausing
  | racing (keys : List UploadKey)
  | polling
  | requesting (request : BlockUploadRequest)
  | awaitingEncryption
  | awaitingUploads (keys : List UploadKey)
  | hashingThumbnails (attributes : Attributes)
  | hashingBlocks (attributes : Attributes) (hashes : List Bytes)
  | committing
  | finishing (r : Except Thrown Unit)
  | finished (r : Except Thrown Unit)

structure StreamUploader (J : UploadJob) where
  maxUploadingBlocks : Nat
  digests : UploadDigests
  encryptedThumbnails : List EncryptedThumbnail
  encryptedBlocks : List EncryptedBlock
  encryptionFinished : Bool
  ongoingUploads : List UploadKey
  uploadedThumbnails : List (Uploaded ThumbnailType)
  uploadedBlocks : List (Uploaded Nat)
  error : Option Thrown
  /-- of the abort controller -/
  aborted : Bool
  /-- of the upload controller -/
  paused : Bool
  fileProgress : Int
  main : Main
  encryptor : Encryptor J.chunkSize
  /-- the promises of the uploads, in the order in which they were started -/
  uploads : List Upload

inductive UploadEvent
  | encryptThumbnail (thumbnail : Thumbnail) (answer : Except Thrown Bytes)
  | read (value : Bytes)
  | readDone
  | readFailed (e : Thrown)
  | encryptBlock (block : Bytes) (answer : Except Thrown (Bytes × String))
  | decryptBlock (encryptedData : Bytes) (answer : Except Thrown Unit)
  | requestBlockUpload (request : BlockUploadRequest) (answer : Except Thrown UploadTokens)
  | uploadBlock (address : UploadToken UploadKey) (data : Bytes) (answer : Except Thrown Unit)
  | progress (uploadedBytes : Nat)
  | commitDraft (c : Commit)
  | commitAnswered (answer : Except Thrown Unit)
  | onFinish (failure : Bool)
  /-- a task goes on with nothing but the state of the others -/
  | resumed
  /-- by the user: `pause` and `resume` of the upload controller, and the abort signal -/
  | pause
  | resume
  | abort

/-- `Map.set` and `Map.get`, `Map.delete` of a map whose values know their keys -/
def mapSet {α κ : Type} [DecidableEq κ] (key : α → κ) (l : List α) (a : α) : List α :=
  if key a ∈ l.map key then l.map fun b => if key b = key a then a else b else l ++ [a]

def mapGet {α κ : Type} [DecidableEq κ] (key : α → κ) (l : List α) (k : κ) : Option α :=
  l.find? fun b => key b = k

def mapDelete {α κ : Type} [DecidableEq κ] (key : α → κ) (l : List α) (k : κ) : List α :=
  l.filter fun b => key b ≠ k

namespace StreamUploader
variable {J : UploadJob}

/-! ## the state of the whole upload -/

def isUploadAborted (s : StreamUploader J) : Bool := s.error.isSome || s.aborted

def abortUpload (s : StreamUploader J) (e : Thrown) : StreamUploader J :=
  if s.isUploadAborted then s else { s with error := some e, aborted := true }

def isEncryptionFullyFinished (s : StreamUploader J) : Bool :=
  s.encryptionFinished && s.encryptedBlocks.isEmpty && s.encryptedThumbnails.isEmpty

/-- the `finally` of `start` -/
def cleanup (s : StreamUploader J) (r : Except Thrown Unit) : StreamUploader J :=
  { s with
    encryptedBlocks := []
    encryptedThumbnails := []
    ongoingUploads := []
    uploadedBlocks := []
    uploadedThumbnails := []
    encryptionFinished := false
    main := .finishing r }

/-- `start` is suspended -/
def await (s : StreamUploader J) (m : Main) : StreamUploader J := { s with main := m }

/-! ## `encryptAndUploadBlocks` -/

/-- what is behind the loop -/
def leave (s : StreamUploader J) : StreamUploader J :=
  match s.error with
  | some e => s.cleanup (.error e)
  | none => if s.aborted then s.cleanup (.error .abort) else s.await .awaitingEncryption

/-- the head of the loop -/
def loop (s : StreamUploader J) : StreamUploader J :=
  if s.isUploadAborted then s.leave else s.await .pausing

/-- `encryptBlocks` is called, and is suspended when it first reads the stream -/
def encryptAndUploadBlocks (s : StreamUploader J) : StreamUploader J :=
  { s with encryptor := .reading (.ofSize J.pos) 0 }.loop

def encryptThumbnails (s : StreamUploader J) : List Thumbnail → StreamUploader J
  | [] => s.encryptAndUploadBlocks
  | t :: rest =>
    if s.isUploadAborted then s.encryptAndUploadBlocks
    else s.await (.encryptingThumbnail t rest)

/-- the thumbnail that `encryptThumbnail` of the crypto service returns -/
def encryptedThumbnail (J : UploadJob) (t : Thumbnail) (encryptedData : Bytes) : EncryptedThumbnail where
  type := t.type
  encryptedData := encryptedData
  originalSize := t.thumbnail.length
  encryptedSize := encryptedData.length
  hash := J.sha256 encryptedData

def setThumbnail (s : StreamUploader J) (t : EncryptedThumbnail) : StreamUploader J :=
  { s with encryptedThumbnails := mapSet EncryptedThumbnail.type s.encryptedThumbnails t }

def thumbnailEncrypted (s : StreamUploader J) (t : Thumbnail) (rest : List Thumbnail)
    (encryptedData : Bytes) : StreamUploader J :=
  (s.setThumbnail (encryptedThumbnail J t encryptedData)).encryptThumbnails rest

def waitForUploadCapacityAndBufferedBlocks (s : StreamUploader J) : StreamUploader J :=
  if s.ongoingUploads.length ≥ s.maxUploadingBlocks then s.await (.racing s.ongoingUploads)
  else s.await .polling

/-- the body of the loop once there is something to upload -/
def request (s : StreamUploader J) : StreamUploader J :=
  if s.isEncryptionFullyFinished || s.isUploadAborted then s.leave
  else
    s.await (.requesting
      { contentBlocks := s.encryptedBlocks.map EncryptedBlock.content
        thumbnails := s.encryptedThumbnails.map EncryptedThumbnail.type })

/-- the call of `uploadThumbnail` or `uploadBlock`, up to the request -/
def startUpload (s : StreamUploader J) (part : Part) (bareUrl token : String) : StreamUploader J :=
  { s with
    ongoingUploads := mapSet id s.ongoingUploads part.key
    uploads := s.uploads ++ [⟨part, .uploading (some ⟨part.key, bareUrl, token⟩) 1, 0⟩] }

def startThumbnails (s : StreamUploader J) :
    List (UploadToken ThumbnailType) → StreamUploader J × Option Thrown
  | [] => (s, none)
  | thumbnailToken :: rest =>
    match mapGet EncryptedThumbnail.type s.encryptedThumbnails thumbnailToken.key with
    | none => (s, some (.other s!"Thumbnail {thumbnailToken.key.value} not found"))
    | some t =>
      let encryptedThumbnails :=
        mapDelete EncryptedThumbnail.type s.encryptedThumbnails thumbnailToken.key
      startThumbnails ({ s with encryptedThumbnails := encryptedThumbnails }.startUpload (.thumbnail t)
        thumbnailToken.bareUrl thumbnailToken.token) rest

def startBlocks (s : StreamUploader J) : List (UploadToken Nat) → StreamUploader J × Option Thrown
  | [] => (s, none)
  | blockToken :: rest =>
    match mapGet EncryptedBlock.index s.encryptedBlocks blockToken.key with
    | none => (s, some (.other s!"Block {blockToken.key} not found"))
    | some b =>
      let encryptedBlocks := mapDelete EncryptedBlock.index s.encryptedBlocks blockToken.key
      startBlocks ({ s with encryptedBlocks := encryptedBlocks }.startUpload (.block b)
        blockToken.bareUrl blockToken.token) rest

/-- the end of an iteration, if nothing was thrown in it -/
def endIteration : StreamUploader J × Option Thrown → StreamUploader J
  | (s, some e) => s.cleanup (.error e)
  | (s, none) => if s.isEncryptionFullyFinished then s.leave else s.loop

/-- `requestAndInitiateUpload` once the tokens are there -/
def initiateUpload (s : StreamUploader J) (uploadTokens : UploadTokens) : StreamUploader J :=
  if s.isUploadAborted then s.cleanup (.error (s.error.getD .abort))
  else
    match s.startThumbnails uploadTokens.thumbnailTokens with
    | (s, some e) => s.cleanup (.error e)
    | (s, none) => endIteration (s.startBlocks uploadTokens.blockTokens)

/-- `await encryptBlocksPromise` -/
def encryptionAwaited (s : StreamUploader J) : Option Thrown → StreamUploader J
  | some e => s.cleanup (.error e)
  | none => s.await (.awaitingUploads s.ongoingUploads)

/-! ## `commitFile` -/

def uploadedBlockCount (s : StreamUploader J) : Nat :=
  s.uploadedBlocks.length + s.uploadedThumbnails.length

def uploadedOriginalFileSize (s : StreamUploader J) : Nat :=
  (s.uploadedBlocks.map Uploaded.originalSize).sum

def uploadedBlockSizes (s : StreamUploader J) : List Nat :=
  (sortByKey Uploaded.key s.uploadedBlocks).map Uploaded.originalSize

def expectedBlockCount (J : UploadJob) : Nat :=
  (J.metadata.expectedSize + J.chunkSize - 1) / J.chunkSize + J.thumbnails.length

/-- the last check of `verifyIntegrity`: an empty checksum is none -/
def verifyChecksum (J : UploadJob) (sha1 : String) : Except Thrown Bool :=
  match J.metadata.expectedSha1.filter (· ≠ "") with
  | none => return false
  | some expectedSha1 =>
    if sha1 ≠ expectedSha1 then throw (.integrity "File hash does not match expected hash")
    else return true

def verifyIntegrity (s : StreamUploader J) (sha1 : String) : Except Thrown Bool :=
  if s.uploadedBlockCount ≠ expectedBlockCount J then
    throw (.integrity "Some file parts failed to upload")
  else if s.uploadedOriginalFileSize ≠ J.metadata.expectedSize then
    throw (.integrity "Some file bytes failed to upload")
  else verifyChecksum J sha1

/-- `getManifest` up to the hashes -/
def inManifestOrder (s : StreamUploader J) (checksumVerified : Bool) : StreamUploader J :=
  { s with
    uploadedThumbnails := sortByKey (fun t => t.key.value) s.uploadedThumbnails
    uploadedBlocks := sortByKey Uploaded.key s.uploadedBlocks
    main := .hashingThumbnails
      { blockSizes := s.uploadedBlockSizes, sha1 := s.digests.sha1 J, checksumVerified := checksumVerified } }

def commitFile (s : StreamUploader J) : StreamUploader J :=
  match s.verifyIntegrity (s.digests.sha1 J) with
  | .error e => s.cleanup (.error e)
  | .ok checksumVerified => s.inManifestOrder checksumVerified

def hashThumbnails (s : StreamUploader J) (attributes : Attributes) : StreamUploader J :=
  s.await (.hashingBlocks attributes (s.uploadedThumbnails.map Uploaded.hash))

def commit (s : StreamUploader J) (attributes : Attributes) (hashes : List Bytes) : Commit where
  manifest := (hashes ++ s.uploadedBlocks.map Uploaded.hash).flatten
  modificationTime := J.metadata.modificationTime
  size := J.metadata.expectedSize
  blockSizes := attributes.blockSizes
  sha1 := attributes.sha1
  additionalMetadata := J.metadata.additionalMetadata
  checksumVerified := attributes.checksumVerified

/-! ## `encryptBlocks` -/

def endEncryption (s : StreamUploader J) (error : Option Thrown) : StreamUploader J :=
  { s with encryptionFinished := true, encryptor := .ended error }

/-- the beginning of the body of the loop -/
def yielded (s : StreamUploader J) (rest : Option (ChunkStreamReader J.chunkSize)) (index : Nat)
    (block : Bytes) : StreamUploader J :=
  { s with digests := s.digests.update block, encryptor := .pausing rest (index + 1) block }

/-- the generator is resumed while it holds bytes -/
def pull (s : StreamUploader J) (reader : ChunkStreamReader J.chunkSize) (index : Nat) : StreamUploader J :=
  match reader.pull with
  | (none, reader) => { s with encryptor := .reading reader index }
  | (some block, reader) => s.yielded (some reader) index block

/-- the end of the body of the loop -/
def next (s : StreamUploader J) (rest : Option (ChunkStreamReader J.chunkSize)) (index : Nat) :
    StreamUploader J :=
  match rest with
  | some reader => s.pull reader index
  | none => s.endEncryption none

def streamDone (s : StreamUploader J) (reader : ChunkStreamReader J.chunkSize) (index : Nat) :
    StreamUploader J :=
  match reader.last with
  | some block => s.yielded none index block
  | none => s.endEncryption none

/-- behind `waitForBufferCapacity` -/
def buffered (s : StreamUploader J) (rest : Option (ChunkStreamReader J.chunkSize)) (index : Nat)
    (block : Bytes) : StreamUploader J :=
  if s.isUploadAborted then s.endEncryption none
  else { s with encryptor := .encrypting rest index block 1 }

/-- the `catch` of the body -/
def encryptionFailed (s : StreamUploader J) (rest : Option (ChunkStreamReader J.chunkSize)) (index : Nat)
    (block : Bytes) (attempt : Nat) (e : Thrown) : StreamUploader J :=
  if e = .abort then s.endEncryption (some e)
  else if attempt ≤ MAX_BLOCK_ENCRYPTION_RETRIES then
    { s with encryptor := .encrypting rest index block (attempt + 1) }
  else s.endEncryption (some e)

/-- the block that `encryptBlock` of the crypto service returns -/
def encryptedBlock (J : UploadJob) (index : Nat) (block encryptedData : Bytes) (armoredSignature : String) :
    EncryptedBlock where
  index := index
  encryptedData := encryptedData
  armoredSignature := armoredSignature
  verificationToken := verificationToken J.verificationCode encryptedData
  originalSize := block.length
  encryptedSize := encryptedData.length
  hash := J.sha256 encryptedData

def setBlock (s : StreamUploader J) (b : EncryptedBlock) : StreamUploader J :=
  { s with encryptedBlocks := mapSet EncryptedBlock.index s.encryptedBlocks b }

def blockVerified (s : StreamUploader J) (rest : Option (ChunkStreamReader J.chunkSize)) (index : Nat)
    (block encryptedData : Bytes) (armoredSignature : String) : StreamUploader J :=
  (s.setBlock (encryptedBlock J index block encryptedData armoredSignature)).next rest index

/-- the `catch` behind `encryptBlocks` -/
def encryptorCaught (s : StreamUploader J) (error : Option Thrown) : StreamUploader J :=
  match error with
  | some e => { s.abortUpload e with encryptor := .settled error }
  | none => { s with encryptor := .settled error }

/-! ## `uploadThumbnail` and `uploadBlock` -/

/-- the head of the loop: only a block looks whether the upload is aborted -/
def attemptUpload (s : StreamUploader J) (u : Upload) (address : Option (UploadToken UploadKey))
    (attempt : Nat) : Upload :=
  match u.part with
  | .thumbnail _ => { u with phase := .uploading address (attempt + 1) }
  | .block _ =>
    if s.isUploadAborted then { u with phase := .settling (.error (s.error.getD .abort)) }
    else { u with phase := .uploading address (attempt + 1) }

def uploadDone (s : StreamUploader J) : Part → StreamUploader J
  | .thumbnail t => { s with uploadedThumbnails := s.uploadedThumbnails ++ [t.metadata] }
  | .block b => { s with uploadedBlocks := s.uploadedBlocks ++ [b.metadata] }

/-- `if (attempt <= MAX_BLOCK_UPLOAD_RETRIES)`, and what is behind it -/
def uploadRetried (s : StreamUploader J) (u : Upload) (address : Option (UploadToken UploadKey))
    (attempt : Nat) (e : Thrown) : StreamUploader J × Upload :=
  if attempt ≤ MAX_BLOCK_UPLOAD_RETRIES then (s, s.attemptUpload u address attempt)
  else (s.abortUpload e, { u with phase := .settling (.error e) })

/-- `rollbackProgress` and the rest of the `catch` -/
def uploadRolledBack (s : StreamUploader J) (u : Upload) (address : Option (UploadToken UploadKey))
    (attempt : Nat) (e : Thrown) : StreamUploader J × Upload :=
  match u.part, e, address with
  | .block _, .timeout, some address =>
    ({ s with maxUploadingBlocks := 1 }, { u with phase := .limiting address attempt })
  | .block _, .notFound, _ => (s, { u with phase := .refreshing attempt })
  | _, _, _ => s.uploadRetried u address attempt e

/-- the `catch` of the loop -/
def uploadFailed (s : StreamUploader J) (u : Upload) (address : Option (UploadToken UploadKey))
    (attempt : Nat) (e : Thrown) : StreamUploader J × Upload :=
  if e = .abort ∨ s.isUploadAborted = true then (s, { u with phase := .settling (.error e) })
  else
    uploadRolledBack { s with fileProgress := s.fileProgress - u.reported } { u with reported := 0 } address
      attempt e

/-- the indexes of the blocks that are being uploaded -/
def ongoingIndexes (s : StreamUploader J) : List Nat :=
  s.ongoingUploads.filterMap fun
    | .thumbnail _ => none
    | .block index => some index

/-- the condition that `limitUploadCapacity` waits for -/
def IsLowest (s : StreamUploader J) (address : UploadToken UploadKey) : Prop :=
  ∃ index, s.ongoingIndexes.min? = some index ∧ address.key = .block index

def tokenAddress (t : UploadToken Nat) : UploadToken UploadKey := ⟨.block t.key, t.bareUrl, t.token⟩

/-- the `finally` behind an upload -/
def uploadSettled (s : StreamUploader J) (key : UploadKey) : StreamUploader J :=
  { s with ongoingUploads := mapDelete id s.ongoingUploads key }

def withUploads (s : StreamUploader J) (uploads : List Upload) : StreamUploader J :=
  { s with uploads := uploads }

end StreamUploader

/-! ## the beginning, and the steps -/

/-- `encryptThumbnails` refuses two thumbnails of one type; `start` until it is suspended -/
def StreamUploader.start (J : UploadJob) : StreamUploader J :=
  let s : StreamUploader J :=
    { maxUploadingBlocks := MAX_UPLOADING_BLOCKS
      digests := { updates := [] }
      encryptedThumbnails := []
      encryptedBlocks := []
      encryptionFinished := false
      ongoingUploads := []
      uploadedThumbnails := []
      uploadedBlocks := []
      error := none
      aborted := false
      paused := false
      fileProgress := 0
      main := .pausing
      encryptor := .idle
      uploads := [] }
  if (J.thumbnails.map Thumbnail.type).Nodup then s.encryptThumbnails J.thumbnails
  else s.cleanup (.error (.other "Duplicate thumbnail types"))

section
variable {J : UploadJob}

/-- `start` is resumed -/
inductive MainStep (s : StreamUploader J) : UploadEvent → StreamUploader J → Prop
  | thumbnailEncrypted {t rest data} (h : s.main = .encryptingThumbnail t rest) :
      MainStep s (.encryptThumbnail t (.ok data)) (s.thumbnailEncrypted t rest data)
  | thumbnailFailed {t rest e} (h : s.main = .encryptingThumbnail t rest) :
      MainStep s (.encryptThumbnail t (.error e)) (s.cleanup (.error e))
  | unpaused (h : s.main = .pausing) (hpaused : s.paused = false ∨ s.aborted = true) :
      MainStep s .resumed s.waitForUploadCapacityAndBufferedBlocks
  | raced {keys u} (h : s.main = .racing keys) (hu : u ∈ s.uploads) (hkey : u.key ∈ keys)
      (hphase : u.phase = .settled (.ok ())) :
      MainStep s .resumed s.waitForUploadCapacityAndBufferedBlocks
  | raceFailed {keys u e} (h : s.main = .racing keys) (hu : u ∈ s.uploads) (hkey : u.key ∈ keys)
      (hphase : u.phase = .settled (.error e)) : MainStep s .resumed (s.cleanup (.error e))
  | polled (h : s.main = .polling)
      (hcond : s.encryptedBlocks ≠ [] ∨ s.encryptionFinished = true ∨ s.aborted = true) :
      MainStep s .resumed s.request
  | initiated {request tokens} (h : s.main = .requesting request) :
      MainStep s (.requestBlockUpload request (.ok tokens)) (s.initiateUpload tokens)
  | requestFailed {request e} (h : s.main = .requesting request) :
      MainStep s (.requestBlockUpload request (.error e)) (s.cleanup (.error e))
  | encryptionAwaited {error} (h : s.main = .awaitingEncryption) (hsettled : s.encryptor = .settled error) :
      MainStep s .resumed (s.encryptionAwaited error)
  | uploadsAwaited {keys} (h : s.main = .awaitingUploads keys)
      (hall : ∀ key ∈ keys, ∃ u ∈ s.uploads, u.key = key ∧ u.phase = .settled (.ok ())) :
      MainStep s .resumed s.commitFile
  | uploadsFailed {keys u e} (h : s.main = .awaitingUploads keys) (hu : u ∈ s.uploads)
      (hkey : u.key ∈ keys) (hphase : u.phase = .settled (.error e)) :
      MainStep s .resumed (s.cleanup (.error e))
  | thumbnailsHashed {attributes} (h : s.main = .hashingThumbnails attributes) :
      MainStep s .resumed (s.hashThumbnails attributes)
  | blocksHashed {attributes hashes} (h : s.main = .hashingBlocks attributes hashes) :
      MainStep s (.commitDraft (s.commit attributes hashes)) (s.await .committing)
  | committed {answer} (h : s.main = .committing) : MainStep s (.commitAnswered answer) (s.cleanup answer)
  | finished {r} (h : s.main = .finishing r) : MainStep s (.onFinish (!r.isOk)) (s.await (.finished r))

/-- `encryptBlocks` is resumed -/
inductive EncryptorStep (s : StreamUploader J) : UploadEvent → StreamUploader J → Prop
  | read {reader index value} (h : s.encryptor = .reading reader index) :
      EncryptorStep s (.read value) (s.pull (reader.receive value) index)
  | readDone {reader index} (h : s.encryptor = .reading reader index) :
      EncryptorStep s .readDone (s.streamDone reader index)
  | readFailed {reader index e} (h : s.encryptor = .reading reader index) :
      EncryptorStep s (.readFailed e) (s.endEncryption (some e))
  | unpaused {rest index block} (h : s.encryptor = .pausing rest index block)
      (hpaused : s.paused = false ∨ s.aborted = true) :
      EncryptorStep s .resumed { s with encryptor := .buffering rest index block }
  | buffered {rest index block} (h : s.encryptor = .buffering rest index block)
      (hcond : s.encryptedBlocks.length < MAX_BUFFERED_BLOCKS ∨ s.aborted = true) :
      EncryptorStep s .resumed (s.buffered rest index block)
  | encrypted {rest index block attempt data signature}
      (h : s.encryptor = .encrypting rest index block attempt) :
      EncryptorStep s (.encryptBlock block (.ok (data, signature)))
        { s with encryptor := .verifying rest index block attempt data signature }
  | encryptFailed {rest index block attempt e} (h : s.encryptor = .encrypting rest index block attempt) :
      EncryptorStep s (.encryptBlock block (.error e)) (s.encryptionFailed rest index block attempt e)
  | verified {rest index block attempt data signature}
      (h : s.encryptor = .verifying rest index block attempt data signature) :
      EncryptorStep s (.decryptBlock data (.ok ())) (s.blockVerified rest index block data signature)
  | verifyFailed {rest index block attempt data signature e}
      (h : s.encryptor = .verifying rest index block attempt data signature) :
      EncryptorStep s (.decryptBlock data (.error e))
        (s.encryptionFailed rest index block attempt (.integrity "Data integrity check of one part failed"))
  | caught {error} (h : s.encryptor = .ended error) : EncryptorStep s .resumed (s.encryptorCaught error)

/-- the upload `u` is resumed: what becomes of the state beside it, and of the upload itself -/
inductive UploadStep (s : StreamUploader J) (u : Upload) : UploadEvent → StreamUploader J × Upload → Prop
  | progress {address attempt n} (h : u.phase = .uploading address attempt) :
      UploadStep s u (.progress n)
        ({ s with fileProgress := s.fileProgress + n }, { u with reported := u.reported + n })
  | sent {address attempt} (h : u.phase = .uploading (some address) attempt) :
      UploadStep s u (.uploadBlock address u.part.data (.ok ()))
        (s.uploadDone u.part, { u with phase := .settling (.ok ()) })
  | failed {address attempt e} (h : u.phase = .uploading (some address) attempt) :
      UploadStep s u (.uploadBlock address u.part.data (.error e))
        (s.uploadFailed u (some address) attempt e)
  /-- there is no token where the answer to the request for one was empty -/
  | unaddressed {attempt} (h : u.phase = .uploading none attempt) :
      UploadStep s u .resumed (s.uploadFailed u none attempt (.other "TypeError"))
  | limited {address attempt} (h : u.phase = .limiting address attempt)
      (hcond : s.IsLowest address ∨ s.aborted = true) :
      UploadStep s u .resumed (s, s.attemptUpload u (some address) attempt)
  | refreshed {b attempt tokens} (hpart : u.part = .block b) (h : u.phase = .refreshing attempt) :
      UploadStep s u (.requestBlockUpload { contentBlocks := [b.content], thumbnails := [] } (.ok tokens))
        (s, s.attemptUpload u (tokens.blockTokens.head?.map StreamUploader.tokenAddress) attempt)
  | refreshFailed {b attempt e} (hpart : u.part = .block b) (h : u.phase = .refreshing attempt) :
      UploadStep s u (.requestBlockUpload { contentBlocks := [b.content], thumbnails := [] } (.error e))
        (s, { u with phase := .settling (.error e) })
  | settled {r} (h : u.phase = .settling r) :
      UploadStep s u .resumed (s.uploadSettled u.key, { u with phase := .settled r })

inductive Step : StreamUploader J → UploadEvent → StreamUploader J → Prop
  | main {s e s'} (h : MainStep s e s') : Step s e s'
  | encryptor {s e s'} (h : EncryptorStep s e s') : Step s e s'
  | upload {s s' : StreamUploader J} {e u u' pre post} (hu : s.uploads = pre ++ u :: post)
      (h : UploadStep s u e (s', u')) : Step s e (s'.withUploads (pre ++ u' :: post))
  | pause {s} : Step s .pause { s with paused := true }
  | resume {s} : Step s .resume { s with paused := false }
  | abort {s} : Step s .abort { s with aborted := true }

end

end ProtonDrive.Reference
