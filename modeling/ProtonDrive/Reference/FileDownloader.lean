import ProtonDrive.Lib.Encoding
import ProtonDrive.Reference.StreamUploader

/-!
# The file downloader of the reference client

`FileDownloader` of the TypeScript client fetches up to ten blocks at once and writes them in the order of
their indexes.  As in the stream uploader the tasks are suspended at an `await` (`DownloadMain` for
`internalDownloadToStream`, `DownloadPhase` for a call of `downloadBlock`).

* `FileDownloader`      the fields of the class, the variables of `internalDownloadToStream`, and where the
                        tasks are suspended;
* `DownloadEvent`       what is asked of the API, the crypto and the writer, with the answers;
* `DownloadStep`        a task is resumed: in any order, with any answer.
-/

set_option linter.unusedVariables false

namespace ProtonDrive.Reference
open Encoding

def MAX_DOWNLOAD_BLOCK_SIZE : Nat := 10

/-- of a block, as `transformBlock` returns it -/
structure BlockMetadata where
  index : Nat
  bareUrl : String
  token : String
  base64sha256Hash : String

/-- what the API knows of a revision, from a block on -/
structure RevisionPage where
  manifestSignature : String
  thumbnails : List String
  blocks : List BlockMetadata

/-- how the manifest was verified: the last two are a `SignatureVerificationError` -/
inductive ManifestCheck
  | verified
  | failed (e : Thrown)
  | notVerified
  | keysFailed

/-- what a download is started with -/
structure DownloadJob where
  ignoreIntegrityErrors : Bool
  ignoreManifestVerification : Bool
  sha256 : Bytes → Bytes

/-- where `downloadBlockData` is suspended -/
inductive DownloadPhase
  | pausing (m : BlockMetadata)
  | downloading (m : BlockMetadata)
  | hashing (m : BlockMetadata) (encryptedBlock : Bytes)
  | decrypting (m : BlockMetadata) (encryptedBlock : Bytes)
  | refreshing (m : BlockMetadata)
  | settled (r : Except Thrown Unit)

/-- a call of `downloadBlock` for a block of the listing -/
structure Download where
  index : Nat
  phase : DownloadPhase
  blockProgress : Nat
  retries : Nat

/-- a value of the map: the promise is the number of the call -/
structure OngoingDownload where
  index : Nat
  downloadPromise : Nat
  decryptedBufferedBlock : Option Bytes

/-- what comes behind the blocks that are flushed -/
inductive Flush
  /-- the rest of a page of the listing -/
  | page (fromBlockIndex : Nat) (rest : List BlockMetadata)
  | last

/-- where `internalDownloadToStream` is suspended -/
inductive DownloadMain
  | gettingKeys
  | listing (fromBlockIndex : Nat)
  | pausing (m : BlockMetadata) (rest : List BlockMetadata)
  | racing (behind : Flush) (promises : List Nat)
  | writing (behind : Flush) (chunk : Bytes) (retried : Bool)
  | awaitingAll (promises : List Nat)
  | verifying (hash : Bytes) (armoredManifestSignature : String)
  | finishing (r : Except Thrown Unit)
  | finished (r : Except Thrown Unit)

structure FileDownloader (J : DownloadJob) where
  nextBlockIndex : Nat
  ongoingDownloads : List OngoingDownload
  allBlockHashes : List Bytes
  armoredManifestSignature : Option String
  fileProgress : Int
  /-- of the signal -/
  aborted : Bool
  /-- of the download controller -/
  paused : Bool
  isDownloadCompleteWithSignatureIssues : Bool
  main : DownloadMain
  /-- the calls of `downloadBlock`, in the order in which they were made -/
  downloads : List Download

inductive DownloadEvent
  | getRevisionKeys (answer : Except Thrown Unit)
  | listBlocks (fromBlockIndex : Nat) (answer : Except Thrown RevisionPage)
  /-- the blocks of the page of one block -/
  | getRevisionBlockToken (blockIndex : Nat) (answer : Except Thrown (List BlockMetadata))
  | downloadBlock (bareUrl token : String) (answer : Except Thrown Bytes)
  | progress (downloadedBytes : Nat)
  | decryptBlock (encryptedBlock : Bytes) (answer : Except String Bytes)
  | write (chunk : Bytes) (answer : Except Thrown Unit)
  | verifyManifest (hash : Bytes) (armoredManifestSignature : String) (answer : ManifestCheck)
  | onFinish (r : Except Thrown Unit)
  | resumed
  /-- by the user -/
  | pause
  | resume
  | abort

namespace FileDownloader
variable {J : DownloadJob}

def await (s : FileDownloader J) (m : DownloadMain) : FileDownloader J := { s with main := m }

/-- the `catch` of `internalDownloadToStream`, for everything but a `SignatureVerificationError` -/
def fail (s : FileDownloader J) (e : Thrown) : FileDownloader J := s.await (.finishing (.error e))

/-! ## the map -/

def get (s : FileDownloader J) (index : Nat) : Option OngoingDownload :=
  mapGet OngoingDownload.index s.ongoingDownloads index

/-- `isNextBlockDownloaded`, with the block -/
def nextBlock (s : FileDownloader J) : Option Bytes := do (← s.get s.nextBlockIndex).decryptedBufferedBlock

def downloadPromises (s : FileDownloader J) : List Nat :=
  s.ongoingDownloads.map OngoingDownload.downloadPromise

def ongoingDownloadPromises (s : FileDownloader J) : List Nat :=
  (s.ongoingDownloads.filter fun d => d.decryptedBufferedBlock.isNone).map OngoingDownload.downloadPromise

/-! ## the listing -/

/-- `allBlockHashes.push(Uint8Array.fromBase64(…))`, for as many as can be decoded -/
def pushHashes (s : FileDownloader J) : List String → FileDownloader J × Option Thrown
  | [] => (s, none)
  | text :: texts =>
    match Base64.decodeLoose text with
    | none => (s, some (.other "SyntaxError"))
    | some hash => { s with allBlockHashes := s.allBlockHashes ++ [hash] }.pushHashes texts

/-- the generator ends: all blocks are being downloaded -/
def listed (s : FileDownloader J) : FileDownloader J := s.await (.awaitingAll s.downloadPromises)

/-- a block is listed: its hash is pushed first -/
def blockListed (m : BlockMetadata) (rest : List BlockMetadata) :
    FileDownloader J × Option Thrown → FileDownloader J
  | (s, some e) => s.fail e
  | (s, none) => s.await (.pausing m rest)

/-- the generator is resumed: the next block of a page, or the head of its loop -/
def iterate (s : FileDownloader J) (fromBlockIndex : Nat) : List BlockMetadata → FileDownloader J
  | [] => if s.aborted then s.listed else s.await (.listing fromBlockIndex)
  | m :: rest => blockListed m rest (s.pushHashes [m.base64sha256Hash])

def setSignature (s : FileDownloader J) (p : RevisionPage) : FileDownloader J :=
  { s with armoredManifestSignature := if p.manifestSignature = "" then none else some p.manifestSignature }

/-- what a page starts with, if it is the first -/
def pushThumbnails (s : FileDownloader J) (fromBlockIndex : Nat) (p : RevisionPage) :
    FileDownloader J × Option Thrown :=
  if fromBlockIndex = 1 then (s.setSignature p).pushHashes p.thumbnails else (s, none)

/-- an empty page is the last one -/
def blocksListed (fromBlockIndex : Nat) (blocks : List BlockMetadata) :
    FileDownloader J × Option Thrown → FileDownloader J
  | (s, some e) => s.fail e
  | (s, none) => if blocks.isEmpty then s.listed else s.iterate fromBlockIndex blocks

def pageListed (s : FileDownloader J) (fromBlockIndex : Nat) (p : RevisionPage) : FileDownloader J :=
  blocksListed fromBlockIndex p.blocks (s.pushThumbnails fromBlockIndex p)

/-! ## the manifest -/

/-- behind the last flush -/
def downloaded (s : FileDownloader J) : FileDownloader J :=
  if s.ongoingDownloads.length > 0 then s.fail (.other "Some blocks were not downloaded")
  else if J.ignoreIntegrityErrors || J.ignoreManifestVerification then s.await (.finishing (.ok ()))
  else
    match s.armoredManifestSignature with
    | none => s.fail (.integrity "Missing integrity signature")
    | some armoredManifestSignature => s.await (.verifying s.allBlockHashes.flatten armoredManifestSignature)

def signatureIssue (s : FileDownloader J) (message : String) : FileDownloader J :=
  { s with
    isDownloadCompleteWithSignatureIssues := true
    main := .finishing (.error (.integrity message)) }

def manifestChecked (s : FileDownloader J) : ManifestCheck → FileDownloader J
  | .verified => s.await (.finishing (.ok ()))
  | .failed e => s.fail e
  | .notVerified => s.signatureIssue "Data integrity check failed"
  | .keysFailed => s.signatureIssue "Failed to get verification keys"

/-! ## the blocks are written -/

/-- `flushCompletedBlocks`, and what is behind it if the next block is not there -/
def flushCompletedBlocks (s : FileDownloader J) (behind : Flush) : FileDownloader J :=
  match s.nextBlock with
  | some chunk => s.await (.writing behind chunk false)
  | none =>
    match behind with
    | .page fromBlockIndex rest => s.iterate fromBlockIndex rest
    | .last => s.downloaded

/-- the block has been written -/
def flushed (s : FileDownloader J) : FileDownloader J :=
  { s with
    ongoingDownloads := mapDelete OngoingDownload.index s.ongoingDownloads s.nextBlockIndex
    nextBlockIndex := s.nextBlockIndex + 1 }

/-- the head of the loop of `waitForDownloadCapacity` -/
def waitForNextBlock (s : FileDownloader J) (behind : Flush) : FileDownloader J :=
  if s.nextBlock.isSome then s.flushCompletedBlocks behind
  else if s.ongoingDownloadPromises.isEmpty then s.flushCompletedBlocks behind
  else s.await (.racing behind s.ongoingDownloadPromises)

def waitForDownloadCapacity (s : FileDownloader J) (behind : Flush) : FileDownloader J :=
  if s.ongoingDownloads.length ≥ MAX_DOWNLOAD_BLOCK_SIZE then s.waitForNextBlock behind
  else s.flushCompletedBlocks behind

/-- the call of `downloadBlock`, up to its first `await` -/
def startDownload (s : FileDownloader J) (m : BlockMetadata) : FileDownloader J :=
  { s with
    ongoingDownloads := mapSet OngoingDownload.index s.ongoingDownloads ⟨m.index, s.downloads.length, none⟩
    downloads := s.downloads ++ [⟨m.index, .pausing m, 0, 0⟩] }

/-! ## `downloadBlock` -/

/-- the end of `downloadBlock`: the block of an index that is no longer in the map cannot be set -/
def setBuffered (s : FileDownloader J) (d : Download) (data : Bytes) : FileDownloader J × Download :=
  if d.index ∈ s.ongoingDownloads.map OngoingDownload.index then
    ({ s with
      ongoingDownloads := s.ongoingDownloads.map fun o =>
        if o.index = d.index then { o with decryptedBufferedBlock := some data } else o },
      { d with phase := .settled (.ok ()) })
  else (s, { d with phase := .settled (.error (.other "TypeError")) })

/-- the `catch` of `downloadBlockData` -/
def downloadFailed (s : FileDownloader J) (d : Download) (m : BlockMetadata) (e : Thrown) :
    FileDownloader J × Download :=
  if s.aborted then (s, { d with phase := .settled (.error .abort) })
  else
    let s := { s with fileProgress := s.fileProgress - d.blockProgress }
    let d := { d with blockProgress := 0 }
    if e = .notFound then (s, { d with phase := .refreshing m })
    else if d.retries = 0 then (s, { d with phase := .pausing m, retries := 1 })
    else (s, { d with phase := .settled (.error e) })

def received (J : DownloadJob) (d : Download) (m : BlockMetadata) (encryptedBlock : Bytes) : Download :=
  if J.ignoreIntegrityErrors then { d with phase := .decrypting m encryptedBlock }
  else { d with phase := .hashing m encryptedBlock }

def verifyBlockIntegrity (s : FileDownloader J) (d : Download) (m : BlockMetadata) (encryptedBlock : Bytes) :
    FileDownloader J × Download :=
  if Base64.encode (J.sha256 encryptedBlock) = m.base64sha256Hash then
    (s, { d with phase := .decrypting m encryptedBlock })
  else s.downloadFailed d m (.integrity "Data integrity check of one part failed")

def refreshed (d : Download) : List BlockMetadata → Download
  | m :: _ => { d with phase := .pausing m }
  | [] => { d with phase := .settled (.error (.other "TypeError")) }

def withDownloads (s : FileDownloader J) (downloads : List Download) : FileDownloader J :=
  { s with downloads := downloads }

def start (J : DownloadJob) : FileDownloader J where
  nextBlockIndex := 1
  ongoingDownloads := []
  allBlockHashes := []
  armoredManifestSignature := none
  fileProgress := 0
  aborted := false
  paused := false
  isDownloadCompleteWithSignatureIssues := false
  main := .gettingKeys
  downloads := []

end FileDownloader

section
variable {J : DownloadJob}

/-- `internalDownloadToStream` is resumed; the keys are fetched before its `try` -/
inductive DownloadMainStep (s : FileDownloader J) : DownloadEvent → FileDownloader J → Prop
  | keys (h : s.main = .gettingKeys) : DownloadMainStep s (.getRevisionKeys (.ok ())) (s.iterate 1 [])
  | keysFailed {e} (h : s.main = .gettingKeys) :
      DownloadMainStep s (.getRevisionKeys (.error e)) (s.await (.finished (.error e)))
  | listed {n p} (h : s.main = .listing n) : DownloadMainStep s (.listBlocks n (.ok p)) (s.pageListed n p)
  | listFailed {n e} (h : s.main = .listing n) : DownloadMainStep s (.listBlocks n (.error e)) (s.fail e)
  | unpaused {m rest} (h : s.main = .pausing m rest) (hpaused : s.paused = false ∨ s.aborted = true) :
      DownloadMainStep s .resumed ((s.startDownload m).waitForDownloadCapacity (.page (m.index + 1) rest))
  | raced {behind promises promise d} (h : s.main = .racing behind promises) (hpromise : promise ∈ promises)
      (hd : s.downloads[promise]? = some d) (hphase : d.phase = .settled (.ok ())) :
      DownloadMainStep s .resumed (s.waitForNextBlock behind)
  | raceFailed {behind promises promise d e} (h : s.main = .racing behind promises)
      (hpromise : promise ∈ promises) (hd : s.downloads[promise]? = some d)
      (hphase : d.phase = .settled (.error e)) : DownloadMainStep s .resumed (s.fail e)
  | written {behind chunk retried} (h : s.main = .writing behind chunk retried) :
      DownloadMainStep s (.write chunk (.ok ())) (s.flushed.flushCompletedBlocks behind)
  | rewritten {behind chunk e} (h : s.main = .writing behind chunk false) :
      DownloadMainStep s (.write chunk (.error e)) (s.await (.writing behind chunk true))
  | writeFailed {behind chunk e} (h : s.main = .writing behind chunk true) :
      DownloadMainStep s (.write chunk (.error e)) (s.fail e)
  | allAwaited {promises} (h : s.main = .awaitingAll promises)
      (hall : ∀ promise ∈ promises, ∃ d, s.downloads[promise]? = some d ∧ d.phase = .settled (.ok ())) :
      DownloadMainStep s .resumed (s.flushCompletedBlocks .last)
  | allFailed {promises promise d e} (h : s.main = .awaitingAll promises) (hpromise : promise ∈ promises)
      (hd : s.downloads[promise]? = some d) (hphase : d.phase = .settled (.error e)) :
      DownloadMainStep s .resumed (s.fail e)
  | manifestChecked {hash signature check} (h : s.main = .verifying hash signature) :
      DownloadMainStep s (.verifyManifest hash signature check) (s.manifestChecked check)
  | finished {r} (h : s.main = .finishing r) : DownloadMainStep s (.onFinish r) (s.await (.finished r))

/-- the download `d` is resumed: what becomes of the state beside it, and of the download itself -/
inductive BlockStep (s : FileDownloader J) (d : Download) : DownloadEvent → FileDownloader J × Download → Prop
  | unpaused {m} (h : d.phase = .pausing m) (hpaused : s.paused = false ∨ s.aborted = true) :
      BlockStep s d .resumed (s, { d with phase := .downloading m })
  | progress {m n} (h : d.phase = .downloading m) :
      BlockStep s d (.progress n)
        ({ s with fileProgress := s.fileProgress + n }, { d with blockProgress := d.blockProgress + n })
  | received {m encryptedBlock} (h : d.phase = .downloading m) :
      BlockStep s d (.downloadBlock m.bareUrl m.token (.ok encryptedBlock))
        (s, FileDownloader.received J d m encryptedBlock)
  | failed {m e} (h : d.phase = .downloading m) :
      BlockStep s d (.downloadBlock m.bareUrl m.token (.error e)) (s.downloadFailed d m e)
  | hashed {m encryptedBlock} (h : d.phase = .hashing m encryptedBlock) :
      BlockStep s d .resumed (s.verifyBlockIntegrity d m encryptedBlock)
  | decrypted {m encryptedBlock data} (h : d.phase = .decrypting m encryptedBlock) :
      BlockStep s d (.decryptBlock encryptedBlock (.ok data)) (s.setBuffered d data)
  | decryptFailed {m encryptedBlock message} (h : d.phase = .decrypting m encryptedBlock) :
      BlockStep s d (.decryptBlock encryptedBlock (.error message))
        (s.downloadFailed d m (.other s!"Failed to decrypt block: {message}"))
  | refreshed {m blocks} (h : d.phase = .refreshing m) :
      BlockStep s d (.getRevisionBlockToken m.index (.ok blocks)) (s, FileDownloader.refreshed d blocks)
  | refreshFailed {m e} (h : d.phase = .refreshing m) :
      BlockStep s d (.getRevisionBlockToken m.index (.error e))
        (s, { d with phase := .settled (.error e) })

inductive DownloadStep : FileDownloader J → DownloadEvent → FileDownloader J → Prop
  | main {s e s'} (h : DownloadMainStep s e s') : DownloadStep s e s'
  | block {s s' : FileDownloader J} {e d d' pre post} (hd : s.downloads = pre ++ d :: post)
      (h : BlockStep s d e (s', d')) : DownloadStep s e (s'.withDownloads (pre ++ d' :: post))
  | pause {s} : DownloadStep s .pause { s with paused := true }
  | resume {s} : DownloadStep s .resume { s with paused := false }
  | abort {s} : DownloadStep s .abort { s with aborted := true }

end

end ProtonDrive.Reference
