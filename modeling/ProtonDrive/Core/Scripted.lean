import ProtonDrive.Core.Traces
import ProtonDrive.Core.Transparent
import ProtonDrive.Core.Upload
import ProtonDrive.Core.Client

/-!
# A host that answers from a script

* `readTable docs`    a JSON reader that knows the documents `docs` by their text;
* `Script`, `serve`, `play`
                      the answers to the requests as functions of the request, a stream with given
                      content, and a local side on which nothing fails; `play` is the run of a
                      program with them;
* `smallAccount`, `smallTree`
                      an account with one address key, and the documents of a share `s` whose root
                      is the folder `root`, with keys of the transparent crypto;
* `smallUploader`, `smallUpload`
                      the upload of the one byte "A" as a file `f` of that folder, and the answers
                      to it, given the links of the block;
* `smallDownloader`, `smallDownload`
                      the download of that file, and the answers to it, given the revision;
* `smallClient`, `smallTransfer`
                      the same from the uid of the file on.
-/

set_option linter.unusedVariables false

namespace ProtonDrive
open Encoding Effects Api

/-! ## scripts -/

def textOf (j : Json) : Bytes := asBytes j.render

def readTable (docs : List Json) (text : Bytes) : Option Json :=
  docs.find? fun j => textOf j = text

/-- a reader that can tell its documents apart reads each as itself -/
theorem readTable_textOf {docs : List Json} (hdocs : (docs.map textOf).Nodup) {j : Json}
    (hj : j ∈ docs) : readTable docs (textOf j) = some j := by
  unfold readTable
  induction docs with
  | nil => cases hj
  | cons doc docs ih =>
    obtain ⟨hne, hdocs⟩ := List.nodup_cons.mp hdocs
    rcases List.mem_cons.mp hj with rfl | hj
    · exact List.find?_cons_of_pos (decide_eq_true rfl)
    · have hno : ¬ textOf doc = textOf j :=
        fun h => hne (h ▸ List.mem_map_of_mem hj)
      rw [List.find?_cons_of_neg (by simpa using hno)]
      exact ih hdocs hj

structure Script where
  json : HttpMethod → String → Bytes
  blob : BlobRequest → JsonResponse
  stream : Bytes

def Script.serve (s : Script) (h : Trace host) : (c : HostCall) → c.Ans
  | .requestJson req => .ok { status := 200, headers := [], body := s.json req.method req.path }
  | .requestBlob req => .ok (s.blob req)
  | .coins => h.length
  | .read cap => .ok ⟨(s.stream.drop (delivered h).length).take cap, List.length_take_le _ _⟩
  | .isCancelled _ => false
  | .sendProgress _ => ()
  | .createFile _ => .ok ()
  | .writeAll _ => .ok ()
  | .flush => .ok ()
  | .onEvent _ => ()
  | .providerGet => .ok none
  | .providerSet _ => .ok ()
  | .sleepOrCancelled _ => true

/-- what a program does with the script -/
def Script.play {α : Type} (s : Script) (p : Sdk α) : Trace host × Option (Except Fault α) :=
  exec s.serve [] p.run

theorem Script.play_runs {α : Type} {s : Script} {p : Sdk α}
    {R : Trace host × Option (Except Fault α)} (hrun : R = s.play p) {r : Except Fault α}
    (h : R.2 = some r) : Runs p.run R.1 (.done r) := by
  subst hrun
  exact exec_runs s.serve [] p.run r h

/-- every answer in the run comes from the script -/
theorem Script.play_served {α : Type} {s : Script} {p : Sdk α}
    {R : Trace host × Option (Except Fault α)} (hrun : R = s.play p) :
    ∀ e ∈ R.1, ∃ h, e.ans = s.serve h e.call := by
  subst hrun
  exact exec_served s.serve [] p.run

/-! ## a small account -/

/-- a secret for the key with the given fingerprint, as it stands in a link -/
def sealedFor (fingerprintHex : String) (secret : Bytes) : String :=
  armor (Transparent.encrypt secret { data := [7], cipherAlgorithm := 9, aead := .none }
    [{ armored := fingerprintHex, fingerprintHex }]) .message

/-- what `sealedFor` makes is a message of the transparent crypto -/
theorem sealedFor_eq (fingerprintHex : String) (secret : Bytes) : ∃ message,
    sealedFor fingerprintHex secret = armor message .message ∧
      transparentCrypto.encryptAndSign secret { data := [7], cipherAlgorithm := 9, aead := .none }
        [{ armored := fingerprintHex, fingerprintHex }]
        { armored := "", fingerprintHex := "", passphrase := "" } {} (0 : Nat) = .ok message :=
  ⟨_, rfl, rfl⟩

def addressKey : PrivateKey := { armored := "addr", fingerprintHex := "addr", passphrase := "" }

def smallAccount : ProtonDriveAccount where
  primaryEmail := "me"
  addressPrivateKey _ := .ok addressKey
  addressPublicKeys _ := .ok [{ armored := "addr", fingerprintHex := "addr" }]
  addressId _ := .ok "a"

def smallShare : Json :=
  .obj [("Code", .num 1000), ("ShareID", .str "s"), ("VolumeID", .str "v"), ("LinkID", .str "root"),
    ("Type", .num 1), ("Key", .str "shr"), ("Passphrase", .str (sealedFor "addr" (asBytes "p"))),
    ("PassphraseSignature", .str ""), ("AddressID", .str "a")]

def smallRoot : Json :=
  .obj [("Code", .num 1000), ("Link", .obj [("LinkID", .str "root"), ("Type", .num 1),
    ("Name", .str ""), ("State", .num 1), ("Size", .num 0), ("CreateTime", .num 0),
    ("ModifyTime", .num 0), ("NodeKey", .str "dir"), ("NodePassphrase", .str (sealedFor "shr" (asBytes "p"))),
    ("NodePassphraseSignature", .str ""),
    ("FolderProperties", .obj [("NodeHashKey", .str (sealedFor "dir" [1, 2, 3]))])])]

def smallTree (path : String) : Option Json :=
  if path = "/drive/shares/s" then some smallShare
  else if path = "/drive/shares/s/links/root" then some smallRoot
  else none

/-! ## a small upload -/

def smallUploader : ProtonFileUploader where
  openpgp := transparentCrypto
  account := smallAccount
  parent := { volumeId := "s", nodeId := "root" }
  name := "f"
  metadata :=
    { mediaType := "text/plain", expectedSize := 1, expectedSha1Hex := none,
      modificationTime := none, additionalMetadataJson := none,
      overrideExistingDraftByOtherClient := false }

/-- the ciphertext of the block, the session key being the eighth random value -/
def smallCiphertext : Bytes :=
  Transparent.encrypt [65] { data := [56], cipherAlgorithm := 9, aead := .none } []

/-- the digests are those of the inputs that occur: `smallCiphertext`, "A", and "f" under the key
1, 2, 3 -/
def smallCrates (docs : List Json) : Crates where
  jsonParse := readTable docs
  jsonError _ _ := "expected value at line 1 column 512"
  base64Error _ := "Invalid padding"
  utf8Error _ := "invalid utf-8 sequence"
  sha256 _ := ⟨[99, 149, 214, 53, 178, 161, 89, 75, 95, 227, 195, 125, 149, 230, 210, 26,
    112, 54, 98, 48, 34, 131, 181, 7, 18, 255, 75, 44, 162, 12, 215, 148], rfl⟩
  sha1 _ := ⟨[109, 205, 76, 226, 61, 136, 226, 238, 149, 104,
    186, 84, 108, 0, 124, 99, 217, 19, 28, 27], rfl⟩
  hmacSha256 _ _ := .ok ⟨[136, 141, 25, 236, 16, 103, 117, 186, 255, 239, 161, 33, 215, 160, 183, 124,
    74, 8, 58, 100, 149, 20, 178, 73, 74, 230, 127, 111, 22, 61, 123, 124], rfl⟩

theorem smallCrates_envelopes {D : List Json} (hdocs : (D.map textOf).Nodup) {j : Json}
    (hj : j ∈ D) {α : Type} {dec : Json → Option α} {a : α}
    (hdec : ResponseEnvelope.ofJson dec j = some { code := CODE_OK, inner := a, error := none }) :
    (smallCrates D).Envelopes dec (textOf j) a := by
  refine ⟨none, ?_⟩
  have hparse : (smallCrates D).jsonParse (textOf j) = some j := readTable_textOf hdocs hj
  rw [hparse]
  exact hdec

def smallFile : Json :=
  .obj [("Code", .num 1000), ("File", .obj [("ID", .str "file"), ("RevisionID", .str "rev")])]

def smallVerification : Json := .obj [("Code", .num 1000), ("VerificationCode", .str "")]

def smallLinks (links : List Upload.UploadLink) : Json :=
  .obj [("Code", .num 1000), ("UploadLinks", .arr (links.map fun l =>
    .obj [("Index", .num l.index), ("BareURL", .str l.bareUrl), ("Token", .str l.token)]))]

def smallDone : Json := .obj [("Code", .num 1000)]

def smallAnswer (links : List Upload.UploadLink) : HttpMethod → String → Option Json
  | .get, path =>
    if path = "/drive/v2/volumes/v/links/file/revisions/rev/verification" then
      some smallVerification
    else smallTree path
  | .post, path => if path = blocksPath then some (smallLinks links) else some smallFile
  | _, _ => some smallDone

def smallDocs (links : List Upload.UploadLink) : List Json :=
  [smallShare, smallRoot, smallFile, smallVerification, smallLinks links, smallDone]

def smallUpload (links : List Upload.UploadLink) : Script where
  json method path := (smallAnswer links method path).elim [] textOf
  blob _ := { status := 200, headers := [], body := [] }
  stream := [65]

/-! ## a small download -/

def smallKey : SessionKey := { data := [56], cipherAlgorithm := 9, aead := .none }

def smallNodeKey : PrivateKey := { armored := "node", fingerprintHex := "node", passphrase := "p" }

def smallDownloader : FileDownloader where
  crypto := transparentCrypto
  nodeUid := { volumeId := "s", nodeId := "file" }
  volumeId := "v"
  shareId := "s"
  revisionId := "rev"
  nodePrivateKey := smallNodeKey
  signatureAddressPubs := [{ armored := "addr", fingerprintHex := "addr" }]
  contentKeyPacket := some (Base64.encode
    (Transparent.encrypt [] smallKey [{ armored := "node", fingerprintHex := "node" }]))

/-- a signature of the address key over `payload`, as it stands in a revision -/
def smallSignature (payload : Bytes) : String :=
  armor (Transparent.Signature.bytes { signer := asBytes "addr", data := payload }) .signature

/-- the digest of `smallCiphertext` -/
def smallDigest : Bytes := ((smallCrates []).sha256 smallCiphertext).1

def smallBlock (index : Nat) : Download.BlockResponse :=
  { index, bareUrl := "storage", token := "t", hash := Base64.encode smallDigest,
    encryptedSignature := none, size := 0 }

/-- the document of a revision, and the record the client reads it into -/
def smallRevision (thumbnails : List Json) (blocks : List Download.BlockResponse)
    (signature : String) : Json :=
  .obj [("Code", .num 1000), ("Revision", .obj [("Thumbnails", .arr thumbnails), ("ID", .str "rev"),
    ("Blocks", .arr (blocks.map fun b => .obj [("Index", .num b.index), ("BareURL", .str b.bareUrl),
      ("Token", .str b.token), ("Hash", .str b.hash)])),
    ("ManifestSignature", .str signature)])]

def smallRecord (blocks : List Download.BlockResponse) (signature : String) :
    Download.RevisionWithBlocks where
  id := "rev"
  state := none
  blocks := blocks
  manifestSignature := some signature
  contentKeyPacket := none
  contentKeyPacketSignature := none
  xAttr := none
  signatureEmail := none

/-- what the document of a block can say of it -/
def Plain (b : Download.BlockResponse) : Prop :=
  b.index < 2 ^ 32 ∧ b.encryptedSignature = none ∧ b.size = 0

theorem blockDocument_read {b : Download.BlockResponse} (h : Plain b) :
    Download.BlockResponse.ofJson (.obj [("Index", .num b.index), ("BareURL", .str b.bareUrl),
      ("Token", .str b.token), ("Hash", .str b.hash)]) = some b := by
  obtain ⟨index, bareUrl, token, hash, encryptedSignature, size⟩ := b
  obtain ⟨hindex, hsignature, hsize⟩ := h
  dsimp only at hindex hsignature hsize
  subst hsignature hsize
  have hread : Json.asU32 (.num index) = some index := by
    show Option.map Int.toNat (if 0 ≤ (index : Int) ∧ (index : Int) ≤ 4294967295 then _ else _) = _
    rw [if_pos (by omega)]
    rfl
  show (Json.asU32 (.num index)).bind
    (fun n => some (⟨n, bareUrl, token, hash, none, 0⟩ : Download.BlockResponse)) = _
  rw [hread]
  rfl

theorem smallRevision_read (thumbnails : List Json) {blocks : List Download.BlockResponse}
    (hblocks : ∀ b ∈ blocks, Plain b) (signature : String) :
    ResponseEnvelope.ofJson Download.GetRevisionResponse.ofJson
      (smallRevision thumbnails blocks signature) =
      some { code := CODE_OK, error := none, inner := ⟨smallRecord blocks signature⟩ } := by
  have hread : (blocks.map fun b => Json.obj [("Index", .num b.index), ("BareURL", .str b.bareUrl),
      ("Token", .str b.token), ("Hash", .str b.hash)]).mapM Download.BlockResponse.ofJson =
      some blocks := by
    induction blocks with
    | nil => rfl
    | cons b blocks ih =>
      obtain ⟨hb, hblocks⟩ := List.forall_mem_cons.mp hblocks
      rw [List.map_cons, List.mapM_cons, blockDocument_read hb, ih hblocks]
      rfl
  show (((List.mapM Download.BlockResponse.ofJson _).bind fun bs => some (smallRecord bs signature)).bind
    fun r => some (Download.GetRevisionResponse.mk r)).bind (fun inner =>
      some (ResponseEnvelope.mk CODE_OK inner none)) = _
  rw [hread]
  rfl

def smallDownload (revision : Json) : Script where
  json _ _ := textOf revision
  blob _ := { status := 200, headers := [], body := smallCiphertext }
  stream := []

/-! ## a small transfer -/

def smallClient : ProtonDriveClient where
  openpgp := transparentCrypto
  account := smallAccount

/-- the link of the file, in the folder `root` -/
def smallFileLink : Json :=
  .obj [("Code", .num 1000), ("Link", .obj [("LinkID", .str "file"), ("ParentLinkID", .str "root"),
    ("Type", .num 2), ("Name", .str ""), ("State", .num 1), ("Size", .num 0),
    ("CreateTime", .num 0), ("ModifyTime", .num 0), ("NodeKey", .str "node"),
    ("NodePassphrase", .str (sealedFor "dir" (asBytes "p"))), ("NodePassphraseSignature", .str ""),
    ("FileProperties", .obj [
      ("ContentKeyPacket", .str (Base64.encode
        (Transparent.encrypt [] smallKey [{ armored := "node", fingerprintHex := "node" }]))),
      ("ActiveRevision", .obj [("ID", .str "rev"), ("CreateTime", .num 0), ("Size", .num 0),
        ("State", .num 1), ("SignatureEmail", .str "me")])])])]

def smallTransfer (revision : Json) : Script where
  json _ path :=
    if path = "/drive/shares/s/links/file" then textOf smallFileLink
    else (smallTree path).elim (textOf revision) textOf
  blob _ := { status := 200, headers := [], body := smallCiphertext }
  stream := []

end ProtonDrive
