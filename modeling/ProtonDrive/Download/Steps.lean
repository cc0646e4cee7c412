import ProtonDrive.Core.Download
import ProtonDrive.Core.Traces

/-!
# The steps of a download

* `DecryptedBlock`       a block of the revision with its answer and its plaintext: the hash agrees and
                         the ciphertext decrypts;
* `writeBlocks_ok`       the loop fetches the blocks in order, each once, and writes their plaintexts;
* `DownloadParts`        the parts of a download that returned `Ok`, and what makes one
                         (`downloadToWriter_parts`, `DownloadParts.runs`);
* `DeliveredFile`        what a download that returned `Ok` has done (`downloadToWriter_ok`);
* `Delivery`             answers with which all blocks of a revision arrive: then the verdict on the
                         signature decides how the download ends (`Delivery.runs`);
* `manifestOf_blocks`    of such blocks the manifest is the list of the digests of the ciphertexts.
-/

set_option linter.unusedVariables false

namespace ProtonDrive
open Encoding Effects Api

section
variable {A : HostCall → Prop} {Q : Fault → Prop} {K : Crates} {dl : FileDownloader}

theorem within_fetchRevision (hQ : ∀ e, Q (.error e))
    (hget : ∀ path, A (.requestJson (.bare .get path none))) :
    Within (S := host) A Q (fetchRevision K dl) :=
  Within.bind (within_getJsonOr hQ (hget _)) fun _ => Within.pure _

theorem within_fetchAndDecryptBlock (hQ : ∀ e, Q (.error e)) {sk : SessionKey}
    {block : Download.BlockResponse} (hblob : A (.requestBlob (blockGet block))) :
    Within (S := host) A Q (fetchAndDecryptBlock K dl sk block) := by
  refine Within.bind (within_requestBlob hQ hblob) fun _ => ?_
  refine Within.bind (within_require hQ _ _) fun _ => ?_
  refine Within.bind (within_ofExcept hQ _ _) fun _ => ?_
  exact Within.pure _

theorem only_fetchRevision (hget : ∀ path, A (.requestJson (.bare .get path none))) :
    Only (S := host) A (fetchRevision K dl).run :=
  (within_fetchRevision (Q := fun _ => True) (fun _ => trivial) hget).1

end

/-- a block whose answer has the hash of the block and decrypts -/
structure DecryptedBlock (K : Crates) (dl : FileDownloader) (sk : SessionKey) where
  block : Download.BlockResponse
  resp : JsonResponse
  plaintext : Bytes
  status : VerificationStatus
  hash : Base64.encode (K.sha256 resp.body).1 = block.hash
  decrypted : dl.crypto.decryptAndVerify resp.body sk [] = .ok (plaintext, status)

namespace DecryptedBlock
variable {K : Crates} {dl : FileDownloader} {sk : SessionKey}

def ciphertext (b : DecryptedBlock K dl sk) : Bytes := b.resp.body

/-- the request for the block and its answer -/
def fetch (b : DecryptedBlock K dl sk) : BlobRequest × Except Error JsonResponse :=
  (blockGet b.block, .ok b.resp)

end DecryptedBlock

section
variable {K : Crates} {dl : FileDownloader} {sk : SessionKey} {tr : Trace host}

theorem fetchAndDecryptBlock_ok {block : Download.BlockResponse} {plaintext : Bytes}
    (h : Runs (fetchAndDecryptBlock K dl sk block).run tr (.done (.ok plaintext))) :
    ∃ b : DecryptedBlock K dl sk, b.block = block ∧ b.plaintext = plaintext ∧
      tr = [⟨.requestBlob (blockGet block), .ok b.resp⟩] := by
  obtain ⟨resp, t₁, u₁, rfl, h₁, k₁⟩ := h.bindE_ok
  obtain ⟨_, t₂, u₂, rfl, h₂, k₂⟩ := k₁.bindE_ok
  obtain ⟨⟨plain, status⟩, t₃, u₃, rfl, h₃, k₃⟩ := k₂.bindE_ok
  obtain ⟨rfl, rfl⟩ := pure_ok k₃
  obtain rfl := requestBlob_ok h₁
  obtain ⟨rfl, hhash⟩ := require_ok h₂
  obtain ⟨rfl, hdec⟩ := ofExcept_ok h₃
  exact ⟨{ block := block, resp := resp, plaintext := plaintext, status := status,
           hash := of_decide_eq_true hhash, decrypted := hdec }, rfl, rfl, rfl⟩

/-- what the loop has done with the blocks `bs` -/
structure WroteBlocks (tr : Trace host) (t t' : Tally) (bs : List (DecryptedBlock K dl sk)) :
    Prop where
  fetched : blobs tr = bs.map (·.fetch)
  wrote : written tr = bs.flatMap (·.plaintext)
  hashed : t'.hashed = t.hashed ++ bs.flatMap (·.plaintext)
  count : t'.totalBlocks = (t.totalBlocks + bs.length) % 2 ^ 32

theorem writeBlocks_ok {blocks : List Download.BlockResponse} {t t' : Tally}
    (h : Runs (writeBlocks K dl sk blocks t).run tr (.done (.ok t'))) :
    ∃ bs : List (DecryptedBlock K dl sk), bs.map (·.block) = blocks ∧ WroteBlocks tr t t' bs := by
  induction blocks generalizing t tr with
  | nil =>
    obtain ⟨rfl, rfl⟩ := pure_ok h
    exact ⟨[], rfl, ⟨rfl, rfl, (List.append_nil _).symm, (Nat.mod_eq_of_lt t'.fits).symm⟩⟩
  | cons block rest ih =>
    obtain ⟨plaintext, t₁, u₁, rfl, h₁, k₁⟩ := h.bindE_ok
    obtain ⟨r, t₂, u₂, rfl, h₂, k₂⟩ := k₁.bindE_ok
    obtain ⟨_, t₃, u₃, rfl, h₃, k₃⟩ := k₂.bindE_ok
    obtain ⟨b, rfl, rfl, rfl⟩ := fetchAndDecryptBlock_ok h₁
    obtain rfl := call_ok h₂
    obtain ⟨rfl, rfl⟩ := ofExcept_ok h₃
    obtain ⟨bs, rfl, hbs⟩ := ih k₃
    refine ⟨b :: bs, rfl, ⟨?_, ?_, ?_, ?_⟩⟩
    · show b.fetch :: blobs u₃ = _
      rw [hbs.fetched, List.map_cons]
    · show b.plaintext ++ written u₃ = _
      rw [hbs.wrote, List.flatMap_cons]
    · rw [hbs.hashed]
      simp only [Tally.add, List.flatMap_cons, List.append_assoc]
    · rw [hbs.count]
      show ((t.totalBlocks + 1) % 2 ^ 32 + bs.length) % 2 ^ 32 = (t.totalBlocks + (bs.length + 1)) % 2 ^ 32
      omega

theorem decode_blockHash (b : DecryptedBlock K dl sk) :
    Base64.decode b.block.hash = some (K.sha256 b.ciphertext).1 := by
  rw [← b.hash, Base64.decode_encode]
  rfl

/-- of blocks that passed their hash check the manifest is made of the digests of the ciphertexts -/
theorem manifestOf_blocks (bs : List (DecryptedBlock K dl sk)) :
    manifestOf K (bs.map (·.block)) = .ok (bs.flatMap fun b => (K.sha256 b.ciphertext).1) := by
  induction bs with
  | nil => rfl
  | cons b bs ih =>
    unfold manifestOf
    simp only [List.map_cons, decode_blockHash, ih, List.flatMap_cons]

theorem manifestOf_encoded {blocks : List Download.BlockResponse} {hashes : List Bytes}
    (h : blocks.map (·.hash) = hashes.map Base64.encode) :
    manifestOf K blocks = .ok hashes.flatten := by
  induction blocks generalizing hashes with
  | nil =>
    cases hashes with
    | nil => rfl
    | cons _ _ => cases h
  | cons block rest ih =>
    cases hashes with
    | nil => cases h
    | cons hash hashes =>
      obtain ⟨hhash, hrest⟩ := List.cons.inj h
      unfold manifestOf
      simp only [hhash, Base64.decode_encode, ih hrest, List.flatten_cons]

/-- a packet that stands in its field as base64 -/
theorem contentSessionKey_encoded {revision : Download.RevisionWithBlocks} {packet : Bytes}
    (hpacket : dl.contentKeyPacket = some (Base64.encode packet))
    (hopen : dl.crypto.decryptSessionKey packet [dl.nodePrivateKey] = .ok sk) :
    contentSessionKey dl revision = .ok sk := by
  unfold contentSessionKey
  rw [hpacket]
  simp [base64OrRaw_encode, hopen]

/-- the signature of the bytes that are checked verifies under a key of the signer -/
theorem verifyManifest_signed {pair : PrivateKey → PublicKey → Prop} (ideal : IdealCrypto dl.crypto pair)
    {blocks : List Download.BlockResponse} {payload : Bytes} {keys : List PublicKey}
    {signer : PrivateKey} {pub : PublicKey} {c : Coins} {sig : Bytes}
    (hpayload : manifestOf K blocks = .ok payload) (hkeys : dl.verificationKeys = .ok keys)
    (hpub : pub ∈ keys) (hpair : pair signer pub)
    (hsigned : dl.crypto.sign payload signer "" c = .ok sig) :
    verifyManifest K dl blocks (some (armor sig .signature)) = .ok true := by
  have hverify : dl.crypto.verify payload (base64OrRaw (armor sig .signature)) keys = .ok .ok := by
    rw [base64OrRaw_armor, ideal.armored_signature _ _ hsigned]
    exact ideal.verify hsigned hpub hpair
  unfold verifyManifest
  simp only [hpayload, hkeys, bind, Except.bind, hverify]
  rfl

/-- the parts of a download that returned `Ok` -/
structure DownloadParts (K : Crates) (dl : FileDownloader) (tr : Trace host)
    (stats : DownloadStats) where
  revision : Download.RevisionWithBlocks
  sessionKey : SessionKey
  tally : Tally
  signatureVerified : Bool
  fetching : Trace host
  writing : Trace host
  trace : tr = fetching ++ (writing ++ [⟨.flush, .ok ()⟩])
  fetched : Runs (fetchRevision K dl).run fetching (.done (.ok revision))
  nonempty : (!revision.blocks.isEmpty) = true
  signed : revision.manifestSignature.isSome = true
  key : contentSessionKey dl revision = .ok sessionKey
  wrote : Runs (writeBlocks K dl sessionKey (Sorting.sortByKey (·.index) revision.blocks)
    Tally.empty).run writing (.done (.ok tally))
  verified : verifyManifest K dl (Sorting.sortByKey (·.index) revision.blocks)
    revision.manifestSignature = .ok signatureVerified
  reported : stats = {
    bytes := tally.totalBytes, blocks := tally.totalBlocks,
    lastModificationTime :=
      verifyXattr K dl revision.xAttr tally.totalBytes (K.sha1 tally.hashed).1,
    signatureVerified }

theorem downloadToWriter_parts {stats : DownloadStats}
    (h : Runs (downloadToWriter K dl).run tr (.done (.ok stats))) :
    Nonempty (DownloadParts K dl tr stats) := by
  obtain ⟨revision, t₁, u₁, rfl, h₁, k₁⟩ := h.bindE_ok
  obtain ⟨_, t₂, u₂, rfl, h₂, k₂⟩ := k₁.bindE_ok
  obtain ⟨_, t₃, u₃, rfl, h₃, k₃⟩ := k₂.bindE_ok
  obtain ⟨sk, t₄, u₄, rfl, h₄, k₄⟩ := k₃.bindE_ok
  obtain ⟨t, t₅, u₅, rfl, h₅, k₅⟩ := k₄.bindE_ok
  obtain ⟨flushed, t₆, u₆, rfl, h₆, k₆⟩ := k₅.bindE_ok
  obtain ⟨_, t₇, u₇, rfl, h₇, k₇⟩ := k₆.bindE_ok
  obtain ⟨verified, t₈, u₈, rfl, h₈, k₈⟩ := k₇.bindE_ok
  obtain ⟨rfl, rfl⟩ := pure_ok k₈
  obtain ⟨rfl, hne⟩ := require_ok h₂
  obtain ⟨rfl, hsig⟩ := require_ok h₃
  obtain ⟨rfl, hkey⟩ := ofExcept_ok h₄
  obtain rfl := call_ok h₆
  obtain ⟨rfl, rfl⟩ := ofExcept_ok h₇
  obtain ⟨rfl, hverified⟩ := ofExcept_ok h₈
  exact ⟨{ revision := revision, sessionKey := sk, tally := t, signatureVerified := verified,
           fetching := t₁, writing := t₅, trace := rfl, fetched := h₁, nonempty := hne,
           signed := hsig, key := hkey, wrote := h₅, verified := hverified, reported := rfl }⟩

/-- and such parts make up a download that returns `Ok` -/
theorem DownloadParts.runs {stats : DownloadStats} (p : DownloadParts K dl tr stats) :
    Runs (downloadToWriter K dl).run tr (.done (.ok stats)) := by
  obtain ⟨revision, sk, t, verified, fetching, writing, rfl, hfetch, hne, hsig, hkey, hwrite, hverified,
    rfl⟩ := p
  refine Runs.bindE hfetch ?_
  refine Runs.bindE_nil (require_runs hne) ?_
  refine Runs.bindE_nil (require_runs hsig) ?_
  refine Runs.bindE_nil (ofExcept_runs hkey) ?_
  refine Runs.bindE hwrite ?_
  refine Runs.bindE_one (.call (.ret _)) ?_
  refine Runs.bindE_nil (.ret _) ?_
  exact Runs.bindE_nil (ofExcept_runs hverified) (.ret _)

/-- a download that returned `Ok` -/
structure DeliveredFile (K : Crates) (dl : FileDownloader) (tr : Trace host)
    (stats : DownloadStats) where
  revision : Download.RevisionWithBlocks
  resp : JsonResponse
  sessionKey : SessionKey
  blocks : List (DecryptedBlock K dl sessionKey)
  signature : String
  /-- the first event of the trace is the fetch of the revision -/
  asked : ∃ rest, tr = ⟨.requestJson (.bare .get dl.revisionPath none), .ok resp⟩ :: rest
  answered : K.Envelopes Download.GetRevisionResponse.ofJson resp.body ⟨revision⟩
  nonempty : revision.blocks ≠ []
  signed : revision.manifestSignature = some signature
  key : contentSessionKey dl revision = .ok sessionKey
  sorted : blocks.map (·.block) = Sorting.sortByKey (·.index) revision.blocks
  fetched : blobs tr = blocks.map (·.fetch)
  wrote : written tr = blocks.flatMap (·.plaintext)
  bytes : stats.bytes = (written tr).length % 2 ^ 64
  count : stats.blocks = blocks.length % 2 ^ 32
  verified : verifyManifest K dl (blocks.map (·.block)) (some signature) =
    .ok stats.signatureVerified
  mtime : stats.lastModificationTime =
    verifyXattr K dl revision.xAttr stats.bytes (K.sha1 (written tr)).1

theorem downloadToWriter_ok {stats : DownloadStats}
    (h : Runs (downloadToWriter K dl).run tr (.done (.ok stats))) :
    Nonempty (DeliveredFile K dl tr stats) := by
  obtain ⟨revision, sk, t, verified, fetching, writing, rfl, hfetch, hne, hsig, hkey, hwrite, hverified,
    rfl⟩ := downloadToWriter_parts h
  obtain ⟨⟨r⟩, t₁, u₁, rfl, hget, hk⟩ := hfetch.bindE_ok
  obtain ⟨rfl, rfl⟩ := pure_ok hk
  obtain ⟨resp, rfl, henv⟩ := getJsonOr_ok hget
  obtain ⟨bs, hsorted, hbs⟩ := writeBlocks_ok hwrite
  obtain ⟨sig, hsig⟩ := Option.isSome_iff_exists.mp hsig
  have hwritten : written (⟨.requestJson (.bare .get dl.revisionPath none), .ok resp⟩ ::
      (writing ++ [⟨.flush, .ok ()⟩])) = bs.flatMap (·.plaintext) := by
    show written (writing ++ [⟨.flush, .ok ()⟩]) = _
    rw [written_append, hbs.wrote]
    exact List.append_nil _
  have hhashed : t.hashed = bs.flatMap (·.plaintext) := hbs.hashed
  exact ⟨{
    revision := revision
    resp := resp
    sessionKey := sk
    blocks := bs
    signature := sig
    asked := ⟨_, rfl⟩
    answered := henv
    nonempty := by
      intro hnil
      rw [hnil] at hne
      cases hne
    signed := hsig
    key := hkey
    sorted := hsorted
    fetched := by
      show blobs (writing ++ [⟨.flush, .ok ()⟩]) = _
      rw [blobs_append, hbs.fetched]
      exact List.append_nil _
    wrote := hwritten
    bytes := by
      show t.totalBytes = (written (_ :: (writing ++ [⟨.flush, .ok ()⟩]))).length % 2 ^ 64
      rw [hwritten, ← hhashed, t.fed]
    count := hbs.count.trans (congrArg (· % 2 ^ 32) (Nat.zero_add _))
    verified := by
      rw [hsorted, ← hsig]
      exact hverified
    mtime := by
      show verifyXattr K dl _ t.totalBytes (K.sha1 t.hashed).1 =
        verifyXattr K dl _ t.totalBytes (K.sha1 (written (_ :: (writing ++ [⟨.flush, .ok ()⟩])))).1
      rw [hwritten, ← hhashed] }⟩

end

/-! ## a revision whose blocks all arrive -/

/-- the fetch of a block and what the writer is given for it, if nothing fails -/
def DecryptedBlock.events {K : Crates} {dl : FileDownloader} {sk : SessionKey}
    (b : DecryptedBlock K dl sk) : Trace host :=
  [⟨.requestBlob (blockGet b.block), .ok b.resp⟩, ⟨.writeAll b.plaintext, .ok ()⟩]

/-- answers to a download: the revision `r`, and for each of its blocks a ciphertext that has the hash of
the block and decrypts -/
structure Delivery (K : Crates) (dl : FileDownloader) (r : Download.RevisionWithBlocks) where
  resp : JsonResponse
  sessionKey : SessionKey
  blocks : List (DecryptedBlock K dl sessionKey)
  answered : K.Envelopes Download.GetRevisionResponse.ofJson resp.body ⟨r⟩
  key : contentSessionKey dl r = .ok sessionKey
  sorted : blocks.map (·.block) = Sorting.sortByKey (·.index) r.blocks

namespace Delivery
variable {K : Crates} {dl : FileDownloader} {r : Download.RevisionWithBlocks}

def ciphertexts (a : Delivery K dl r) : List Bytes := a.blocks.map (·.ciphertext)

/-- the download with these answers, and a writer that takes everything -/
def trace (a : Delivery K dl r) : Trace host :=
  [⟨.requestJson (.bare .get dl.revisionPath none), .ok a.resp⟩] ++
    (a.blocks.flatMap (·.events) ++ [⟨.flush, .ok ()⟩])

end Delivery

section
variable {K : Crates} {dl : FileDownloader}

theorem fetchAndDecryptBlock_runs {sk : SessionKey} (b : DecryptedBlock K dl sk) :
    Runs (fetchAndDecryptBlock K dl sk b.block).run [⟨.requestBlob (blockGet b.block), .ok b.resp⟩]
      (.done (.ok b.plaintext)) := by
  refine Runs.bindE_one (.call (.ret _)) ?_
  refine Runs.bindE_nil (require_runs (decide_eq_true b.hash)) ?_
  exact Runs.bindE_nil (ofExcept_runs b.decrypted) (.ret _)

theorem writeBlocks_runs {sk : SessionKey} (bs : List (DecryptedBlock K dl sk)) (t : Tally) :
    ∃ t', Runs (writeBlocks K dl sk (bs.map (·.block)) t).run (bs.flatMap (·.events))
      (.done (.ok t')) := by
  induction bs generalizing t with
  | nil => exact ⟨t, .ret _⟩
  | cons b bs ih =>
    obtain ⟨t', hrest⟩ := ih (t.add b.plaintext)
    refine ⟨t', ?_⟩
    show Runs _ ([⟨.requestBlob (blockGet b.block), .ok b.resp⟩] ++
      (⟨.writeAll b.plaintext, .ok ()⟩ :: bs.flatMap (·.events))) _
    refine Runs.bindE (fetchAndDecryptBlock_runs b) ?_
    refine Runs.bindE_one (.call (.ret _)) ?_
    exact Runs.bindE_nil (.ret _) hrest

/-- a signed revision with blocks is downloaded, if the check of its signature has a verdict -/
theorem Delivery.runs {r : Download.RevisionWithBlocks} (a : Delivery K dl r) (hne : r.blocks ≠ [])
    (hsigned : r.manifestSignature.isSome = true) {verified : Bool}
    (hverified : verifyManifest K dl (Sorting.sortByKey (·.index) r.blocks) r.manifestSignature =
      .ok verified) :
    ∃ stats, Runs (downloadToWriter K dl).run a.trace (.done (.ok stats)) ∧
      stats.signatureVerified = verified := by
  obtain ⟨t, hwrote⟩ := writeBlocks_runs a.blocks Tally.empty
  rw [a.sorted] at hwrote
  have hnonempty : (!r.blocks.isEmpty) = true := by
    rw [Bool.not_eq_true', List.isEmpty_eq_false_iff]
    exact hne
  have hfetched : Runs (fetchRevision K dl).run
      [⟨.requestJson (.bare .get dl.revisionPath none), .ok a.resp⟩] (.done (.ok r)) :=
    Runs.bindE_one (getJsonOr_runs a.answered) (.ret _)
  refine ⟨_, DownloadParts.runs {
    revision := r, sessionKey := a.sessionKey, tally := t, signatureVerified := verified,
    fetching := _, writing := _, trace := rfl, fetched := hfetched, nonempty := hnonempty,
    signed := hsigned, key := a.key, wrote := hwrote, verified := hverified, reported := rfl }, rfl⟩

/-- the revision that was delivered is the one in the first answer -/
theorem DeliveredFile.revision_eq {tr rest : Trace host} {stats : DownloadStats}
    (f : DeliveredFile K dl tr stats) {resp : JsonResponse} {r : Download.RevisionWithBlocks}
    (htr : tr = ⟨.requestJson (.bare .get dl.revisionPath none), .ok resp⟩ :: rest)
    (hanswer : K.Envelopes Download.GetRevisionResponse.ofJson resp.body ⟨r⟩) : f.revision = r := by
  obtain ⟨rest', hasked⟩ := f.asked
  obtain ⟨hhead, _⟩ := List.cons.inj (htr.symm.trans hasked)
  cases hhead
  exact congrArg Download.GetRevisionResponse.revision (envelopes_unique f.answered hanswer)

def DeliveredFile.delivery {tr : Trace host} {stats : DownloadStats}
    (f : DeliveredFile K dl tr stats) : Delivery K dl f.revision where
  resp := f.resp
  sessionKey := f.sessionKey
  blocks := f.blocks
  answered := f.answered
  key := f.key
  sorted := f.sorted

end

end ProtonDrive
